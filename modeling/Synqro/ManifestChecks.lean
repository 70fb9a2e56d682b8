import Synqro.Artifact
import Synqro.SignedManifest

/-!
# When a manifest is accepted

For a text whose signature verifies, two checks decide: its age and its target. The age is compared
in whole hours and whole seconds of a signed span, which are cut off towards zero, so the window of
24 hours is open a second before and an hour after it (`passesFreshness_iff`). The target is
compared as an option, so that the empty text, which the manifest's documentation calls universal,
is the name of an installation (`SynqroDownloader.fetchManifestOnceAsync_target`).
-/

namespace Synqro

/-! ## Whole seconds and whole hours -/

theorem tdiv_of_neg {a k : Int} (ha : a < 0) : a.tdiv k = -((-a) / k) := by
  rw [← Int.tdiv_eq_ediv_of_nonneg (by omega), Int.neg_tdiv, neg_neg]

/-- A quotient cut off towards zero is negative from the first whole divisor below zero on. -/
theorem tdiv_neg_iff {a k : Int} (hk : 0 < k) : a.tdiv k < 0 ↔ a ≤ -k := by
  rcases lt_or_ge a 0 with ha | ha
  · rw [tdiv_of_neg ha, neg_lt_zero, ← Int.add_one_le_iff, zero_add, Int.le_ediv_iff_mul_le hk]
    omega
  · rw [Int.tdiv_eq_ediv_of_nonneg ha]
    have := Int.ediv_nonneg ha hk.le
    omega

theorem lt_tdiv_iff {a k n : Int} (hk : 0 < k) (hn : 0 ≤ n) : n < a.tdiv k ↔ (n + 1) * k ≤ a := by
  rcases lt_or_ge a 0 with ha | ha
  · have h1 := Int.ediv_nonneg (show 0 ≤ -a by omega) hk.le
    have h2 := Int.mul_nonneg (show 0 ≤ n + 1 by omega) hk.le
    rw [tdiv_of_neg ha]
    omega
  · rw [Int.tdiv_eq_ediv_of_nonneg ha, ← Int.add_one_le_iff, Int.le_ediv_iff_mul_le hk]

/-- Seconds and hours in nanoseconds. -/
def seconds (n : Int) : Int := n * 10 ^ 9

def hours (n : Int) : Int := seconds (n * 3600)

/-- What the freshness check asks of an age. -/
def PassesFreshness (age : Int) : Prop := 0 ≤ numSeconds age ∧ numHours age ≤ 24

/-- An age passes from the last second before the issue until the 25th hour is over. -/
theorem passesFreshness_iff {age : Int} :
    PassesFreshness age ↔ seconds (-1) < age ∧ age < hours 25 := by
  have h1 : numSeconds age < 0 ↔ age ≤ -10 ^ 9 := tdiv_neg_iff (by decide)
  have h2 : 24 < numHours age ↔ (24 + 1) * 3600 ≤ numSeconds age :=
    lt_tdiv_iff (by decide) (by decide)
  have h3 : (24 + 1) * 3600 - 1 < numSeconds age ↔ ((24 + 1) * 3600 - 1 + 1) * 10 ^ 9 ≤ age :=
    lt_tdiv_iff (by decide) (by decide)
  unfold PassesFreshness hours seconds
  omega

/-- The check and the window of 24 hours agree except just before the issue and in the 25th hour. -/
theorem passesFreshness_window {age : Int} :
    (PassesFreshness age ↔ 0 ≤ age ∧ age ≤ hours 24) ↔
      ¬ (seconds (-1) < age ∧ age < 0) ∧ ¬ (hours 24 < age ∧ age < hours 25) := by
  rw [passesFreshness_iff]
  have : hours 24 < hours 25 := by decide
  have : 0 < hours 24 := by decide
  have : seconds (-1) < 0 := by decide
  omega

/-! ## Signed texts -/

/-- A text of the manifest `m` that parses and carries a signature of the configured key. -/
structure SignedText (E : Externals) (d : SynqroDownloader) (rawBytes : Bytes)
    (m : SynqroManifest) : Prop where
  read : fromSlice E SynqroManifest.read rawBytes = .ok m
  signed : ∃ payload key sig, signedPayload E rawBytes = some payload ∧ d.releaseKey E = .ok key ∧
    SynqroDownloader.signature E "Manifest" m.manifestSigEd25519 = .ok sig ∧
    E.verifyStrict key (encodeUtf8 payload) sig = .ok ()

section
variable {E : Externals} {d : SynqroDownloader} {rawBytes : Bytes} {m : SynqroManifest}
  {w w₁ : World} {t : Int}

/-- The untyped value of a signed text is an object, whose members the checks find. -/
theorem SignedText.members (h : SignedText E d rawBytes m) : ∃ ms,
    fromSliceValue E (fun j => some (Json.value j)) rawBytes = .ok (.obj ms) ∧
      ManifestBody.read (.obj (Json.removeMember "manifest_sig_ed25519" ms)) =
        some m.toManifestBody ∧
      Json.find "manifest_sig_ed25519" ms = some (.str m.manifestSigEd25519) := by
  obtain ⟨payload, key, sig, hp, -⟩ := h.signed
  obtain ⟨j, hj, hread⟩ := fromSlice_ok.1 h.read
  unfold signedPayload at hp
  split at hp
  · next rawValue hraw =>
    obtain ⟨-, j', hj', hval⟩ := fromSliceValue_ok.1 hraw
    obtain rfl : j = j' := Except.ok.inj (hj.symm.trans hj')
    cases hval
    cases hv : Json.value j with
    | obj ms =>
      obtain ⟨hbody, hsig⟩ := SynqroManifest.read_value hread hv
      exact ⟨ms, hraw.trans (by rw [hv]), hbody, hsig⟩
    | null | bool | num | str | arr => rw [hv] at hp; cases hp
  · cases hp

/-- An accepted text is signed, if its signature has the right length. -/
theorem SynqroDownloader.Accepts.signedText {now : Int} {m' : SynqroManifest}
    (h : SynqroDownloader.Accepts E d now rawBytes m')
    (hm : fromSlice E SynqroManifest.read rawBytes = .ok m)
    (hlen : (E.base64Decode m.manifestSigEd25519).map List.length = some 64) :
    SignedText E d rawBytes m := by
  obtain rfl : m' = m := Except.ok.inj (h.read.symm.trans hm)
  obtain ⟨payload, key, sig, hp, hkey, hb, hv, -⟩ := h.signed
  rw [hb, Option.map_some, Option.some.injEq] at hlen
  refine ⟨hm, payload, key, sig, hp, hkey, ?_, hv⟩
  rw [SynqroDownloader.signature, hb]
  simp only [hlen, ne_eq, not_true_eq_false, if_false]

namespace SynqroDownloader

/-- A signed text is verified when its age and its target pass, and not otherwise. -/
theorem verifyManifest_returned (h : SignedText E d rawBytes m)
    (ht : E.parseDateTime m.issuedAt = some t) :
    Comp.returned (d.verifyManifest E rawBytes w) = true ↔
      PassesFreshness (w.env.clock w.calls - t) ∧
        ∀ iid, m.installationId = some iid → iid = d.installationId := by
  constructor
  · intro hret
    obtain ⟨m', w', hm'⟩ := Comp.returned_iff.1 hret
    have hacc := verifyManifest_ok hm'
    obtain rfl : m' = m := Except.ok.inj (hacc.read.symm.trans h.read)
    obtain ⟨t', ht', hage⟩ := hacc.fresh
    obtain rfl : t' = t := Option.some.inj (ht'.symm.trans ht)
    exact ⟨hage, hacc.target⟩
  · rintro ⟨⟨hsec, hhour⟩, htarget⟩
    obtain ⟨ms, hraw, hbody, hfind⟩ := h.members
    obtain ⟨payload, key, sig, hp, hkey, hsig, hverify⟩ := h.signed
    have hdate : getStr "issued_at" (.obj ms) = some m.issuedAt := by
      have := ManifestBody.read_issuedAt hbody
      rwa [getStr, Json.find_removeMember_ne (by decide)] at this
    have hget : getStr "manifest_sig_ed25519" (.obj ms) = some m.manifestSigEd25519 := by
      rw [getStr, hfind]
      rfl
    have hpayload : payload =
        canonicalJsonSorted (.obj (Json.removeMember "manifest_sig_ed25519" ms)) := by
      rw [signedPayload, hraw] at hp
      exact (Option.some.inj hp).symm
    have hfresh : checkFreshness E (.obj ms) w = .ok () w.tick := by
      simp only [checkFreshness, Comp.bind_ok, require_ok, failIf_ok]
      exact ⟨_, w, ⟨hdate, rfl⟩, t, w, ⟨ht, rfl⟩, _, _, now_ok.2 ⟨rfl, rfl⟩, by omega, rfl⟩
    have hcheck : d.checkSignature E (.obj ms) w.tick = .ok () w.tick := by
      simp only [checkSignature, Comp.bind_ok, require_ok, Comp.ofExcept_ok, Comp.onError_ok]
      exact ⟨_, _, ⟨hget, rfl⟩, _, _, ⟨rfl, rfl⟩, _, _, ⟨hsig, rfl⟩, _, _, ⟨hkey, rfl⟩,
        hpayload ▸ hverify, rfl⟩
    have hid : ∀ u, d.checkInstallationId m u = .ok () u := by
      intro u
      rw [checkInstallationId]
      cases hiid : m.installationId with
      | some iid =>
        simp only [htarget iid hiid, ne_eq, not_true_eq_false, if_false]
        rfl
      | none => rfl
    refine Comp.returned_iff.2
      ⟨m, Comp.after (d.audit.log E .ManifestSignatureOk (jsonObject [])) w.tick, ?_⟩
    simp only [verifyManifest, Comp.bind_ok, Comp.ofExcept_ok, mapError_ok, Comp.pure_ok]
    exact ⟨_, _, ⟨hraw, rfl⟩, (), _, hfresh, (), _, hcheck, (), _, Comp.ignore_ok.2 rfl, _, _,
      ⟨h.read, rfl⟩, (), _, hid _, rfl, rfl⟩

/-- The same for an attempt that received the text. -/
theorem fetchManifestOnceAsync_returned (hbody : d.fetchManifestBody E w = .ok rawBytes w₁)
    (h : SignedText E d rawBytes m) (ht : E.parseDateTime m.issuedAt = some t) :
    Comp.returned (d.fetchManifestOnceAsync E w) = true ↔
      PassesFreshness (w₁.env.clock w₁.calls - t) ∧
        ∀ iid, m.installationId = some iid → iid = d.installationId := by
  rw [← verifyManifest_returned h ht, fetchManifestOnceAsync, Comp.bind_run, hbody]

/-! ### The window -/

/-- An attempt that received an otherwise valid manifest passes exactly when the manifest is not
older than 24 hours and not from the future, unless its age lies in the 25th hour or in the last
second before the issue. -/
theorem fetchManifestOnceAsync_window (E : Externals) (d : SynqroDownloader) (w w₁ : World)
    (rawBytes : Bytes) (m : SynqroManifest) (issuedAt : Int)
    (hbody : d.fetchManifestBody E w = .ok rawBytes w₁) (hm : SignedText E d rawBytes m)
    (hdate : E.parseDateTime m.issuedAt = some issuedAt)
    (htarget : ∀ iid, m.installationId = some iid → iid = d.installationId) :
    let age := w₁.env.clock w₁.calls - issuedAt
    (Comp.returned (d.fetchManifestOnceAsync E w) = true ↔ 0 ≤ age ∧ age ≤ hours 24) ↔
      ¬ (seconds (-1) < age ∧ age < 0) ∧ ¬ (hours 24 < age ∧ age < hours 25) := by
  intro age
  rw [← passesFreshness_window, fetchManifestOnceAsync_returned hbody hm hdate,
    and_iff_left htarget]

end SynqroDownloader

/-- The world of a downloader that receives the text at the time `now`. -/
def receiving (rawBytes : Bytes) (now : Int) : World :=
  { installed with env := { Environment.calm with
      clock := fun _ => now
      reply := fun _ => .response 200 none [.ok rawBytes] } }

/-- When the manifests of the release server were issued. -/
def releaseIssued : Int := 1767225600 * 10 ^ 9

theorem releaseManifest_signed :
    SignedText .release releaseClient (releaseBody "10.0.0") releaseManifest := by
  have hret : Comp.returned (releaseClient.verifyManifest .release (releaseBody "10.0.0")
      (receiving (releaseBody "10.0.0") releaseIssued)) = true := by decide +kernel
  obtain ⟨m, w', hm⟩ := Comp.returned_iff.1 hret
  exact (SynqroDownloader.verifyManifest_ok hm).signedText (by decide +kernel) (by decide +kernel)

namespace SynqroDownloader

theorem fetchManifestBody_receiving (rawBytes : Bytes) (now : Int) : ∃ w₁,
    releaseClient.fetchManifestBody .release (receiving rawBytes now) = .ok rawBytes w₁ ∧
      w₁.env.clock w₁.calls = now := by
  have hbody : releaseClient.fetchManifestBody .release (receiving rawBytes now) =
      .ok (rawBytes ++ []) (Comp.after (releaseClient.fetchManifestBody .release)
        (receiving rawBytes now)) := rfl
  rw [List.append_nil] at hbody
  exact ⟨_, hbody, rfl⟩

/-- An hour after its issue the manifest is accepted. -/
theorem fetchManifestOnceAsync_window_hour :
    (Comp.returned (releaseClient.fetchManifestOnceAsync .release
        (receiving (releaseBody "10.0.0") (releaseIssued + hours 1))) = true ↔
      0 ≤ hours 1 ∧ hours 1 ≤ hours 24) ↔
      ¬ (seconds (-1) < hours 1 ∧ hours 1 < 0) ∧ ¬ (hours 24 < hours 1 ∧ hours 1 < hours 25) := by
  obtain ⟨w₁, hbody, hnow⟩ := fetchManifestBody_receiving (releaseBody "10.0.0")
    (releaseIssued + hours 1)
  have h := fetchManifestOnceAsync_window .release releaseClient _ w₁ _
    releaseManifest releaseIssued
    hbody releaseManifest_signed rfl nofun
  rwa [hnow, add_sub_cancel_left] at h

/-- Half an hour past the window the manifest is still accepted. -/
theorem fetchManifestOnceAsync_window_late :
    SignedText .release releaseClient (releaseBody "10.0.0") releaseManifest ∧
      Externals.release.parseDateTime releaseManifest.issuedAt = some releaseIssued ∧
      ¬ (Comp.returned (releaseClient.fetchManifestOnceAsync .release (receiving
          (releaseBody "10.0.0") (releaseIssued + hours 24 + seconds 1800))) = true ↔
        hours 24 + seconds 1800 ≤ hours 24) := by
  obtain ⟨w₁, hbody, hnow⟩ := fetchManifestBody_receiving (releaseBody "10.0.0")
    (releaseIssued + hours 24 + seconds 1800)
  refine ⟨releaseManifest_signed, rfl, ?_⟩
  rw [fetchManifestOnceAsync_returned (t := releaseIssued) hbody releaseManifest_signed rfl, hnow,
    add_assoc, add_sub_cancel_left, passesFreshness_iff]
  exact fun h => absurd (h.1 ⟨by decide, nofun⟩) (by decide)

/-! ### The target -/

/-- The member that names a manifest's target, as the received text spells it. -/
def targetMember (E : Externals) (rawBytes : Bytes) : Option Json :=
  match fromSliceValue E (fun j => some (Json.value j)) rawBytes with
  | .ok (.obj ms) => Json.find "installation_id" ms
  | _ => none

end SynqroDownloader

/-- The target is read from the optional member of its name. -/
theorem ManifestBody.read_installationId {ms : Json.Members} {b : ManifestBody}
    (h : ManifestBody.read (.obj ms) = some b) :
    ∃ v, (Json.find "installation_id" ms = some v ∨
        Json.find "installation_id" ms = none ∧ v = .null) ∧
      Json.readOption Json.readString v = some b.installationId := by
  simp only [ManifestBody.read, Option.bind_eq_some_iff] at h
  obtain ⟨vs, hvs, h⟩ := h
  have hfields := @Json.structFields_append (ManifestBody.fields.take 2)
    (ManifestBody.fields.drop 2) _ _ hvs
  have hid := @Json.structFields_append [⟨"installation_id", true⟩]
    (ManifestBody.fields.drop 3) _ _ hfields.2
  unfold ManifestBody.ofValues at h
  split at h
  · simp only [Option.bind_eq_bind, Option.bind_eq_some_iff, Option.pure_def,
      Option.some.injEq] at h
    obtain ⟨_, -, _, -, iid, hiid, _, -, _, -, _, -, rfl⟩ := h
    exact ⟨_, Json.structFields_optional hid.1, hiid⟩
  · cases h

theorem readOption_readString {v : Json} {r : Option String} :
    Json.readOption Json.readString v = some r ↔
      v = .null ∧ r = none ∨ ∃ s, v = .str s ∧ r = some s := by
  cases v <;> simp [Json.readOption, Json.readString, eq_comm]

/-- A signed text has no target when the member is absent or null, and otherwise the target is the
member's text. -/
theorem SignedText.target (h : SignedText E d rawBytes m) :
    m.installationId = none ∧ (SynqroDownloader.targetMember E rawBytes = none ∨
        SynqroDownloader.targetMember E rawBytes = some .null) ∨
      ∃ iid, m.installationId = some iid ∧
        SynqroDownloader.targetMember E rawBytes = some (.str iid) := by
  obtain ⟨ms, hraw, hbody, -⟩ := h.members
  obtain ⟨v, hv, hr⟩ := ManifestBody.read_installationId hbody
  rw [Json.find_removeMember_ne (by decide)] at hv
  have ht : SynqroDownloader.targetMember E rawBytes = Json.find "installation_id" ms := by
    rw [SynqroDownloader.targetMember, hraw]
  rw [ht]
  rcases readOption_readString.1 hr with ⟨rfl, hnone⟩ | ⟨iid, rfl, hsome⟩
  · exact .inl ⟨hnone, hv.symm.imp_left And.left⟩
  · refine .inr ⟨iid, hsome, hv.resolve_right ?_⟩
    rintro ⟨-, h⟩
    cases h

namespace SynqroDownloader

/-- The spellings of a target that name the installation `iid`: the universal ones and its own. -/
def Targets (iid : String) (target : Option Json) : Prop :=
  target = none ∨ target = some .null ∨ target = some (.str "") ∨ target = some (.str iid)

/-- An attempt that received a signed and fresh manifest accepts it exactly when the manifest is
universal or targeted at this installation, unless it is universal by an empty text that is not the
installation's own name. -/
theorem fetchManifestOnceAsync_target (E : Externals) (d : SynqroDownloader) (w w₁ : World)
    (rawBytes : Bytes) (m : SynqroManifest) (hbody : d.fetchManifestBody E w = .ok rawBytes w₁)
    (hm : SignedText E d rawBytes m) (hfresh : FreshAt E (w₁.env.clock w₁.calls) m) :
    (Comp.returned (d.fetchManifestOnceAsync E w) = true ↔
        Targets d.installationId (targetMember E rawBytes)) ↔
      ¬ (targetMember E rawBytes = some (.str "") ∧ d.installationId ≠ "") := by
  obtain ⟨t, ht, hage⟩ := hfresh
  rw [fetchManifestOnceAsync_returned hbody hm ht,
    and_iff_right (show PassesFreshness _ from hage)]
  rcases hm.target with ⟨hnone, hspell⟩ | ⟨iid, hsome, hspell⟩
  · rcases hspell with h | h <;> simp [hnone, h, Targets]
  · simp only [hsome, hspell, Targets, Option.some.injEq, Json.str.injEq, reduceCtorEq, false_or,
      forall_eq']
    by_cases hiid : iid = ""
    · simp only [hiid, true_or, iff_true, true_and, not_not, eq_comm]
    · simp only [hiid, false_or, false_and, not_false_iff]

end SynqroDownloader

/-- A universal manifest of version 10.0.0: its target is the empty text. -/
def universalManifest : SynqroManifest :=
  { releaseManifest with
    installationId := some ""
    manifestSigEd25519 :=
      "XIvJSX9+8oPLFGWlTQ/kbCJduTCYw1WYxswC1VcvCG2V+bJVUi8KMuoMWTE/o44bCGNEngkH+yTD1K/tq/ujDQ==" }

/-- Its body. -/
def universalBody : Bytes :=
  utf8 "\x7b\"artifacts\":[\x7b\"platform\":\"linux-x86_64\",\"sha256\":\"" ++
    utf8 "6a7dc6f4267242f01f6636a45c31da51c036da1e9879abce7e1d0aaa76aad876\",\"sha512\":\"" ++
    utf8 "c3b2b8739b5c52ac7c0eef3d7ccd4e314726a107e43e42fe0dfc7cd23bb6a5f2" ++
    utf8 "72e6645bf8d1e472e03d9a62090396f5eb6f8f11a47c6483a52062647b29a18e\"," ++
    utf8 "\"sig_ed25519\":\"" ++ utf8 artifactSignature ++
    utf8 "\",\"size_bytes\":3,\"url\":\"https://example.org/app\"\x7d],\"channel\":\"stable\"," ++
    utf8 "\"installation_id\":\"\",\"issued_at\":\"2026-01-01T00:00:00Z\"," ++
    utf8 "\"schema_version\":\"1\"," ++
    utf8 "\"version\":\"10.0.0\",\"manifest_sig_ed25519\":\"" ++
    utf8 universalManifest.manifestSigEd25519 ++ utf8 "\"\x7d"

/-- Externals that know the universal manifest's signature as the release key's. -/
def Externals.knowingUniversal : Externals :=
  { Externals.release with
    verifyStrict := fun key message signature =>
      if Base64.decode releaseKeyText = some key ∧
          Base64.decode universalManifest.manifestSigEd25519 = some signature then
        .ok ()
      else Externals.release.verifyStrict key message signature }

theorem universalManifest_signed :
    SignedText .knowingUniversal releaseClient universalBody universalManifest := by
  have hret : Comp.returned (SynqroDownloader.verifyManifest .knowingUniversal
      { releaseClient with installationId := "" } universalBody
      (receiving universalBody releaseIssued)) = true := by decide +kernel
  obtain ⟨m, w', hm⟩ := Comp.returned_iff.1 hret
  have h := (SynqroDownloader.verifyManifest_ok hm).signedText (m := universalManifest)
    (by decide +kernel) (by decide +kernel)
  exact ⟨h.read, h.signed⟩

namespace SynqroDownloader

/-- A manifest without a target is accepted. -/
theorem fetchManifestOnceAsync_target_release :
    (Comp.returned (releaseClient.fetchManifestOnceAsync .release
        (receiving (releaseBody "10.0.0") releaseIssued)) = true ↔
      Targets "installation" (targetMember .release (releaseBody "10.0.0"))) ↔
      ¬ (targetMember .release (releaseBody "10.0.0") = some (.str "") ∧ "installation" ≠ "") := by
  obtain ⟨w₁, hbody, hnow⟩ := fetchManifestBody_receiving (releaseBody "10.0.0") releaseIssued
  refine fetchManifestOnceAsync_target .release releaseClient _ w₁ _ releaseManifest hbody
    releaseManifest_signed ?_
  rw [hnow]
  exact ⟨releaseIssued, rfl, by decide⟩

/-- A universal manifest spelled with the empty text is refused. -/
theorem fetchManifestOnceAsync_target_universal :
    SignedText .knowingUniversal releaseClient universalBody universalManifest ∧
      FreshAt .knowingUniversal releaseIssued universalManifest ∧
      ¬ (Comp.returned (releaseClient.fetchManifestOnceAsync .knowingUniversal
          (receiving universalBody releaseIssued)) = true ↔
        Targets releaseClient.installationId (targetMember .knowingUniversal universalBody)) := by
  refine ⟨universalManifest_signed, ⟨releaseIssued, rfl, by decide⟩, ?_⟩
  have htarget : targetMember .knowingUniversal universalBody = some (.str "") := by
    rcases universalManifest_signed.target with ⟨hnone, -⟩ | ⟨iid, hsome, htarget⟩
    · cases hnone
    · cases hsome
      exact htarget
  obtain ⟨w₁, hbody, -⟩ := fetchManifestBody_receiving universalBody releaseIssued
  have hbody : releaseClient.fetchManifestBody .knowingUniversal
      (receiving universalBody releaseIssued) = .ok universalBody w₁ := hbody
  rw [htarget, fetchManifestOnceAsync_returned hbody universalManifest_signed rfl]
  exact fun h => absurd ((h.2 (.inr (.inr (.inl rfl)))).2 _ rfl) (by decide)

end SynqroDownloader

end

end Synqro
