import Synqro.Calls
import Synqro.Server

/-!
# The manifest that is used is the manifest that was signed

The downloader verifies the signature on one parse of the received bytes and reads the manifest
from another. `SynqroDownloader.fetchManifestOnceAsync_signed` says that the two agree: the fields
of an accepted manifest are those its signed payload spells, and the payload determines them.
-/

namespace Synqro

/-! ## The two parses -/

section
variable {E : Externals} {α : Type} {r : Json → Option α} {bytes : Bytes} {a : α}

theorem fromSlice_ok : fromSlice E r bytes = .ok a ↔
    ∃ j, E.parseJson bytes = .ok j ∧ r j = some a := by
  unfold fromSlice
  cases E.parseJson bytes with
  | error e => simp
  | ok j => cases h : r j <;> simp [h]

theorem fromSliceValue_ok : fromSliceValue E r bytes = .ok a ↔
    E.refusesValue bytes = none ∧ ∃ j, E.parseJson bytes = .ok j ∧ r j = some a := by
  unfold fromSliceValue
  cases E.refusesValue bytes with
  | some e => simp
  | none => simp [fromSlice_ok]

end

/-! ## The fields of the payload -/

/-- The fields before the signature, as a typed reader finds them. -/
def ManifestBody.read (j : Json) : Option ManifestBody :=
  (Json.structFields ManifestBody.fields j).bind ManifestBody.ofValues

theorem ArtifactEntry.stable_read : Json.Stable ArtifactEntry.read := by
  intro j a h
  simp only [ArtifactEntry.read, Option.bind_eq_bind, Option.bind_eq_some_iff] at h
  obtain ⟨vs, hvs, h⟩ := h
  simp only [ArtifactEntry.read, Json.structFields_value hvs]
  split at h
  · simp only [Option.bind_eq_some_iff, Option.pure_def, Option.some.injEq] at h
    obtain ⟨platform, h1, url, h2, sha256, h3, sha512, h4, sizeBytes, h5, sig, h6, rfl⟩ := h
    simp [Json.stable_readString _ _ h1, Json.stable_readString _ _ h2,
      Json.stable_readString _ _ h3, Json.stable_readString _ _ h4, Json.stable_readU64 _ _ h5,
      Json.stable_readString _ _ h6]
  · cases h

theorem ManifestBody.ofValues_value {vs : List Json} {b : ManifestBody}
    (h : ManifestBody.ofValues vs = some b) :
    ManifestBody.ofValues (vs.map Json.value) = some b := by
  unfold ManifestBody.ofValues at h
  split at h
  · simp only [Option.bind_eq_bind, Option.bind_eq_some_iff, Option.pure_def,
      Option.some.injEq] at h
    obtain ⟨schema, h1, issuedAt, h2, iid, h3, version, h4, channel, h5, artifacts, h6, rfl⟩ := h
    simp [ManifestBody.ofValues, Json.stable_readString _ _ h1, Json.stable_readString _ _ h2,
      Json.stable_readString.readOption _ _ h3, Json.stable_readString _ _ h4,
      Json.stable_readString _ _ h5, ArtifactEntry.stable_read.readVec _ _ h6]
  · cases h

/-- The manifest of a text, read from the object of its untyped value: the fields before the
signature are there without the signature too, and the signature is the member of that name. -/
theorem SynqroManifest.read_value {j : Json} {ms : Json.Members} {m : SynqroManifest}
    (h : SynqroManifest.read j = some m) (hv : Json.value j = .obj ms) :
    ManifestBody.read (.obj (Json.removeMember "manifest_sig_ed25519" ms)) = some m.toManifestBody ∧
      Json.find "manifest_sig_ed25519" ms = some (.str m.manifestSigEd25519) := by
  simp only [SynqroManifest.read, Option.bind_eq_bind, Option.bind_eq_some_iff] at h
  obtain ⟨vs, hvs, h⟩ := h
  have hval := Json.structFields_value hvs
  rw [hv] at hval
  obtain ⟨hbody, hsig⟩ := Json.structFields_append hval
  split at h
  · next body sig hsplit =>
    rw [List.splitAt_eq, Prod.mk.injEq] at hsplit
    obtain ⟨rfl, hdrop⟩ := hsplit
    simp only [Option.bind_eq_some_iff, Option.pure_def, Option.some.injEq] at h
    obtain ⟨b, hb, sigText, hs, rfl⟩ := h
    have hlen : ManifestBody.fields.length = 6 := rfl
    constructor
    · rw [ManifestBody.read, Json.structFields_removeMember (by decide) hbody, hlen,
        ← List.map_take]
      exact ManifestBody.ofValues_value hb
    · rw [hlen, ← List.map_drop, hdrop] at hsig
      rw [Json.structFields_singleton hsig]
      cases sig <;> simp_all [Json.readString]
  · cases h

/-- The date of a manifest is a member of the object it is read from. -/
theorem ManifestBody.read_issuedAt {ms : Json.Members} {b : ManifestBody}
    (h : ManifestBody.read (.obj ms) = some b) :
    getStr "issued_at" (.obj ms) = some b.issuedAt := by
  simp only [ManifestBody.read, Option.bind_eq_some_iff] at h
  obtain ⟨vs, hvs, h⟩ := h
  have hfields := @Json.structFields_append [⟨"schema_version", false⟩]
    ManifestBody.fields.tail _ _ hvs
  have hdate := @Json.structFields_append [⟨"issued_at", false⟩]
    ManifestBody.fields.tail.tail _ _ hfields.2
  unfold ManifestBody.ofValues at h
  split at h
  · simp only [Option.bind_eq_bind, Option.bind_eq_some_iff, Option.pure_def,
      Option.some.injEq] at h
    obtain ⟨_, -, date, hd, _, -, _, -, _, -, _, -, rfl⟩ := h
    have hfind := Json.structFields_singleton hdate.1
    simp [getStr, hfind, hd]
  · cases h

/-! ## What is signed -/

section
variable (E : Externals)

/-- The canonical text that the signature of a manifest text covers. -/
def signedPayload (rawBytes : Bytes) : Option (List Char) :=
  match fromSliceValue E (fun j => some (Json.value j)) rawBytes with
  | .ok rawValue =>
    match payloadMap rawValue with
    | .ok payload => some (canonicalJsonSorted payload)
    | .error _ => none
  | .error _ => none

/-- The fields that a payload text spells. -/
def Spells (payload : List Char) (body : ManifestBody) : Prop :=
  ∃ tree, toJsonString tree = payload ∧ ManifestBody.read tree = some body

/-- A payload text spells one body at most. -/
theorem Spells.unique {payload : List Char} {b₁ b₂ : ManifestBody} (h₁ : Spells payload b₁)
    (h₂ : Spells payload b₂) : b₁ = b₂ := by
  obtain ⟨t₁, ht₁, hr₁⟩ := h₁
  obtain ⟨t₂, ht₂, hr₂⟩ := h₂
  have : t₁ = t₂ := toJsonString_inj (ht₁.trans ht₂.symm)
  subst this
  exact Option.some.inj (hr₁.symm.trans hr₂)

variable {E}

namespace SynqroDownloader

variable {d : SynqroDownloader} {w w' : World}

/-- The signature check passes on a payload that the configured key signed. -/
theorem checkSignature_ok {rawValue : Json} (h : d.checkSignature E rawValue w = .ok () w') :
    ∃ sigB64 payload key sig, getStr "manifest_sig_ed25519" rawValue = some sigB64 ∧
      payloadMap rawValue = .ok payload ∧ d.releaseKey E = .ok key ∧
      E.base64Decode sigB64 = some sig ∧
      E.verifyStrict key (encodeUtf8 (canonicalJsonSorted payload)) sig = .ok () := by
  simp only [checkSignature, Comp.bind_ok, require_ok, Comp.ofExcept_ok, Comp.onError_ok] at h
  obtain ⟨sigB64, _, ⟨hsig, rfl⟩, payload, _, ⟨hpay, rfl⟩, sig, _, ⟨hs, rfl⟩, key, _, ⟨hk, rfl⟩,
    hv, rfl⟩ := h
  refine ⟨sigB64, payload, key, sig, hsig, hpay, hk, ?_, hv⟩
  unfold signature at hs
  split at hs
  · cases hs
  · split at hs
    · cases hs
    · cases hs; assumption

/-- The manifest's issue date lies within the last 24 hours before `now`. -/
def FreshAt (E : Externals) (now : Int) (m : SynqroManifest) : Prop :=
  ∃ t, E.parseDateTime m.issuedAt = some t ∧ 0 ≤ numSeconds (now - t) ∧ numHours (now - t) ≤ 24

/-- What a downloader demands of a manifest text: a manifest signed with the configured key, fresh,
for this installation. -/
structure Accepts (E : Externals) (d : SynqroDownloader) (now : Int) (rawBytes : Bytes)
    (m : SynqroManifest) : Prop where
  read : fromSlice E SynqroManifest.read rawBytes = .ok m
  signed : ∃ payload key sig, signedPayload E rawBytes = some payload ∧ d.releaseKey E = .ok key ∧
    E.base64Decode m.manifestSigEd25519 = some sig ∧
    E.verifyStrict key (encodeUtf8 payload) sig = .ok () ∧ Spells payload m.toManifestBody
  fresh : FreshAt E now m
  target : ∀ iid, m.installationId = some iid → iid = d.installationId

theorem checkFreshness_ok {rawValue : Json} (h : checkFreshness E rawValue w = .ok () w') :
    w' = w.tick ∧ ∃ s t, getStr "issued_at" rawValue = some s ∧ E.parseDateTime s = some t ∧
      0 ≤ numSeconds (w.env.clock w.calls - t) ∧ numHours (w.env.clock w.calls - t) ≤ 24 := by
  simp only [checkFreshness, Comp.bind_ok, require_ok, failIf_ok] at h
  obtain ⟨s, _, ⟨hs, rfl⟩, t, _, ⟨ht, rfl⟩, now, _, hnow, hage, rfl⟩ := h
  cases hnow
  push Not at hage
  exact ⟨rfl, s, t, hs, ht, hage⟩

theorem checkInstallationId_ok {m : SynqroManifest}
    (h : d.checkInstallationId m w = .ok () w') :
    ∀ iid, m.installationId = some iid → iid = d.installationId := by
  intro iid hiid
  by_contra hne
  rw [checkInstallationId, hiid] at h
  simp only [Ne, hne, not_false_eq_true, if_true] at h
  cases h

/-- Only what a downloader demands is accepted, at the clock's first reading. -/
theorem verifyManifest_ok {rawBytes : Bytes} {m : SynqroManifest}
    (h : d.verifyManifest E rawBytes w = .ok m w') :
    Accepts E d (w.env.clock w.calls) rawBytes m := by
  simp only [verifyManifest, Comp.bind_ok, Comp.ofExcept_ok, mapError_ok, Comp.pure_ok] at h
  obtain ⟨rawValue, _, ⟨hraw, rfl⟩, _, w₁, hfresh, _, w₂, hsig, _, w₃, -, m', _, ⟨hm, rfl⟩, _, _,
    htarget, rfl, -⟩ := h
  obtain ⟨-, s, t, hs, ht, hage⟩ := checkFreshness_ok hfresh
  obtain ⟨sigB64, payload, key, sig, hget, hpay, hk, hb, hv⟩ := checkSignature_ok hsig
  have hsp : signedPayload E rawBytes = some (canonicalJsonSorted payload) := by
    rw [signedPayload, hraw]
    simp only [hpay]
  obtain ⟨-, j, hj, hval⟩ := fromSliceValue_ok.1 hraw
  obtain ⟨j', hj', hread⟩ := fromSlice_ok.1 hm
  have : j' = j := by rw [hj] at hj'; cases hj'; rfl
  subst this
  cases hval
  -- the payload is the object of the value without its signature
  cases hjv : Json.value j' with
  | obj ms =>
    rw [hjv] at hpay hget hs
    cases hpay
    obtain ⟨hbody, hfind⟩ := SynqroManifest.read_value hread hjv
    have hsame : sigB64 = m'.manifestSigEd25519 := by
      simpa [getStr, hfind, Json.readString] using hget.symm
    have hdate : s = m'.issuedAt := by
      have := ManifestBody.read_issuedAt hbody
      simp only [getStr, Json.find_removeMember_ne (show "issued_at" ≠ "manifest_sig_ed25519" by
        decide)] at this hs
      exact Option.some.inj (hs.symm.trans this)
    subst hsame hdate
    refine ⟨hm, ⟨_, key, sig, hsp, hk, hb, hv, _, rfl, ?_⟩, ⟨t, ht, hage⟩,
      checkInstallationId_ok htarget⟩
    rwa [Json.sortKeys_removeMember_value hjv]
  | null | bool | num | str | arr => rw [hjv] at hpay; cases hpay

/-- An accepted manifest was signed, and its fields are those its signed payload spells: for every
attempt the received bytes have a payload that the configured key signed with the manifest's own
signature and that spells the manifest's other fields, so two attempts with one payload accept the
same fields. -/
theorem fetchManifestOnceAsync_signed (E : Externals) :
    (∀ (d : SynqroDownloader) (w w' : World) (m : SynqroManifest),
      d.fetchManifestOnceAsync E w = .ok m w' →
        ∃ rawBytes w₁ payload key sig, d.fetchManifestBody E w = .ok rawBytes w₁ ∧
          signedPayload E rawBytes = some payload ∧ d.releaseKey E = .ok key ∧
          E.base64Decode m.manifestSigEd25519 = some sig ∧
          E.verifyStrict key (encodeUtf8 payload) sig = .ok () ∧ Spells payload m.toManifestBody) ∧
    ∀ (d₁ d₂ : SynqroDownloader) (w₁ w₁' v₁ w₂ w₂' v₂ : World) (b₁ b₂ : Bytes)
      (m₁ m₂ : SynqroManifest),
      d₁.fetchManifestBody E w₁ = .ok b₁ v₁ → d₁.fetchManifestOnceAsync E w₁ = .ok m₁ w₁' →
      d₂.fetchManifestBody E w₂ = .ok b₂ v₂ → d₂.fetchManifestOnceAsync E w₂ = .ok m₂ w₂' →
      signedPayload E b₁ = signedPayload E b₂ → m₁.toManifestBody = m₂.toManifestBody := by
  have signed : ∀ {d : SynqroDownloader} {w w' v : World} {b : Bytes} {m : SynqroManifest},
      d.fetchManifestBody E w = .ok b v → d.fetchManifestOnceAsync E w = .ok m w' →
        d.verifyManifest E b v = .ok m w' := by
    intro d w w' v b m hb hm
    obtain ⟨b', v', hb', hv⟩ := Comp.bind_ok.1 hm
    rw [hb] at hb'
    cases hb'
    exact hv
  refine ⟨fun d w w' m h => ?_, fun d₁ d₂ w₁ w₁' v₁ w₂ w₂' v₂ b₁ b₂ m₁ m₂ hb₁ hm₁ hb₂ hm₂ hp => ?_⟩
  · obtain ⟨rawBytes, w₁, hbody, hv⟩ := Comp.bind_ok.1 h
    obtain ⟨payload, key, sig, hsigned⟩ := (verifyManifest_ok hv).signed
    exact ⟨rawBytes, w₁, payload, key, sig, hbody, hsigned⟩
  · obtain ⟨p₁, _, _, hp₁, -, -, -, hs₁⟩ := (verifyManifest_ok (signed hb₁ hm₁)).signed
    obtain ⟨p₂, _, _, hp₂, -, -, -, hs₂⟩ := (verifyManifest_ok (signed hb₂ hm₂)).signed
    rw [hp₁, hp₂] at hp
    cases hp
    exact hs₁.unique hs₂

/-- An attempt to fetch the manifest of version 10.0.0 succeeds. -/
theorem fetchManifestOnceAsync_served : Comp.returned (releaseClient.fetchManifestOnceAsync .release
    { installed with env := .serving "10.0.0" 1 }) = true := by
  decide +kernel

theorem fetchManifestOnceAsync_signed_served :
    ∃ (m : SynqroManifest) (rawBytes : Bytes) (payload : List Char) (key sig : Bytes),
      signedPayload .release rawBytes = some payload ∧
      releaseClient.releaseKey .release = .ok key ∧
      Externals.release.base64Decode m.manifestSigEd25519 = some sig ∧
      Externals.release.verifyStrict key (encodeUtf8 payload) sig = .ok () ∧
      Spells payload m.toManifestBody := by
  obtain ⟨m, w', hm⟩ := Comp.returned_iff.1 fetchManifestOnceAsync_served
  obtain ⟨rawBytes, _, payload, key, sig, -, h⟩ :=
    (fetchManifestOnceAsync_signed .release).1 _ _ _ m hm
  exact ⟨m, rawBytes, payload, key, sig, h⟩

end SynqroDownloader

end

end Synqro
