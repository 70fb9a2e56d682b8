import Synqro.Bookkeeping
import Synqro.Lib.SemVer
import Synqro.Runs
import Synqro.Server
import Synqro.SignedManifest
import Synqro.Snapshots

/-!
# Which versions an update deploys

`synqroApplyUpdate_evolves`: an update deploys and logs the version of a manifest that the server
offered during the call, signed, fresh and for this installation. Nothing else decides the version:
neither the versions deployed before nor the blacklist. So an update does not go back to an earlier
version (`noDowngrade`) and does not deploy a blacklisted one (`blacklist_kept`) in the runs in
which the server offers no such version.
-/

namespace Synqro

/-- The effect deploys the version, or logs that an update to it was applied. -/
def Effect.Applies (v : String) (e : Effect) : Prop :=
  e = .deployed v ∨ ∃ data, e = .logged .UpdateApplied data ∧ getStr "version" data = some v

theorem getStr_version (v path : String) :
    getStr "version" (jsonObject [("version", .str v), ("path", .str path)]) = some v := by
  simp [getStr, jsonObject, Json.ofMembers, Json.find_insertMember, Json.readString]

/-- The versions deployed. -/
def deployedVersions (trace : List Effect) : List String :=
  trace.filterMap fun e => match e with
    | .deployed v => some v
    | _ => none

theorem mem_deployedVersions {trace : List Effect} {v : String} :
    v ∈ deployedVersions trace ↔ .deployed v ∈ trace := by
  unfold deployedVersions
  rw [List.mem_filterMap]
  constructor
  · rintro ⟨e, he, h⟩
    split at h
    · cases h; exact he
    · cases h
  · exact fun h => ⟨_, h, rfl⟩

/-- The downloader of an engine. -/
def SynqroEngine.client (engine : SynqroEngine) : SynqroDownloader where
  updateConfig := engine.config.update
  sourceConfig := engine.config.source
  installationId := engine.config.installationId
  cryptoConfig := engine.config.crypto
  audit := engine.audit

/-- From the world `w` on the server answers some request with the text of a manifest for the
version `v` that the engine demands nothing more of. -/
def Offers (E : Externals) (engine : SynqroEngine) (w : World) (v : String) : Prop :=
  ∃ i ≥ w.calls, ∃ k ≥ w.calls, ∃ status retryAfter chunks rawBytes m,
    w.env.reply i = .response status retryAfter chunks ∧ collectBody chunks = .ok rawBytes ∧
      SynqroDownloader.Accepts E engine.client (w.env.clock k) rawBytes m ∧ m.version = v

section
variable {E : Externals} {engine : SynqroEngine} {w w' : World}

/-- What a later world is offered, the earlier one was. -/
theorem Offers.earlier {Q : Effect → Prop} {v : String} (h : Offers E engine w' v)
    (he : World.Evolves Q w w') : Offers E engine w v := by
  obtain ⟨i, hi, k, hk, h⟩ := h
  rw [he.env] at h
  exact ⟨i, he.calls.trans hi, k, he.calls.trans hk, h⟩

theorem fetchManifestBody_ok {d : SynqroDownloader} {rawBytes : Bytes}
    (h : d.fetchManifestBody E w = .ok rawBytes w') :
    ∃ i ≥ w.calls, ∃ status retryAfter chunks,
      w.env.reply i = .response status retryAfter chunks ∧ collectBody chunks = .ok rawBytes := by
  obtain ⟨token, w₁, ht, h⟩ := Comp.bind_ok.1 h
  obtain ⟨_, w₂, hi, h⟩ := Comp.bind_ok.1 h
  obtain ⟨⟨status, retryAfter, chunks⟩, w₃, hs, h⟩ := Comp.bind_ok.1 h
  obtain ⟨-, rfl⟩ := failIf_ok.1 hi
  have he := (d.loadTokenForRequest_evolves local_any).ok ht
  rw [Comp.mapErr_ok] at hs
  unfold send at hs
  dsimp only at hs
  split at hs <;> cases hs
  next hreply =>
  simp only [Comp.bind_ok, failIf_ok, Comp.ofExcept_ok, mapError_ok] at h
  obtain ⟨_, _, ⟨-, rfl⟩, _, _, ⟨-, rfl⟩, hc, -⟩ := h
  rw [he.env] at hreply
  exact ⟨_, he.calls, _, _, _, hreply, hc⟩

/-- A fetched manifest was offered. -/
theorem fetchManifestOnceAsync_offers {m : SynqroManifest}
    (h : engine.client.fetchManifestOnceAsync E w = .ok m w') : Offers E engine w m.version := by
  obtain ⟨rawBytes, w₁, hb, hv⟩ := Comp.bind_ok.1 h
  obtain ⟨i, hi, status, retryAfter, chunks, hreply, hc⟩ := fetchManifestBody_ok hb
  have he := (engine.client.fetchManifestBody_evolves local_any fun _ _ => trivial).ok hb
  have ha := SynqroDownloader.verifyManifest_ok hv
  rw [he.env] at ha
  exact ⟨i, hi, _, he.calls, _, _, _, _, m, hreply, hc, ha, rfl⟩

theorem fetchAttempts_offers {lastErr : SynqroError} {n : Nat} {m : SynqroManifest}
    (h : engine.client.fetchAttempts E lastErr n w = .ok m w') : Offers E engine w m.version := by
  induction n generalizing lastErr w with
  | zero => cases h
  | succ n ih =>
    obtain ⟨r, w₁, hr, h⟩ := Comp.bind_ok.1 h
    rcases Comp.outcome_ok.1 hr with ⟨m', rfl, hf⟩ | ⟨e, rfl, hf⟩
    · obtain ⟨_, w₂, -, h⟩ := Comp.bind_ok.1 h
      obtain ⟨rfl, -⟩ := Comp.pure_ok.1 h
      exact fetchManifestOnceAsync_offers hf
    · obtain ⟨_, w₂, hrec, h⟩ := Comp.bind_ok.1 h
      have h₁ := (engine.client.fetchManifestOnceAsync_evolves local_any fun _ _ => trivial).error
        hf
      have h₂ := (engine.client.recordFailure_evolves local_any).ok hrec
      exact (ih h).earlier (h₁.trans h₂)

theorem fetchAndVerifyManifest_offers {m : SynqroManifest}
    (h : engine.client.fetchAndVerifyManifest E w = .ok m w') : Offers E engine w m.version := by
  obtain ⟨_, w₁, hb, h⟩ := Comp.bind_ok.1 h
  obtain ⟨_, w₂, hc, h⟩ := Comp.bind_ok.1 h
  have h₁ := Comp.Respects.ok (R := World.Evolves Effect.Any) (.mapErr _ bareCall_evolves) hb
  have h₂ := Comp.Respects.ok (R := World.Evolves Effect.Any)
    SynqroDownloader.checkDegraded_evolves hc
  exact (fetchAttempts_offers h).earlier (h₁.trans h₂)

theorem downloader_ok {d : SynqroDownloader} (h : engine.downloader w = .ok d w') :
    d = engine.client := by
  obtain ⟨_, _, -, h⟩ := Comp.bind_ok.1 h
  obtain ⟨_, _, -, h⟩ := Comp.bind_ok.1 h
  cases h
  rfl

/-- The effects of an update: plain ones, and those that apply an offered version. -/
theorem synqroApplyUpdate_evolves (E : Externals) (engine : SynqroEngine) (w : World) :
    World.Evolves (fun e => e.Plain ∨ ∃ v, Offers E engine w v ∧ e.Applies v) w
      (Comp.after (synqroApplyUpdate E (some engine)) w) := by
  have hplain : ∀ e : Effect, e.Plain → e.Plain ∨ ∃ v, Offers E engine w v ∧ e.Applies v :=
    fun e he => .inl he
  have hdown := engine.downloader_evolves
    (Q := fun e => e.Plain ∨ ∃ v, Offers E engine w v ∧ e.Applies v) w
  show World.Evolves _ w (Comp.final ((getEngine (some engine) >>= _) w))
  rw [Comp.bind_run]
  show World.Evolves _ w (Comp.final ((engine.downloader >>= _) w))
  rw [Comp.bind_run]
  unfold Comp.after at hdown
  cases hd : engine.downloader w with
  | error e w₁ => rwa [hd] at hdown
  | ok d w₁ =>
    rw [hd] at hdown
    obtain rfl := downloader_ok hd
    refine hdown.trans ?_
    have hfetch := engine.client.fetchAndVerifyManifest_evolves (E := E) hplain w₁
    unfold Comp.after at hfetch
    show World.Evolves _ w₁ (Comp.final ((engine.client.fetchAndVerifyManifest E >>= _) w₁))
    rw [Comp.bind_run]
    cases hm : engine.client.fetchAndVerifyManifest E w₁ with
    | error e w₂ => rwa [hm] at hfetch
    | ok m w₂ =>
      rw [hm] at hfetch
      have hoffer := (fetchAndVerifyManifest_offers hm).earlier hdown
      refine hfetch.trans (applyManifest_evolves hplain engine engine.client m ?_ ?_ w₂)
      · exact .inr ⟨m.version, hoffer, .inl rfl⟩
      · exact fun path => .inr ⟨m.version, hoffer, .inr ⟨_, rfl, getStr_version _ path⟩⟩

/-- An update applies offered versions only. -/
theorem applied_offered {rs : List CallRecord} {calls : ApiCall → Prop}
    (h : ApiRun E engine calls rs w) {r : CallRecord} (hr : r ∈ rs) (hc : r.call = .applyUpdate)
    {e : Effect} (he : e ∈ r.effects) {v : String} (hv : e.Applies v) :
    Offers E engine r.before v := by
  obtain ⟨-, hrun⟩ := h.of_mem hr
  have hev := synqroApplyUpdate_evolves E engine r.before
  obtain ⟨new, ht, hq⟩ := hev.trace
  have hnew : r.effects = new := by
    rw [CallRecord.effects, CallRecord.after, hrun, hc]
    show List.drop _ (Comp.after (synqroApplyUpdate E (some engine)) r.before).trace = new
    rw [ht, List.drop_left]
  rw [hnew] at he
  rcases hq e he with hp | ⟨u, hu, ha⟩
  · rcases hv with rfl | ⟨data, rfl, -⟩ <;> cases hp
  · have huv : u = v := by
      rcases hv with rfl | ⟨data, rfl, hd⟩ <;> rcases ha with h | ⟨data', h, hd'⟩ <;> cases h
      · rfl
      · exact Option.some.inj (hd'.symm.trans hd)
    exact huv ▸ hu

/-! ## Runs -/

/-- The call returned Ok. -/
def CallRecord.Succeeded (r : CallRecord) : Prop := Comp.returned r.result = true

/-- No downgrade: in a run of updates in which no call is offered a version lower than one that an
earlier successful call deployed, no successful call deploys a version lower than one that an
earlier successful call deployed. -/
theorem noDowngrade {rs : List CallRecord} (h : ApiRun E engine (· = .applyUpdate) rs w)
    (hoffers : rs.Pairwise fun r₁ r₂ => r₁.Succeeded → ∀ u ∈ deployedVersions r₁.effects,
      ∀ v, Offers E engine r₂.before v → ¬ SemVer.Lower v u) :
    rs.Pairwise fun r₁ r₂ => r₁.Succeeded → r₂.Succeeded →
      ∀ u ∈ deployedVersions r₁.effects, ∀ v ∈ deployedVersions r₂.effects,
        ¬ SemVer.Lower v u := by
  refine hoffers.imp_of_mem fun _ hr₂ hpair hs₁ _ u hu v hv => ?_
  have hcall := (h.of_mem hr₂).1
  exact hpair hs₁ u hu v (applied_offered h hr₂ hcall (mem_deployedVersions.1 hv) (.inl rfl))

/-- A blacklisted version stays away: in a run of updates and rollbacks in which no update is
offered a version blacklisted before it, no update deploys or logs a version blacklisted before
it. -/
theorem blacklist_kept {rs : List CallRecord}
    (h : ApiRun E engine (fun c => c = .applyUpdate ∨ c = .rollback) rs w)
    (hoffers : ∀ r ∈ rs, r.call = .applyUpdate → ∀ v, .blacklisted v ∈ r.before.trace →
      ¬ Offers E engine r.before v) :
    ∀ r ∈ rs, r.call = .applyUpdate → ∀ v, .blacklisted v ∈ r.before.trace →
      ∀ e ∈ r.effects, ¬ e.Applies v :=
  fun r hr hc v hb _ he hv => hoffers r hr hc v hb (applied_offered h hr hc he hv)

end

/-! ## Runs with a server -/

/-- The call of an update to the version that the server offers. -/
def servedCall (w : World) (version : String) : CallRecord :=
  ⟨.applyUpdate, w.served version,
    synqroApplyUpdate .release (some releaseEngine) (w.served version)⟩

theorem servedCall_trace (w : World) (version : String) :
    (servedCall w version).before.trace = w.trace := rfl

/-- Whether updates to the versions succeed one after the other. -/
def updates? : List String → World → Bool
  | [], _ => true
  | v :: vs, w => Comp.returned (servedCall w v).result &&
      deployedVersions (servedCall w v).effects == [v] && updates? vs (w.updated v)

theorem updates?_cons {v : String} {vs : List String} {w : World}
    (h : updates? (v :: vs) w = true) :
    (servedCall w v).Succeeded ∧ deployedVersions (servedCall w v).effects = [v] ∧
      updates? vs (w.updated v) = true := by
  simpa only [CallRecord.Succeeded, updates?, Bool.and_eq_true, beq_iff_eq, and_assoc] using h

/-- The world after updates to the versions. -/
def World.updatedTo (w : World) (vs : List String) : World := vs.foldl World.updated w

@[simp] theorem World.updatedTo_nil (w : World) : w.updatedTo [] = w := List.foldl_nil

@[simp] theorem World.updatedTo_cons (w : World) (v : String) (vs : List String) :
    w.updatedTo (v :: vs) = (w.updated v).updatedTo vs := List.foldl_cons ..

/-- The versions blacklisted. -/
def blacklistedVersions (trace : List Effect) : List String :=
  trace.filterMap fun e => match e with
    | .blacklisted v => some v
    | _ => none

/-- The installation with the snapshot of an update to version 10.0.0, rolled back twice. -/
def rolledBackTwice : World :=
  installed.setFiles <| (Comp.after (takeSnapshot .release "10.0.0" [.ofLoc appExe]
    (.ofString "/backup") (hmacKeyOf .release "installation")) installed).files.set
      (countersJson :: backupLoc)
      (.file (utf8 "\x7b\"10.0.0\":2\x7d") 0o644)

/-- The world after the third rollback. -/
def blacklistedOnce : World := rolledBackTwice.rolledBack

/-- The server goes back to the lower version in between, and a rollback follows. -/
theorem updates?_installed : updates? ["10.0.0", "9.0.0", "10.0.0"] installed = true ∧
    Comp.returned (synqroRollback .release (some releaseEngine)
      (installed.updatedTo ["10.0.0", "9.0.0", "10.0.0"])) = true := by
  decide +kernel

/-- What the server sends for a manifest is one, with its version; the artifact is none. -/
theorem served_bodies :
    (["9.0.0", "10.0.0"].all fun v =>
      ((fromSlice .release SynqroManifest.read (releaseBody v)).map
        (·.version)).toOption == some v) = true ∧
    ((fromSlice .release SynqroManifest.read artifactBytes).map (·.version)).toOption = none := by
  decide +kernel

/-- The version that was blacklisted is updated to once more. -/
theorem updates?_blacklistedOnce : blacklistedVersions blacklistedOnce.trace = ["10.0.0"] ∧
    updates? ["10.0.0"] blacklistedOnce = true := by
  decide +kernel

theorem apiRun_served {rs : List CallRecord} {calls : ApiCall → Prop} {w : World}
    (h : ApiRun .release releaseEngine calls rs w) (hcalls : calls .applyUpdate)
    (version : String) :
    ApiRun .release releaseEngine calls (rs ++ [servedCall w version]) (w.updated version) :=
  .call .applyUpdate hcalls (.outside h rfl)

/-- What a server that serves one version offers is that version. -/
theorem offers_served {w : World} {version v : String}
    (hbody : ∀ m, fromSlice .release SynqroManifest.read (releaseBody version) = .ok m →
      m.version = version)
    (h : Offers .release releaseEngine (w.served version) v) : v = version := by
  obtain ⟨i, -, k, -, status, retryAfter, chunks, rawBytes, m, hreply, hchunks, haccepts, rfl⟩ := h
  have hnone : ∀ m, fromSlice .release SynqroManifest.read artifactBytes ≠ .ok m := by
    intro m hm
    have hno := served_bodies.2
    rw [hm] at hno
    cases hno
  have hcollect (b : Bytes) (hb : collectBody [.ok b] = .ok rawBytes) : rawBytes = b := by
    have : (Except.ok (b ++ []) : Except String Bytes) = .ok rawBytes := hb
    rw [List.append_nil] at this
    exact (Except.ok.inj this).symm
  simp only [World.served, Environment.serving, Reply.response.injEq] at hreply
  obtain ⟨-, -, rfl⟩ := hreply
  have hraw := hcollect _ hchunks
  split at hraw
  · exact hbody m (hraw ▸ haccepts.read)
  · exact absurd (hraw ▸ haccepts.read) (hnone m)

theorem releaseBody_version {version : String} (hv : version = "9.0.0" ∨ version = "10.0.0") :
    ∀ m, fromSlice .release SynqroManifest.read (releaseBody version) = .ok m →
      m.version = version := by
  intro m hm
  have hcheck := List.all_eq_true.1 served_bodies.1 version (by simpa using hv)
  rw [hm] at hcheck
  exact Option.some.inj (beq_iff_eq.1 hcheck)

/-- What an update of such a server deploys is the version it serves. -/
theorem deployed_served {rs : List CallRecord} {calls : ApiCall → Prop} {w w' : World}
    {version u : String} (hv : version = "9.0.0" ∨ version = "10.0.0")
    (h : ApiRun .release releaseEngine calls rs w') (hr : servedCall w version ∈ rs)
    (hu : u ∈ deployedVersions (servedCall w version).effects) : u = version :=
  offers_served (releaseBody_version hv)
    (applied_offered h hr rfl (mem_deployedVersions.1 hu) (.inl rfl))

theorem noDowngrade_upgrade :
    ([servedCall installed "9.0.0"] ++ [servedCall (installed.updated "9.0.0") "10.0.0"]).Pairwise
        fun r₁ r₂ => r₁.Succeeded → r₂.Succeeded →
          ∀ u ∈ deployedVersions r₁.effects, ∀ v ∈ deployedVersions r₂.effects,
            ¬ SemVer.Lower v u := by
  have hstart : ApiRun .release releaseEngine (· = .applyUpdate) [] installed := .start rfl
  have hrun := apiRun_served (apiRun_served hstart rfl "9.0.0") rfl "10.0.0"
  refine noDowngrade hrun ?_
  rw [List.singleton_append]
  refine List.pairwise_cons.2 ⟨fun r hr _ u hu v hv => ?_, List.pairwise_singleton _ _⟩
  rw [List.mem_singleton.1 hr] at hv
  rw [deployed_served (.inl rfl) hrun (List.mem_append_left _ (.head _)) hu,
    offers_served (releaseBody_version (.inr rfl)) hv]
  rintro ⟨u', v', hu', hv', hlt⟩
  cases hu'
  cases hv'
  exact absurd hlt (by decide)

/-- The server takes the installation back to the lower version. -/
theorem downgrade :
    ¬ ∀ (E : Externals) (engine : SynqroEngine) (rs : List CallRecord) (w : World),
      ApiRun E engine (· = .applyUpdate) rs w → rs.Pairwise fun r₁ r₂ =>
        r₁.Succeeded → r₂.Succeeded → ∀ u ∈ deployedVersions r₁.effects,
          ∀ v ∈ deployedVersions r₂.effects, ¬ SemVer.Lower v u := by
  intro h
  obtain ⟨hs₁, hd₁, hrest⟩ := updates?_cons updates?_installed.1
  obtain ⟨hs₂, hd₂, -⟩ := updates?_cons hrest
  have hstart : ApiRun .release releaseEngine (· = .applyUpdate) [] installed := .start rfl
  have hpair := h _ _ _ _ (apiRun_served (apiRun_served hstart rfl "10.0.0") rfl "9.0.0")
  rw [List.nil_append, List.singleton_append, List.pairwise_cons] at hpair
  exact hpair.1 _ (.head _) hs₁ hs₂ "10.0.0" (by rw [hd₁]; exact .head _) "9.0.0"
    (by rw [hd₂]; exact .head _) ⟨_, _, rfl, rfl, by decide⟩

/-! ## The third rollback -/

theorem mem_blacklistedVersions {trace : List Effect} {v : String} :
    v ∈ blacklistedVersions trace ↔ .blacklisted v ∈ trace := by
  unfold blacklistedVersions
  rw [List.mem_filterMap]
  constructor
  · rintro ⟨e, he, h⟩
    split at h
    · cases h; exact he
    · cases h
  · exact fun h => ⟨_, h, rfl⟩

/-- The call of a rollback. -/
def rollbackCall (w : World) : CallRecord :=
  ⟨.rollback, w, synqroRollback .release (some releaseEngine) w⟩

theorem apiRun_rollback : ApiRun .release releaseEngine
    (fun c => c = .applyUpdate ∨ c = .rollback) ([] ++ [rollbackCall rolledBackTwice])
    blacklistedOnce := by
  have hstart : ApiRun .release releaseEngine (fun c => c = .applyUpdate ∨ c = .rollback) []
      rolledBackTwice := .start (World.setFiles_trace _ _)
  exact .call .rollback (.inr rfl) hstart

theorem blacklist_kept_otherVersion :
    .blacklisted "10.0.0" ∈ (servedCall blacklistedOnce "9.0.0").before.trace ∧
      ∀ r ∈ ([] ++ [rollbackCall rolledBackTwice]) ++ [servedCall blacklistedOnce "9.0.0"],
        r.call = .applyUpdate → ∀ v, .blacklisted v ∈ r.before.trace →
          ∀ e ∈ r.effects, ¬ e.Applies v := by
  have hmem {v : String} : .blacklisted v ∈ (servedCall blacklistedOnce "9.0.0").before.trace ↔
      v = "10.0.0" := by
    rw [servedCall_trace, ← mem_blacklistedVersions, updates?_blacklistedOnce.1,
      List.mem_singleton]
  refine ⟨hmem.2 rfl, blacklist_kept (apiRun_served apiRun_rollback (.inl rfl) "9.0.0") ?_⟩
  intro r hr hc v hb ho
  rcases List.mem_append.1 hr with hr | hr
  · obtain rfl := List.mem_singleton.1 hr
    cases hc
  · obtain rfl := List.mem_singleton.1 hr
    rw [hmem, offers_served (releaseBody_version (.inl rfl)) ho] at hb
    exact absurd hb (by decide)

/-- The blacklisted version is deployed once more. -/
theorem blacklisted_deployed :
    ¬ ∀ (E : Externals) (engine : SynqroEngine) (rs : List CallRecord) (w : World),
      ApiRun E engine (fun c => c = .applyUpdate ∨ c = .rollback) rs w →
      ∀ r ∈ rs, r.call = .applyUpdate → ∀ v, .blacklisted v ∈ r.before.trace →
        ∀ e ∈ r.effects, ¬ e.Applies v := by
  intro h
  obtain ⟨hblacklisted, hupdate⟩ := updates?_blacklistedOnce
  obtain ⟨-, hdeployed, -⟩ := updates?_cons hupdate
  have hrun := apiRun_served apiRun_rollback (.inl rfl) "10.0.0"
  refine h _ _ _ _ hrun _ (List.mem_append_right _ (.head _)) rfl "10.0.0" ?_
    (.deployed "10.0.0") ?_
    (.inl rfl)
  · rw [servedCall_trace, ← mem_blacklistedVersions, hblacklisted]
    exact .head _
  · exact mem_deployedVersions.1 (by rw [hdeployed]; exact .head _)

end Synqro
