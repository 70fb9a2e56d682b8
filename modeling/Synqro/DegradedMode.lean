import Synqro.Runs
import Synqro.Machine
import Mathlib.Data.List.Infix

/-!
# The degraded mode does not reach the next call

Every call of the public API works with a downloader of its own, whose failure counter starts at
zero. `not_refused` says what follows: no call is ever refused without a request, so a run keeps
the rule of the degraded mode exactly when it makes no further call once five consecutive attempts
have failed.
-/

namespace Synqro

open Comp (Fails)

/-! ## Which errors are not the degraded mode -/

/-- The error is not the degraded mode. -/
def NotDegraded (e : SynqroError) : Prop := e ≠ .Degraded

section
variable (E : Externals)

theorem require_fails {α : Type} (a : Option α) {e : SynqroError} (h : NotDegraded e) :
    Fails NotDegraded (require a e) := by
  refine .ofExcept fun e' he => ?_
  cases a with
  | some => cases he
  | none => cases he; exact h

theorem failIf_fails (c : Prop) [Decidable c] {e : SynqroError} (h : NotDegraded e) :
    Fails NotDegraded (failIf c e) := by
  unfold failIf
  split
  · exact .throw h
  · exact .pure ()

theorem mapError_fails {α : Type} (r : Except String α) {f : String → SynqroError}
    (h : ∀ e, NotDegraded (f e)) : Fails NotDegraded (Comp.ofExcept (r.mapError f) : M α) := by
  refine .ofExcept fun e he => ?_
  cases r with
  | ok => cases he
  | error e' => cases he; exact h e'

/-- A log call that fails says nothing of the latch. -/
theorem AuditLogger.log_fails (logger : AuditLogger) (event : AuditEvent) (data : Json) :
    Fails NotDegraded (logger.log E event data) := by
  refine .bind (fun _ _ _ h => nomatch h) fun ts => .bind (.modify _) fun _ => ?_
  refine .bind (.mapErr fun _ => nofun) fun _ => .bind (.mapErr fun _ => nofun) fun _ => ?_
  exact .bind (.modify _) fun _ => .bind (.ignore _) fun _ => .mapErr fun _ => nofun

namespace SynqroDownloader

variable (d : SynqroDownloader)

theorem loadSecret_fails (service account : String) :
    Fails NotDegraded (loadSecret service account) := by
  intro w e w' h
  unfold loadSecret at h
  split at h
  · cases h
  · next e' _ => cases h; exact e'.reported

/-- Neither does a missing token. -/
theorem loadTokenForRequest_fails : Fails NotDegraded (d.loadTokenForRequest E) := by
  refine .bind (.onError fun w e w' h e' t hk => ?_) fun _ => require_fails _ nofun
  have he := loadSecret_fails _ _ w e w' h
  rcases hk with hk | hk
  · obtain ⟨_, _, -, hk⟩ := Comp.bind_ok.1 hk
    exact (Comp.pure_ok.1 hk).1 ▸ he
  · rcases Comp.bind_error.1 hk with hk | ⟨_, _, -, hk⟩
    · exact absurd hk Comp.ignore_ne_error
    · cases hk

theorem signature_fails (what sig : String) :
    Fails NotDegraded (Comp.ofExcept (signature E what sig) : M Bytes) := by
  refine .ofExcept fun e he => ?_
  unfold signature at he
  split at he
  · cases he; nofun
  · split at he <;> cases he
    nofun

theorem releaseKey_fails : Fails NotDegraded (Comp.ofExcept (d.releaseKey E) : M Bytes) := by
  refine .ofExcept fun e he => ?_
  unfold releaseKey at he
  split at he
  · cases he; nofun
  · split at he
    · cases he; nofun
    · split at he <;> cases he
      nofun

/-- A request that fails is a network error. -/
theorem fetchManifestBody_fails : Fails NotDegraded (d.fetchManifestBody E) := by
  refine .bind (d.loadTokenForRequest_fails E) fun token => .bind (failIf_fails _ nofun) fun _ => ?_
  refine .bind (.mapErr fun _ => nofun) fun reply => .bind (failIf_fails _ nofun) fun _ => ?_
  exact .bind (failIf_fails _ nofun) fun _ => mapError_fails _ fun _ => nofun

/-- A signature that does not check is an error of its own. -/
theorem checkSignature_fails (rawValue : Json) :
    Fails NotDegraded (d.checkSignature E rawValue) := by
  refine .bind (require_fails _ nofun) fun sigB64 =>
    .bind (.ofExcept fun e he => ?_) fun payload => ?_
  · unfold payloadMap at he
    split at he <;> cases he
    nofun
  refine .bind (signature_fails E _ _) fun sig => .bind (d.releaseKey_fails E) fun key => ?_
  refine .onError fun w e w' h e' t hk => ?_
  rcases hk with hk | hk
  · obtain ⟨_, _, -, hk⟩ := Comp.bind_ok.1 hk
    exact (Comp.pure_ok.1 hk).1 ▸ nofun
  · rcases Comp.bind_error.1 hk with hk | ⟨_, _, -, hk⟩
    · exact absurd hk Comp.ignore_ne_error
    · cases hk

/-- An attempt never fails for the degraded mode. -/
theorem fetchManifestOnceAsync_fails : Fails NotDegraded (d.fetchManifestOnceAsync E) := by
  refine .bind (d.fetchManifestBody_fails E) fun rawBytes => ?_
  refine .bind (mapError_fails _ fun _ => nofun) fun rawValue => ?_
  refine .bind ?_ fun _ => .bind (d.checkSignature_fails E rawValue) fun _ => ?_
  · refine .bind (require_fails _ nofun) fun _ => .bind (require_fails _ nofun) fun _ => ?_
    exact .bind (fun _ _ _ h => nomatch h) fun _ => failIf_fails _ nofun
  refine .bind (.ignore _) fun _ => .bind (mapError_fails _ fun _ => nofun) fun manifest => ?_
  refine .bind ?_ fun _ => .pure _
  unfold checkInstallationId
  split
  · split
    · exact .throw nofun
    · exact .pure ()
  · exact .pure ()

/-- Recording a failure does not fail. -/
theorem recordFailure_fails : Fails NotDegraded (d.recordFailure E) := by
  refine .bind .get fun w => .bind (.modify _) fun _ => .bind (.modify _) fun _ => ?_
  dsimp only
  split
  · exact .bind (.modify _) fun _ => .ignore _
  · exact .pure ()

/-- The attempts fail with the error of the last one, by induction on how many are left. -/
theorem fetchAttempts_fails {lastErr : SynqroError} (h : NotDegraded lastErr) (n : Nat) :
    Fails NotDegraded (d.fetchAttempts E lastErr n) := by
  induction n generalizing lastErr with
  | zero => exact .throw h
  | succ n ih =>
    intro w e w' hx
    rcases Comp.bind_error.1 hx with hx | ⟨r, w₁, hr, hx⟩
    · exact absurd hx Comp.outcome_ne_error
    · rcases Comp.outcome_ok.1 hr with ⟨m, rfl, -⟩ | ⟨e', rfl, hf⟩
      · rcases Comp.bind_error.1 hx with hx | ⟨_, _, -, hx⟩
        · exact absurd hx (by rintro ⟨⟩)
        · cases hx
      · have he' := d.fetchManifestOnceAsync_fails E _ _ _ hf
        exact Fails.bind (d.recordFailure_fails E) (fun _ => ih he') _ _ _ hx

/-- A fetch is refused for the degraded mode only by a downloader that is in it. -/
theorem fetchAndVerifyManifest_degraded {w w' : World}
    (h : d.fetchAndVerifyManifest E w = .error .Degraded w') : w.latch.degradedMode = true := by
  rcases Comp.bind_error.1 h with h | ⟨_, w₁, hb, h⟩
  · have hf : Fails NotDegraded (Comp.mapErr (fun e : IoError =>
        SynqroError.Internal s!"Tokio runtime build: {e.display}") bareCall) :=
          .mapErr fun _ => nofun
    exact absurd rfl (hf _ _ _ h)
  · have hl : w₁.latch = w.latch := by
      rw [Comp.mapErr_ok] at hb
      unfold bareCall call at hb
      split at hb <;> cases hb
      rfl
    rcases Comp.bind_error.1 h with h | ⟨_, _, -, h⟩
    · rw [← hl]
      by_contra hd
      simp only [checkDegraded, Comp.bind_run, Comp.get_run, failIf, if_neg hd, Comp.pure_run] at h
      cases h
    · have hn : NotDegraded (.Network "No attempts made") := nofun
      exact absurd rfl (d.fetchAttempts_fails E hn _ _ _ _ h)

end SynqroDownloader

end

/-! ## Requests are seen -/

/-- The effect is a request. -/
def Effect.isRequest : Effect → Bool
  | .requested _ => true
  | _ => false

/-- The number of requests sent. -/
def requestCount (trace : List Effect) : Nat := trace.countP Effect.isRequest

/-- Requests that were sent stay sent. -/
theorem requestCount_mono {Q : Effect → Prop} {w w' : World} (h : World.Evolves Q w w') :
    requestCount w.trace ≤ requestCount w'.trace := by
  obtain ⟨new, ht, -⟩ := h.trace
  rw [ht, requestCount, requestCount, List.countP_append]
  exact Nat.le_add_right _ _

section
variable {E : Externals} {w w' : World}

namespace SynqroDownloader

variable {d : SynqroDownloader}

/-- A body that came was asked for. -/
theorem fetchManifestBody_requests {rawBytes : Bytes}
    (h : d.fetchManifestBody E w = .ok rawBytes w') :
    requestCount w.trace < requestCount w'.trace := by
  obtain ⟨token, w₁, ht, h⟩ := Comp.bind_ok.1 h
  obtain ⟨_, w₂, hi, h⟩ := Comp.bind_ok.1 h
  obtain ⟨reply, w₃, hs, h⟩ := Comp.bind_ok.1 h
  have h₁ := requestCount_mono ((d.loadTokenForRequest_evolves local_any).ok ht)
  have h₂ := requestCount_mono ((failIf_evolves (Q := Effect.Any) _).ok hi)
  have h₃ : requestCount w₂.trace < requestCount w₃.trace := by
    rw [Comp.mapErr_ok] at hs
    unfold send at hs
    dsimp only at hs
    split at hs <;> cases hs
    simp [requestCount, Effect.isRequest]
  have h₄ : requestCount w₃.trace ≤ requestCount w'.trace :=
    requestCount_mono <| Comp.Respects.ok (R := World.Evolves Effect.Any)
      (.bind (failIf_evolves _) fun _ => .bind (failIf_evolves _) fun _ => .ofExcept _) h
  omega

/-- A manifest that came was asked for in one of the attempts. -/
theorem fetchAttempts_requests {lastErr : SynqroError} {n : Nat} {m : SynqroManifest}
    (h : d.fetchAttempts E lastErr n w = .ok m w') :
    requestCount w.trace < requestCount w'.trace := by
  induction n generalizing lastErr w with
  | zero => cases h
  | succ n ih =>
    obtain ⟨r, w₁, hr, h⟩ := Comp.bind_ok.1 h
    rcases Comp.outcome_ok.1 hr with ⟨m', rfl, hf⟩ | ⟨e, rfl, hf⟩
    · obtain ⟨rawBytes, w₂, hb, hv⟩ := Comp.bind_ok.1 hf
      have h₁ := fetchManifestBody_requests hb
      have h₂ := requestCount_mono ((d.verifyManifest_evolves local_any rawBytes).ok hv)
      have h₃ := requestCount_mono <| Comp.Respects.ok (R := World.Evolves Effect.Any)
        (.bind (recordSuccess_evolves local_any) fun _ => .pure _) h
      omega
    · obtain ⟨_, w₂, hrec, h⟩ := Comp.bind_ok.1 h
      have h₁ := requestCount_mono
        ((d.fetchManifestOnceAsync_evolves local_any fun _ _ => trivial).error hf)
      have h₂ := requestCount_mono ((d.recordFailure_evolves local_any).ok hrec)
      have h₃ := ih h
      omega

/-- A manifest is only had for a request. -/
theorem fetchAndVerifyManifest_requests {m : SynqroManifest}
    (h : d.fetchAndVerifyManifest E w = .ok m w') :
    requestCount w.trace < requestCount w'.trace := by
  obtain ⟨_, w₁, hb, h⟩ := Comp.bind_ok.1 h
  obtain ⟨_, w₂, hc, h⟩ := Comp.bind_ok.1 h
  have h₁ := requestCount_mono <| Comp.Respects.ok (R := World.Evolves Effect.Any)
    (.mapErr _ bareCall_evolves) hb
  have h₂ := requestCount_mono <| Comp.Respects.ok (R := World.Evolves Effect.Any)
    checkDegraded_evolves hc
  have h₃ := fetchAttempts_requests h
  omega

end SynqroDownloader

/-! ## Refused calls -/

/-- The outcomes of the attempts. -/
def attempts (trace : List Effect) : List Bool :=
  trace.filterMap fun e => match e with
    | .attempted succeeded => some succeeded
    | _ => none

/-- Five consecutive attempts have failed. -/
def FiveFailures (trace : List Effect) : Prop := List.replicate 5 false <:+: attempts trace

/-- The call returned the degraded-mode error and sent no request. -/
def CallRecord.Refused (r : CallRecord) : Prop :=
  ∃ w', r.result = .error .Degraded w' ∧ requestCount w'.trace = requestCount r.before.trace

/-- The calls that fetch. -/
def ApiCall.Fetches : ApiCall → Prop
  | .checkUpdate | .applyUpdate => True
  | .rollback => False

/-- What follows a fetch of its own cannot be refused. -/
theorem fetch_not_refused {engine : SynqroEngine} {k : SynqroDownloader → SynqroManifest → M Unit}
    (hk : ∀ d m, Comp.Respects (World.Evolves Effect.Any) (k d m))
    (h : (do
      let downloader ← engine.downloader
      let manifest ← downloader.fetchAndVerifyManifest E
      k downloader manifest : M Unit) w = .error .Degraded w') :
    requestCount w.trace < requestCount w'.trace := by
  rcases Comp.bind_error.1 h with h | ⟨d, w₁, hd, h⟩
  · have hf : Fails NotDegraded engine.downloader :=
      .bind (.mapErr fun _ => nofun) fun _ => .bind (.modify _) fun _ => .pure _
    exact absurd rfl (hf _ _ _ h)
  have h₁ := requestCount_mono ((engine.downloader_evolves (Q := Effect.Any)).ok hd)
  have hl : w₁.latch.degradedMode = false := by
    obtain ⟨_, _, -, hd⟩ := Comp.bind_ok.1 hd
    obtain ⟨_, _, hm, hd⟩ := Comp.bind_ok.1 hd
    cases hm
    cases hd
    rfl
  rcases Comp.bind_error.1 h with h | ⟨m, w₂, hm, h⟩
  · rw [d.fetchAndVerifyManifest_degraded E h] at hl
    cases hl
  have h₂ := SynqroDownloader.fetchAndVerifyManifest_requests hm
  have h₃ := requestCount_mono ((hk d m).error h)
  omega

/-- No call that fetches is ever refused. -/
theorem not_refused (engine : SynqroEngine) {c : ApiCall} (hc : c.Fetches) (w : World) :
    ¬ CallRecord.Refused ⟨c, w, c.run E engine w⟩ := by
  rintro ⟨w', h, hn⟩
  dsimp only at h hn
  refine absurd hn (ne_of_gt ?_)
  cases c with
  | checkUpdate =>
    rcases Comp.bind_error.1 h with h | ⟨_, _, he, h⟩
    · cases h
    cases he
    rcases Comp.bind_error.1 h with h | ⟨_, w₁, hl, h⟩
    · exact absurd rfl (AuditLogger.log_fails E engine.audit _ _ _ _ _ h)
    have h₁ := requestCount_mono
      ((AuditLogger.log_evolves (Q := Effect.Any) E engine.audit _ _ trivial).ok hl)
    have h₂ := fetch_not_refused
      (fun _ _ => AuditLogger.log_evolves E engine.audit _ _ trivial) h
    omega
  | applyUpdate =>
    rcases Comp.bind_error.1 h with h | ⟨_, _, he, h⟩
    · cases h
    cases he
    exact fetch_not_refused
      (fun d m => applyManifest_evolves plain_any engine d m trivial fun _ => trivial) h
  | rollback => cases hc

/-- The degraded mode holds across the public API in a run exactly when the run makes no call once
five consecutive attempts have failed. -/
theorem degradedMode_iff (engine : SynqroEngine) (rs : List CallRecord) (w : World)
    (h : ApiRun E engine ApiCall.Fetches rs w) :
    (∀ r ∈ rs, FiveFailures r.before.trace → r.Refused) ↔
      ∀ r ∈ rs, ¬ FiveFailures r.before.trace := by
  have hall : ∀ r ∈ rs, ¬ r.Refused := by
    intro r hr
    obtain ⟨hc, hrun⟩ := h.of_mem hr
    have := not_refused (E := E) engine hc r.before
    rwa [← hrun] at this
  constructor
  · intro hP r hr hf
    exact hall r hr (hP r hr hf)
  · intro hn r hr hf
    exact absurd hf (hn r hr)

end

/-! ## A server out of reach -/

/-- An engine that makes five attempts. -/
def fiveAttempts : SynqroEngine where
  config := {
    installationId := "installation"
    source := ⟨"owner", "repo", "synqro_manifest.json"⟩
    crypto := ⟨"key"⟩
    update := ⟨4, 1000, "staging", "backup"⟩
    rollback := ⟨30⟩ }
  audit := ⟨[], "installation"⟩

/-- A process in the root directory of an empty disk, without a server. -/
def offline : World := .boot .calm ⟨[], [], 1, 0o644⟩ .empty

/-- The world after a first check for updates. -/
def afterCheck : World := Comp.after (ApiCall.checkUpdate.run .running fiveAttempts) offline

theorem afterCheck_fiveFailures : FiveFailures afterCheck.trace := by
  unfold FiveFailures
  decide +kernel

/-- A check for updates whose five attempts fail, and another one. -/
theorem apiRun_offline :
    ApiRun .running fiveAttempts ApiCall.Fetches
      ([⟨.checkUpdate, offline, ApiCall.checkUpdate.run .running fiveAttempts offline⟩] ++
        [⟨.checkUpdate, afterCheck, ApiCall.checkUpdate.run .running fiveAttempts afterCheck⟩])
      (Comp.after (ApiCall.checkUpdate.run .running fiveAttempts) afterCheck) :=
  .call .checkUpdate trivial (.call .checkUpdate trivial (.start rfl))

theorem degradedMode_iff_offline :
    (∀ r ∈ ([⟨.checkUpdate, offline, ApiCall.checkUpdate.run .running fiveAttempts offline⟩] ++
          [⟨.checkUpdate, afterCheck, ApiCall.checkUpdate.run .running fiveAttempts afterCheck⟩] :
          List CallRecord),
        FiveFailures r.before.trace → r.Refused) ↔
      ∀ r ∈ ([⟨.checkUpdate, offline, ApiCall.checkUpdate.run .running fiveAttempts offline⟩] ++
          [⟨.checkUpdate, afterCheck, ApiCall.checkUpdate.run .running fiveAttempts afterCheck⟩] :
          List CallRecord),
        ¬ FiveFailures r.before.trace :=
  degradedMode_iff fiveAttempts _ _ apiRun_offline

/-- The second check is not refused. -/
theorem degradedMode_forgotten :
    ¬ ∀ (E : Externals) (engine : SynqroEngine) (rs : List CallRecord) (w : World),
      ApiRun E engine ApiCall.Fetches rs w → ∀ r ∈ rs, FiveFailures r.before.trace → r.Refused := by
  intro h
  have hr := h _ _ _ _ apiRun_offline _ (List.mem_append_right _ (.head _)) afterCheck_fiveFailures
  exact not_refused fiveAttempts (c := .checkUpdate) trivial afterCheck hr

end Synqro
