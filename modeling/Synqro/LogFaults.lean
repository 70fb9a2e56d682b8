import Synqro.AuditTrail

/-!
# Log calls that fail

`AuditLogger.log` takes the advisory lock, writes its line, releases the lock and flushes, and
leaves at the first of these that fails. `AuditLogger.log_error` says what the three failures leave
behind: a failed write keeps the lock and a part of the line. `AuditLogger.log_harmless` says which
failures later calls and the verifier do not notice.
-/

namespace Synqro

/-- The locking, the write and the flush of a log call succeed. -/
structure World.Logs (w : World) : Prop where
  locks : w.env.fault (w.calls + 1) = none
  writes : w.env.fault (w.calls + 2) = none
  flushes : w.env.fault (w.calls + 4) = none

namespace AuditLogger

section
variable (E : Externals) (logger : AuditLogger)

/-- The line that a log call in the world writes, with its newline. -/
def lineBytes (event : AuditEvent) (data : Json) (w : World) : Bytes :=
  let payload := logger.payload (E.toRfc3339 (w.env.clock w.calls)) event data
  encodeUtf8 (toJsonString (.obj (Json.insertMember "line_hmac"
    (.str (computeHmac E logger.hmacKey (encodeUtf8 (canonicalJsonSorted payload))))
    (members payload)))) ++ [10]

end

section
variable {E : Externals} {logger : AuditLogger} {event : AuditEvent} {data : Json} {w w' : World}

theorem whole_lineBytes : Lines.Whole (logger.lineBytes E event data w) := .inr ⟨_, rfl⟩

/-- What a log call leaves in the log file, whether it returns and its effect, by the step that
fails. -/
theorem log_spec : (Comp.after (logger.log E event data) w).auditFile =
      (match w.env.fault (w.calls + 1), w.env.fault (w.calls + 2) with
      | some _, _ => w.auditFile
      | none, some f => ⟨w.auditFile.bytes ++ (logger.lineBytes E event data w).take f.done, true⟩
      | none, none =>
        ⟨w.auditFile.bytes ++ logger.lineBytes E event data w,
          (w.env.fault (w.calls + 3)).isSome⟩) ∧
    Comp.returned (logger.log E event data w) = ((w.env.fault (w.calls + 1)).isNone &&
      (w.env.fault (w.calls + 2)).isNone && (w.env.fault (w.calls + 4)).isNone) ∧
    (Comp.after (logger.log E event data) w).trace =
      (match w.env.fault (w.calls + 1), w.env.fault (w.calls + 2) with
      | none, none => w.trace ++ [.logged event data]
      | _, _ => w.trace) := by
  unfold Comp.after log
  cases h₁ : w.env.fault (w.calls + 1) with
  | some f =>
    simp only [Comp.bind_run, now, issue, Comp.modify_run, Comp.mapErr, flock, call,
      World.issue_env, World.tick_env, World.issue_calls, World.tick_calls, h₁]
    exact ⟨rfl, rfl, rfl⟩
  | none =>
    cases h₂ : w.env.fault (w.calls + 2) with
    | some f =>
      simp only [Comp.bind_run, now, issue, Comp.modify_run, Comp.mapErr, flock, writeAll, call,
        World.issue_env, World.tick_env, World.setAuditFile_env, World.issue_calls,
        World.tick_calls, World.setAuditFile_calls, h₁, h₂]
      exact ⟨rfl, rfl, rfl⟩
    | none =>
      -- the outcome of the unlocking is ignored
      cases h₃ : w.env.fault (w.calls + 3) <;> cases h₄ : w.env.fault (w.calls + 4) <;>
      · simp only [Comp.bind_run, now, issue, emit, Comp.modify_run, Comp.mapErr, Comp.ignore,
          flock, writeAll, bareCall, call, World.issue_env, World.tick_env, World.setAuditFile_env,
          World.emit_env, World.issue_calls, World.tick_calls, World.setAuditFile_calls,
          World.emit_calls, Comp.after, Comp.pure_run, Comp.final_ok, h₁, h₂, h₃, h₄]
        exact ⟨rfl, rfl, rfl⟩

theorem returned_log : Comp.returned (logger.log E event data w) = true ↔ w.Logs := by
  rw [log_spec.2.1]
  simp only [Bool.and_eq_true, Option.isNone_iff_eq_none]
  exact ⟨fun h => ⟨h.1.1, h.1.2, h.2⟩, fun h => ⟨⟨h.locks, h.writes⟩, h.flushes⟩⟩

/-! ## The log file of a run -/

/-- Every line of the file is accepted by the verifier. -/
def Accepts (E : Externals) (logger : AuditLogger) (bytes : Bytes) : Prop :=
  ∀ l ∈ Lines.lines bytes, AcceptedLine E logger.hmacKey l

theorem Accepts.append {a b : Bytes} (hw : Lines.Whole a) :
    logger.Accepts E (a ++ b) ↔ logger.Accepts E a ∧ logger.Accepts E b := by
  unfold Accepts
  rw [hw.lines_append, List.forall_mem_append]

/-- Neither the lock nor the log file keeps later calls, of any process, from logging, nor the
verifier from accepting the file with the lines that were and will be logged. -/
structure Harmless (E : Externals) (logger : AuditLogger) (w w' : World) : Prop where
  unlocked : w'.auditFile.locked = false
  kept : w.auditFile.bytes <+: w'.auditFile.bytes
  verified : ∀ later, Lines.Whole later → logger.Accepts E later →
    ∀ v path, v.Holds path (w'.auditFile.bytes ++ later) →
      v.QuietFor ((Lines.lines (w'.auditFile.bytes ++ later)).length + 2) →
      Comp.returned (logger.verifyLog E path v) = true

/-- The step that fails is the locking, of a lock that was free, or the flushing, after a line that
the verifier accepts was written and the lock released. -/
def FailsCleanly (E : Externals) (logger : AuditLogger) (event : AuditEvent) (data : Json)
    (w : World) : Prop :=
  (w.env.fault (w.calls + 1)).isSome ∧ w.auditFile.locked = false ∨
    w.env.fault (w.calls + 1) = none ∧ w.env.fault (w.calls + 2) = none ∧
      w.env.fault (w.calls + 3) = none ∧ logger.Accepts E (logger.lineBytes E event data w)

/-- The worlds of a run of log calls: each call returned, with a line that the verifier accepts, or
failed cleanly, and what happens in between leaves the log file alone. -/
inductive LogRun (E : Externals) (logger : AuditLogger) : World → Prop
  | start {w : World} : w.auditFile = ⟨[], false⟩ → LogRun E logger w
  | outside {w w' : World} : LogRun E logger w → w'.auditFile = w.auditFile → LogRun E logger w'
  | logged {w : World} (event : AuditEvent) (data : Json) : LogRun E logger w →
      Comp.returned (logger.log E event data w) = true →
      logger.Accepts E (logger.lineBytes E event data w) →
      LogRun E logger (Comp.after (logger.log E event data) w)
  | failed {w : World} (event : AuditEvent) (data : Json) : LogRun E logger w →
      Comp.returned (logger.log E event data w) = false → logger.FailsCleanly E event data w →
      LogRun E logger (Comp.after (logger.log E event data) w)

/-- The log file is of whole lines, which the verifier accepts. -/
structure SoundLog (E : Externals) (logger : AuditLogger) (bytes : Bytes) : Prop where
  whole : Lines.Whole bytes
  accepted : logger.Accepts E bytes

theorem SoundLog.append {bytes : Bytes} (h : logger.SoundLog E bytes)
    (hline : logger.Accepts E (logger.lineBytes E event data w)) :
    logger.SoundLog E (bytes ++ logger.lineBytes E event data w) :=
  ⟨h.whole.append whole_lineBytes, (Accepts.append h.whole).2 ⟨h.accepted, hline⟩⟩

theorem LogRun.sound (h : LogRun E logger w) : logger.SoundLog E w.auditFile.bytes := by
  induction h with
  | start h => exact h ▸ ⟨.inl rfl, nofun⟩
  | outside _ h ih => exact h ▸ ih
  | logged event data _ hr hline ih =>
    have hlogs := returned_log.1 hr
    rw [log_spec.1, hlogs.locks, hlogs.writes]
    exact ih.append hline
  | failed event data _ _ hclean ih =>
    rw [log_spec.1]
    rcases hclean with ⟨hfault, -⟩ | ⟨h₁, h₂, -, hline⟩
    · obtain ⟨f, hf⟩ := Option.isSome_iff_exists.1 hfault
      rw [hf]
      exact ih
    · rw [h₁, h₂]
      exact ih.append hline

/-- What was added to a sound log file is harmless when the verifier accepts it. -/
theorem harmless_iff {added : Bytes} (hs : logger.SoundLog E w.auditFile.bytes)
    (hadded : w'.auditFile.bytes = w.auditFile.bytes ++ added) (hwhole : Lines.Whole added) :
    logger.Harmless E w w' ↔ w'.auditFile.locked = false ∧ logger.Accepts E added := by
  constructor
  · intro h
    refine ⟨h.unlocked, ?_⟩
    have hverified := h.verified [] (.inl rfl) nofun
      ((w.withFaults fun _ => none).withLog (w'.auditFile.bytes ++ [])) _ (holds_withLog _ _)
      fun _ _ => rfl
    have hall := ((returned_verifyLog (holds_withLog _ _)).1 hverified).2
    rw [List.append_nil, hadded] at hall
    exact ((Accepts.append hs.whole).1 hall).2
  · rintro ⟨hunlocked, haccepts⟩
    refine ⟨hunlocked, hadded ▸ List.prefix_append _ _, fun later _ hlater v path hfile hq => ?_⟩
    refine (returned_verifyLog hfile).2 ⟨hq, ?_⟩
    rw [hadded]
    exact (Accepts.append (hs.whole.append hwhole)).2
      ⟨(Accepts.append hs.whole).2 ⟨hs.accepted, haccepts⟩, hlater⟩

/-- A log call that failed is harmless exactly when it failed cleanly. -/
theorem log_harmless (hrun : LogRun E logger w) {e : SynqroError}
    (h : logger.log E event data w = .error e w') :
    logger.Harmless E w w' ↔ logger.FailsCleanly E event data w := by
  have hfile := (@log_spec E logger event data w).1
  rw [Comp.after, h, Comp.final_error] at hfile
  unfold FailsCleanly
  cases h₁ : w.env.fault (w.calls + 1) with
  | some f =>
    -- nothing was written
    rw [h₁] at hfile
    rw [harmless_iff hrun.sound (by rw [hfile, List.append_nil]) (.inl rfl), hfile]
    simp [Accepts, Lines.lines, Lines.pieces]
  | none =>
    rw [h₁] at hfile
    cases h₂ : w.env.fault (w.calls + 2) with
    | some f =>
      -- the lock is still held
      rw [h₂] at hfile
      refine iff_of_false (fun hharmless => ?_) (by simp)
      have hunlocked := hharmless.unlocked
      rw [hfile] at hunlocked
      cases hunlocked
    | none =>
      rw [h₂] at hfile
      rw [harmless_iff hrun.sound (by rw [hfile]) whole_lineBytes, hfile]
      simp

theorem log_failed (h : Comp.returned (logger.log E event data w) = false) :
    ∃ e w', logger.log E event data w = .error e w' := by
  cases hr : logger.log E event data w with
  | ok u w' =>
    rw [hr] at h
    cases h
  | error e w' => exact ⟨e, w', rfl⟩

end

/-- A machine whose disk is full at one call. -/
def fullDiskAt (k : Nat) : World :=
  .boot { Environment.calm with
    fault := fun n =>
      if n = k then some ⟨.other "No space left on device (os error 28)", 5⟩ else none }
    (.startedIn []) .empty

theorem fullDiskAt_run (k : Nat) : LogRun .running auditor (fullDiskAt k) := .start rfl

theorem log_harmless_fullDisk :
    ∃ e w', auditor.log .running .SynqroInit (jsonObject []) (fullDiskAt 1) = .error e w' ∧
      (auditor.Harmless .running (fullDiskAt 1) w' ↔
        auditor.FailsCleanly .running .SynqroInit (jsonObject []) (fullDiskAt 1)) := by
  obtain ⟨e, w', h⟩ := log_failed (log_spec.2.1.trans rfl :
    Comp.returned (auditor.log .running .SynqroInit (jsonObject []) (fullDiskAt 1)) = false)
  exact ⟨e, w', h, log_harmless (fullDiskAt_run 1) h⟩

/-- A write that fails after five bytes keeps the lock. -/
theorem log_keeps_lock :
    ¬ ∀ (E : Externals) (logger : AuditLogger) (event : AuditEvent) (data : Json) (w w' : World)
      (e : SynqroError), LogRun E logger w → logger.log E event data w = .error e w' →
      logger.Harmless E w w' := by
  intro h
  obtain ⟨e, w', hlog⟩ := log_failed (log_spec.2.1.trans rfl :
    Comp.returned (auditor.log .running .SynqroInit (jsonObject []) (fullDiskAt 2)) = false)
  have hunlocked := (h _ _ _ _ _ _ _ (fullDiskAt_run 2) hlog).unlocked
  have hfile := (@log_spec .running auditor .SynqroInit (jsonObject []) (fullDiskAt 2)).1
  rw [Comp.after, hlog, Comp.final_error] at hfile
  rw [hfile] at hunlocked
  cases hunlocked

end AuditLogger

end Synqro
