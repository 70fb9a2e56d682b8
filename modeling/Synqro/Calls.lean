import Synqro.World

/-!
# What a call does

For each primitive: when it returned, what it found, and which world it left. A call that returned
found `World.Quiet`, the absence of a fault at its number, and counted itself. Next to these rules
stand those for a failed run of the calls that touch files, on which the files may have changed.
-/

namespace Synqro

variable {α ε : Type} {w w' : World}

/-- No fault awaits the next call. -/
def World.Quiet (w : World) : Prop := w.env.fault w.calls = none

/-- No fault awaits the next `n` calls. -/
def World.QuietFor (w : World) (n : Nat) : Prop := ∀ i < n, w.env.fault (w.calls + i) = none

/-- The world after `n` calls that did nothing else. -/
@[simps] def World.advance (w : World) (n : Nat) : World := { w with calls := w.calls + n }

namespace World

theorem quietFor_zero (w : World) : w.QuietFor 0 := fun _ h => absurd h (Nat.not_lt_zero _)

/-- The next calls meet no fault when the first does not and those after it do not. -/
theorem quietFor_succ {n : Nat} : w.QuietFor (n + 1) ↔ w.Quiet ∧ w.tick.QuietFor n := by
  constructor
  · intro h
    refine ⟨h 0 (Nat.succ_pos n), fun i hi => ?_⟩
    have := h (i + 1) (Nat.succ_lt_succ hi)
    rwa [Nat.add_comm i 1, ← Nat.add_assoc] at this
  · rintro ⟨h₀, h⟩ i hi
    cases i with
    | zero => exact h₀
    | succ i =>
      have := h i (Nat.lt_of_succ_lt_succ hi)
      rwa [tick_calls, Nat.add_assoc, Nat.add_comm 1 i] at this

/-- Faultless calls can be counted in two parts. -/
theorem quietFor_add {n m : Nat} : w.QuietFor (n + m) ↔
    w.QuietFor n ∧ (w.advance n).QuietFor m := by
  constructor
  · intro h
    refine ⟨fun i hi => h i (Nat.lt_add_right m hi), fun i hi => ?_⟩
    have := h (n + i) (Nat.add_lt_add_left hi n)
    rwa [← Nat.add_assoc] at this
  · rintro ⟨h₁, h₂⟩ i hi
    by_cases hn : i < n
    · exact h₁ i hn
    · have := h₂ (i - n) (by omega)
      rwa [advance_calls, advance_env, Nat.add_assoc, Nat.add_sub_cancel' (not_lt.1 hn)] at this

end World

section
variable {work : Comp World IoError α} {partly : Nat → Comp World IoError Unit}

/-- A call returns what its work returns, where no fault awaits it. -/
theorem call_ok {a : α} : call work partly w = .ok a w' ↔ w.Quiet ∧ work w.tick = .ok a w' := by
  unfold call World.Quiet
  cases w.env.fault w.calls <;> simp

/-- A call fails because a fault was waiting, after a part of its work, or because its work fails.
-/
theorem call_error {e : IoError} : call work partly w = .error e w' ↔
    (∃ f, w.env.fault w.calls = some f ∧ e = f.error ∧ w' = Comp.after (partly f.done) w.tick) ∨
      (w.Quiet ∧ work w.tick = .error e w') := by
  unfold call World.Quiet
  cases w.env.fault w.calls with
  | none => simp
  | some f => simp [eq_comm]

/-- An operation on the files changes nothing but the files. -/
theorem onFiles_ok {step : World → Comp FileTree IoError α} {a : α} :
    onFiles step w = .ok a w' ↔ ∃ t, step w w.files = .ok a t ∧ w' = w.setFiles t := by
  unfold onFiles
  cases step w w.files with
  | ok b t =>
    constructor
    · intro h; cases h; exact ⟨t, rfl, rfl⟩
    · rintro ⟨t', h, rfl⟩; cases h; rfl
  | error e t => simp

/-- The same when it fails. -/
theorem onFiles_error {step : World → Comp FileTree IoError α} {e : IoError} :
    onFiles step w = .error e w' ↔ ∃ t, step w w.files = .error e t ∧ w' = w.setFiles t := by
  unfold onFiles
  cases step w w.files with
  | ok b t => simp
  | error e' t =>
    constructor
    · intro h; cases h; exact ⟨t, rfl, rfl⟩
    · rintro ⟨t', h, rfl⟩; cases h; rfl

end

/-- A call that does nothing is only counted. -/
theorem bareCall_ok {u : Unit} : bareCall w = .ok u w' ↔ w.Quiet ∧ w' = w.tick := by
  rw [bareCall, call_ok, Comp.pure_ok]
  simp [eq_comm]

/-- The clock is read at the number of calls made so far. -/
theorem now_ok {t : Int} : (now : Comp World ε Int) w = .ok t w' ↔
    t = w.env.clock w.calls ∧ w' = w.tick := by
  unfold now
  simp [eq_comm]

theorem emit_ok {e : Effect} {u : Unit} : (emit e : Comp World ε Unit) w = .ok u w' ↔
    w' = w.emit e := by
  show EStateM.Result.ok () (w.emit e) = .ok u w' ↔ _
  simp [eq_comm]

theorem issue_ok {i : Issue} {u : Unit} : (issue i : Comp World ε Unit) w = .ok u w' ↔
    w' = w.issue i := by
  show EStateM.Result.ok () (w.issue i) = .ok u w' ↔ _
  simp [eq_comm]

section
variable {partly : Nat → Comp World IoError Unit}

/-- A call that works on the files. -/
theorem fileCall_ok {step : World → Comp FileTree IoError α} {a : α} :
    call (onFiles step) partly w = .ok a w' ↔
      w.Quiet ∧ ∃ t, step w.tick w.files = .ok a t ∧ w' = w.tick.setFiles t := by
  rw [call_ok, onFiles_ok]
  rfl

/-- A call that reads the files. -/
theorem queryCall_ok {f : World → FileTree → Except IoError α} {a : α} :
    call (onFiles fun w => Comp.query (f w)) partly w = .ok a w' ↔
      w.Quiet ∧ f w.tick w.files = .ok a ∧ w' = w.tick := by
  simp only [fileCall_ok, Comp.query_ok]
  constructor
  · rintro ⟨hq, t, ⟨hf, rfl⟩, rfl⟩
    exact ⟨hq, hf, rfl⟩
  · rintro ⟨hq, hf, rfl⟩
    exact ⟨hq, _, ⟨hf, rfl⟩, rfl⟩

end

/-- Checks in a row pass when each does. -/
theorem except_bind_ok {β : Type} {x : Except ε α} {f : α → Except ε β} {b : β} :
    (x >>= f) = .ok b ↔ ∃ a, x = .ok a ∧ f a = .ok b := by
  cases x <;> simp [bind, Except.bind]

theorem mapError_ok {ε' : Type} {f : ε → ε'} {r : Except ε α} {a : α} :
    r.mapError f = .ok a ↔ r = .ok a := by
  cases r <;> simp [Except.mapError]

/-! ## Calls that read -/

namespace fs

variable {p : UnixPath}

/-- A read returns the bytes of the file that the path leads to. -/
theorem read_ok {b : Bytes} : read p w = .ok b w' ↔
    w.Quiet ∧ (∃ l m, w.locate p = .ok l ∧ w.files.get l = some (.file b m)) ∧ w' = w.tick := by
  simp only [read, queryCall_ok, except_bind_ok, FileTree.read_ok]
  simp only [← exists_and_left]
  rfl

/-- The mode of the metadata is the file's with the bit of a regular file. -/
theorem metadataMode_ok {mode : UInt32} : metadataMode p w = .ok mode w' ↔
    w.Quiet ∧ (∃ l b m, w.locate p = .ok l ∧ w.files.get l = some (.file b m) ∧
      mode = 0o100000 + UInt32.ofNat m.val) ∧ w' = w.tick := by
  simp only [metadataMode, queryCall_ok, except_bind_ok, FileTree.stat_ok]
  constructor
  · rintro ⟨hq, ⟨m, ⟨l, hl, b, hm⟩, h⟩, hw⟩
    cases h
    exact ⟨hq, ⟨l, b, m, hl, hm, rfl⟩, hw⟩
  · rintro ⟨hq, ⟨l, b, m, hl, hm, rfl⟩, hw⟩
    exact ⟨hq, ⟨m, ⟨l, hl, b, hm⟩, rfl⟩, hw⟩

/-- The canonical path is the place that the path leads to, where something is. -/
theorem canonicalize_ok {q : UnixPath} : canonicalize p w = .ok q w' ↔
    w.Quiet ∧ (∃ l, p.locate w.files w.process.cwd = .ok l ∧ q = .ofLoc l ∧
      (w.files.get l = some .dir ∨ p.dirOnly = false ∧ ∃ b m, w.files.get l = some (.file b m))) ∧
      w' = w.tick := by
  simp only [canonicalize, queryCall_ok, except_bind_ok]
  refine and_congr_right fun _ => and_congr_left fun _ => exists_congr fun l =>
    and_congr_right fun _ => ?_
  cases hg : w.files.get l with
  | none => simp [throw, throwThe, MonadExceptOf.throw]
  | some x =>
    cases x with
    | dir =>
      show Except.ok (UnixPath.ofLoc l) = .ok q ↔ _
      simp [@eq_comm _ q]
    | file b m =>
      cases hd : p.dirOnly
      · show Except.ok (UnixPath.ofLoc l) = .ok q ↔ _
        simp [@eq_comm _ q]
      · simp [throw, throwThe, MonadExceptOf.throw]

/-- A listing holds the readable entries of the directory. -/
theorem readDir_ok {entries : List (Except IoError (FileName × Bool))} :
    readDir p w = .ok entries w' ↔
      w.Quiet ∧ (∃ l es, p.locate w.files w.process.cwd = .ok l ∧ w.files.list l = .ok es ∧
        entries = es.map fun e => match w.env.entryFault w.tick.calls e.1 with
          | some error => .error error
          | none => .ok e) ∧ w' = w.tick := by
  simp only [readDir, queryCall_ok, except_bind_ok]
  constructor
  · rintro ⟨hq, ⟨l, hl, es, hes, h⟩, hw⟩
    cases h
    exact ⟨hq, ⟨l, es, hl, hes, rfl⟩, hw⟩
  · rintro ⟨hq, ⟨l, es, hl, hes, rfl⟩, hw⟩
    exact ⟨hq, ⟨l, hl, es, hes, rfl⟩, hw⟩

/-! ## Calls that write -/

/-- The file is there and empty afterwards. -/
theorem create_ok {l : Loc} : create p w = .ok l w' ↔
    w.Quiet ∧ w.locate p = .ok l ∧
      ∃ t, w.files.create l w.process.freshMode = .ok t ∧ w' = w.tick.setFiles t := by
  simp only [create, fileCall_ok, Comp.bind_ok, Comp.query_ok, Comp.update_ok, Comp.pure_ok]
  constructor
  · rintro ⟨hq, t, ⟨l', t', ⟨hl, rfl⟩, _, t'', hc, rfl, rfl⟩, rfl⟩
    exact ⟨hq, hl, t'', hc, rfl⟩
  · rintro ⟨hq, hl, t, hc, rfl⟩
    exact ⟨hq, t, ⟨l, w.files, ⟨hl, rfl⟩, (), t, hc, rfl, rfl⟩, rfl⟩

/-- The bytes are appended to the file. -/
theorem writeAll_ok {file : Loc} {bytes : Bytes} {u : Unit} : writeAll file bytes w = .ok u w' ↔
    w.Quiet ∧ ∃ t, w.files.append file bytes = .ok t ∧ w' = w.tick.setFiles t := by
  simp only [writeAll, fileCall_ok, Comp.update_ok]

/-- Writing a file is two calls, to create and to append. -/
theorem write_ok {bytes : Bytes} {u : Unit} : write p bytes w = .ok u w' ↔
    w.Quiet ∧ w.tick.Quiet ∧ ∃ l t, w.locate p = .ok l ∧
      w.files.overwrite l bytes w.process.freshMode = .ok t ∧ w' = w.tick.tick.setFiles t := by
  simp only [write, Comp.bind_ok, create_ok, writeAll_ok, FileTree.overwrite, except_bind_ok]
  constructor
  · rintro ⟨l, _, ⟨hq, hl, t, hc, rfl⟩, hq', t', ha, rfl⟩
    exact ⟨hq, hq', l, t', hl, ⟨t, hc, ha⟩, rfl⟩
  · rintro ⟨hq, hq', l, t', hl, ⟨t, hc, ha⟩, rfl⟩
    exact ⟨l, _, ⟨hq, hl, t, hc, rfl⟩, hq', t', ha, rfl⟩

/-- Of the mode the permission bits are set. -/
theorem setPermissions_ok {mode : UInt32} {u : Unit} : setPermissions p mode w = .ok u w' ↔
    w.Quiet ∧ ∃ l t, w.locate p = .ok l ∧ w.files.chmod l (Fin.ofNat 4096 mode.toNat) = .ok t ∧
      w' = w.tick.setFiles t := by
  simp only [setPermissions, fileCall_ok, Comp.bind_ok, Comp.query_ok, Comp.update_ok]
  constructor
  · rintro ⟨hq, t, ⟨l, _, ⟨hl, rfl⟩, hc⟩, rfl⟩
    exact ⟨hq, l, t, hl, hc, rfl⟩
  · rintro ⟨hq, l, t, hl, hc, rfl⟩
    exact ⟨hq, t, ⟨l, _, ⟨hl, rfl⟩, hc⟩, rfl⟩

/-- A rename moves the node and tells what it moved. -/
theorem rename_ok {dst : UnixPath} {u : Unit} : rename p dst w = .ok u w' ↔
    w.Quiet ∧ ∃ s d t, w.locate p = .ok s ∧ w.locate dst = .ok d ∧ w.files.rename s d = .ok t ∧
      w' = (w.tick.setFiles t).emit (.renamed s d (t.get d)) := by
  simp only [rename, call_ok, Comp.bind_ok, Comp.ofExcept_ok, onFiles_ok, Comp.update_ok]
  constructor
  · rintro ⟨hq, _, _, hget, s, _, ⟨hs, rfl⟩, d, _, ⟨hd, rfl⟩, _, _, ⟨t, hr, rfl⟩, hm⟩
    cases hget
    cases hm
    exact ⟨hq, s, d, t, hs, hd, hr, rfl⟩
  · rintro ⟨hq, s, d, t, hs, hd, hr, rfl⟩
    exact ⟨hq, _, _, rfl, s, _, ⟨hs, rfl⟩, d, _, ⟨hd, rfl⟩, (), _, ⟨t, hr, rfl⟩, rfl⟩

/-- The file is gone afterwards. -/
theorem removeFile_ok {u : Unit} : removeFile p w = .ok u w' ↔
    w.Quiet ∧ ∃ l t, w.locate p = .ok l ∧ w.files.unlink l = .ok t ∧ w' = w.tick.setFiles t := by
  simp only [removeFile, fileCall_ok, Comp.bind_ok, Comp.query_ok, Comp.update_ok]
  constructor
  · rintro ⟨hq, t, ⟨l, _, ⟨hl, rfl⟩, hc⟩, rfl⟩
    exact ⟨hq, l, t, hl, hc, rfl⟩
  · rintro ⟨hq, l, t, hl, hc, rfl⟩
    exact ⟨hq, t, ⟨l, _, ⟨hl, rfl⟩, hc⟩, rfl⟩

/-- The missing directories are made from the root or from the working directory on. -/
theorem createDirAll_ok {u : Unit} : createDirAll p w = .ok u w' ↔
    w.Quiet ∧ ∃ t, FileTree.mkdirAll (if p.absolute then [] else w.process.cwd) p.components
      w.files = .ok u t ∧ w' = w.tick.setFiles t := by
  simp only [createDirAll, makeDirs, fileCall_ok]
  rfl

end fs

theorem currentExe_ok {p : UnixPath} : currentExe w = .ok p w' ↔
    w.Quiet ∧ p = .ofLoc w.process.exe ∧ w' = w.tick := by
  rw [currentExe, call_ok]
  refine and_congr_right fun _ => ?_
  show EStateM.Result.ok (UnixPath.ofLoc w.process.exe) w.tick = .ok p w' ↔ _
  simp [eq_comm]

end Synqro
