import Synqro.Lib.JsonNumbers
import Synqro.RestoreFrame
import Synqro.CounterLimits

/-!
# State files under failures and deaths

`writeJsonAtomic` replaces a state file by a complete one or leaves it, whatever call fails and
wherever the process dies. A process that dies makes no more calls, so a death is a run from
`World.dying` on: every call from some number on does nothing, except that the first may have done
a part of its work. `stateFiles_atomic` says what a reader sees after one write, and that a run of
updates, each in a process of its own that may die, leaves two state files that parse.
-/

namespace Synqro

/-- The JSON reader reads what was printed of trees within its limit whose floating-point numbers
it once read, though perhaps as neighbours of theirs. -/
structure Externals.Rereads (E : Externals) : Prop extends E.ReadsPlain where
  nested : ∀ bytes j, E.parseJson bytes = .ok j → j.nesting ≤ 127
  printed : ∀ j : Json, j.nesting ≤ 127 →
    (∀ f, j.HasFloat f → ∃ bytes i, E.parseJson bytes = .ok i ∧ i.HasFloat f) →
    E.refusesValue (toVecPretty j) = none ∧ ∃ i, E.parseJson (toVecPretty j) = .ok i ∧
      ∀ ms, j = .obj ms → ∃ ms', i = .obj ms'

theorem Externals.running_rereads : Externals.running.Rereads where
  toReadsPlain := running_readsPlain
  nested bytes j h := by
    have hread : (decodeUtf8? bytes).bind (Json.read 127) = some j := by
      unfold Externals.running at h
      dsimp only at h
      split at h
      · next i hi =>
        cases h
        exact hi
      · cases h
    obtain ⟨cs, -, hcs⟩ := Option.bind_eq_some_iff.1 hread
    exact Json.nesting_read hcs
  printed j h _ := ⟨rfl, j, running_parseJson h, fun ms hj => ⟨ms, hj⟩⟩

/-- The process makes `n` more calls and dies in the next one, of which it does a part. -/
def World.dying (w : World) (n done : Nat) : World :=
  w.withFaults fun i =>
    if i < w.calls + n then w.env.fault i
    else some ⟨.other "killed", if i = w.calls + n then done else 0⟩

/-- Wherever the backup directory is, it is `B`. -/
def World.BackupAt (dir : UnixPath) (B : Loc) (w : World) : Prop :=
  ∀ B', w.base dir = .ok B' → B' = B

/-- Nothing happened but to temporary files of `B`, except that the file `n` there may have been
replaced by one with `Good` contents. -/
structure World.Replaces (B : Loc) (n : FileName) (Good : Bytes → Prop) (w w' : World) : Prop where
  process : w'.process = w.process
  dirs : w.files.SameDirs w'.files
  nodes : ∀ l, (∀ nanos, l ≠ tempFileName nanos :: B) → w'.files.get l = w.files.get l ∨
    l = n :: B ∧ ∃ bytes mode, Good bytes ∧ w'.files.get l = some (.file bytes mode)

namespace World.Replaces

variable {B : Loc} {n : FileName} {Good : Bytes → Prop} {w w' : World}

instance : Std.Refl (Replaces B n Good) := ⟨fun _ => ⟨rfl, .refl _, fun _ _ => .inl rfl⟩⟩

instance : IsTrans World (Replaces B n Good) where
  trans w w₁ w₂ h h' := by
    refine ⟨h'.process.trans h.process, h.dirs.trans h'.dirs, fun l hl => ?_⟩
    rcases h'.nodes l hl with heq | hgood
    · rw [heq]
      exact h.nodes l hl
    · exact .inr hgood

theorem of_sameFiles (h : World.SameFiles w w') : Replaces B n Good w w' :=
  ⟨h.process, by rw [h.files]; exact .refl _, fun l _ => .inl (by rw [h.files])⟩

theorem backupAt (h : Replaces B n Good w w') {dir : UnixPath} (hB : w.BackupAt dir B) :
    w'.BackupAt dir B := by
  intro B' hB'
  refine hB B' ?_
  rw [World.base, h.process, UnixPath.base_sameDirs h.dirs] at hB'
  exact hB'

theorem mono {Good' : Bytes → Prop} (hgood : ∀ bytes, Good bytes → Good' bytes)
    (h : Replaces B n Good w w') : Replaces B n Good' w w' := by
  refine ⟨h.process, h.dirs, fun l hl => (h.nodes l hl).imp_right ?_⟩
  rintro ⟨hn, bytes, mode, hb, hget⟩
  exact ⟨hn, bytes, mode, hgood bytes hb, hget⟩

/-- A file that is neither the state file nor a temporary one. -/
theorem other (h : Replaces B n Good w w') {n' : FileName} (hn : n' ≠ n)
    (htemp : ∀ nanos, tempFileName nanos ≠ n') :
    w'.files.get (n' :: B) = w.files.get (n' :: B) := by
  refine (h.nodes _ fun nanos heq => ?_).resolve_right fun hor => ?_
  · injection heq with hname
    exact htemp nanos hname.symm
  · injection hor.1 with hname
    exact hn hname

/-- The state file is the old one or a good one. -/
theorem self (h : Replaces B n Good w w') (htemp : ∀ nanos, tempFileName nanos ≠ n) :
    w'.files.get (n :: B) = w.files.get (n :: B) ∨
      ∃ bytes mode, Good bytes ∧ w'.files.get (n :: B) = some (.file bytes mode) := by
  refine (h.nodes _ fun nanos heq => ?_).imp_right fun hor => hor.2
  injection heq with hname
  exact htemp nanos hname.symm

end World.Replaces

open World (Replaces SameFiles)

section
variable {E : Externals} {dir : UnixPath} {n : FileName} {value : Json} {B : Loc} {w : World}

/-- One write, whatever fails. -/
theorem writeJsonAtomic_replaces (hB : w.BackupAt dir B) :
    Replaces B n (· = toVecPretty value) w
      (Comp.after (writeJsonAtomic (dir.join (.ofName n)) value) w) := by
  unfold Comp.after
  cases h : writeJsonAtomic (dir.join (.ofName n)) value w with
  | ok u w' =>
    obtain ⟨-, B', t, hB', -, -⟩ := writeJsonAtomic_ok.1 h
    obtain rfl := hB B' hB'
    obtain ⟨hstored, -⟩ := writeJsonAtomic_stored hB' h
    refine ⟨hstored.process, hstored.dirs, fun l hl => ?_⟩
    by_cases hn : l = n :: B'
    · obtain ⟨mode, hfile⟩ := hstored.file
      rw [hn]
      exact .inr ⟨rfl, _, mode, rfl, hfile⟩
    · exact .inl (hstored.rest l hn hl)
  | error e w' =>
    have htouches := writeJsonAtomic_touches h
    refine ⟨htouches.process, htouches.files.1, fun l hl =>
      .inl (htouches.files.2 l fun hloc => ?_)⟩
    obtain ⟨B', hB', rfl⟩ := World.locate_join_eq_ok.1 hloc
    obtain rfl := hB B' hB'
    exact hl _ rfl

end

/-! ## What is written parses -/

/-- The contents parse as counters. -/
def CountersText (E : Externals) (bytes : Bytes) : Prop :=
  ∃ ms, fromSliceValue E readMap bytes = .ok ms

/-- The contents parse as a blacklist. -/
def BlacklistText (E : Externals) (bytes : Bytes) : Prop :=
  ∃ bl, fromSlice E Blacklist.read bytes = .ok bl

/-- What stands there is a file with `Good` contents, or nothing. -/
def AbsentOr (Good : Bytes → Prop) (node : Option Node) : Prop :=
  node = none ∨ ∃ bytes mode, Good bytes ∧ node = some (.file bytes mode)

section
variable {E : Externals} {version : String} {bytes : Bytes} {ms : Json.Members}

/-- Counters that were read are those of a tree that was. -/
theorem fromSliceValue_readMap (h : fromSliceValue E readMap bytes = .ok ms) :
    ∃ j, E.parseJson bytes = .ok j ∧ j.value = .obj ms := by
  unfold fromSliceValue at h
  split at h
  · cases h
  · unfold fromSlice at h
    split at h
    · cases h
    · next j hj =>
      refine ⟨j, hj, ?_⟩
      split at h
      · next ms' hread =>
        cases h
        cases j with
        | obj ns =>
          cases hread
          rw [Json.value_obj]
          rfl
        | _ => cases hread
      · cases h

/-- Counters parse again with one more rollback in them. -/
theorem counted_text (hE : E.Rereads) {counters : Json.Members}
    (h : counters = [] ∨ fromSliceValue E readMap bytes = .ok counters) :
    CountersText E (toVecPretty (.obj (counted version counters))) := by
  have hnew : (jsonU32 (saturatingSucc
    (counterValue (Json.find version counters)))).nesting ≤ 126 :=
    Nat.zero_le _
  have hread : Json.nesting (.obj counters) ≤ 127 ∧ ∀ f, Json.HasFloat f (.obj counters) →
      ∃ bytes i, E.parseJson bytes = .ok i ∧ i.HasFloat f := by
    rcases h with rfl | h
    · refine ⟨Json.nesting_obj.2 (List.forall_mem_nil _), fun f hf => ?_⟩
      cases hf with
      | member hm _ => cases hm
    · obtain ⟨j, hj, hvalue⟩ := fromSliceValue_readMap h
      rw [← hvalue]
      exact ⟨Json.nesting_value (hE.nested _ _ hj), fun f hf => ⟨bytes, j, hj, hf.of_value⟩⟩
  obtain ⟨hnone, i, hi, hobj⟩ := hE.printed (.obj (counted version counters))
    (Json.nesting_insertMember hread.1 hnew)
    fun f hf => hread.2 f (hf.of_insertMember.resolve_left (Json.not_hasFloat_posInt _))
  obtain ⟨ms', rfl⟩ := hobj _ rfl
  refine ⟨AuditLogger.members (Json.value (.obj ms')), ?_⟩
  rw [fromSliceValue, hnone]
  dsimp only
  rw [fromSlice, hi]
  rfl

end

/-! ## Updates -/

/-- An update of a state file. -/
inductive StateUpdate where
  | increment (version : String)
  | blacklist (version : String) (hmacKey : Bytes) (audit : AuditLogger)

/-- The call that makes the update in a backup directory. -/
def StateUpdate.run (E : Externals) (backupDir : UnixPath) : StateUpdate → M Unit
  | .increment version => do
    let _ ← incrementRollbackCounter E version
      (backupDir.join (.ofString "rollback_counters.json"))
  | .blacklist version hmacKey audit =>
    blacklistVersion E version (backupDir.join (.ofString "blacklist.json")) hmacKey audit

section
variable {E : Externals} {version : String} {backupDir : UnixPath} {hmacKey : Bytes}
  {audit : AuditLogger} {B : Loc} {w w' : World}

/-- Counters that were read come from a text, or there was no file to be seen. -/
theorem readCounters_from {counters : Json.Members} {path : UnixPath}
    (h : readCounters E path w = .ok counters w') :
    ∃ bytes, counters = [] ∨ fromSliceValue E readMap bytes = .ok counters := by
  obtain ⟨found, w₁, -, h⟩ := Comp.bind_ok.1 h
  split at h
  · obtain ⟨bytes, w₂, -, h⟩ := Comp.bind_ok.1 h
    exact ⟨bytes, .inr (mapError_ok.1 (Comp.ofExcept_ok.1 h).1)⟩
  · exact ⟨[], .inl (Comp.pure_ok.1 h).1.symm⟩

theorem incrementRollbackCounter_replaces (hE : E.Rereads) (hB : w.BackupAt backupDir B) :
    Replaces B countersJson (CountersText E) w (Comp.after (incrementRollbackCounter E version
      (backupDir.join (.ofName countersJson))) w) := by
  rw [incrementRollbackCounter_eq]
  refine Comp.after_bind (.of_sameFiles (readCounters_sameFiles _ w)) fun counters w₁ hread h₁ => ?_
  obtain ⟨bytes, hfrom⟩ := readCounters_from hread
  have hwrite : Replaces B countersJson (CountersText E) w₁ (Comp.after (writeJsonAtomic
      (backupDir.join (.ofName countersJson)) (.obj (counted version counters))) w₁) :=
    (writeJsonAtomic_replaces (h₁.backupAt hB)).mono fun b hb => by
      rw [hb]
      exact counted_text hE hfrom
  exact Comp.after_bind hwrite fun _ w₂ _ _ => Comp.Respects.pure _ w₂

theorem blacklistVersion_replaces (hE : E.Rereads) (hB : w.BackupAt backupDir B) :
    Replaces B blacklistJson (BlacklistText E) w (Comp.after (blacklistVersion E version
      (backupDir.join (.ofName blacklistJson)) hmacKey audit) w) := by
  rw [blacklistVersion_eq]
  refine Comp.after_bind (.of_sameFiles (Comp.Respects.outcome (loadBlacklistRaw_sameFiles _) w))
    fun loaded w₁ _ h₁ => ?_
  refine Comp.after_bind (.of_sameFiles ⟨rfl, rfl, rfl⟩) fun _ w₂ _ h₂ => ?_
  have hwrite : Replaces B blacklistJson (BlacklistText E) w₂ (Comp.after (writeJsonAtomic
      (backupDir.join (.ofName blacklistJson)) (Blacklist.signed E hmacKey
        (withVersion version (versionsOf loaded))).toJson) w₂) :=
    (writeJsonAtomic_replaces (h₂.backupAt (h₁.backupAt hB))).mono fun b hb => by
      rw [hb]
      exact ⟨_, fromSlice_toJson hE.toReadsPlain _⟩
  refine Comp.after_bind hwrite fun _ w₃ _ _ => .of_sameFiles ?_
  exact Comp.Respects.bind (emit_sameFiles _) (fun _ => AuditLogger.log_sameFiles E audit _ _) w₃

/-- A file that was good where it existed is so after its replacement. -/
theorem World.Replaces.absentOr {n : FileName} {Good : Bytes → Prop} (h : Replaces B n Good w w')
    (htemp : ∀ nanos, tempFileName nanos ≠ n) (hbefore : AbsentOr Good (w.files.get (n :: B))) :
    AbsentOr Good (w'.files.get (n :: B)) := by
  rcases h.self htemp with heq | hgood
  · rw [heq]
    exact hbefore
  · exact .inr hgood

/-- Both state files parse, where they exist. -/
structure StateFilesParse (E : Externals) (B : Loc) (w : World) : Prop where
  counters : AbsentOr (CountersText E) (w.files.get (countersJson :: B))
  blacklist : AbsentOr (BlacklistText E) (w.files.get (blacklistJson :: B))

/-- An update, whatever fails. -/
theorem StateUpdate.run_parses (hE : E.Rereads) (hB : w.BackupAt backupDir B)
    (h : StateFilesParse E B w) (u : StateUpdate) :
    StateFilesParse E B (Comp.after (u.run E backupDir) w) := by
  have hne : countersJson ≠ blacklistJson := by decide
  cases u with
  | increment version =>
    have hafter : Comp.after ((StateUpdate.increment version).run E backupDir) w = Comp.after
        (incrementRollbackCounter E version (backupDir.join (.ofName countersJson))) w := by
      rw [StateUpdate.run, ofString_countersJson]
      exact Comp.after_bind_pure _ _ w
    have hreplaces := @incrementRollbackCounter_replaces E version backupDir B w hE hB
    rw [← hafter] at hreplaces
    refine ⟨hreplaces.absentOr tempFileName_ne_countersJson h.counters, ?_⟩
    rw [hreplaces.other hne.symm tempFileName_ne_blacklistJson]
    exact h.blacklist
  | blacklist version hmacKey audit =>
    have hreplaces := @blacklistVersion_replaces E version backupDir hmacKey audit B w hE hB
    rw [← ofString_blacklistJson] at hreplaces
    rw [StateUpdate.run]
    refine ⟨?_, hreplaces.absentOr tempFileName_ne_blacklistJson h.blacklist⟩
    rw [hreplaces.other hne tempFileName_ne_countersJson]
    exact h.counters

end

/-- A run of updates of the state files in `B`. Each update may die at any call; the next one finds
the files as they were left, in whatever process and environment it runs, and calls `B` by whatever
name. -/
inductive StateRun (E : Externals) (B : Loc) (w : World) : World → Prop where
  | nil : StateRun E B w w
  | update {w₁ w₂ : World} (before : StateRun E B w w₁) (u : StateUpdate) (backupDir : UnixPath)
      (n done : Nat) (located : w₁.BackupAt backupDir B)
      (files : w₂.files = (Comp.after (u.run E backupDir) (w₁.dying n done)).files) :
      StateRun E B w w₂

theorem StateRun.parses {E : Externals} {B : Loc} {w w' : World} (hE : E.Rereads)
    (hrun : StateRun E B w w') (h : StateFilesParse E B w) : StateFilesParse E B w' := by
  induction hrun with
  | nil => exact h
  | @update w₁ w₂ _ u backupDir n done located files ih =>
    have hdying : StateFilesParse E B (w₁.dying n done) := ⟨ih.counters, ih.blacklist⟩
    have hafter := StateUpdate.run_parses (w := w₁.dying n done) hE located hdying u
    exact ⟨files ▸ hafter.counters, files ▸ hafter.blacklist⟩

/-! ## What a reader sees -/

/-- A reader of the path gets the contents. -/
def World.ReadsAs (p : UnixPath) (bytes : Bytes) (w : World) : Prop :=
  ∃ mode, w.nodeAt p = some (.file bytes mode)

/-- One write, for a reader of the target. -/
theorem writeJsonAtomic_seen {dir : UnixPath} {n : FileName} {w : World} (value : Json)
    (hn : n ≠ w.tempFile) :
    ((Comp.after (writeJsonAtomic (dir.join (.ofName n)) value) w).nodeAt (dir.join (.ofName n)) =
        w.nodeAt (dir.join (.ofName n)) ∨
      (Comp.after (writeJsonAtomic (dir.join (.ofName n)) value) w).ReadsAs (dir.join (.ofName n))
        (toVecPretty value)) ∧
    ∀ u w', writeJsonAtomic (dir.join (.ofName n)) value w = .ok u w' →
      w'.ReadsAs (dir.join (.ofName n)) (toVecPretty value) := by
  have hreturned : ∀ u w', writeJsonAtomic (dir.join (.ofName n)) value w = .ok u w' →
      w'.ReadsAs (dir.join (.ofName n)) (toVecPretty value) := by
    intro u w' h
    obtain ⟨-, B, t, hB, -, -⟩ := writeJsonAtomic_ok.1 h
    obtain ⟨hstored, -⟩ := writeJsonAtomic_stored hB h
    obtain ⟨mode, hfile⟩ := hstored.file
    have hlocate : w'.locate (dir.join (.ofName n)) = .ok (n :: B) := by
      rw [World.locate, hstored.process, UnixPath.locateFile_sameDirs hstored.dirs]
      exact World.locate_join_of_base hB n
    refine ⟨mode, ?_⟩
    rw [World.nodeAt, hlocate]
    exact hfile
  refine ⟨?_, hreturned⟩
  unfold Comp.after
  cases h : writeJsonAtomic (dir.join (.ofName n)) value w with
  | ok u w' => exact .inr (hreturned u w' h)
  | error e w' =>
    refine .inl ((writeJsonAtomic_touches h).nodeAt fun l hl htemp => ?_)
    obtain ⟨B, hB, rfl⟩ := World.locate_join_eq_ok.1 hl
    rw [World.locate_join_of_base hB] at htemp
    injection htemp with hloc
    injection hloc with hname
    exact hn hname.symm

/-- State files are replaced atomically: after one write that may fail or die anywhere, a reader of
the target sees what was there or the complete value, the latter when the write returned; and a run
of updates that may die anywhere leaves both state files parsing. A target must not be named like
the temporary file, which no state file is. -/
theorem stateFiles_atomic {E : Externals} (hE : E.Rereads) :
    (∀ (dir : UnixPath) (n : FileName) (value : Json) (w : World) (k done : Nat), n ≠ w.tempFile →
      ((Comp.after (writeJsonAtomic (dir.join (.ofName n)) value) (w.dying k done)).nodeAt
          (dir.join (.ofName n)) = w.nodeAt (dir.join (.ofName n)) ∨
        (Comp.after (writeJsonAtomic (dir.join (.ofName n)) value) (w.dying k done)).ReadsAs
          (dir.join (.ofName n)) (toVecPretty value)) ∧
      ∀ u w', writeJsonAtomic (dir.join (.ofName n)) value (w.dying k done) = .ok u w' →
        w'.ReadsAs (dir.join (.ofName n)) (toVecPretty value)) ∧
    ∀ (B : Loc) (w w' : World), StateRun E B w w' → StateFilesParse E B w →
      StateFilesParse E B w' :=
  ⟨fun _ _ value w k done hn => writeJsonAtomic_seen (w := w.dying k done) value hn,
    fun _ _ _ hrun h => hrun.parses hE h⟩

/-- A machine with an empty backup directory. -/
def emptyBackups : World :=
  .boot .calm (.startedIn appExe.tail) (installedFiles.set backupLoc .dir)

/-- A process that died while it wrote the counters. -/
def diedCounting : World :=
  Comp.after ((StateUpdate.increment "1.0.0").run .running (.ofString "/backup"))
    (emptyBackups.dying 4 10)

/-- The state files after a count that was cut short and a complete one. -/
theorem stateFiles_atomic_resumed : StateFilesParse .running backupLoc
    (Comp.after ((StateUpdate.increment "1.0.0").run .running (.ofString "/backup"))
      (diedCounting.dying 100 0)) := by
  have hempty : emptyBackups.BackupAt (.ofString "/backup") backupLoc := fun _ h => by
    cases h
    rfl
  have hdied : diedCounting.BackupAt (.ofString "/backup") backupLoc :=
    (incrementRollbackCounter_replaces (w := emptyBackups.dying 4 10) Externals.running_rereads
      hempty).backupAt hempty
  exact (stateFiles_atomic Externals.running_rereads).2 backupLoc emptyBackups _
    (.update (.update .nil (.increment "1.0.0") _ 4 10 hempty rfl)
    (.increment "1.0.0") _ 100 0 hdied
      rfl) ⟨.inl rfl, .inl rfl⟩

end Synqro
