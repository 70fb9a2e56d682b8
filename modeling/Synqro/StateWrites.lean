import Synqro.Lib.LastTouch
import Synqro.Bookkeeping

/-!
# The state files that a rollback writes

Once its files are restored, a rollback stores the new count of its version and, at the third, the
blacklist. `stateWrites` computes from the files it finds which state files these are and what it
puts into them; `finishRollback_writes` says that the bookkeeping makes these writes, one after the
other, and no others.
-/

namespace FileTree

/-- The file at a location. -/
def fileAt (t : FileTree) (l : Loc) : Option (Bytes × Mode) :=
  match t.get l with
  | some (.file bytes mode) => some (bytes, mode)
  | _ => none

variable {t t' : FileTree} {l : Loc}

theorem fileAt_congr (h : t'.get l = t.get l) : t'.fileAt l = t.fileAt l := by
  rw [fileAt, fileAt, h]

theorem fileAt_of_get {bytes : Bytes} {mode : Mode} (h : t.get l = some (.file bytes mode)) :
    t.fileAt l = some (bytes, mode) := by
  rw [fileAt, h]

theorem fileAt_of_none (h : t.get l = none) : t.fileAt l = none := by
  rw [fileAt, h]

/-- Directories are no files. -/
theorem AddsDirs.fileAt (h : t.AddsDirs t') (l : Loc) : t'.fileAt l = t.fileAt l := by
  rcases h l with h | ⟨hnone, hdir⟩
  · exact fileAt_congr h
  · rw [FileTree.fileAt, FileTree.fileAt, hnone, hdir]

/-- A replacement puts the file at its destination and clears the place it was written at. -/
theorem replace_fileAt {s d : Loc} {bytes : Bytes} {mode fresh : Mode}
    (h : t.replace s d bytes mode fresh = .ok t') (l : Loc) :
    t'.fileAt l = if l = d then some (bytes, mode) else if l = s then none else t.fileAt l := by
  obtain ⟨-, hd, hs, hrest, -⟩ := replace_ok h
  by_cases hld : l = d
  · rw [if_pos hld, hld, fileAt_of_get hd]
  by_cases hls : l = s
  · rw [if_neg hld, if_pos hls, hls, fileAt_of_none (hs fun hsd => hld (hls.trans hsd))]
  · rw [if_neg hld, if_neg hls, fileAt_congr (hrest l hls hld)]

/-- A published file has the mode of the file it was written over, or the fresh one. -/
theorem publish_fileAt {s d : Loc} {bytes : Bytes} {fresh : Mode}
    (h : t.publish s d bytes fresh = .ok t') (l : Loc) :
    t'.fileAt l = if l = d then some (bytes, ((t.fileAt s).map Prod.snd).getD fresh)
      else if l = s then none else t.fileAt l := by
  obtain ⟨t₁, hwrite, hrename⟩ := Synqro.except_bind_ok.1 h
  obtain ⟨⟨m, hm, hold⟩, hrest₁, -⟩ := overwrite_ok hwrite
  obtain ⟨-, ⟨b, m', hfrom, hto⟩, hgone, hrest₂⟩ := rename_ok hrename
  cases hm.symm.trans hfrom
  have hmode : ((t.fileAt s).map Prod.snd).getD fresh = m := by
    rcases hold with ⟨b, hb⟩ | ⟨hnone, rfl⟩
    · rw [fileAt_of_get hb]
      rfl
    · rw [fileAt_of_none hnone]
      rfl
  by_cases hld : l = d
  · rw [if_pos hld, hmode, hld, fileAt_of_get hto]
  by_cases hls : l = s
  · rw [if_neg hld, if_pos hls, hls, fileAt_of_none (hgone fun hsd => hld (hls.trans hsd))]
  · rw [if_neg hld, if_neg hls, fileAt_congr ((hrest₂ l hls hld).trans (hrest₁ l hls))]

end FileTree

namespace Synqro

open LastTouch

/-! ## One state file -/

/-- A state file that is written: where it is prepared, where it goes and what it is. -/
structure StateFileWrite where
  temp : Loc
  dest : Loc
  file : Bytes × Mode

/-- The files once it is written. -/
def StateFileWrite.apply (s : StateFileWrite) (files : Loc → Option (Bytes × Mode)) :
    Loc → Option (Bytes × Mode) := fun l =>
  if l = s.dest then some s.file else if l = s.temp then none else files l

/-- The writes lead from the files `files` to `files'`. -/
def Writes (ss : List StateFileWrite) (files files' : Loc → Option (Bytes × Mode)) : Prop :=
  Steps StateFileWrite.temp StateFileWrite.dest (fun s file => file = s.file) ss files files'

/-- What is at a place after the writes is what they put there last, or what was there before. -/
theorem Writes.put_iff {ss : List StateFileWrite} {files files' : Loc → Option (Bytes × Mode)}
    {Good : Bytes × Mode → Prop} (h : Writes ss files files') (l : Loc) :
    (∃ file, Good file ∧ files' l = some file) ↔
      (lastTouch StateFileWrite.temp StateFileWrite.dest ss l = none →
        ∃ file, Good file ∧ files l = some file) ∧
      (lastTouch StateFileWrite.temp StateFileWrite.dest ss l ≠ none →
        ∃ s, lastTouch StateFileWrite.temp StateFileWrite.dest ss l = some (.put s) ∧
          Good s.file) := by
  have hget := Steps.get h l
  cases hlast : lastTouch StateFileWrite.temp StateFileWrite.dest ss l with
  | none =>
    rw [hlast] at hget
    simp [show files' l = files l from hget]
  | some t =>
    rw [hlast] at hget
    cases t with
    | cleared => simp [show files' l = none from hget]
    | put s =>
      obtain ⟨_, rfl, hs⟩ := hget
      simp [hs]

theorem Writes.cons {s : StateFileWrite} {ss : List StateFileWrite}
    {files files' : Loc → Option (Bytes × Mode)} (h : Writes ss (s.apply files) files') :
    Writes (s :: ss) files files' :=
  Steps.cons rfl (fun _ => rfl) h

section
variable (E : Externals) (hmacKey : Bytes) (B : Loc) (env : Environment) (fresh : Mode)

/-- What `write_json_atomic` does to the files, from the call of number `calls` on. -/
def stateWrite (n : FileName) (value : Json) (calls : Nat) (files : Loc → Option (Bytes × Mode)) :
    StateFileWrite :=
  let temp := tempFileName (timestampNanos (env.clock calls)) :: B
  { temp, dest := n :: B, file := (toVecPretty value, ((files temp).map Prod.snd).getD fresh) }

variable {B} {w w' : World} {dir : UnixPath} {u : Unit}

theorem writeJsonAtomic_write {n : FileName} {value : Json} (hB : w.base dir = .ok B)
    (h : writeJsonAtomic (dir.join (.ofName n)) value w = .ok u w') :
    w'.files.fileAt =
      (stateWrite B w.env w.process.freshMode n value w.calls w.files.fileAt).apply
        w.files.fileAt := by
  obtain ⟨-, B', t, hB', hp, rfl⟩ := writeJsonAtomic_ok.1 h
  obtain rfl : B = B' := Except.ok.inj (hB.symm.trans hB')
  exact funext (FileTree.publish_fileAt hp)

/-! ## The counters and the blacklist -/

variable (B)

/-- The file at a place that the call of number `calls` reads, when no fault awaits it. -/
def readFile (l : Loc) (calls : Nat) (files : Loc → Option (Bytes × Mode)) :
    Option (Bytes × Mode) :=
  if (env.fault calls).isNone then files l else none

/-- The counters of a file; no file has none. -/
def countersOf (file : Option (Bytes × Mode)) : Json.Members :=
  (file.bind fun f => (fromSliceValue E readMap f.1).toOption).getD []

/-- The versions of a blacklist file; none when it does not load. -/
def blacklistedIn (file : Option (Bytes × Mode)) : List String :=
  (file.bind fun f => (checkBlacklist E hmacKey f.1).toOption).elim [] Blacklist.blacklisted

/-- The state files that the bookkeeping of a rollback writes once the rollback is logged. -/
def stateWrites (version : String) (calls : Nat) (files : Loc → Option (Bytes × Mode)) :
    List StateFileWrite :=
  let found := readFile env (countersJson :: B) calls files
  let stored := calls + if found.isSome then 2 else 1
  let counters := countersOf E found
  let first := stateWrite B env fresh countersJson (.obj (counted version counters)) stored files
  let files := first.apply files
  let versions :=
    withVersion version (blacklistedIn E hmacKey
      (readFile env (blacklistJson :: B) (stored + 6) files))
  let second := stateWrite B env fresh blacklistJson (Blacklist.signed E hmacKey versions).toJson
    (stored + 7) files
  if 3 ≤ saturatingSucc (counterOf version counters) then [first, second] else [first]

end

/-- The files that the bookkeeping writes in the backup directory `B`. -/
def StateFile (B l : Loc) : Prop :=
  l = countersJson :: B ∨ l = blacklistJson :: B ∨ ∃ nanos, l = tempFileName nanos :: B

theorem StateFile.below {B l : Loc} (h : StateFile B l) : B <:+ l := by
  rcases h with rfl | rfl | ⟨_, rfl⟩
  all_goals exact List.suffix_cons _ _

section
variable {E : Externals} {version : String} {hmacKey : Bytes} {audit : AuditLogger} {B : Loc}
  {dir : UnixPath} {w w' : World} {u : Unit}

/-- The writes touch state files only. -/
theorem stateWrites_untouched {env : Environment} {fresh : Mode} {calls : Nat}
    {files : Loc → Option (Bytes × Mode)} {l : Loc} (hl : ¬ StateFile B l) :
    lastTouch StateFileWrite.temp StateFileWrite.dest
      (stateWrites E hmacKey B env fresh version calls files) l = none := by
  have hstate : ∀ s ∈ stateWrites E hmacKey B env fresh version calls files,
      StateFile B s.temp ∧ StateFile B s.dest := by
    intro s hs
    unfold stateWrites at hs
    dsimp only at hs
    split at hs
    · rcases List.mem_pair.1 hs with rfl | rfl
      · exact ⟨.inr (.inr ⟨_, rfl⟩), .inl rfl⟩
      · exact ⟨.inr (.inr ⟨_, rfl⟩), .inr (.inl rfl)⟩
    · obtain rfl := List.mem_singleton.1 hs
      exact ⟨.inr (.inr ⟨_, rfl⟩), .inl rfl⟩
  cases hlast : lastTouch StateFileWrite.temp StateFileWrite.dest
    (stateWrites E hmacKey B env fresh version calls files) l with
  | none => rfl
  | some t =>
    have htouched := of_lastTouch hlast
    cases t with
    | put s => exact absurd (htouched.2 ▸ (hstate s htouched.1).2) hl
    | cleared =>
      obtain ⟨s, hs, rfl⟩ := htouched
      exact absurd (hstate s hs).1 hl

/-- The counters that were read are those of the file found. -/
theorem readCounters_found {counters : Json.Members} (hB : w.base dir = .ok B)
    (h : readCounters E (dir.join (.ofName countersJson)) w = .ok counters w') :
    let found := readFile w.env (countersJson :: B) w.calls w.files.fileAt
    counters = countersOf E found ∧ w' = w.advance (if found.isSome then 2 else 1) := by
  have hfile := World.locate_join_of_base hB countersJson
  by_cases hq : w.Quiet
  · have hpath : (dir.join (.ofName countersJson)).locate w.files w.process.cwd =
        .ok (countersJson :: B) := by
      rw [← UnixPath.locateFile_join_ofName]
      exact hfile
    have hfound : readFile w.env (countersJson :: B) w.calls w.files.fileAt =
        w.files.fileAt (countersJson :: B) := if_pos (Option.isNone_iff_eq_none.2 hq)
    rw [readCounters, Comp.bind_run, fs.pathExists_run hq hpath
      (UnixPath.join_ofName_dirOnly dir _)] at h
    dsimp only at h ⊢
    rw [hfound]
    cases hg : w.files.get (countersJson :: B) with
    | none =>
      rw [hg] at h
      cases h
      rw [FileTree.fileAt_of_none hg]
      exact ⟨rfl, rfl⟩
    | some node =>
      rw [hg, Option.isSome_some, if_pos rfl] at h
      simp only [Comp.bind_ok, Comp.mapErr_ok, fs.read_ok, Comp.ofExcept_ok, mapError_ok] at h
      obtain ⟨bytes, _, ⟨-, ⟨l, m, hl, hbytes⟩, rfl⟩, hparse, rfl⟩ := h
      cases hfile.symm.trans hl
      have hbytes' : w.files.get (countersJson :: B) = some (.file bytes m) := hbytes
      rw [FileTree.fileAt_of_get hbytes', countersOf, Option.bind_some, hparse]
      exact ⟨rfl, rfl⟩
  · have hfound : readFile w.env (countersJson :: B) w.calls w.files.fileAt = none :=
      if_neg fun hnone => hq (Option.isNone_iff_eq_none.1 hnone)
    rw [readCounters, Comp.bind_run, fs.pathExists_fault hq] at h
    cases h
    dsimp only
    rw [hfound]
    exact ⟨rfl, rfl⟩

/-- The versions that a blacklist is extended from are those of the file found. -/
theorem loadBlacklistRaw_found (hB : w.base dir = .ok B) {loaded : Except SynqroError Blacklist}
    (h : (Comp.outcome (loadBlacklistRaw E (dir.join (.ofName blacklistJson)) hmacKey) :
      M (Except SynqroError Blacklist)) w = .ok loaded w') :
    versionsOf loaded = blacklistedIn E hmacKey
        (readFile w.env (blacklistJson :: B) w.calls w.files.fileAt) ∧ w' = w.tick := by
  have houtcome {r : Except SynqroError Blacklist} {v : World}
      (hload : loadBlacklistRaw E
        (dir.join (.ofName blacklistJson)) hmacKey w = Comp.ofExcept r v) :
      loaded = r ∧ w' = v := by
    rw [Comp.outcome, hload] at h
    cases r <;> cases h <;> exact ⟨rfl, rfl⟩
  by_cases hq : w.Quiet
  · obtain ⟨rfl, rfl⟩ := houtcome (loadBlacklistRaw_run E hmacKey hq hB)
    refine ⟨?_, rfl⟩
    rw [readFile, if_pos (Option.isNone_iff_eq_none.2 hq), FileTree.fileAt]
    cases w.files.get (blacklistJson :: B) with
    | none => rfl
    | some node =>
      cases node with
      | dir => rfl
      | file bytes m =>
        dsimp only [blacklistIn, blacklistedIn, Option.bind_some]
        cases checkBlacklist E hmacKey bytes <;> rfl
  · obtain ⟨f, hf⟩ := Option.ne_none_iff_exists'.1 hq
    have hread : fs.read (dir.join (.ofName blacklistJson)) w = .error f.error w.tick :=
      call_error.2 (.inl ⟨f, hf, rfl, rfl⟩)
    have hload : loadBlacklistRaw E (dir.join (.ofName blacklistJson)) hmacKey w =
        Comp.ofExcept
          (.error (.Permission s!"Cannot read blacklist: {f.error.display}")) w.tick := by
      rw [loadBlacklistRaw_eq, Comp.bind_run, Comp.mapErr, hread]
      rfl
    obtain ⟨rfl, rfl⟩ := houtcome hload
    rw [readFile, if_neg fun hnone => hq (Option.isNone_iff_eq_none.1 hnone)]
    exact ⟨rfl, rfl⟩

/-- The count of a version is stored. -/
theorem incrementRollbackCounter_write {count : UInt32} (hB : w.base dir = .ok B)
    (h : incrementRollbackCounter E version (dir.join (.ofName countersJson)) w = .ok count w') :
    let found := readFile w.env (countersJson :: B) w.calls w.files.fileAt
    let stored := w.calls + if found.isSome then 2 else 1
    count = saturatingSucc (counterOf version (countersOf E found)) ∧
      w'.files.fileAt = (stateWrite B w.env w.process.freshMode countersJson
        (.obj (counted version (countersOf E found))) stored w.files.fileAt).apply w.files.fileAt ∧
      w'.env = w.env ∧ w'.process = w.process ∧ w'.calls = stored + 6 ∧ w'.base dir = .ok B := by
  rw [incrementRollbackCounter_eq] at h
  obtain ⟨counters, w₁, hread, hstore⟩ := Comp.bind_ok.1 h
  obtain ⟨_, w₂, hwrite, hreturn⟩ := Comp.bind_ok.1 hstore
  obtain ⟨rfl, rfl⟩ := Comp.pure_ok.1 hreturn
  obtain ⟨rfl, hw₁⟩ := readCounters_found hB hread
  have hB₁ : w₁.base dir = .ok B := by
    rw [hw₁]
    exact hB
  obtain ⟨hstored, hcalls⟩ := writeJsonAtomic_stored hB₁ hwrite
  have hB₂ : w₂.base dir = .ok B := by
    rw [World.base, hstored.process, UnixPath.base_sameDirs hstored.dirs]
    exact hB₁
  have hfiles := writeJsonAtomic_write hB₁ hwrite
  subst hw₁
  exact ⟨rfl, hfiles, hstored.env, hstored.process, hcalls, hB₂⟩

/-- The version is added to the blacklist. -/
theorem blacklistVersion_write (hB : w.base dir = .ok B)
    (h : blacklistVersion E version (dir.join (.ofName blacklistJson)) hmacKey audit w = .ok u w') :
    let versions := withVersion version (blacklistedIn E hmacKey
      (readFile w.env (blacklistJson :: B) w.calls w.files.fileAt))
    w'.files.fileAt = (stateWrite B w.env w.process.freshMode blacklistJson
      (Blacklist.signed E hmacKey versions).toJson (w.calls + 1) w.files.fileAt).apply
        w.files.fileAt := by
  rw [blacklistVersion_eq] at h
  obtain ⟨loaded, w₁, hload, hstore⟩ := Comp.bind_ok.1 h
  obtain ⟨hversions, hw₁⟩ := loadBlacklistRaw_found hB hload
  obtain ⟨_, w₂, hissue, hstore⟩ := Comp.bind_ok.1 hstore
  obtain ⟨_, w₃, hwrite, hlog⟩ := Comp.bind_ok.1 hstore
  rw [hversions] at hissue hwrite
  have hw₂ := issue_ok.1 hissue
  have hB₂ : w₂.base dir = .ok B := by
    rw [hw₂, hw₁]
    exact hB
  have hlogged : World.SameFiles w₃ w' := (Comp.Respects.bind (emit_sameFiles _) fun _ =>
    AuditLogger.log_sameFiles E audit _ _).ok hlog
  have hfiles := writeJsonAtomic_write hB₂ hwrite
  subst hw₂ hw₁
  rw [hlogged.files]
  exact hfiles

/-- The bookkeeping of a rollback writes its state files one after the other. -/
theorem finishRollback_writes {fileCount : Nat} (hB : w.base dir = .ok B)
    (h : finishRollback E version dir hmacKey audit fileCount w = .ok u w') :
    Writes (stateWrites E hmacKey B w.env w.process.freshMode version (w.calls + 6) w.files.fileAt)
      w.files.fileAt w'.files.fileAt := by
  unfold finishRollback at h
  rw [ofString_countersJson, ofString_blacklistJson] at h
  obtain ⟨_, w₁, hnow, h₁⟩ := Comp.bind_ok.1 h
  obtain ⟨-, rfl⟩ := now_ok.1 hnow
  obtain ⟨_, w₂, hlog, h₂⟩ := Comp.bind_ok.1 h₁
  obtain ⟨count, w₃, hcount, h₃⟩ := Comp.bind_ok.1 h₂
  have hlogged : World.SameFiles w.tick w₂ := (AuditLogger.log_sameFiles E audit _ _).ok hlog
  have hcalls : w₂.calls = w.calls + 6 := AuditLogger.log_calls hlog
  have hbase : w₂.base dir = .ok B := by
    rw [World.base, hlogged.process, hlogged.files]
    exact hB
  obtain ⟨hn, hfiles, henv, hprocess, hcalls₃, hB₃⟩ := incrementRollbackCounter_write hbase hcount
  simp only [hlogged.files, hlogged.env, hlogged.process, hcalls, World.tick_files, World.tick_env,
    World.tick_process] at hn hfiles henv hprocess hcalls₃
  unfold stateWrites
  dsimp only
  rw [← hn]
  split at h₃
  · next hthree =>
    rw [if_pos hthree]
    have hsecond := blacklistVersion_write hB₃ h₃
    rw [henv, hprocess, hcalls₃, hfiles] at hsecond
    refine .cons (.cons ?_)
    rw [hsecond]
    exact .nil
  · next hthree =>
    cases h₃
    rw [if_neg hthree]
    refine .cons ?_
    rw [hfiles]
    exact .nil

end

end Synqro
