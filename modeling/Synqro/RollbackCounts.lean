import Synqro.Bookkeeping
import Synqro.Snapshots

/-!
# The bookkeeping of runs of rollbacks

`RollbackRun` is a sequence of `rollback` calls on one backup directory, each of which fails in
verification or restoration or finds working I/O when it comes to its bookkeeping. `Booked` is the
invariant of the two state files: the counters hold how often each version was rolled back, the
blacklist the versions with three rollbacks or more, in order and tagged.
-/

namespace Synqro

section
variable (E : Externals)

/-- The steps of `rollback` that verify and restore; how many files were restored. -/
def restoreSnapshot (version : String) (backupDir : UnixPath) (hmacKey : Bytes)
    (audit : AuditLogger) : M Nat := do
  let versionDir := backupDir.join (.ofString s!"v{version}")
  let manifest ← loadSnapshot E version versionDir hmacKey audit
  let canonicalBackup ← Comp.mapErr
    (fun e => .Permission s!"Cannot canonicalize backup dir: {e.display}")
    (fs.canonicalize versionDir)
  restoreFiles E version canonicalBackup audit manifest.files
  return manifest.files.length

/-- A rollback verifies and restores, and then does its bookkeeping. -/
theorem rollback_eq (version : String) (backupDir : UnixPath) (hmacKey : Bytes)
    (audit : AuditLogger) :
    rollback E version backupDir hmacKey audit =
      restoreSnapshot E version backupDir hmacKey audit >>=
        finishRollback E version backupDir hmacKey audit := by
  simp only [rollback, restoreSnapshot, bind_assoc, pure_bind]

end

/-! ## What a restore touches -/

/-- No file but those in the working directory changed, and no directory. -/
structure World.ChangesHere (w w' : World) : Prop where
  process : w'.process = w.process
  files : w.files.ChangesOnly (fun l => l.tail = w.process.cwd) w'.files

namespace World.ChangesHere

variable {w w' : World}

theorem trans {w₁ w₂ w₃ : World} (h : ChangesHere w₁ w₂) (h' : ChangesHere w₂ w₃) :
    ChangesHere w₁ w₃ := by
  refine ⟨h'.process.trans h.process, IsTrans.trans _ _ _ h.files ?_⟩
  have hfiles := h'.files
  rwa [h.process] at hfiles

instance : Std.Refl ChangesHere := ⟨fun _ => ⟨rfl, refl _⟩⟩
instance : IsTrans World ChangesHere := ⟨fun _ _ _ => trans⟩

theorem of_sameFiles (h : SameFiles w w') : ChangesHere w w' :=
  ⟨h.process, by rw [h.files]; exact refl _⟩

/-- A change of a file named by its name alone is one in the working directory. -/
theorem of_touches {n : FileName} (h : Touches (.ofName n) w w') : ChangesHere w w' := by
  refine ⟨h.process, h.files.1, fun l hl => h.files.2 l fun hn => hl ?_⟩
  rw [World.locate, UnixPath.locateFile_ofName] at hn
  rw [← Except.ok.inj hn]
  rfl

end World.ChangesHere

open World (Touches SameFiles ChangesHere)

section
variable {α ε : Type} {p : UnixPath}

theorem queryFiles_sameFiles (f : World → FileTree → Except IoError α) :
    Comp.Respects SameFiles (onFiles fun w => Comp.query (f w)) := by
  intro w
  unfold Comp.after onFiles Comp.query
  dsimp only
  cases f w w.files <;> exact ⟨rfl, rfl, rfl⟩

theorem read_sameFiles : Comp.Respects SameFiles (fs.read p) :=
  call_sameFiles (queryFiles_sameFiles _) fun _ => .pure ()

theorem canonicalize_sameFiles : Comp.Respects SameFiles (fs.canonicalize p) :=
  call_sameFiles (queryFiles_sameFiles _) fun _ => .pure ()

theorem setPermissions_touches (mode : UInt32) :
    Comp.Respects (Touches p) (fs.setPermissions p mode) := by
  refine call_touches (onFiles_touches fun w t => ?_) fun _ => .pure ()
  refine Comp.after_bind (Comp.Respects.query _ t) fun l t₁ hl _ => ?_
  exact Comp.Respects.update (R := FileTree.ChangesOnly fun l => w.locate p = .ok l)
    (fun _ _ h => FileTree.chmod_changesOnly (Comp.query_ok.1 hl).1 h) t₁

theorem write_touches (bytes : Bytes) : Comp.Respects (Touches p) (fs.write p bytes) := by
  intro w
  refine Comp.after_bind (create_touches w) fun file w₁ hfile h => ?_
  exact writeAll_touches ((h.locate p).trans (fs.create_ok.1 hfile).2.1) bytes

/-- A rename between names moves a file of the working directory within it. -/
theorem rename_changesHere (n m : FileName) :
    Comp.Respects ChangesHere (fs.rename (.ofName n) (.ofName m)) := by
  intro w
  unfold Comp.after
  cases hr : fs.rename (.ofName n) (.ofName m) w with
  | ok u w' =>
    obtain ⟨-, s, d, t, hs, hd, ht, rfl⟩ := fs.rename_ok.1 hr
    rw [World.locate, UnixPath.locateFile_ofName] at hs hd
    cases hs
    cases hd
    exact ⟨rfl, FileTree.rename_changesOnly rfl rfl ht⟩
  | error e w' =>
    rw [rename_error hr]
    exact .of_sameFiles ⟨rfl, rfl, rfl⟩

end

section
variable {E : Externals} {version : String} {backupDir : UnixPath} {hmacKey : Bytes}
  {audit : AuditLogger}

theorem verifyBackupFile_sameFiles (canonicalBackup : UnixPath) (entry : FileEntry) :
    Comp.Respects SameFiles (verifyBackupFile E version canonicalBackup audit entry) := by
  refine .bind (.ofExcept _) fun _ => .bind (.mapErr _ read_sameFiles) fun bytes => ?_
  dsimp only
  split
  · exact .bind (.ignore (AuditLogger.log_sameFiles E audit _ _)) fun _ => .throw _
  · exact .pure _

theorem loadSnapshot_sameFiles (versionDir : UnixPath) :
    Comp.Respects SameFiles (loadSnapshot E version versionDir hmacKey audit) := by
  refine .bind (.mapErr _ read_sameFiles) fun bytes => .bind (.ofExcept _) fun manifest => ?_
  dsimp only
  split
  · exact .bind (.ignore (AuditLogger.log_sameFiles E audit _ _)) fun _ => .throw _
  · exact .pure _

/-- An entry that names its file by a base name, as `take_snapshot` writes it. -/
def FileEntry.BaseName (e : FileEntry) : Prop := ∃ n : FileName, e.path = n.text

theorem replaceFile_changesHere {entry : FileEntry} (n : FileName) (bytes : Bytes) :
    Comp.Respects ChangesHere (replaceFile entry (.ofName n) bytes) := by
  by_cases hstem : n.DotStem
  · -- the temporary file would be the directory above
    intro w
    have hup : ((UnixPath.ofName n).withExtension restoreExtension).components =
      [] ++ [.parentDir] := by
      rw [UnixPath.ofName_withExtension_dotStem hstem]
      rfl
    obtain ⟨e, w', hwrite, hsame⟩ := write_parentDir hup bytes w
    rw [replaceFile, Comp.after_bind_error (Comp.mapErr_error.2 ⟨e, hwrite, rfl⟩)]
    exact .of_sameFiles hsame
  unfold replaceFile
  rw [UnixPath.ofName_withExtension hstem]
  refine .bind (.mapErr _ ((write_touches bytes).mono fun _ _ => .of_touches)) fun _ => ?_
  refine .bind (.mapErr _ ((setPermissions_touches _).mono fun _ _ => .of_touches)) fun _ => ?_
  refine .onError (rename_changesHere _ _) fun e => .bind (.ignore ?_) fun _ => .pure _
  exact removeFile_touches.mono fun _ _ => .of_touches

theorem restoreFile_changesHere (canonicalBackup : UnixPath) {entry : FileEntry}
    (h : entry.BaseName) :
    Comp.Respects ChangesHere (restoreFile E version canonicalBackup audit entry) := by
  obtain ⟨n, hn⟩ := h
  refine .bind ((verifyBackupFile_sameFiles canonicalBackup entry).mono fun _ _ => .of_sameFiles)
    fun bytes => ?_
  rw [hn, UnixPath.ofString_text]
  refine .bind ?_ fun _ => replaceFile_changesHere n bytes
  -- a base name has the empty path for its parent, for which no directory is made
  exact .pure ()

theorem restoreFiles_changesHere (canonicalBackup : UnixPath) {entries : List FileEntry}
    (h : ∀ e ∈ entries, e.BaseName) :
    Comp.Respects ChangesHere (restoreFiles E version canonicalBackup audit entries) := by
  induction entries with
  | nil => exact .pure ()
  | cons e es ih =>
    exact .bind (restoreFile_changesHere canonicalBackup (h e (.head _))) fun _ =>
      ih fun e' he' => h e' (.tail _ he')

/-- Verification and restoration change files of the working directory only, when the snapshot they
load holds base names. -/
theorem restoreSnapshot_changesHere {w : World}
    (h : ∀ m w₁, loadSnapshot E version
      (backupDir.join (.ofString s!"v{version}")) hmacKey audit w =
      .ok m w₁ → ∀ e ∈ m.files, e.BaseName) :
    ChangesHere w (Comp.after (restoreSnapshot E version backupDir hmacKey audit) w) := by
  refine Comp.after_bind ((loadSnapshot_sameFiles _).mono (fun _ _ => .of_sameFiles) w)
    fun m w₁ hm _ => ?_
  refine Comp.Respects.bind (.mapErr _ (canonicalize_sameFiles.mono fun _ _ => .of_sameFiles))
    (fun canonicalBackup => ?_) w₁
  exact .bind (restoreFiles_changesHere canonicalBackup (h m w₁ hm)) fun _ => .pure _

end

/-! ## The bookkeeping of one rollback -/

/-- A count, as far as 32 bits can hold it. -/
def saturated (n : Nat) : UInt32 := UInt32.ofNat (min n (2 ^ 32 - 1))

@[simp] theorem toNat_saturated (n : Nat) : (saturated n).toNat = min n (2 ^ 32 - 1) := by
  rw [saturated, UInt32.toNat_ofNat']
  omega

theorem saturatingSucc_saturated (n : Nat) : saturatingSucc (saturated n) = saturated (n + 1) := by
  have hmax : (UInt32.ofNat (2 ^ 32 - 1)).toNat = 2 ^ 32 - 1 := by decide
  unfold saturatingSucc
  split
  · next h =>
    have hn : min n (2 ^ 32 - 1) = 2 ^ 32 - 1 := by rw [← toNat_saturated, h, hmax]
    refine UInt32.toNat_inj.1 ?_
    rw [toNat_saturated, toNat_saturated]
    omega
  · next h =>
    have hn : min n (2 ^ 32 - 1) ≠ 2 ^ 32 - 1 := fun hn =>
      h (UInt32.toNat_inj.1 (by rw [toNat_saturated, hn, hmax]))
    refine UInt32.toNat_inj.1 ?_
    rw [UInt32.toNat_add, toNat_saturated, toNat_saturated]
    show (min n (2 ^ 32 - 1) + 1) % 2 ^ 32 = _
    omega

theorem three_le_saturated {n : Nat} : 3 ≤ saturated n ↔ 3 ≤ n := by
  rw [UInt32.le_iff_toNat_le, toNat_saturated]
  show 3 ≤ min n (2 ^ 32 - 1) ↔ _
  omega

section
variable (E : Externals) (hmacKey : Bytes) (B : Loc)

/-- The counters file holds how often each version is in `vs`. -/
structure CountersBooked (vs : List String) (t : FileTree) (ms : Json.Members) : Prop where
  stored : countersIn E (t.get (countersJson :: B)) = .ok ms
  plain : Json.Plain 127 (.obj ms)
  isMap : Json.IsMap ms
  counts : ∀ v, counterOf v ms = saturated (vs.count v)
  file : t.get (countersJson :: B) ≠ some .dir

/-- The blacklist file holds the versions that are in `vs` three times or more, if any. -/
structure BlacklistBooked (vs : List String) (t : FileTree) (list : List String) : Prop where
  stored : (t.get (blacklistJson :: B) = none ∧ list = []) ∨ ∃ mode, t.get (blacklistJson :: B) =
    some (.file (toVecPretty (Blacklist.signed E hmacKey list).toJson) mode)
  sorted : list.Pairwise (· < ·)
  versions : ∀ v, v ∈ list ↔ 3 ≤ vs.count v

/-- The state files record that the rollbacks of the versions `vs` returned. -/
def Booked (vs : List String) (t : FileTree) : Prop :=
  (∃ ms, CountersBooked E B vs t ms) ∧ ∃ list, BlacklistBooked E hmacKey B vs t list

end

section
variable {E : Externals} {hmacKey : Bytes} {B : Loc} {vs : List String} {t t' : FileTree}

theorem booked_nil (hc : t.get (countersJson :: B) = none)
    (hb : t.get (blacklistJson :: B) = none) : Booked E hmacKey B [] t := by
  refine ⟨⟨[], ?_, ?_, .nil, fun v => rfl, ?_⟩, [], .inl ⟨hb, rfl⟩, .nil, fun v => ?_⟩
  · rw [hc]
    rfl
  · exact Json.plain_obj.2 nofun
  · rw [hc]
    nofun
  · simp

theorem Booked.congr (h : Booked E hmacKey B vs t)
    (hc : t'.get (countersJson :: B) = t.get (countersJson :: B))
    (hb : t'.get (blacklistJson :: B) = t.get (blacklistJson :: B)) : Booked E hmacKey B vs t' := by
  obtain ⟨⟨ms, h₁, h₂, h₃, h₄, h₅⟩, list, h₆, h₇, h₈⟩ := h
  rw [← hc] at h₁ h₅
  rw [← hb] at h₆
  exact ⟨⟨ms, h₁, h₂, h₃, h₄, h₅⟩, list, h₆, h₇, h₈⟩

theorem BlacklistBooked.not_dir {list : List String} (h : BlacklistBooked E hmacKey B vs t list) :
    t.get (blacklistJson :: B) ≠ some .dir := by
  rcases h.stored with ⟨hn, -⟩ | ⟨mode, hf⟩
  · rw [hn]
    nofun
  · rw [hf]
    nofun

/-- The list is loaded from its file, or there is none and it is empty. -/
theorem BlacklistBooked.loaded (hE : E.ReadsPlain) {list : List String}
    (h : BlacklistBooked E hmacKey B vs t list) :
    versionsOf (blacklistIn E hmacKey (t.get (blacklistJson :: B))) = list := by
  rcases h.stored with ⟨hn, rfl⟩ | ⟨mode, hf⟩
  · rw [hn]
    rfl
  · rw [hf]
    show versionsOf (checkBlacklist E hmacKey _) = list
    rw [checkBlacklist_signed hE (h.sorted.imp le_of_lt)]
    rfl

/-- Counting a version keeps the counters. -/
theorem CountersBooked.counted (hE : E.ReadsPlain) {ms : Json.Members} {version : String}
    (h : CountersBooked E B vs t ms) {mode : Mode}
    (hfile : t'.get (countersJson :: B) =
      some (.file (toVecPretty (.obj (counted version ms))) mode)) :
    CountersBooked E B (vs ++ [version]) t' (counted version ms) := by
  have hplain := @counted_plain version _ h.plain
  have hmap := @counted_isMap version _ h.isMap
  refine ⟨?_, hplain, hmap, fun v => ?_, ?_⟩
  · rw [hfile]
    exact countersIn_stored hE hplain hmap mode
  · rw [counterOf_counted, h.counts, List.count_append, List.count_singleton]
    split
    · next hv =>
      subst hv
      rw [saturatingSucc_saturated]
      simp
    · next hv => simp [Ne.symm hv]
  · rw [hfile]
    nofun

/-- A version that was rolled back fewer than three times so far leaves the blacklist as it is. -/
theorem BlacklistBooked.kept {list : List String} {version : String}
    (h : BlacklistBooked E hmacKey B vs t list)
    (hfile : t'.get (blacklistJson :: B) = t.get (blacklistJson :: B))
    (hfew : ¬ 3 ≤ (vs ++ [version]).count version) :
    BlacklistBooked E hmacKey B (vs ++ [version]) t' list := by
  refine ⟨hfile ▸ h.stored, h.sorted, fun v => ?_⟩
  rw [h.versions v, List.count_append, List.count_singleton]
  by_cases hv : version = v
  · subst hv
    rw [List.count_append, List.count_singleton] at hfew
    simp only [beq_self_eq_true, if_true] at hfew ⊢
    omega
  · simp [hv]

/-- At its third rollback and after, a version is on the blacklist. -/
theorem BlacklistBooked.extended {list : List String} {version : String}
    (h : BlacklistBooked E hmacKey B vs t list) {mode : Mode}
    (hfile : t'.get (blacklistJson :: B) = some (.file (toVecPretty
      (Blacklist.signed E hmacKey (withVersion version list)).toJson) mode))
    (hmany : 3 ≤ (vs ++ [version]).count version) :
    BlacklistBooked E hmacKey B (vs ++ [version]) t' (withVersion version list) := by
  refine ⟨.inr ⟨mode, hfile⟩, withVersion_lt h.sorted, fun v => ?_⟩
  rw [mem_withVersion, h.versions v]
  by_cases hv : v = version
  · subst hv
    exact ⟨fun _ => hmany, fun _ => .inl rfl⟩
  · rw [List.count_append, List.count_singleton]
    simp [hv, Ne.symm hv]

end

section
variable {E : Externals} {backupDir : UnixPath} {hmacKey : Bytes} {audit : AuditLogger} {B : Loc}
  {vs : List String} {version : String} {w w' : World} {N n : Nat}

/-- Storing one state file leaves the other as it was. -/
theorem World.Stored.other {name other : FileName} {value : Json}
    (h : w.Stored name B value w') (hne : other ≠ name)
    (htemp : ∀ nanos, tempFileName nanos ≠ other) :
    w'.files.get (other :: B) = w.files.get (other :: B) :=
  h.rest _ (fun he => hne (List.cons.inj he).1) fun nanos he =>
    htemp nanos (List.cons.inj he).1.symm

/-- Counting a rollback with working I/O. -/
theorem incrementRollbackCounter_booked {ms : Json.Members}
    (hr : w.Ready backupDir B 8) (hc : CountersBooked E B vs w.files ms) :
    ∃ w', incrementRollbackCounter E version (backupDir.join (.ofName countersJson)) w =
        .ok (saturated ((vs ++ [version]).count version)) w' ∧
      w.Stored countersJson B (.obj (counted version ms)) w' ∧
      w.calls ≤ w'.calls ∧ w'.calls ≤ w.calls + 8 := by
  have hcalls : readCalls (w.files.get (countersJson :: B)) ≤ 2 := by
    unfold readCalls
    split <;> omega
  have hread := readCounters_run E (hr.later (n := 2) (.refl _) rfl rfl le_rfl (by omega)).quiet
    hr.located
  rw [hc.stored] at hread
  generalize readCalls (w.files.get (countersJson :: B)) = k at hread hcalls
  have hr' : (w.advance k).Ready backupDir B 6 :=
    hr.later (.refl _) rfl rfl (Nat.le_add_right _ _) (by simp only [World.advance_calls]; omega)
  obtain ⟨w', hw'⟩ := writeJsonAtomic_returns (.obj (counted version ms)) hr'.quiet hr'.located
    hr'.writable hc.file
  obtain ⟨hstored, hcalls'⟩ := writeJsonAtomic_stored hr'.located hw'
  have hcount : saturatingSucc (counterOf version ms) =
      saturated ((vs ++ [version]).count version) := by
    rw [hc.counts, saturatingSucc_saturated, List.count_append, List.count_singleton_self]
  simp only [World.advance_calls] at hcalls'
  refine ⟨w', ?_, ⟨hstored.file, hstored.rest, hstored.dirs, hstored.process,
    hstored.env⟩, by omega,
    by omega⟩
  rw [incrementRollbackCounter_eq, Comp.bind_ok]
  refine ⟨ms, _, hread, Comp.bind_ok.2 ⟨(), w', hw', ?_⟩⟩
  rw [← hcount]
  rfl

/-- Blacklisting a version with working I/O. -/
theorem blacklistVersion_booked (hE : E.ReadsPlain) {list : List String}
    (hr : w.Ready backupDir B 12) (hb : BlacklistBooked E hmacKey B vs w.files list) :
    ∃ w', blacklistVersion E version (backupDir.join (.ofName blacklistJson)) hmacKey audit w =
        .ok () w' ∧
      w.Stored blacklistJson B (Blacklist.signed E hmacKey
        (withVersion version list)).toJson w' := by
  have h := @blacklistVersion_returns E _ hmacKey audit _ version _ hr hb.not_dir
  rwa [hb.loaded hE] at h

/-- The calls of the bookkeeping of one rollback. -/
def bookkeepingCalls : Nat := 26

/-- The bookkeeping of a rollback that finds working I/O returns, and it records the rollback. -/
theorem finishRollback_booked (hE : E.ReadsPlain) (hr : w.Ready backupDir B bookkeepingCalls)
    (hb : Booked E hmacKey B vs w.files) (fileCount : Nat) :
    ∃ w', finishRollback E version backupDir hmacKey audit fileCount w = .ok () w' ∧
      Booked E hmacKey B (vs ++ [version]) w'.files := by
  obtain ⟨⟨ms, hc⟩, list, hl⟩ := hb
  have hr' : w.Ready backupDir B 26 := hr
  have hr₁ : w.tick.Ready backupDir B 25 :=
    hr'.later (.refl _) rfl rfl (Nat.le_succ _) (by simp only [World.tick_calls]; omega)
  obtain ⟨w₂, hlog, hsame, hcalls⟩ := @AuditLogger.log_returns E _ audit
    .RollbackSuccess (jsonObject [("version", .str version), ("file_count", jsonLen fileCount),
      ("ts", .str (E.toRfc3339 (w.env.clock w.calls)))])
    (hr₁.later (n := 5) (.refl _) rfl rfl le_rfl (by omega)).quiet
  have hr₂ : w₂.Ready backupDir B 20 := hr₁.sameFiles hsame (by omega) (by omega)
  have hfiles : w₂.files = w.files := hsame.files
  rw [← hfiles] at hc hl
  obtain ⟨w₃, hinc, hstored, hle, hcalls₃⟩ := @incrementRollbackCounter_booked _ _ _ _ version _ _
    (hr₂.later (n := 8) (.refl _) rfl rfl le_rfl (by omega)) hc
  have hr₃ : w₃.Ready backupDir B 12 := hr₂.stored hstored hle (by omega)
  obtain ⟨mode, hcounters⟩ := hstored.file
  have hc₃ := hc.counted hE hcounters
  have hl₃ : w₃.files.get (blacklistJson :: B) = w₂.files.get (blacklistJson :: B) :=
    hstored.other (by decide) tempFileName_ne_blacklistJson
  have hl' : BlacklistBooked E hmacKey B vs w₃.files list :=
    ⟨hl₃ ▸ hl.stored, hl.sorted, hl.versions⟩
  have hrun {w₄ : World}
      (hrest : (if 3 ≤ saturated ((vs ++ [version]).count version) then blacklistVersion E version
        (backupDir.join (.ofString "blacklist.json")) hmacKey audit else pure ()) w₃ = .ok () w₄) :
      finishRollback E version backupDir hmacKey audit fileCount w = .ok () w₄ := by
    unfold finishRollback
    rw [ofString_countersJson]
    exact Comp.bind_ok.2 ⟨_, w.tick, rfl, Comp.bind_ok.2 ⟨(), w₂, hlog, Comp.bind_ok.2
      ⟨_, w₃, hinc, hrest⟩⟩⟩
  by_cases hmany : 3 ≤ (vs ++ [version]).count version
  · obtain ⟨w₄, hblacklist, hstored₄⟩ := @blacklistVersion_booked _ _ _ audit _ _ version _ hE _
      hr₃ hl'
    refine ⟨w₄, hrun ?_, ⟨counted version ms, ?_⟩, ?_⟩
    · rw [if_pos (three_le_saturated.2 hmany), ofString_blacklistJson]
      exact hblacklist
    · have hsame : w₄.files.get (countersJson :: B) = w₃.files.get (countersJson :: B) :=
        hstored₄.other (by decide) tempFileName_ne_countersJson
      exact ⟨hsame ▸ hc₃.stored, hc₃.plain, hc₃.isMap, hc₃.counts, hsame ▸ hc₃.file⟩
    · obtain ⟨mode₄, hfile⟩ := hstored₄.file
      exact ⟨_, hl'.extended hfile hmany⟩
  · refine ⟨w₃, hrun ?_, ⟨_, hc₃⟩, list, hl'.kept rfl hmany⟩
    rw [if_neg fun h => hmany (three_le_saturated.1 h)]
    rfl

end

/-! ## Runs -/

/-- A rollback that was called. -/
structure RollbackCall where
  version : String
  before : World
  result : EStateM.Result SynqroError World Unit

/-- The versions of the calls that returned. -/
def okVersions (rs : List RollbackCall) : List String :=
  (rs.filter fun r => Comp.returned r.result).map (·.version)

section
variable (E : Externals) (backupDir : UnixPath) (B : Loc) (hmacKey : Bytes) (audit : AuditLogger)

/-- What a rollback on the backup directory `B` finds: a directory that does not hold the working
directory, where state files can be written, a snapshot that holds base names, and working I/O for
its bookkeeping, should it come to that. -/
structure RollbackSetting (version : String) (w : World) : Prop where
  located : w.base backupDir = .ok B
  outside : ¬ B <:+ w.process.cwd
  writable : w.Writable B
  baseNames : ∀ m w₁, loadSnapshot E version
    (backupDir.join (.ofString s!"v{version}")) hmacKey audit
    w = .ok m w₁ → ∀ e ∈ m.files, e.BaseName
  works : ∀ n w₁, restoreSnapshot E version backupDir hmacKey audit w = .ok n w₁ →
    w₁.QuietFor bookkeepingCalls

/-- A run of rollbacks on the backup directory `B` that starts without state files. Between two
calls anything but the state files may change. -/
inductive RollbackRun : List RollbackCall → World → Prop
  | start {w : World} : w.files.get (countersJson :: B) = none →
      w.files.get (blacklistJson :: B) = none → RollbackRun [] w
  | outside {rs : List RollbackCall} {w w' : World} : RollbackRun rs w →
      w'.files.get (countersJson :: B) = w.files.get (countersJson :: B) →
      w'.files.get (blacklistJson :: B) = w.files.get (blacklistJson :: B) → RollbackRun rs w'
  | call {rs : List RollbackCall} {w : World} (version : String) : RollbackRun rs w →
      RollbackSetting E backupDir B hmacKey audit version w →
      RollbackRun (rs ++ [⟨version, w, rollback E version backupDir hmacKey audit w⟩])
        (Comp.after (rollback E version backupDir hmacKey audit) w)

end

section
variable {E : Externals} {backupDir : UnixPath} {B : Loc} {hmacKey : Bytes} {audit : AuditLogger}
  {version : String} {w : World} {vs : List String}

/-- Verification and restoration leave the state files alone. -/
theorem RollbackSetting.kept (h : RollbackSetting E backupDir B hmacKey audit version w)
    (n : FileName) : (Comp.after (restoreSnapshot E version backupDir hmacKey audit) w).files.get
      (n :: B) = w.files.get (n :: B) := by
  refine (restoreSnapshot_changesHere h.baseNames).files.2 _ fun hcwd => h.outside ?_
  rw [← hcwd]
  exact List.suffix_refl B

/-- A rollback returns and is recorded, or fails and changes neither state file. -/
theorem RollbackSetting.booked (hE : E.ReadsPlain)
    (h : RollbackSetting E backupDir B hmacKey audit version w)
    (hb : Booked E hmacKey B vs w.files) :
    (∃ w', rollback E version backupDir hmacKey audit w = .ok () w' ∧
        Booked E hmacKey B (vs ++ [version]) w'.files) ∨
      ∃ e w', rollback E version backupDir hmacKey audit w = .error e w' ∧
        ∀ n : FileName, w'.files.get (n :: B) = w.files.get (n :: B) := by
  have hkept := h.kept
  have hchanges := restoreSnapshot_changesHere h.baseNames
  unfold Comp.after at hkept hchanges
  rw [rollback_eq]
  cases hr : restoreSnapshot E version backupDir hmacKey audit w with
  | error e w' =>
    rw [hr] at hkept
    exact .inr ⟨e, w', Comp.bind_error.2 (.inl hr), hkept⟩
  | ok n w₁ =>
    rw [hr] at hkept hchanges
    have hb₁ : Booked E hmacKey B vs w₁.files := hb.congr (hkept _) (hkept _)
    have hready : w₁.Ready backupDir B bookkeepingCalls := by
      replace hchanges : ChangesHere w w₁ := hchanges
      refine ⟨?_, h.writable.sameDirs hchanges.files.1, h.works n w₁ hr⟩
      rw [World.base, hchanges.process, UnixPath.base_sameDirs hchanges.files.1]
      exact h.located
    obtain ⟨w', hfinish, hb'⟩ := @finishRollback_booked _ _ _ audit _ _ version _ hE hready
      hb₁ n
    exact .inl ⟨w', Comp.bind_ok.2 ⟨n, w₁, hr, hfinish⟩, hb'⟩

/-- The invariant of a run, and that its failed calls changed no counter. -/
theorem RollbackRun.invariant (hE : E.ReadsPlain) {rs : List RollbackCall}
    (h : RollbackRun E backupDir B hmacKey audit rs w) :
    Booked E hmacKey B (okVersions rs) w.files ∧
      ∀ r ∈ rs, Comp.returned r.result = false →
        (Comp.final r.result).files.get (countersJson :: B) =
        r.before.files.get (countersJson :: B) := by
  induction h with
  | start hc hb => exact ⟨booked_nil hc hb, List.forall_mem_nil _⟩
  | outside _ hc hb ih => exact ⟨ih.1.congr hc hb, ih.2⟩
  | @call rs w version _ hset ih =>
    have hversions (r : RollbackCall) : okVersions (rs ++ [r]) =
        okVersions rs ++ if Comp.returned r.result then [r.version] else [] := by
      unfold okVersions
      rw [List.filter_append, List.map_append]
      cases hr : Comp.returned r.result <;> simp [hr]
    rw [hversions]
    unfold Comp.after
    rcases hset.booked hE ih.1 with ⟨w', hok, hb⟩ | ⟨e, w', herr, hkept⟩
    · rw [hok]
      refine ⟨hb, fun r hr hret => ?_⟩
      rcases List.mem_append.1 hr with hr | hr
      · exact ih.2 r hr hret
      · rw [List.mem_singleton.1 hr] at hret
        cases hret
    · rw [herr]
      refine ⟨?_, fun r hr hret => ?_⟩
      · show Booked E hmacKey B (okVersions rs ++ []) w'.files
        rw [List.append_nil]
        exact ih.1.congr (hkept _) (hkept _)
      · rcases List.mem_append.1 hr with hr | hr
        · exact ih.2 r hr hret
        · rw [List.mem_singleton.1 hr]
          exact hkept _

/-- **The bookkeeping of a run of rollbacks.** After any run the counter of each version is the
number of its calls that returned, as far as 32 bits hold it; the failed calls changed no counter;
`isBlacklisted` says yes of the versions with three such calls or more and no of all others; and the
blacklist, if there is one, passes its check and is in strict order. -/
theorem rollbackRun_booked (hE : E.ReadsPlain) {rs : List RollbackCall}
    (h : RollbackRun E backupDir B hmacKey audit rs w) :
    (∃ ms, countersIn E (w.files.get (countersJson :: B)) = .ok ms ∧
      ∀ v, (counterOf v ms).toNat = min ((okVersions rs).count v) (2 ^ 32 - 1)) ∧
    (∀ r ∈ rs, Comp.returned r.result = false →
      (Comp.final r.result).files.get (countersJson :: B) =
      r.before.files.get (countersJson :: B)) ∧
    (w.base backupDir = .ok B → w.Quiet → ∀ v,
      isBlacklisted E v (backupDir.join (.ofString "blacklist.json")) hmacKey w =
        .ok (decide (3 ≤ (okVersions rs).count v)) w.tick) ∧
    ∀ bytes mode, w.files.get (blacklistJson :: B) = some (.file bytes mode) →
      ∃ bl, checkBlacklist E hmacKey bytes = .ok bl ∧ bl.blacklisted.Pairwise (· < ·) := by
  obtain ⟨⟨⟨ms, hc⟩, list, hl⟩, hfailed⟩ := h.invariant hE
  refine ⟨⟨ms, hc.stored, fun v => ?_⟩, hfailed, fun hB hq v => ?_, fun bytes mode hfile => ?_⟩
  · rw [hc.counts, toNat_saturated]
  · rw [ofString_blacklistJson, isBlacklisted_run E (loadBlacklistRaw_run E hmacKey hq hB)]
    have hanswer : blacklistAnswer v (blacklistIn E hmacKey (w.files.get (blacklistJson :: B))) =
        .ok (decide (v ∈ list)) := by
      rcases hl.stored with ⟨hn, rfl⟩ | ⟨mode, hf⟩
      · rw [hn]
        rfl
      · have hcheck := @checkBlacklist_signed _ hmacKey hE _ (hl.sorted.imp le_of_lt)
        rw [hf, blacklistIn, hcheck]
        show Except.ok (list.any (· == v)) = _
        rw [List.any_beq', List.contains_eq_mem]
    rw [hanswer, decide_eq_decide.2 (hl.versions v)]
    rfl
  · rcases hl.stored with ⟨hn, -⟩ | ⟨mode', hf⟩
    · rw [hn] at hfile
      cases hfile
    · rw [hf] at hfile
      cases hfile
      exact ⟨_, checkBlacklist_signed hE (hl.sorted.imp le_of_lt), hl.sorted⟩

end

/-! ## A run of one rollback -/

section
variable {E : Externals} {version : String} {backupDir : UnixPath} {hmacKey : Bytes}
  {audit : AuditLogger} {w : World}

/-- Whether a loaded snapshot holds base names. -/
def baseNames? : EStateM.Result SynqroError World SnapshotManifest → Bool
  | .ok m _ => m.files.all fun e => (FileName.ofString? e.path).isSome
  | .error _ _ => true

theorem baseNames_of_check (h : baseNames? (loadSnapshot E version
    (backupDir.join (.ofString s!"v{version}")) hmacKey audit w) = true) :
    ∀ m w₁, loadSnapshot E version (backupDir.join (.ofString s!"v{version}")) hmacKey audit w =
      .ok m w₁ → ∀ e ∈ m.files, e.BaseName := by
  intro m w₁ hload e he
  rw [hload] at h
  have hsome := List.all_eq_true.1 h e he
  cases hn : FileName.ofString? e.path with
  | none => rw [hn] at hsome; cases hsome
  | some n => exact ⟨n, (FileName.ofString?_eq_some hn).symm⟩

theorem restoreSnapshot_env :
    (Comp.after (restoreSnapshot E version backupDir hmacKey audit) w).env =
    w.env := by
  have hany : ∀ e : Effect, e.OfRollback version backupDir → e.Any := fun _ _ => trivial
  refine (Comp.after_bind (R := World.Evolves Effect.Any)
    (loadSnapshot_evolves hany _ hmacKey audit w) fun m w₁ _ _ => ?_).env
  refine Comp.after_bind (Comp.Respects.mapErr _ (fs.canonicalize_evolves _) w₁)
    fun canonicalBackup w₂ _ _ => ?_
  rw [Comp.after_bind_pure]
  exact restoreFiles_evolves hany fun _ _ _ _ _ _ _ _ => trivial

end

/-- The logger of an installation. -/
def rollbackLogger : AuditLogger := ⟨[7], "installation"⟩

/-- The run of one rollback. -/
def rolledBackOnce : List RollbackCall :=
  [⟨"1.0.0", snapshotTaken, rollback .running "1.0.0" (.ofString "/backup") [7] rollbackLogger
    snapshotTaken⟩]

/-- What stands in the snapshot's world and what a rollback in it comes to, evaluated once. -/
theorem snapshotTaken_checks :
    (snapshotTaken.base (.ofString "/backup") = .ok backupLoc ∧
      ¬ backupLoc <:+ snapshotTaken.process.cwd ∧
      snapshotTaken.files.get backupLoc = some .dir ∧ noDotDirs? snapshotTaken.files = true) ∧
    (snapshotTaken.files.get (countersJson :: backupLoc) = none ∧
      snapshotTaken.files.get (blacklistJson :: backupLoc) = none) ∧
    (∀ version ∈ ["1.0.0"], baseNames? (loadSnapshot .running version
      ((UnixPath.ofString "/backup").join (.ofString s!"v{version}")) [7] rollbackLogger
        snapshotTaken) = true) ∧
    okVersions rolledBackOnce = ["1.0.0"] := by
  decide +kernel

theorem rollbackSetting_snapshotTaken :
    RollbackSetting .running (.ofString "/backup") backupLoc
      [7] rollbackLogger "1.0.0" snapshotTaken where
  located := snapshotTaken_checks.1.1
  outside := snapshotTaken_checks.1.2.1
  writable := ⟨snapshotTaken_checks.1.2.2.1, temp_not_dir snapshotTaken_checks.1.2.2.2 backupLoc⟩
  baseNames := baseNames_of_check (snapshotTaken_checks.2.2.1 _ (.head _))
  works := by
    intro n w₁ hr i _
    have henv : w₁.env = snapshotTaken.env := by
      have := @restoreSnapshot_env .running "1.0.0" (.ofString "/backup") [7]
        rollbackLogger snapshotTaken
      rwa [Comp.after, hr] at this
    have hcalm : snapshotTaken.env = .calm :=
      (takeSnapshot_evolves (Q := Effect.Any) .running "1.0.0" [.ofLoc appExe]
        (.ofString "/backup") [7]
        (.boot .calm (.startedIn appExe.tail) installedFiles)).env
    rw [henv, hcalm]
    rfl

theorem rollbackRun_booked_once :
    okVersions rolledBackOnce = ["1.0.0"] ∧
      ∃ ms, countersIn .running ((Comp.after (rollback .running "1.0.0" (.ofString "/backup") [7]
          rollbackLogger) snapshotTaken).files.get (countersJson :: backupLoc)) = .ok ms ∧
        ∀ v, (counterOf v ms).toNat = min ((okVersions rolledBackOnce).count v) (2 ^ 32 - 1) :=
  ⟨snapshotTaken_checks.2.2.2, (rollbackRun_booked Externals.running_readsPlain
    (.call "1.0.0" (.start snapshotTaken_checks.2.1.1 snapshotTaken_checks.2.1.2)
      rollbackSetting_snapshotTaken)).1⟩

end Synqro
