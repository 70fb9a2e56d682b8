import Synqro.Lib.ReadModifyWrite
import Synqro.RollbackCounts
import Synqro.CrashSafety
import Synqro.BlacklistLaws

/-!
# Rollbacks in two processes

The application and the watchdog it spawns may both roll back, on one backup directory. Neither
state file is locked: a process reads the counters, and later renames counters with one more
rollback in their place; from the third rollback of a version on it does the same with the
blacklist. `Bookings.Step` lets the two processes take these steps in any order, `Tracked` is what
holds between the steps, and `bookings_complete` says which orders lose something.
-/

namespace Synqro

open ReadModifyWrite (Access cycle replay Overlapping firstToWrite Shuffle)

/-- The reader reads printed counters back: of counters that it has read (the empty ones are those
of a missing file), with one more rollback in them, every count. -/
structure Externals.RereadsCounts (E : Externals) : Prop extends E.ReadsPlain where
  counts : ∀ bytes counters version,
    counters = [] ∨ fromSliceValue E readMap bytes = .ok counters →
    ∃ counters', fromSliceValue E readMap (toVecPretty (.obj (counted version counters))) =
      .ok counters' ∧ ∀ v, counterOf v counters' = counterOf v (counted version counters)

theorem Externals.running_rereadsCounts : Externals.running.RereadsCounts where
  toReadsPlain := running_readsPlain
  counts bytes counters version h := by
    have hcounters : Json.nesting (.obj counters) ≤ 127 ∧ Json.IsMap counters := by
      rcases h with rfl | h
      · exact ⟨Json.nesting_obj.2 (List.forall_mem_nil _), .nil⟩
      · obtain ⟨j, hj, hvalue⟩ := fromSliceValue_readMap h
        rw [← hvalue]
        exact ⟨Json.nesting_value (running_rereads.nested _ _ hj), Json.isMap_of_value hvalue⟩
    have hmap : Json.IsMap (counted version counters) := counted_isMap hcounters.2
    refine ⟨counted version counters, ?_, fun v => rfl⟩
    have hparse := running_parseJson (Json.nesting_insertMember (k := version)
      (v := jsonU32 (saturatingSucc (counterValue (Json.find version counters)))) hcounters.1
      (Nat.zero_le _))
    have hread : readMap (.obj (counted version counters)) = some (counted version counters) := by
      rw [readMap, hmap]
      rfl
    show fromSlice Externals.running readMap (toVecPretty (.obj (counted version counters))) = _
    rw [fromSlice, counted, hparse]
    dsimp only
    rw [← counted, hread]

/-! ## The two processes -/

/-- The processes that roll back. -/
inductive Party where
  | app
  | watchdog
  deriving DecidableEq

/-- A rollback that has restored its files: the process, the version, the path it knows the backup
directory by, its audit log and how many files it restored. -/
structure Restored where
  process : Process
  version : String
  backupDir : UnixPath
  audit : AuditLogger
  fileCount : Nat

/-- How far a rollback has come with its bookkeeping. -/
inductive Booking where
  | restored
  | logged
  /-- The counters have been read. -/
  | counting (counters : Json.Members)
  /-- The counters are in place, and they ask for the blacklist. -/
  | due
  /-- The blacklist has been read, or could not be. -/
  | listing (loaded : Except SynqroError Blacklist)
  | finished (blacklisted : Bool)

section
variable (E : Externals) (hmacKey : Bytes)

/-- The next step of the bookkeeping. Each step reads or renames at most one state file. -/
def Booking.next (r : Restored) : Booking → M Booking
  | .restored => do
    let ts := E.toRfc3339 (← now)
    r.audit.log E .RollbackSuccess <| jsonObject [("version", .str r.version),
      ("file_count", jsonLen r.fileCount), ("ts", .str ts)]
    return .logged
  | .logged => do
    let counters ← readCounters E (r.backupDir.join (.ofString "rollback_counters.json"))
    return .counting counters
  | .counting counters => do
    let newCount ← storeCounters r.version (r.backupDir.join (.ofString "rollback_counters.json"))
      counters
    return if 3 ≤ newCount then .due else .finished false
  | .due => do
    let loaded ← Comp.outcome
      (loadBlacklistRaw E (r.backupDir.join (.ofString "blacklist.json")) hmacKey)
    return .listing loaded
  | .listing loaded => do
    storeBlacklist E r.version
      (r.backupDir.join (.ofString "blacklist.json")) hmacKey r.audit loaded
    return .finished true
  | .finished blacklisted => return .finished blacklisted

/-- Undisturbed, the steps are the bookkeeping of the rollback. -/
theorem finishRollback_steps (r : Restored) :
    finishRollback E r.version r.backupDir hmacKey r.audit r.fileCount = (do
      let b₁ ← Booking.next E hmacKey r .restored
      let b₂ ← Booking.next E hmacKey r b₁
      let b₃ ← Booking.next E hmacKey r b₂
      let b₄ ← Booking.next E hmacKey r b₃
      let _ ← Booking.next E hmacKey r b₄
      return) := by
  simp only [finishRollback, Booking.next, bind_assoc, pure_bind, incrementRollbackCounter_eq]
  refine bind_congr fun ts => bind_congr fun _ => bind_congr fun counters => bind_congr fun n => ?_
  split
  · rw [blacklistVersion_eq]
    simp only [bind_assoc, pure_bind]
    exact bind_congr fun loaded => bind_pure_unit.symm
  · rfl

end

/-! ## One step -/

section
variable {E : Externals} {hmacKey : Bytes} {r : Restored} {B : Loc} {w w' : World} {b : Booking}

/-- Where a step has left the files: the directories are the same, and of the two state files only
`changed` may differ, which then holds `value`. -/
structure World.Rewrote (B : Loc) (changed other : FileName) (value : Json)
    (w w' : World) : Prop where
  dirs : w.files.SameDirs w'.files
  file : ∃ mode, w'.files.get (changed :: B) = some (.file (toVecPretty value) mode)
  kept : w'.files.get (other :: B) = w.files.get (other :: B)

/-- Counters that were read are those of their file, when it could be determined whether there is
one. -/
theorem readCounters_quiet {counters : Json.Members} {dir : UnixPath} (hB : w.base dir = .ok B)
    (hq : w.Quiet) (h : readCounters E (dir.join (.ofName countersJson)) w = .ok counters w') :
    countersIn E (w.files.get (countersJson :: B)) = .ok counters := by
  by_cases hq' : w.tick.Quiet
  · have hquiet : w.QuietFor 2 :=
      World.quietFor_succ.2 ⟨hq, World.quietFor_succ.2 ⟨hq', World.quietFor_zero _⟩⟩
    rw [readCounters_run E hquiet hB] at h
    exact (Comp.ofExcept_ok.1 h).1
  · have hpath : (dir.join (.ofName countersJson)).locate w.files w.process.cwd =
        .ok (countersJson :: B) := by
      rw [← UnixPath.locateFile_join_ofName]
      exact World.locate_join_of_base hB countersJson
    rw [readCounters, Comp.bind_run, fs.pathExists_run hq hpath
      (UnixPath.join_ofName_dirOnly dir _)] at h
    cases hfile : w.files.get (countersJson :: B) with
    | none =>
      rw [hfile] at h
      cases h
      rfl
    | some node =>
      rw [hfile] at h
      simp only [Option.isSome_some, if_true, Comp.bind_ok, Comp.mapErr_ok, fs.read_ok] at h
      obtain ⟨_, _, ⟨hread, -⟩, -⟩ := h
      exact absurd hread hq'

theorem Booking.next_restored (h : Booking.next E hmacKey r .restored w = .ok b w') :
    b = .logged ∧ w'.files = w.files := by
  simp only [Booking.next, Comp.bind_ok, now_ok, Comp.pure_ok] at h
  obtain ⟨_, _, ⟨rfl, rfl⟩, _, _, hlog, rfl, rfl⟩ := h
  exact ⟨rfl, ((AuditLogger.log_sameFiles E r.audit _ _).ok hlog).files⟩

theorem Booking.next_logged (hB : w.base r.backupDir = .ok B) (hq : w.Quiet)
    (h : Booking.next E hmacKey r .logged w = .ok b w') :
    ∃ counters, countersIn E (w.files.get (countersJson :: B)) = .ok counters ∧
      b = .counting counters ∧ w'.files = w.files := by
  simp only [Booking.next, ofString_countersJson, Comp.bind_ok, Comp.pure_ok] at h
  obtain ⟨counters, _, hread, rfl, rfl⟩ := h
  exact ⟨counters, readCounters_quiet hB hq hread, rfl, ((readCounters_sameFiles _).ok hread).files⟩

theorem Booking.next_counting {counters : Json.Members} (hB : w.base r.backupDir = .ok B)
    (h : Booking.next E hmacKey r (.counting counters) w = .ok b w') :
    b = (if 3 ≤ saturatingSucc (counterOf r.version counters) then .due else .finished false) ∧
      w.Rewrote B countersJson blacklistJson (.obj (counted r.version counters)) w' := by
  simp only [Booking.next, ofString_countersJson, storeCounters, Comp.bind_ok, Comp.pure_ok] at h
  obtain ⟨_, _, ⟨_, _, hwrite, rfl, rfl⟩, rfl, rfl⟩ := h
  have hstored := (writeJsonAtomic_stored hB hwrite).1
  exact ⟨rfl, hstored.dirs, hstored.file, hstored.other (by decide) tempFileName_ne_blacklistJson⟩

theorem Booking.next_due (hB : w.base r.backupDir = .ok B) (hq : w.Quiet)
    (h : Booking.next E hmacKey r .due w = .ok b w') :
    b = .listing (blacklistIn E hmacKey (w.files.get (blacklistJson :: B))) ∧
      w'.files = w.files := by
  simp only [Booking.next, ofString_blacklistJson, Comp.bind_ok, Comp.pure_ok] at h
  obtain ⟨loaded, _, hload, rfl, rfl⟩ := h
  have hrun := loadBlacklistRaw_run E hmacKey hq hB
  unfold Comp.outcome at hload
  rw [hrun] at hload
  cases hin : blacklistIn E hmacKey (w.files.get (blacklistJson :: B)) <;> rw [hin] at hload <;>
    cases hload <;> exact ⟨rfl, rfl⟩

theorem Booking.next_listing {loaded : Except SynqroError Blacklist}
    (hB : w.base r.backupDir = .ok B)
    (h : Booking.next E hmacKey r (.listing loaded) w = .ok b w') :
    b = .finished true ∧ w.Rewrote B blacklistJson countersJson (Blacklist.signed E hmacKey
      (withVersion r.version (versionsOf loaded))).toJson w' := by
  simp only [Booking.next, ofString_blacklistJson, storeBlacklist, Comp.bind_ok, Comp.pure_ok,
    issue_ok, emit_ok] at h
  obtain ⟨_, w₃, ⟨_, _, rfl, _, w₂, hwrite, _, _, rfl, hlog⟩, rfl, rfl⟩ := h
  have hstored := (@writeJsonAtomic_stored (w.issue _) w₂ _ _ _ _ _ hB hwrite).1
  have hfiles : w₃.files = w₂.files := ((AuditLogger.log_sameFiles E r.audit _ _).ok hlog).files
  refine ⟨rfl, ?_, ?_, ?_⟩
  · rw [hfiles]
    exact hstored.dirs
  · rw [hfiles]
    exact hstored.file
  · rw [hfiles]
    exact hstored.other (by decide) tempFileName_ne_countersJson

theorem Booking.next_finished {blacklisted : Bool}
    (h : Booking.next E hmacKey r (.finished blacklisted) w = .ok b w') :
    b = .finished blacklisted ∧ w' = w := by
  obtain ⟨rfl, rfl⟩ := Comp.pure_ok.1 h
  exact ⟨rfl, rfl⟩

end

/-! ## Both of them -/

/-- The world as a process finds it. -/
@[simps] def World.enter (w : World) (p : Process) : World := { w with process := p }

/-- The two rollbacks, how far each has come, and in which order they have read and renamed the
counters and the blacklist. -/
structure Bookings where
  world : World
  stage : Party → Booking
  counterOrder : List (Access Party)
  listOrder : List (Access Party)

/-- Neither has begun. -/
def Bookings.start (w : World) : Bookings := ⟨w, fun _ => .restored, [], []⟩

/-- What the next step does to the counters. -/
def Booking.counterAccess (p : Party) : Booking → List (Access Party)
  | .logged => [.read p]
  | .counting _ => [.write p]
  | _ => []

/-- What the next step does to the blacklist. -/
def Booking.listAccess (p : Party) : Booking → List (Access Party)
  | .due => [.read p]
  | .listing _ => [.write p]
  | _ => []

/-- What has been done to the counters so far. -/
def Booking.counterSteps (p : Party) : Booking → List (Access Party)
  | .restored | .logged => []
  | .counting _ => [.read p]
  | _ => cycle p

/-- What has been done to the blacklist so far. -/
def Booking.listSteps (p : Party) : Booking → List (Access Party)
  | .listing _ => [.read p]
  | .finished true => cycle p
  | _ => []

/-- The next step reads a state file. -/
def Booking.Reads (b : Booking) : Prop := b = .logged ∨ b = .due

section
variable (E : Externals) (hmacKey : Bytes) (r : Party → Restored) (B : Loc)

/-- Both paths lead to the directory `B`. -/
def World.Shared (w : World) : Prop :=
  ∀ p, (w.enter (r p).process).base (r p).backupDir = .ok B

/-- One of the two takes a step that returns, or anything else happens that leaves the state files
alone. A step that reads a state file gets to see it: a read that fails makes both functions start
from an empty file, whatever the other process does. -/
inductive Bookings.Step : Bookings → Bookings → Prop
  | turn {s : Bookings} {b : Booking} {w' : World} (p : Party) :
      ((s.stage p).Reads → s.world.Quiet) →
      Booking.next E hmacKey (r p) (s.stage p) (s.world.enter (r p).process) = .ok b w' →
      Step s ⟨w', Function.update s.stage p b, s.counterOrder ++ (s.stage p).counterAccess p,
        s.listOrder ++ (s.stage p).listAccess p⟩
  | outside {s : Bookings} {w' : World} :
      w'.files.get (countersJson :: B) = s.world.files.get (countersJson :: B) →
      w'.files.get (blacklistJson :: B) = s.world.files.get (blacklistJson :: B) →
      w'.Shared r B → Step s { s with world := w' }

/-- Any number of steps. -/
abbrev Bookings.Run : Bookings → Bookings → Prop :=
  Relation.ReflTransGen (Bookings.Step E hmacKey r B)

/-! ## What the files say -/

/-- How often each version was rolled back, as the counters say; not at all, when they do not
parse. -/
def countsIn (node : Option Node) (v : String) : UInt32 :=
  match countersIn E node with
  | .ok counters => counterOf v counters
  | .error _ => 0

/-- The counts with one more rollback of a version. -/
def bumped (version : String) (counts : String → UInt32) (v : String) : UInt32 :=
  if v = version then saturatingSucc (counts v) else counts v

/-- The versions in the text of a blacklist, whatever its tag. -/
def listedIn : Option Node → List String
  | some (.file bytes _) =>
    match fromSlice E Blacklist.read bytes with
    | .ok bl => bl.blacklisted
    | .error _ => []
  | _ => []

/-- The versions that a process finds on the blacklist: of `found` at first, later of what was
stored last. -/
def reloaded (found : Option Node) : Option (List String) → List String
  | none => versionsOf (blacklistIn E hmacKey found)
  | some versions =>
    versionsOf (checkBlacklist E hmacKey (toVecPretty (Blacklist.signed E hmacKey versions).toJson))

/-- The counts after the steps of `order`. -/
def replayCounts (found : Option Node) (order : List (Access Party)) :
    ReadModifyWrite.Shared Party (String → UInt32) (String → UInt32) :=
  replay id (fun p => bumped (r p).version) (countsIn E found) order

/-- The blacklist that was stored last, if any was, after the steps of `order`. -/
def replayList (found : Option Node) (order : List (Access Party)) :
    ReadModifyWrite.Shared Party (Option (List String)) (List String) :=
  replay (reloaded E hmacKey found) (fun p versions => some (withVersion (r p).version versions))
    none order

/-- The blacklist is the one that was found, or the one that was stored last. -/
def ListStands (found node : Option Node) : Option (List String) → Prop
  | none => node = found
  | some versions =>
    ∃ mode, node = some (.file (toVecPretty (Blacklist.signed E hmacKey versions).toJson) mode)

/-- What holds between the steps: the files hold what the orders of the steps make of them, and each
process has in memory what it saw when it last read. -/
structure Bookings.Tracked (w : World) (s : Bookings) : Prop where
  shared : s.world.Shared r B
  counters : countsIn E (s.world.files.get (countersJson :: B)) =
    (replayCounts E r (w.files.get (countersJson :: B)) s.counterOrder).value
  list : ListStands E hmacKey (w.files.get (blacklistJson :: B))
    (s.world.files.get (blacklistJson :: B))
    (replayList E hmacKey r (w.files.get (blacklistJson :: B)) s.listOrder).value
  counting : ∀ p counters, s.stage p = .counting counters →
    (∃ bytes, counters = [] ∨ fromSliceValue E readMap bytes = .ok counters) ∧
      (fun v => counterOf v counters) =
        (replayCounts E r (w.files.get (countersJson :: B)) s.counterOrder).seen p
  listing : ∀ p loaded, s.stage p = .listing loaded → versionsOf loaded =
    (replayList E hmacKey r (w.files.get (blacklistJson :: B)) s.listOrder).seen p
  counterSteps : ∀ p, s.counterOrder.filter (fun a => a.client = p) = (s.stage p).counterSteps p
  listSteps : ∀ p, s.listOrder.filter (fun a => a.client = p) = (s.stage p).listSteps p

end

section
variable {E : Externals} {hmacKey : Bytes} {r : Party → Restored} {B : Loc} {w w' : World}
  {s s' : Bookings}

theorem World.Shared.sameDirs (h : w.Shared r B) (hdirs : w.files.SameDirs w'.files) :
    w'.Shared r B := by
  intro p
  rw [World.base, World.enter_files, UnixPath.base_sameDirs hdirs]
  exact h p

/-- Counters that were stored say what was counted. -/
theorem countsIn_counted (hE : E.RereadsCounts) {bytes : Bytes} {counters : Json.Members}
    (hread : counters = [] ∨ fromSliceValue E readMap bytes = .ok counters) (version : String)
    (mode : Mode) :
    countsIn E (some (.file (toVecPretty (.obj (counted version counters))) mode)) =
      bumped version fun v => counterOf v counters := by
  obtain ⟨counters', hback, hcounts⟩ := hE.counts bytes counters version hread
  funext v
  rw [countsIn, countersIn, hback]
  show counterOf v counters' = _
  rw [hcounts, counterOf_counted]
  rfl

/-- Counters in a file come from its text. -/
theorem countersIn_from {node : Option Node} {counters : Json.Members}
    (h : countersIn E node = .ok counters) :
    ∃ bytes, counters = [] ∨ fromSliceValue E readMap bytes = .ok counters := by
  match node, h with
  | none, h =>
    cases h
    exact ⟨[], .inl rfl⟩
  | some (.file bytes _), h => exact ⟨bytes, .inr (mapError_ok.1 h)⟩

namespace Bookings.Tracked

variable {node : Option Node}

theorem counters_nil (h : s.Tracked E hmacKey r B w)
    (hnode : node = s.world.files.get (countersJson :: B)) : countsIn E node =
    (replayCounts E r (w.files.get (countersJson :: B)) (s.counterOrder ++ [])).value := by
  rw [hnode, List.append_nil]
  exact h.counters

theorem counters_read (h : s.Tracked E hmacKey r B w) (p : Party)
    (hnode : node = s.world.files.get (countersJson :: B)) : countsIn E node =
      (replayCounts E r (w.files.get (countersJson :: B)) (s.counterOrder ++ [.read p])).value := by
  rw [hnode, replayCounts, ReadModifyWrite.replay_read_value]
  exact h.counters

theorem list_nil (h : s.Tracked E hmacKey r B w)
    (hnode : node = s.world.files.get (blacklistJson :: B)) :
    ListStands E hmacKey (w.files.get (blacklistJson :: B)) node (replayList E hmacKey r
      (w.files.get (blacklistJson :: B)) (s.listOrder ++ [])).value := by
  rw [hnode, List.append_nil]
  exact h.list

theorem list_read (h : s.Tracked E hmacKey r B w) (p : Party)
    (hnode : node = s.world.files.get (blacklistJson :: B)) :
    ListStands E hmacKey (w.files.get (blacklistJson :: B)) node (replayList E hmacKey r
      (w.files.get (blacklistJson :: B)) (s.listOrder ++ [.read p])).value := by
  rw [hnode, replayList, ReadModifyWrite.replay_read_value]
  exact h.list

end Bookings.Tracked

/-- What a process finds on the blacklist is the last one stored, or the first one found. -/
theorem ListStands.versionsOf {found node : Option Node} {value : Option (List String)}
    (h : ListStands E hmacKey found node value) :
    Synqro.versionsOf (blacklistIn E hmacKey node) = reloaded E hmacKey found value := by
  cases value with
  | none =>
    obtain rfl : node = found := h
    rfl
  | some versions =>
    obtain ⟨mode, rfl⟩ := h
    rfl

/-- A step of the process `p` keeps what holds, when it does for `p` and the files. -/
theorem Bookings.Tracked.turn (h : s.Tracked E hmacKey r B w) {p : Party} {b b' : Booking}
    (hstage : s.stage p = b) (hdirs : s.world.files.SameDirs w'.files)
    (hcounters : countsIn E (w'.files.get (countersJson :: B)) =
      (replayCounts E r (w.files.get (countersJson :: B))
        (s.counterOrder ++ b.counterAccess p)).value)
    (hlist : ListStands E hmacKey (w.files.get (blacklistJson :: B))
      (w'.files.get (blacklistJson :: B)) (replayList E hmacKey r (w.files.get (blacklistJson :: B))
        (s.listOrder ++ b.listAccess p)).value)
    (hcounting : ∀ counters, b' = .counting counters →
      (∃ bytes, counters = [] ∨ fromSliceValue E readMap bytes = .ok counters) ∧
        (fun v => counterOf v counters) = (replayCounts E r (w.files.get (countersJson :: B))
          (s.counterOrder ++ b.counterAccess p)).seen p)
    (hlisting : ∀ loaded, b' = .listing loaded → versionsOf loaded =
      (replayList E hmacKey r (w.files.get (blacklistJson :: B))
        (s.listOrder ++ b.listAccess p)).seen p)
    (hcounterSteps : b.counterSteps p ++ b.counterAccess p = b'.counterSteps p)
    (hlistSteps : b.listSteps p ++ b.listAccess p = b'.listSteps p) :
    Bookings.Tracked E hmacKey r B w ⟨w', Function.update s.stage p b',
      s.counterOrder ++ b.counterAccess p, s.listOrder ++ b.listAccess p⟩ := by
  have hcounterMine : ∀ a ∈ b.counterAccess p, a.client = p := by
    cases b <;> simp [Booking.counterAccess, Access.client]
  have hlistMine : ∀ a ∈ b.listAccess p, a.client = p := by
    cases b <;> simp [Booking.listAccess, Access.client]
  refine ⟨h.shared.sameDirs hdirs, hcounters, hlist, fun q counters hq => ?_, fun q loaded hq => ?_,
    fun q => ?_, fun q => ?_⟩
  · by_cases hpq : q = p
    · subst hpq
      exact hcounting counters ((Function.update_self ..).symm.trans hq)
    · obtain ⟨hread, hseen⟩ := h.counting q counters ((Function.update_of_ne hpq _ _).symm.trans hq)
      refine ⟨hread, hseen.trans (ReadModifyWrite.replay_seen_of_ne fun a ha hc => ?_).symm⟩
      exact hpq (hc.symm.trans (hcounterMine a ha))
  · by_cases hpq : q = p
    · subst hpq
      exact hlisting loaded ((Function.update_self ..).symm.trans hq)
    · refine (h.listing q loaded ((Function.update_of_ne hpq _ _).symm.trans hq)).trans
        (ReadModifyWrite.replay_seen_of_ne fun a ha hc => ?_).symm
      exact hpq (hc.symm.trans (hlistMine a ha))
  · rw [ReadModifyWrite.filter_client_append hcounterMine, h.counterSteps]
    dsimp only
    by_cases hpq : q = p
    · subst hpq
      rw [if_pos rfl, hstage, hcounterSteps, Function.update_self]
    · rw [if_neg hpq, List.append_nil, Function.update_of_ne hpq]
  · rw [ReadModifyWrite.filter_client_append hlistMine, h.listSteps]
    dsimp only
    by_cases hpq : q = p
    · subst hpq
      rw [if_pos rfl, hstage, hlistSteps, Function.update_self]
    · rw [if_neg hpq, List.append_nil, Function.update_of_ne hpq]

/-- Each step of a process keeps what holds. -/
theorem Bookings.Tracked.next (hE : E.RereadsCounts) (h : s.Tracked E hmacKey r B w) (p : Party)
    {b : Booking} (hreads : (s.stage p).Reads → s.world.Quiet)
    (hnext : Booking.next E hmacKey (r p) (s.stage p) (s.world.enter (r p).process) = .ok b w') :
    Bookings.Tracked E hmacKey r B w ⟨w', Function.update s.stage p b,
      s.counterOrder ++ (s.stage p).counterAccess p, s.listOrder ++ (s.stage p).listAccess p⟩ := by
  have hB := h.shared p
  cases hstage : s.stage p with
  | restored =>
    rw [hstage] at hnext
    obtain ⟨rfl, hfiles⟩ := Booking.next_restored hnext
    replace hfiles : w'.files = s.world.files := hfiles
    refine h.turn hstage ?_ (h.counters_nil ?_) (h.list_nil ?_) nofun nofun rfl rfl
    · rw [hfiles]
      exact .refl _
    · rw [hfiles]
    · rw [hfiles]
  | logged =>
    rw [hstage] at hnext hreads
    obtain ⟨counters, hread, rfl, hfiles⟩ := Booking.next_logged hB (hreads (.inl rfl)) hnext
    replace hfiles : w'.files = s.world.files := hfiles
    replace hread : countersIn E (s.world.files.get (countersJson :: B)) = .ok counters := hread
    refine h.turn hstage ?_ (h.counters_read p ?_) (h.list_nil ?_) (fun counters' hb => ?_) nofun
      rfl rfl
    · rw [hfiles]
      exact .refl _
    · rw [hfiles]
    · rw [hfiles]
    · cases hb
      refine ⟨countersIn_from hread, ?_⟩
      show _ = (replayCounts E r _ (s.counterOrder ++ [.read p])).seen p
      rw [replayCounts, ReadModifyWrite.replay_read_seen, Function.update_self, id, ← replayCounts,
        ← h.counters]
      funext v
      rw [countsIn, hread]
  | counting counters =>
    rw [hstage] at hnext
    obtain ⟨hb, hrewrote⟩ := Booking.next_counting hB hnext
    obtain ⟨⟨bytes, hread⟩, hseen⟩ := h.counting p counters hstage
    obtain ⟨mode, hfile⟩ := hrewrote.file
    refine h.turn hstage hrewrote.dirs ?_ (h.list_nil hrewrote.kept) (fun counters' hb' => ?_)
      (fun loaded hb' => ?_) ?_ ?_
    · show _ = (replayCounts E r _ (s.counterOrder ++ [.write p])).value
      rw [hfile, countsIn_counted hE hread, replayCounts, ReadModifyWrite.replay_write_value, hseen,
        replayCounts]
    · rw [hb'] at hb
      split at hb <;> cases hb
    · rw [hb'] at hb
      split at hb <;> cases hb
    · rw [hb]
      split <;> rfl
    · rw [hb]
      split <;> rfl
  | due =>
    rw [hstage] at hnext hreads
    obtain ⟨rfl, hfiles⟩ := Booking.next_due hB (hreads (.inr rfl)) hnext
    replace hfiles : w'.files = s.world.files := hfiles
    refine h.turn hstage ?_ (h.counters_nil ?_) (h.list_read p ?_) nofun
      (fun loaded hb => ?_) rfl rfl
    · rw [hfiles]
      exact .refl _
    · rw [hfiles]
    · rw [hfiles]
    · cases hb
      show _ = (replayList E hmacKey r _ (s.listOrder ++ [.read p])).seen p
      rw [replayList, ReadModifyWrite.replay_read_seen, Function.update_self, ← replayList]
      exact h.list.versionsOf
  | listing loaded =>
    rw [hstage] at hnext
    obtain ⟨rfl, hrewrote⟩ := Booking.next_listing hB hnext
    refine h.turn hstage hrewrote.dirs (h.counters_nil hrewrote.kept) ?_ nofun nofun rfl rfl
    show ListStands E hmacKey _ _ (replayList E hmacKey r _ (s.listOrder ++ [.write p])).value
    rw [replayList, ReadModifyWrite.replay_write_value, ← replayList, ← h.listing p loaded hstage]
    exact hrewrote.file
  | finished blacklisted =>
    rw [hstage] at hnext
    obtain ⟨rfl, rfl⟩ := Booking.next_finished hnext
    exact h.turn hstage (.refl _) (h.counters_nil rfl) (h.list_nil rfl) nofun nofun
      (List.append_nil _) (List.append_nil _)

theorem Bookings.Tracked.step (hE : E.RereadsCounts) (h : s.Tracked E hmacKey r B w)
    (hstep : Bookings.Step E hmacKey r B s s') : s'.Tracked E hmacKey r B w := by
  cases hstep with
  | turn p hreads hnext => exact h.next hE p hreads hnext
  | outside hcounters hlist hshared =>
    exact ⟨hshared, by rw [hcounters]; exact h.counters, by rw [hlist]; exact h.list, h.counting,
      h.listing, h.counterSteps, h.listSteps⟩

theorem Bookings.start_tracked (h : w.Shared r B) :
    (Bookings.start w).Tracked E hmacKey r B w :=
  ⟨h, rfl, rfl, nofun, nofun, fun _ => rfl, fun _ => rfl⟩

theorem Bookings.Run.tracked (hE : E.RereadsCounts) (hshared : w.Shared r B)
    (hrun : Bookings.Run E hmacKey r B (Bookings.start w) s) : s.Tracked E hmacKey r B w := by
  induction hrun with
  | refl => exact Bookings.start_tracked hshared
  | tail _ hstep ih => exact ih.step hE hstep

/-! ## What the orders lose -/

theorem saturatingSucc_eq_self {n : UInt32} : saturatingSucc n = n ↔ n.toNat = 2 ^ 32 - 1 := by
  rw [← UInt32.toNat_inj, toNat_saturatingSucc]
  have hlt := n.toNat_lt
  omega

@[simp] theorem bumped_self (v : String) (counts : String → UInt32) :
    bumped v counts v = saturatingSucc (counts v) := if_pos rfl

theorem bumped_of_ne {v x : String} (h : x ≠ v) (counts : String → UInt32) :
    bumped v counts x = counts x := if_neg h

theorem bumped_comm (v v' : String) (counts : String → UInt32) :
    bumped v (bumped v' counts) = bumped v' (bumped v counts) := by
  by_cases hvv : v = v'
  · rw [hvv]
  · funext x
    by_cases hv : x = v
    · subst hv
      rw [bumped_self, bumped_of_ne hvv, bumped_of_ne hvv, bumped_self]
    · rw [bumped_of_ne hv]
      by_cases hv' : x = v'
      · subst hv'
        rw [bumped_self, bumped_self, bumped_of_ne hv]
      · rw [bumped_of_ne hv', bumped_of_ne hv', bumped_of_ne hv]

/-- A rollback that is not counted goes unnoticed when its count is at the limit. -/
theorem bumped_eq_bumped {v v' : String} {counts : String → UInt32} :
    bumped v' counts = bumped v (bumped v' counts) ↔
      2 ^ 32 - 1 ≤ (counts v).toNat + if v = v' then 1 else 0 := by
  have hlt := (counts v).toNat_lt
  have hself : bumped v' counts = bumped v (bumped v' counts) ↔
      saturatingSucc (bumped v' counts v) = bumped v' counts v := by
    constructor
    · intro h
      have hv := congrFun h v
      rw [bumped_self] at hv
      exact hv.symm
    · intro h
      funext x
      by_cases hx : x = v
      · rw [hx, bumped_self, h]
      · rw [bumped_of_ne hx]
  rw [hself, saturatingSucc_eq_self, bumped]
  split
  · rw [toNat_saturatingSucc]
    omega
  · omega

/-- The order of the counter steps loses no rollback: one process has renamed the counters before
the other reads them, or the count of the one that renames first is at its limit. -/
def Bookings.CountsApart (E : Externals) (r : Party → Restored) (found : Option Node)
    (order : List (Access Party)) : Prop :=
  Overlapping order → ∀ p, firstToWrite order = some p → 2 ^ 32 - 1 ≤
    (countsIn E found (r p).version).toNat +
      if (r .app).version = (r .watchdog).version then 1 else 0

/-- The order of the blacklist steps loses no version: only one process stores the blacklist, or the
two versions are the same; or the version that is stored first was on the blacklist before, when
both have read it before; or it was not, or the blacklist is tagged as it stands, when one reads
after the other has renamed. -/
def Bookings.ListApart (E : Externals) (hmacKey : Bytes) (r : Party → Restored)
    (found : Option Node) (order : List (Access Party)) : Prop :=
  (∀ p, .write p ∈ order) → (r .app).version ≠ (r .watchdog).version →
    ∀ p, firstToWrite order = some p →
    let versions := versionsOf (blacklistIn E hmacKey found)
    (Overlapping order → (r p).version ∈ versions) ∧
      (¬ Overlapping order → (r p).version ∈ versions →
        SameTag E hmacKey (versions.insertionSort (· ≤ ·)) versions)

/-- The steps of the two make up the order. -/
theorem shuffle_parties {order xs ys : List (Access Party)}
    (happ : order.filter (fun a => a.client = .app) = xs)
    (hwatchdog : order.filter (fun a => a.client = .watchdog) = ys) : Shuffle xs ys order := by
  have hother : order.filter (fun a => a.client = .watchdog) =
      order.filter (fun a => !decide (a.client = .app)) := by
    refine List.filter_congr fun a _ => ?_
    cases a.client <;> rfl
  rw [← happ, ← hwatchdog, hother]
  exact ReadModifyWrite.shuffle_filter _ order

theorem Bookings.Tracked.counted_iff (h : s.Tracked E hmacKey r B w) {listed : Party → Bool}
    (hdone : ∀ p, s.stage p = .finished (listed p)) :
    countsIn E (s.world.files.get (countersJson :: B)) =
        bumped (r .app).version (bumped (r .watchdog).version
          (countsIn E (w.files.get (countersJson :: B)))) ↔
      CountsApart E r (w.files.get (countersJson :: B)) s.counterOrder := by
  have hsteps (p : Party) : s.counterOrder.filter (fun a => a.client = p) = cycle p := by
    rw [h.counterSteps, hdone]
    rfl
  have hshuffle := shuffle_parties (hsteps .app) (hsteps .watchdog)
  obtain ⟨a, b, hab, hfirst, hvalue⟩ := @ReadModifyWrite.replay_cycles _ _ _ _ id
    (fun p => bumped (r p).version) (countsIn E (w.files.get (countersJson :: B))) _ _ _ hshuffle
  rw [h.counters]
  have hboth : bumped (r .app).version (bumped (r .watchdog).version
      (countsIn E (w.files.get (countersJson :: B)))) = bumped (r a).version (bumped (r b).version
        (countsIn E (w.files.get (countersJson :: B)))) := by
    rcases hab with ⟨rfl, rfl⟩ | ⟨rfl, rfl⟩
    · rfl
    · exact bumped_comm _ _ _
  have hsame : (r .app).version = (r .watchdog).version ↔ (r a).version = (r b).version := by
    rcases hab with ⟨rfl, rfl⟩ | ⟨rfl, rfl⟩
    · rfl
    · exact eq_comm
  rw [hboth]
  unfold CountsApart
  simp only [hfirst, Option.some.injEq, forall_eq', hsame]
  rcases hvalue with ⟨hover, hvalue⟩ | ⟨hover, hvalue⟩
  · refine iff_of_true ?_ fun h => absurd h hover
    rw [replayCounts, hvalue]
    exact bumped_comm _ _ _
  · rw [replayCounts, hvalue, ← bumped_eq_bumped]
    exact ⟨fun h _ => h, fun h => h hover⟩

/-- The text of a blacklist that was stored. -/
theorem listedIn_signed (hE : E.ReadsPlain) (versions : List String) (mode : Mode) :
    listedIn E (some (.file (toVecPretty (Blacklist.signed E hmacKey versions).toJson) mode)) =
      versions := by
  rw [listedIn, fromSlice_toJson hE]
  rfl

/-- A version that was stored is found again, unless it went into a list that it was on and that is
not tagged as it stands. -/
theorem mem_reloaded_withVersion (hE : E.ReadsPlain) {found : Option Node} {version : String}
    {versions : List String} :
    version ∈ reloaded E hmacKey found (some (withVersion version versions)) ↔
      (version ∈ versions → SameTag E hmacKey (versions.insertionSort (· ≤ ·)) versions) := by
  have hreload : version ∈ reloaded E hmacKey found (some (withVersion version versions)) ↔
      SameTag E hmacKey ((withVersion version versions).insertionSort (· ≤ ·))
        (withVersion version versions) := by
    have hcheck (bl : Blacklist) := @checkBlacklist_toJson E hmacKey hE
      (Blacklist.signed E hmacKey (withVersion version versions)) bl
    rw [reloaded]
    cases hr : checkBlacklist E hmacKey
        (toVecPretty (Blacklist.signed E hmacKey (withVersion version versions)).toJson) with
    | ok bl =>
      obtain ⟨rfl, htag⟩ := (hcheck bl).1 hr
      exact iff_of_true (mem_withVersion.2 (.inl rfl)) htag
    | error e =>
      refine iff_of_false List.not_mem_nil fun htag => ?_
      rw [(hcheck _).2 ⟨rfl, htag⟩] at hr
      cases hr
  rw [hreload]
  by_cases hmem : version ∈ versions
  · rw [withVersion, if_pos hmem]
    exact ⟨fun h _ => h, fun h => h hmem⟩
  · refine iff_of_true ?_ fun h => absurd h hmem
    rw [withVersion, if_neg hmem, (List.pairwise_insertionSort (· ≤ ·) _).insertionSort_eq]
    exact rfl

theorem Bookings.Tracked.listed_iff (hE : E.ReadsPlain) (h : s.Tracked E hmacKey r B w)
    {listed : Party → Bool} (hdone : ∀ p, s.stage p = .finished (listed p)) :
    (∀ p, listed p = true →
        (r p).version ∈ listedIn E (s.world.files.get (blacklistJson :: B))) ↔
      ListApart E hmacKey r (w.files.get (blacklistJson :: B)) s.listOrder := by
  have hsteps (p : Party) : s.listOrder.filter (fun a => a.client = p) =
      if listed p then cycle p else [] := by
    rw [h.listSteps, hdone]
    cases listed p <;> rfl
  -- what the text says, once something was stored
  have hlist {versions : List String} (hvalue : (replayList E hmacKey r
      (w.files.get (blacklistJson :: B)) s.listOrder).value = some versions) :
      listedIn E (s.world.files.get (blacklistJson :: B)) = versions := by
    have hstands := h.list
    rw [hvalue] at hstands
    obtain ⟨mode, hfile⟩ := hstands
    rw [hfile, listedIn_signed hE]
  have hwrites (p : Party) : .write p ∈ s.listOrder ↔ listed p = true := by
    have hmem : .write p ∈ s.listOrder ↔ .write p ∈ s.listOrder.filter (fun a => a.client = p) := by
      rw [List.mem_filter]
      exact (and_iff_left (decide_eq_true rfl)).symm
    rw [hmem, hsteps]
    cases listed p <;> simp [cycle]
  have hshuffle := shuffle_parties (hsteps .app) (hsteps .watchdog)
  by_cases hall : ∀ p, listed p = true
  · rw [if_pos (hall _), if_pos (hall _)] at hshuffle
    obtain ⟨a, b, hab, hfirst, hvalue⟩ := @ReadModifyWrite.replay_cycles _ _ _ _
      (reloaded E hmacKey (w.files.get (blacklistJson :: B)))
      (fun p versions => some (withVersion (r p).version versions)) none _ _ _ hshuffle
    have hboth {versions : List String} : (∀ p, listed p = true → (r p).version ∈
        withVersion (r b).version versions) ↔
          ((r .app).version ≠ (r .watchdog).version → (r a).version ∈ versions) := by
      have hpair : (∀ p, listed p = true → (r p).version ∈ withVersion (r b).version versions) ↔
          (r a).version ∈ withVersion (r b).version versions := by
        refine ⟨fun h => h a (hall a), fun h p _ => ?_⟩
        have hp : p = a ∨ p = b := by
          rcases hab with ⟨rfl, rfl⟩ | ⟨rfl, rfl⟩ <;> cases p <;> simp
        rcases hp with rfl | rfl
        · exact h
        · exact mem_withVersion.2 (.inl rfl)
      have hne : (r .app).version ≠ (r .watchdog).version ↔ (r a).version ≠ (r b).version := by
        rcases hab with ⟨rfl, rfl⟩ | ⟨rfl, rfl⟩
        · rfl
        · exact ne_comm
      rw [hpair, mem_withVersion, hne, or_iff_not_imp_left]
    generalize hfound : versionsOf
      (blacklistIn E hmacKey (w.files.get (blacklistJson :: B))) = found
    have hapart : ListApart E hmacKey r (w.files.get (blacklistJson :: B)) s.listOrder ↔
        ((r .app).version ≠ (r .watchdog).version →
          (Overlapping s.listOrder → (r a).version ∈ found) ∧
          (¬ Overlapping s.listOrder → (r a).version ∈ found →
            SameTag E hmacKey (found.insertionSort (· ≤ ·)) found)) := by
      unfold ListApart
      simp only [hwrites, hall, hfirst, Option.some.injEq, forall_eq', forall_const, hfound]
    have hnone : reloaded E hmacKey (w.files.get (blacklistJson :: B)) none = found := hfound
    rw [hapart]
    rw [hnone] at hvalue
    rcases hvalue with ⟨hover, hvalue⟩ | ⟨hover, hvalue⟩
    · rw [hlist hvalue, hboth]
      simp only [hover, not_false_eq_true, forall_const, false_implies, true_and]
      exact forall_congr' fun _ => mem_reloaded_withVersion hE
    · rw [hlist hvalue, hboth]
      simp only [hover, not_true_eq_false, forall_const, false_implies, and_true]
  · refine iff_of_true (fun p hp => ?_) fun h => absurd (fun p => (hwrites p).1 (h p)) hall
    -- only the process `p` has stored a blacklist
    have horder : s.listOrder = cycle p := by
      cases p with
      | app =>
        have hother : ¬ listed .watchdog = true := fun h => hall fun q => by cases q <;> assumption
        rw [if_pos hp, if_neg hother] at hshuffle
        exact hshuffle.eq_of_nil_right
      | watchdog =>
        have hother : ¬ listed .app = true := fun h => hall fun q => by cases q <;> assumption
        rw [if_pos hp, if_neg hother] at hshuffle
        exact hshuffle.eq_of_nil
    rw [hlist (by rw [replayList, horder, ReadModifyWrite.replay_cycle])]
    exact mem_withVersion.2 (.inl rfl)

end

/-- **Two rollbacks at once.** When both processes have finished, the counters have both rollbacks
and the blacklist has every version that one of them blacklisted exactly when neither order of steps
has lost anything. -/
theorem bookings_complete (E : Externals) (hmacKey : Bytes) (r : Party → Restored) (B : Loc)
    (w : World) (s : Bookings) (listed : Party → Bool) (hE : E.RereadsCounts)
    (hshared : w.Shared r B) (hrun : Bookings.Run E hmacKey r B (Bookings.start w) s)
    (hdone : ∀ p, s.stage p = .finished (listed p)) :
    (countsIn E (s.world.files.get (countersJson :: B)) = bumped (r .app).version
        (bumped (r .watchdog).version (countsIn E (w.files.get (countersJson :: B)))) ∧
      ∀ p, listed p = true →
        (r p).version ∈ listedIn E (s.world.files.get (blacklistJson :: B))) ↔
    Bookings.CountsApart E r (w.files.get (countersJson :: B)) s.counterOrder ∧
      Bookings.ListApart E hmacKey r (w.files.get (blacklistJson :: B)) s.listOrder := by
  have htracked := hrun.tracked hE hshared
  rw [htracked.counted_iff hdone, htracked.listed_iff hE.toReadsPlain hdone]


/-! ## A run -/

/-- How a rollback has finished. -/
def Booking.finished? : Booking → Option Bool
  | .finished blacklisted => some blacklisted
  | _ => none

theorem Booking.eq_finished {b : Booking} {blacklisted : Bool}
    (h : b.finished? = some blacklisted) : b = .finished blacklisted := by
  cases b <;> cases h
  rfl

section
variable (E : Externals) (hmacKey : Bytes) (r : Party → Restored) (B : Loc)

/-- The process takes its step, if it returns and meets no fault. -/
def Bookings.turn (s : Bookings) (p : Party) : Option Bookings :=
  match Booking.next E hmacKey (r p) (s.stage p) (s.world.enter (r p).process) with
  | .ok b w' =>
    if (s.world.env.fault s.world.calls).isNone then
      some ⟨w', Function.update s.stage p b, s.counterOrder ++ (s.stage p).counterAccess p,
        s.listOrder ++ (s.stage p).listAccess p⟩
    else none
  | .error _ _ => none

variable {E hmacKey r B}

theorem Bookings.turn_step {s s' : Bookings} {p : Party} (h : s.turn E hmacKey r p = some s') :
    Bookings.Step E hmacKey r B s s' := by
  unfold Bookings.turn at h
  split at h
  · next b w' hnext =>
    split at h
    · next hquiet =>
      cases h
      exact .turn p (fun _ => Option.isNone_iff_eq_none.1 hquiet) hnext
    · cases h
  · cases h

theorem Bookings.run_of_turns {ps : List Party} {s s' : Bookings}
    (h : ps.foldlM (Bookings.turn E hmacKey r) s = some s') : Bookings.Run E hmacKey r B s s' := by
  induction ps generalizing s with
  | nil =>
    cases h
    exact .refl
  | cons p ps ih =>
    rw [List.foldlM_cons, Option.bind_eq_bind, Option.bind_eq_some_iff] at h
    obtain ⟨s₁, hturn, hrest⟩ := h
    exact .head (turn_step hturn) (ih hrest)

end

/-- A rollback to one version in either process. -/
def sameRollback (_ : Party) : Restored where
  process := .startedIn appExe.tail
  version := "1.0.0"
  backupDir := .ofString "/backup"
  audit := rollbackLogger
  fileCount := 1

/-- An empty backup directory. -/
def emptyBackup : World :=
  .boot .calm (.startedIn appExe.tail) (installedFiles.set backupLoc .dir)

/-- Both read the counters before either renames. -/
def bothReadFirst : Option Bookings :=
  [.app, .watchdog, .app, .watchdog, .app, .watchdog].foldlM
    (Bookings.turn .running [7] sameRollback) (.start emptyBackup)

theorem bookings_complete_overlapping : ∃ s,
    Bookings.Run .running [7] sameRollback backupLoc (.start emptyBackup) s ∧
      (∀ p, s.stage p = .finished false) ∧
      countsIn .running (s.world.files.get (countersJson :: backupLoc)) ≠
        bumped "1.0.0" (bumped "1.0.0" fun _ => 0) := by
  have hfinished : bothReadFirst.map
    (fun s => ((s.stage .app).finished?, (s.stage .watchdog).finished?,
      s.counterOrder)) = some (some false, some false,
        [.read .app, .read .watchdog, .write .app, .write .watchdog]) := by decide +kernel
  obtain ⟨s, hs, heq⟩ := Option.map_eq_some_iff.1 hfinished
  rw [Prod.mk.injEq, Prod.mk.injEq] at heq
  obtain ⟨happ, hwatchdog, horder⟩ := heq
  have hdone : ∀ p, s.stage p = .finished false := by
    intro p
    cases p
    · exact Booking.eq_finished happ
    · exact Booking.eq_finished hwatchdog
  have hrun : Bookings.Run .running [7] sameRollback backupLoc (.start emptyBackup) s :=
    Bookings.run_of_turns hs
  have hshared : emptyBackup.Shared sameRollback backupLoc := by
    intro p
    cases p
    · decide +kernel
    · decide +kernel
  have hiff := bookings_complete .running [7] sameRollback backupLoc emptyBackup s (fun _ => false)
    Externals.running_rereadsCounts hshared hrun hdone
  refine ⟨s, hrun, hdone, fun hcounts => ?_⟩
  have hapart := (hiff.1 ⟨hcounts, nofun⟩).1
  rw [horder] at hapart
  have hlimit := hapart trivial .app rfl
  revert hlimit
  decide +kernel

end Synqro
