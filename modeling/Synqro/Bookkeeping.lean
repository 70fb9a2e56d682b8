import Synqro.Lib.JsonPlain
import Synqro.Artifact

/-!
# The state files of rollbacks

`rollback_counters.json` and `blacklist.json` in the backup directory: what the functions that keep
them find there and what they leave. Both are written through `writeJsonAtomic`, which publishes a
file or changes nothing but its temporary file, and both are read back by the parser that
`Externals.ReadsPlain` speaks of.
-/

namespace Synqro

/-- The JSON reader reads the trees that the printer prints, when they hold no floating-point number
and nest within its limit. -/
structure Externals.ReadsPlain (E : Externals) : Prop where
  parse : ∀ j : Json, j.Plain 127 → E.parseJson (toVecPretty j) = .ok j
  accepts : ∀ j : Json, j.Plain 127 → E.refusesValue (toVecPretty j) = none

theorem Externals.running_readsPlain : Externals.running.ReadsPlain :=
  ⟨fun _ h => running_parseJson h.2, fun _ _ => rfl⟩

/-- The name of the counters in the backup directory. -/
def countersJson : FileName := ⟨"rollback_counters.json", by decide⟩

/-- The name of the blacklist in the backup directory. -/
def blacklistJson : FileName := ⟨"blacklist.json", by decide⟩

@[simp] theorem ofString_countersJson :
    UnixPath.ofString "rollback_counters.json" = .ofName countersJson :=
  UnixPath.ofString_text countersJson

@[simp] theorem ofString_blacklistJson :
    UnixPath.ofString "blacklist.json" = .ofName blacklistJson :=
  UnixPath.ofString_text blacklistJson

/-- A temporary file is named unlike every file whose name has no dot in front. -/
theorem tempFileName_ne {n : FileName} (h : n.text.toList.head? ≠ some '.') (nanos : Int) :
    tempFileName nanos ≠ n := by
  rintro rfl
  refine h ?_
  show (tempName nanos).toList.head? = some '.'
  rw [tempName_toList]
  rfl

theorem tempFileName_ne_countersJson (nanos : Int) : tempFileName nanos ≠ countersJson :=
  tempFileName_ne (by decide) nanos

theorem tempFileName_ne_blacklistJson (nanos : Int) : tempFileName nanos ≠ blacklistJson :=
  tempFileName_ne (by decide) nanos

namespace World

/-- Where the files named below a path stand. -/
def base (w : World) (dir : UnixPath) : Except IoError Loc := dir.base w.files w.process.cwd

theorem locate_join (w : World) (dir : UnixPath) (n : FileName) :
    w.locate (dir.join (.ofName n)) = (w.base dir).map (n :: ·) :=
  UnixPath.locateFile_join w.files w.process.cwd dir n

theorem locate_join_of_base {w : World} {dir : UnixPath} {B : Loc} (h : w.base dir = .ok B)
    (n : FileName) : w.locate (dir.join (.ofName n)) = .ok (n :: B) := by
  rw [locate_join, h]
  rfl

theorem locate_join_eq_ok {w : World} {dir : UnixPath} {n : FileName} {l : Loc} :
    w.locate (dir.join (.ofName n)) = .ok l ↔ ∃ B, w.base dir = .ok B ∧ l = n :: B := by
  rw [locate_join]
  cases w.base dir with
  | error e => simp [Except.map]
  | ok B =>
    show Except.ok (n :: B) = .ok l ↔ _
    simp [eq_comm]

/-- The temporary file of a state file that is about to be written. -/
def tempFile (w : World) : FileName := tempFileName (timestampNanos (w.env.clock w.calls))

end World

section
variable {E : Externals} {w w' : World} {dir : UnixPath} {n : FileName} {value : Json}

/-! ## Writing a state file -/

/-- A state file that was written has been published in its directory. -/
theorem writeJsonAtomic_ok {u : Unit} : writeJsonAtomic (dir.join (.ofName n)) value w = .ok u w' ↔
    w.tick.QuietFor 5 ∧ ∃ B t, w.base dir = .ok B ∧
      w.files.publish (w.tempFile :: B) (n :: B) (toVecPretty value) w.process.freshMode = .ok t ∧
      w' = ((w.advance 6).setFiles t).emit
        (.renamed (w.tempFile :: B) (n :: B) (t.get (n :: B))) := by
  have hquiet : w.tick.QuietFor 5 ↔ w.tick.Quiet ∧ w.tick.tick.Quiet ∧ w.tick.tick.tick.Quiet ∧
      w.tick.tick.tick.tick.Quiet ∧ w.tick.tick.tick.tick.tick.Quiet := by
    simp only [World.quietFor_succ, World.quietFor_zero, and_true]
  rw [hquiet]
  simp only [writeJsonAtomic, ofString_tempName, UnixPath.parent_join_ofName, Comp.bind_ok, now_ok,
    Comp.mapErr_ok, Comp.onError_ok, fs.create_ok, fs.writeAll_ok, bareCall_ok, fs.rename_ok]
  constructor
  · rintro ⟨_, _, ⟨rfl, rfl⟩, s, _, ⟨hq₁, hs, t₁, hc, rfl⟩, _, _, ⟨hq₂, t₂, ha, rfl⟩, _, _,
      ⟨hq₃, rfl⟩, _, _, ⟨hq₄, rfl⟩, hq₅, s', d, t, hs', hd, hr, rfl⟩
    have hdirs : w.files.SameDirs t₂ :=
      (FileTree.create_sameDirs hc).trans (FileTree.append_sameDirs ha)
    have hsame (p : UnixPath) := UnixPath.locateFile_sameDirs hdirs w.process.cwd p
    obtain ⟨B, hB, rfl⟩ := World.locate_join_eq_ok.1 hs
    replace hB : w.base dir = .ok B := hB
    obtain rfl : w.tempFile :: B = s' := Except.ok.inj (hs.symm.trans ((hsame _).symm.trans hs'))
    have hd' : w.locate (dir.join (.ofName n)) = .ok d := (hsame _).symm.trans hd
    rw [World.locate_join_of_base hB] at hd'
    cases hd'
    refine ⟨⟨hq₁, hq₂, hq₃, hq₄, hq₅⟩, B, t, hB, ?_, rfl⟩
    simp only [FileTree.publish, FileTree.overwrite, except_bind_ok]
    exact ⟨t₂, ⟨t₁, hc, ha⟩, hr⟩
  · rintro ⟨⟨hq₁, hq₂, hq₃, hq₄, hq₅⟩, B, t, hB, h, rfl⟩
    simp only [FileTree.publish, FileTree.overwrite, except_bind_ok] at h
    obtain ⟨t₂, ⟨t₁, hc, ha⟩, hr⟩ := h
    have hdirs : w.files.SameDirs t₂ :=
      (FileTree.create_sameDirs hc).trans (FileTree.append_sameDirs ha)
    have hsame (p : UnixPath) := UnixPath.locateFile_sameDirs hdirs w.process.cwd p
    have hs := World.locate_join_of_base hB w.tempFile
    have hd := World.locate_join_of_base hB n
    exact ⟨_, _, ⟨rfl, rfl⟩, _, _, ⟨hq₁, hs, t₁, hc, rfl⟩, (), _, ⟨hq₂, t₂, ha, rfl⟩, (), _,
      ⟨hq₃, rfl⟩, (), _, ⟨hq₄, rfl⟩, hq₅, _, _, t, (hsame _).trans hs, (hsame _).trans hd, hr, rfl⟩

/-- A frame for a state file that could not be written: whatever its steps respect short of the
rename. -/
theorem writeJsonAtomic_error {R : World → World → Prop} [IsTrans World R] {e : SynqroError}
    (h : writeJsonAtomic (dir.join (.ofName n)) value w = .error e w') (tick : ∀ v, R v v.tick)
    (create : Comp.Respects R (fs.create (dir.join (.ofName w.tempFile))))
    (write : ∀ v v' file, fs.create (dir.join (.ofName w.tempFile)) v = .ok file v' →
      R v' (Comp.after (fs.writeAll file (toVecPretty value)) v'))
    (bare : Comp.Respects R bareCall)
    (remove : Comp.Respects R (fs.removeFile (dir.join (.ofName w.tempFile)))) : R w w' := by
  simp only [writeJsonAtomic, ofString_tempName, UnixPath.parent_join_ofName] at h
  refine Comp.error_of_bind h (tick w) fun nanos w₁ hn _ h => ?_
  obtain ⟨rfl, rfl⟩ := now_ok.1 hn
  refine Comp.error_of_bind h (Comp.Respects.mapErr _ create w.tick) fun s w₂ hs _ h => ?_
  refine Comp.error_of_bind h ?_ fun _ w₃ _ _ h => ?_
  · rw [Comp.after_mapErr]
    exact write _ _ s (Comp.mapErr_ok.1 hs)
  refine Comp.error_of_bind h (Comp.Respects.mapErr _ bare w₃) fun _ w₄ _ _ h => ?_
  refine Comp.error_of_bind h (Comp.Respects.mapErr _ bare w₄) fun _ w₅ _ _ h => ?_
  obtain ⟨e₀, w₆, hr, rfl⟩ := Comp.onError_error h
  rw [rename_error hr]
  refine IsTrans.trans _ _ _ (tick w₅) ?_
  rw [Comp.after_bind_pure, Comp.after_ignore]
  exact remove w₅.tick

/-- Only the temporary file was touched. -/
theorem writeJsonAtomic_touches {e : SynqroError}
    (h : writeJsonAtomic (dir.join (.ofName n)) value w = .error e w') :
    World.Touches (dir.join (.ofName w.tempFile)) w w' := by
  refine writeJsonAtomic_error h World.Touches.tick create_touches (fun v v' file hc => ?_)
    (bareCall_sameFiles.mono fun _ _ => .of_sameFiles) removeFile_touches
  exact writeAll_touches ((create_touches.ok hc).locate _ ▸ (fs.create_ok.1 hc).2.1) _

/-- Nothing was renamed. -/
theorem writeJsonAtomic_trace {e : SynqroError}
    (h : writeJsonAtomic (dir.join (.ofName n)) value w = .error e w') : w'.trace = w.trace := by
  have hevolves : World.Evolves (fun _ => False) w w' :=
    writeJsonAtomic_error h World.Evolves.tick (fs.create_evolves _)
      (fun v v' file _ => fs.writeAll_evolves file _ v') bareCall_evolves (fs.removeFile_evolves _)
  obtain ⟨new, hnew, hfalse⟩ := hevolves.trace
  rw [hnew, List.eq_nil_iff_forall_not_mem.2 fun x hx => (hfalse x hx).elim, List.append_nil]

end

/-! ## Reading -/

section
variable {w : World} {p : UnixPath} {ε : Type}

theorem fs.read_run (h : w.Quiet) :
    fs.read p w = Comp.ofExcept (w.locate p >>= w.files.read) w.tick := by
  have hlocate : w.tick.locate p = w.locate p := rfl
  unfold fs.read call onFiles Comp.query Comp.ofExcept
  rw [h]
  dsimp only
  rw [hlocate, World.tick_files]
  cases w.locate p >>= w.files.read <;> rfl

/-- A read leaves the world as it was, whether it returns or fails. -/
theorem fs.after_read (p : UnixPath) (w : World) : Comp.after (fs.read p) w = w.tick := by
  unfold Comp.after fs.read call
  cases w.env.fault w.calls with
  | some f => rfl
  | none =>
    unfold onFiles Comp.query
    dsimp only
    cases w.tick.locate p >>= w.tick.files.read <;> rfl

theorem fs.pathExists_run {l : Loc} (h : w.Quiet) (hl : p.locate w.files w.process.cwd = .ok l)
    (hp : p.dirOnly = false) :
    (fs.pathExists p : Comp World ε Bool) w = .ok (w.files.get l).isSome w.tick := by
  refine Comp.bind_ok.2 ⟨.ok (w.files.get l).isSome, w.tick,
    Comp.outcome_ok.2 (.inl ⟨_, rfl, queryCall_ok.2 ⟨h, except_bind_ok.2 ⟨l, hl, ?_⟩, rfl⟩⟩), ?_⟩
  · cases hg : w.files.get l with
    | none => rfl
    | some x => cases x <;> simp [hp, pure, Except.pure]
  · cases (w.files.get l).isSome <;> rfl

/-- What cannot be determined to exist does not. -/
theorem fs.pathExists_fault (h : ¬ w.Quiet) :
    (fs.pathExists p : Comp World ε Bool) w = .ok false w.tick := by
  obtain ⟨f, hf⟩ := Option.ne_none_iff_exists'.1 h
  unfold fs.pathExists
  refine Comp.bind_ok.2 ⟨.error f.error, w.tick, ?_, rfl⟩
  exact Comp.outcome_ok.2 (.inr ⟨f.error, rfl, call_error.2 (.inl ⟨f, hf, rfl, rfl⟩)⟩)

end

/-! ## The counters -/

section
variable (E : Externals)

/-- What `increment_rollback_counter` takes from the counters file. -/
def countersIn : Option Node → Except SynqroError Json.Members
  | none => .ok []
  | some (.file bytes _) => (fromSliceValue E readMap bytes).mapError fun e =>
      .Internal s!"Rollback counters JSON parse error: {e}"
  | some .dir => .error (.Internal
      s!"Cannot read rollback counters: {IoError.isADirectory.display}")

/-- The first half of `increment_rollback_counter`: the counters so far. -/
def readCounters (path : UnixPath) : M Json.Members := do
  if ← fs.pathExists path then do
    let bytes ← Comp.mapErr (fun e => .Internal s!"Cannot read rollback counters: {e.display}")
      (fs.read path)
    Comp.ofExcept <| (fromSliceValue E readMap bytes).mapError fun e =>
      .Internal s!"Rollback counters JSON parse error: {e}"
  else pure []

/-- The counters with one more rollback of the version. -/
def counted (version : String) (counters : Json.Members) : Json.Members :=
  Json.insertMember version (jsonU32 (saturatingSucc (counterValue (Json.find version counters))))
    counters

/-- The second half of `increment_rollback_counter`: count the rollback and store the counters. -/
def storeCounters (version : String) (path : UnixPath) (counters : Json.Members) : M UInt32 := do
  writeJsonAtomic path (.obj (counted version counters))
  return saturatingSucc (counterValue (Json.find version counters))

theorem incrementRollbackCounter_eq (version : String) (path : UnixPath) :
    incrementRollbackCounter E version path =
      readCounters E path >>= storeCounters version path := by
  unfold incrementRollbackCounter readCounters
  rw [bind_assoc]
  refine bind_congr fun found => ?_
  cases found
  · rfl
  · simp only [if_true, bind_assoc]
    rfl

/-- The calls that read the counters. -/
def readCalls (node : Option Node) : Nat := if node.isSome then 2 else 1

theorem readCounters_run {w : World} {dir : UnixPath} {B : Loc} (hq : w.QuietFor 2)
    (hB : w.base dir = .ok B) : readCounters E (dir.join (.ofName countersJson)) w =
      Comp.ofExcept (countersIn E (w.files.get (countersJson :: B)))
        (w.advance (readCalls (w.files.get (countersJson :: B)))) := by
  obtain ⟨hq₁, hq₂⟩ := World.quietFor_succ.1 hq
  have hfile := World.locate_join_of_base hB countersJson
  have hpath : (dir.join (.ofName countersJson)).locate w.files w.process.cwd =
      .ok (countersJson :: B) := by
    rw [← UnixPath.locateFile_join_ofName]
    exact hfile
  have hfile' : w.tick.locate (dir.join (.ofName countersJson)) = .ok (countersJson :: B) := hfile
  have hread := fs.read_run (p := dir.join (.ofName countersJson)) (World.quietFor_succ.1 hq₂).1
  rw [hfile'] at hread
  unfold readCounters
  rw [Comp.bind_run, fs.pathExists_run hq₁ hpath (UnixPath.join_ofName_dirOnly dir _)]
  dsimp only
  cases hg : w.files.get (countersJson :: B) with
  | none => rfl
  | some x =>
    have hstep : (Except.ok (countersJson :: B) >>= w.tick.files.read) =
        w.files.read (countersJson :: B) := rfl
    rw [hstep] at hread
    rw [Option.isSome_some, if_pos rfl, Comp.bind_run, Comp.mapErr, hread, FileTree.read, hg]
    cases x <;> rfl

/-- Counters that were stored are read back. -/
theorem countersIn_stored {E : Externals} (hE : E.ReadsPlain) {ms : Json.Members}
    (hp : Json.Plain 127 (.obj ms)) (hm : Json.IsMap ms) (mode : Mode) :
    countersIn E (some (.file (toVecPretty (.obj ms)) mode)) = .ok ms := by
  have hread : readMap (.obj ms) = some ms := by
    rw [readMap, hm]
    rfl
  rw [countersIn, fromSliceValue, hE.accepts _ hp]
  dsimp only
  rw [fromSlice, hE.parse _ hp]
  dsimp only
  rw [hread]
  rfl

/-- Counting a rollback keeps a plain map one. -/
theorem counted_plain {version : String} {ms : Json.Members} (h : Json.Plain 127 (.obj ms)) :
    Json.Plain 127 (.obj (counted version ms)) :=
  h.insertMember (Json.plain_posInt _)

theorem counted_isMap {version : String} {ms : Json.Members} (h : Json.IsMap ms) :
    Json.IsMap (counted version ms) :=
  h.insertMember (Json.value_num _)

/-- The counter of a version among counters. -/
def counterOf (version : String) (counters : Json.Members) : UInt32 :=
  counterValue (Json.find version counters)

theorem counterOf_counted (version v : String) (ms : Json.Members) :
    counterOf v (counted version ms) =
      if v = version then saturatingSucc (counterOf v ms) else counterOf v ms := by
  unfold counterOf counted
  rw [Json.find_insertMember]
  by_cases h : v = version
  · subst h
    have hnarrow (n : UInt32) : counterValue (some (jsonU32 n)) = n := by
      show n.toUInt64.toUInt32 = n
      exact UInt32.toUInt32_toUInt64 n
    simp [hnarrow]
  · simp [h]

/-! ## The blacklist -/

/-- What `load_blacklist_raw` makes of the bytes it read. -/
def checkBlacklist (hmacKey bytes : Bytes) : Except SynqroError Blacklist := do
  let bl ← (fromSlice E Blacklist.read bytes).mapError fun e =>
    .InvalidInput s!"Blacklist is not valid JSON: {e}"
  let sorted := bl.blacklisted.insertionSort (· ≤ ·)
  let expected := computeHmac E hmacKey
    (encodeUtf8 (canonicalJsonSorted (unsignedBlacklist sorted)))
  if !constantTimeEq (utf8 expected) (utf8 bl.listHmac) then
    throw (.Crypto "Blacklist HMAC invalid — file may have been tampered with")
  else return bl

theorem loadBlacklistRaw_eq (path : UnixPath) (hmacKey : Bytes) :
    loadBlacklistRaw E path hmacKey =
      Comp.mapErr (fun e => .Permission s!"Cannot read blacklist: {e.display}") (fs.read path) >>=
        fun bytes => Comp.ofExcept (checkBlacklist E hmacKey bytes) := by
  unfold loadBlacklistRaw
  refine bind_congr fun bytes => ?_
  unfold checkBlacklist
  funext w
  cases (fromSlice E Blacklist.read bytes).mapError fun e =>
    SynqroError.InvalidInput s!"Blacklist is not valid JSON: {e}" with
  | error e => rfl
  | ok bl =>
    rw [Comp.bind_run]
    dsimp only [Comp.ofExcept, bind, Except.bind]
    split <;> rfl

/-- What `load_blacklist_raw` finds at the place of the blacklist. -/
def blacklistIn (hmacKey : Bytes) : Option Node → Except SynqroError Blacklist
  | some (.file bytes _) => checkBlacklist E hmacKey bytes
  | some .dir => .error (.Permission s!"Cannot read blacklist: {IoError.isADirectory.display}")
  | none => .error (.Permission s!"Cannot read blacklist: {IoError.notFound.display}")

theorem loadBlacklistRaw_run {w : World} {dir : UnixPath} {B : Loc} (hmacKey : Bytes) (hq : w.Quiet)
    (hB : w.base dir = .ok B) : loadBlacklistRaw E (dir.join (.ofName blacklistJson)) hmacKey w =
      Comp.ofExcept (blacklistIn E hmacKey (w.files.get (blacklistJson :: B))) w.tick := by
  have hread := fs.read_run (p := dir.join (.ofName blacklistJson)) hq
  have hstep : (Except.ok (blacklistJson :: B) >>= w.files.read) =
      w.files.read (blacklistJson :: B) := rfl
  rw [World.locate_join_of_base hB, hstep] at hread
  rw [loadBlacklistRaw_eq, Comp.bind_run, Comp.mapErr, hread, FileTree.read]
  cases w.files.get (blacklistJson :: B) with
  | none => rfl
  | some x => cases x <;> rfl

/-- Loading the blacklist leaves the world as it was. -/
theorem loadBlacklistRaw_outcome (path : UnixPath) (hmacKey : Bytes) (w : World) :
    ∃ r, loadBlacklistRaw E path hmacKey w = Comp.ofExcept r w.tick := by
  have hafter := fs.after_read path w
  unfold Comp.after at hafter
  rw [loadBlacklistRaw_eq, Comp.bind_run, Comp.mapErr]
  cases hr : fs.read path w with
  | ok bytes w' =>
    rw [hr] at hafter
    obtain rfl : w' = w.tick := hafter
    exact ⟨checkBlacklist E hmacKey bytes, rfl⟩
  | error e w' =>
    rw [hr] at hafter
    obtain rfl : w' = w.tick := hafter
    exact ⟨.error (.Permission s!"Cannot read blacklist: {e.display}"), rfl⟩

/-- The versions that `blacklist_version` starts from: none when the blacklist does not load. -/
def versionsOf : Except SynqroError Blacklist → List String
  | .ok bl => bl.blacklisted
  | .error _ => []

/-- The versions with one more. -/
def withVersion (version : String) (versions : List String) : List String :=
  if version ∈ versions then versions else (versions ++ [version]).insertionSort (· ≤ ·)

/-- A blacklist with its tag. -/
def Blacklist.signed (hmacKey : Bytes) (versions : List String) : Blacklist where
  blacklisted := versions
  listHmac := computeHmac E hmacKey (encodeUtf8 (canonicalJsonSorted (unsignedBlacklist versions)))

/-- What `blacklist_version` does once it has loaded the blacklist, or failed to. -/
def storeBlacklist (version : String) (path : UnixPath) (hmacKey : Bytes) (audit : AuditLogger)
    (loaded : Except SynqroError Blacklist) : M Unit := do
  let blacklisted := withVersion version (versionsOf loaded)
  issue ⟨.blacklistVersion, hmacKey, unsignedBlacklist blacklisted⟩
  writeJsonAtomic path (Blacklist.signed E hmacKey blacklisted).toJson
  emit (.blacklisted version)
  audit.log E .VersionBlacklisted (jsonObject [("version", .str version)])

theorem blacklistVersion_eq (version : String) (path : UnixPath) (hmacKey : Bytes)
    (audit : AuditLogger) : blacklistVersion E version path hmacKey audit =
      Comp.outcome (loadBlacklistRaw E path hmacKey) >>=
        storeBlacklist E version path hmacKey audit := rfl

/-- The answer about a version that a loaded blacklist gives. -/
def blacklistAnswer (version : String) : Except SynqroError Blacklist → Except SynqroError Bool
  | .ok bl => .ok (bl.blacklisted.any (· == version))
  | .error (.Permission _) => .ok false
  | .error e => .error e

theorem isBlacklisted_run {version : String} {path : UnixPath} {hmacKey : Bytes} {w w' : World}
    {r : Except SynqroError Blacklist}
    (h : loadBlacklistRaw E path hmacKey w = Comp.ofExcept r w') :
    isBlacklisted E version path hmacKey w = Comp.ofExcept (blacklistAnswer version r) w' := by
  unfold isBlacklisted
  cases r with
  | ok bl =>
    have hload : (Comp.outcome (loadBlacklistRaw E path hmacKey) : M _) w = .ok (.ok bl) w' :=
      Comp.outcome_ok.2 (.inl ⟨bl, rfl, h⟩)
    rw [Comp.bind_run, hload]
    rfl
  | error e =>
    have hload : (Comp.outcome (loadBlacklistRaw E path hmacKey) : M _) w = .ok (.error e) w' :=
      Comp.outcome_ok.2 (.inr ⟨e, rfl, h⟩)
    rw [Comp.bind_run, hload]
    cases e <;> rfl

end

section
variable {E : Externals} {hmacKey : Bytes}

/-- The file of a blacklist parses back to it. -/
theorem fromSlice_toJson (hE : E.ReadsPlain) (bl : Blacklist) :
    fromSlice E Blacklist.read (toVecPretty bl.toJson) = .ok bl := by
  have hplain : Json.Plain 127 bl.toJson := by
    refine Json.plain_obj.2 fun m hm => ?_
    rcases List.mem_cons.1 hm with rfl | hm
    · refine Json.plain_arr.2 fun x hx => ?_
      obtain ⟨v, -, rfl⟩ := List.mem_map.1 hx
      exact Json.plain_str v
    · rw [List.mem_singleton.1 hm]
      exact Json.plain_str _
  have hread : Blacklist.read bl.toJson = some bl := by
    have hfields : Json.structFields [⟨"blacklisted", false⟩, ⟨"list_hmac", false⟩] bl.toJson =
        some [.arr (bl.blacklisted.map .str), .str bl.listHmac] := rfl
    have hvec : Json.readVec Json.readString
      (.arr (bl.blacklisted.map .str)) = some bl.blacklisted :=
      Json.readVec_map (f := Json.str) (fun _ => rfl) bl.blacklisted
    simp only [Blacklist.read, hfields, Option.bind_eq_bind, Option.bind_some, hvec,
      Json.readString]
    rfl
  rw [fromSlice, hE.parse _ hplain]
  dsimp only
  rw [hread]

/-- The file of a blacklist is accepted when its tag is that of its versions in order. -/
theorem checkBlacklist_toJson (hE : E.ReadsPlain) {bl bl' : Blacklist} :
    checkBlacklist E hmacKey (toVecPretty bl.toJson) = .ok bl' ↔ bl' = bl ∧
      (Blacklist.signed E hmacKey (bl.blacklisted.insertionSort (· ≤ ·))).listHmac =
        bl.listHmac := by
  rw [checkBlacklist, fromSlice_toJson hE]
  show (if !constantTimeEq (utf8 (Blacklist.signed E hmacKey
    (bl.blacklisted.insertionSort (· ≤ ·))).listHmac) _ then _ else _) = _ ↔ _
  cases htag : constantTimeEq (utf8 (Blacklist.signed E hmacKey
      (bl.blacklisted.insertionSort (· ≤ ·))).listHmac) (utf8 bl.listHmac) with
  | false =>
    refine ⟨nofun, fun h => ?_⟩
    rw [tagsEqual_iff.2 h.2] at htag
    cases htag
  | true =>
    rw [and_iff_left (tagsEqual_iff.1 htag)]
    show Except.ok _ = Except.ok bl' ↔ _
    rw [Except.ok.injEq, eq_comm]

/-- A blacklist that was stored is read back, when its versions are in order. -/
theorem checkBlacklist_signed (hE : E.ReadsPlain) {versions : List String}
    (hs : versions.Pairwise (· ≤ ·)) :
    checkBlacklist E hmacKey (toVecPretty (Blacklist.signed E hmacKey versions).toJson) =
      .ok (Blacklist.signed E hmacKey versions) := by
  refine (checkBlacklist_toJson hE).2 ⟨rfl, ?_⟩
  show (Blacklist.signed E hmacKey (versions.insertionSort (· ≤ ·))).listHmac = _
  rw [hs.insertionSort_eq]

/-! ### The versions -/

theorem mem_withVersion {version v : String} {versions : List String} :
    v ∈ withVersion version versions ↔ v = version ∨ v ∈ versions := by
  unfold withVersion
  split
  · next h =>
    refine ⟨.inr, ?_⟩
    rintro (rfl | hv)
    · exact h
    · exact hv
  · rw [List.mem_insertionSort, List.mem_append, List.mem_singleton, or_comm]

theorem withVersion_le {version : String} {versions : List String}
    (h : versions.Pairwise (· ≤ ·)) : (withVersion version versions).Pairwise (· ≤ ·) := by
  unfold withVersion
  split
  · exact h
  · exact List.pairwise_insertionSort _ _

/-- Versions in strict order stay so. -/
theorem withVersion_lt {version : String} {versions : List String}
    (h : versions.Pairwise (· < ·)) : (withVersion version versions).Pairwise (· < ·) := by
  have hle : (withVersion version versions).Pairwise (· ≤ ·) := withVersion_le (h.imp le_of_lt)
  have hnodup : (withVersion version versions).Nodup := by
    have hold : versions.Nodup := h.imp ne_of_lt
    unfold withVersion
    split
    · exact hold
    · next hv =>
      rw [(List.perm_insertionSort _ _).nodup_iff, ← List.concat_eq_append]
      exact hold.concat hv
  exact hle.imp₂ (fun _ _ hab hne => lt_of_le_of_ne hab hne) hnodup

end

/-! ## Steps that return -/

section
variable {E : Externals} {w w' : World}

/-- The calls ahead of a later world are among those ahead. -/
theorem World.QuietFor.later {N n : Nat} (h : w.QuietFor N) (henv : w'.env = w.env)
    (hle : w.calls ≤ w'.calls) (hn : w'.calls + n ≤ w.calls + N) : w'.QuietFor n := by
  intro i hi
  have hfault := h (w'.calls - w.calls + i) (by omega)
  rw [henv]
  rwa [show w.calls + (w'.calls - w.calls + i) = w'.calls + i by omega] at hfault

theorem AuditLogger.log_returns {logger : AuditLogger} (event : AuditEvent) (data : Json)
    (h : w.QuietFor 5) :
    ∃ w', logger.log E event data w = .ok () w' ∧ World.SameFiles w w' ∧
      w'.calls = w.calls + 5 := by
  have hunlock (v : World) : (Comp.after (AuditLogger.flock false) v).env = v.env := by
    unfold Comp.after AuditLogger.flock call
    cases v.env.fault v.calls <;> rfl
  have hlog : ∃ w', logger.log E event data w = .ok () w' := by
    simp only [AuditLogger.log, Comp.bind_ok, Comp.mapErr_ok, now_ok, issue_ok, emit_ok,
      Comp.ignore_ok, bareCall_ok, AuditLogger.flock_ok, AuditLogger.writeAll_ok]
    refine ⟨_, _, _, ⟨rfl, rfl⟩, (), _, rfl, (), _, ⟨h 1 (by omega), rfl⟩, (), _,
      ⟨h 2 (by omega), rfl⟩, (), _, rfl, (), _, rfl, ?_, rfl⟩
    rw [World.Quiet, hunlock, AuditLogger.after_flock_calls]
    exact h 4 (by omega)
  obtain ⟨w', hok⟩ := hlog
  exact ⟨w', hok, (AuditLogger.log_sameFiles E logger event data).ok hok, AuditLogger.log_calls hok⟩

/-- The state file named `n` in the directory `B` was replaced by one that holds the value. -/
structure World.Stored (n : FileName) (B : Loc) (value : Json) (w w' : World) : Prop where
  file : ∃ m, w'.files.get (n :: B) = some (.file (toVecPretty value) m)
  rest : ∀ l, l ≠ n :: B → (∀ nanos, l ≠ tempFileName nanos :: B) → w'.files.get l = w.files.get l
  dirs : w.files.SameDirs w'.files
  process : w'.process = w.process
  env : w'.env = w.env

theorem writeJsonAtomic_stored {dir : UnixPath} {n : FileName} {B : Loc} {value : Json} {u : Unit}
    (hB : w.base dir = .ok B) (h : writeJsonAtomic (dir.join (.ofName n)) value w = .ok u w') :
    w.Stored n B value w' ∧ w'.calls = w.calls + 6 := by
  obtain ⟨-, B', t, hB', hp, rfl⟩ := writeJsonAtomic_ok.1 h
  obtain rfl : B = B' := Except.ok.inj (hB.symm.trans hB')
  obtain ⟨hfile, hrest, hdirs⟩ := FileTree.publish_ok hp
  exact ⟨⟨hfile, fun l h₁ h₂ => hrest l (h₂ _) h₁, hdirs, rfl, rfl⟩, rfl⟩

/-- A directory in which state files can be written: no directory has the name of a temporary
file. -/
structure World.Writable (B : Loc) (w : World) : Prop where
  dir : w.files.get B = some .dir
  temp : ∀ nanos, w.files.get (tempFileName nanos :: B) ≠ some .dir

theorem World.Writable.sameDirs {B : Loc} (h : w.Writable B) (hd : w.files.SameDirs w'.files) :
    w'.Writable B :=
  ⟨(hd _).2 h.dir, fun nanos h' => h.temp nanos ((hd _).1 h')⟩

theorem writeJsonAtomic_returns {dir : UnixPath} {n : FileName} {B : Loc} (value : Json)
    (hq : w.QuietFor 6) (hB : w.base dir = .ok B) (hw : w.Writable B)
    (hn : w.files.get (n :: B) ≠ some .dir) :
    ∃ w', writeJsonAtomic (dir.join (.ofName n)) value w = .ok () w' := by
  obtain ⟨t, ht⟩ := (@FileTree.publish_iff _ _ _ (toVecPretty value)
    w.process.freshMode).2 ⟨⟨List.cons_ne_nil w.tempFile B, hw.dir, hw.temp _⟩,
      ⟨List.cons_ne_nil n B, hw.dir, hn⟩⟩
  exact ⟨_, writeJsonAtomic_ok.2 ⟨(World.quietFor_succ.1 hq).2, B, t, hB, ht, rfl⟩⟩

end

/-- Bookkeeping in the directory `B` finds working I/O for the next `n` calls. -/
structure World.Ready (backupDir : UnixPath) (B : Loc) (n : Nat) (w : World) : Prop where
  located : w.base backupDir = .ok B
  writable : w.Writable B
  quiet : w.QuietFor n

section
variable {E : Externals} {backupDir : UnixPath} {hmacKey : Bytes} {audit : AuditLogger} {B : Loc}
  {version : String} {w w' : World} {N n : Nat}

theorem World.Ready.later (h : w.Ready backupDir B N) (hdirs : w.files.SameDirs w'.files)
    (hprocess : w'.process = w.process) (henv : w'.env = w.env) (hle : w.calls ≤ w'.calls)
    (hn : w'.calls + n ≤ w.calls + N) : w'.Ready backupDir B n := by
  refine ⟨?_, h.writable.sameDirs hdirs, h.quiet.later henv hle hn⟩
  rw [World.base, hprocess, UnixPath.base_sameDirs hdirs]
  exact h.located

theorem World.Ready.sameFiles (h : w.Ready backupDir B N) (hsame : World.SameFiles w w')
    (hle : w.calls ≤ w'.calls) (hn : w'.calls + n ≤ w.calls + N) : w'.Ready backupDir B n :=
  h.later (by rw [hsame.files]; exact .refl _) hsame.process hsame.env hle hn

theorem World.Ready.stored (h : w.Ready backupDir B N) {name : FileName} {value : Json}
    (hstored : w.Stored name B value w') (hle : w.calls ≤ w'.calls)
    (hn : w'.calls + n ≤ w.calls + N) : w'.Ready backupDir B n :=
  h.later hstored.dirs hstored.process hstored.env hle hn

/-- Blacklisting a version with working I/O. -/
theorem blacklistVersion_returns (hr : w.Ready backupDir B 12)
    (hfile : w.files.get (blacklistJson :: B) ≠ some .dir) :
    ∃ w', blacklistVersion E version (backupDir.join (.ofName blacklistJson)) hmacKey audit w =
        .ok () w' ∧
      w.Stored blacklistJson B (Blacklist.signed E hmacKey (withVersion version
        (versionsOf (blacklistIn E hmacKey (w.files.get (blacklistJson :: B)))))).toJson w' := by
  have hload := loadBlacklistRaw_run E hmacKey (hr.quiet 0 (by omega)) hr.located
  generalize blacklistIn E hmacKey (w.files.get (blacklistJson :: B)) = r at hload ⊢
  have houtcome : (Comp.outcome
    (loadBlacklistRaw E (backupDir.join (.ofName blacklistJson)) hmacKey) :
      M _) w = .ok r w.tick := by
    unfold Comp.outcome
    rw [hload]
    cases r <;> rfl
  let i : Issue :=
    ⟨.blacklistVersion, hmacKey, unsignedBlacklist (withVersion version (versionsOf r))⟩
  let value : Json := (Blacklist.signed E hmacKey (withVersion version (versionsOf r))).toJson
  have hr₁ : (w.tick.issue i).Ready backupDir B 11 :=
    hr.later (.refl _) rfl rfl (Nat.le_succ _)
      (by simp only [World.issue_calls, World.tick_calls]; omega)
  obtain ⟨w₂, hw₂⟩ := writeJsonAtomic_returns value
    (hr₁.later (n := 6) (.refl _) rfl rfl le_rfl (by omega)).quiet hr₁.located hr₁.writable hfile
  obtain ⟨hstored, hcalls⟩ := writeJsonAtomic_stored hr₁.located hw₂
  simp only [World.issue_calls, World.tick_calls] at hcalls
  have hr₂ : (w₂.emit (.blacklisted version)).Ready backupDir B 5 :=
    hr.later hstored.dirs hstored.process hstored.env (by simp only [World.emit_calls]; omega)
      (by simp only [World.emit_calls]; omega)
  obtain ⟨w₃, hlog, hsame, -⟩ := @AuditLogger.log_returns E _ audit .VersionBlacklisted
    (jsonObject [("version", .str version)]) hr₂.quiet
  refine ⟨w₃, ?_, ?_⟩
  · rw [blacklistVersion_eq, Comp.bind_ok]
    refine ⟨r, _, houtcome, ?_⟩
    unfold storeBlacklist
    exact Comp.bind_ok.2 ⟨(), _, rfl,
      Comp.bind_ok.2 ⟨(), _, hw₂, Comp.bind_ok.2 ⟨(), _, rfl, hlog⟩⟩⟩
  · have hfiles : w₃.files = w₂.files := hsame.files
    exact ⟨hfiles ▸ hstored.file, hfiles ▸ hstored.rest, hfiles ▸ hstored.dirs,
      hsame.process.trans hstored.process, hsame.env.trans hstored.env⟩

/-- Whether no directory has a name with a dot in front. -/
def noDotDirs? (t : FileTree) : Bool :=
  t.nodes.entries.all fun e =>
    e.2 != .dir || (e.1.head?.map fun n => n.text.toList.head?) != some (some '.')

theorem temp_not_dir {t : FileTree} (h : noDotDirs? t = true) (B : Loc) (nanos : Int) :
    t.get (tempFileName nanos :: B) ≠ some .dir := by
  intro hdir
  have hentry := List.all_eq_true.1 h _ (FileTree.mem_entries_of_get (List.cons_ne_nil _ _) hdir)
  have hdot : (tempFileName nanos).text.toList.head? = some '.' := by
    show (tempName nanos).toList.head? = some '.'
    rw [tempName_toList]
    rfl
  simp [hdot] at hentry

end

end Synqro
