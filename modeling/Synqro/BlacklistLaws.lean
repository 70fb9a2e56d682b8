import Synqro.Bookkeeping

/-!
# What the blacklist answers, and what it keeps

`isBlacklisted` answers no to every failure of its read, not only to a missing file
(`isBlacklisted_right`). `blacklistVersion` puts the list in order only when it adds to it, while
the loader compares the tag with that of the list in order: a version that is listed already takes
the list with it when the list is not in order (`blacklistVersion_closed`).
-/

namespace Synqro

/-! ## Lookups -/

/-- What a read finds at a path. -/
inductive PathState where
  | absent
  | unreadable
  | content (bytes : Bytes)
deriving DecidableEq

/-- Nothing stands there, or a file that can be read, or something that cannot be. -/
def World.pathState (w : World) (path : UnixPath) : PathState :=
  match w.locate path with
  | .error _ => .absent
  | .ok l =>
    match w.files.get l, w.env.fault w.calls with
    | none, _ => .absent
    | some (.file bytes _), none => .content bytes
    | some _, _ => .unreadable

section
variable (E : Externals) (version : String) (backupDir : UnixPath) (hmacKey : Bytes)

/-- The answer of `is_blacklisted`. -/
def World.lookup (w : World) : Except SynqroError Bool :=
  match isBlacklisted E version (backupDir.join (.ofString "blacklist.json")) hmacKey w with
  | .ok b _ => .ok b
  | .error e _ => .error e

/-- The blacklist stands at its path, verifies under the key and has the versions `bl` holds. -/
def World.Verifies (bl : Blacklist) (w : World) : Prop :=
  ∃ bytes, w.pathState (backupDir.join (.ofString "blacklist.json")) = .content bytes ∧
    checkBlacklist E hmacKey bytes = .ok bl

/-- The answer is yes for a list that verifies and lists the version, and no for a missing file and
for a list that verifies and does not list it. -/
structure World.LookupRight (w : World) : Prop where
  yes : w.lookup E version backupDir hmacKey = .ok true ↔
    ∃ bl, w.Verifies E backupDir hmacKey bl ∧ version ∈ bl.blacklisted
  no : w.lookup E version backupDir hmacKey = .ok false ↔
    w.pathState (backupDir.join (.ofString "blacklist.json")) = .absent ∨
      ∃ bl, w.Verifies E backupDir hmacKey bl ∧ version ∉ bl.blacklisted

end

section
variable {E : Externals} {version : String} {backupDir path : UnixPath} {hmacKey : Bytes}
  {w w' : World}

theorem pathState_content {bytes : Bytes} :
    w.pathState path = .content bytes ↔ fs.read path w = .ok bytes w.tick := by
  rw [fs.read_ok, and_iff_left rfl]
  unfold World.pathState World.Quiet
  cases hl : w.locate path with
  | error e => simp
  | ok l => cases hg : w.files.get l with
    | none => simp [hg]
    | some x => cases x <;> cases w.env.fault w.calls <;> simp [hg]

/-- The answer is what the list says, and no when there is no content. -/
theorem World.lookup_eq : w.lookup E version backupDir hmacKey =
    match w.pathState (backupDir.join (.ofString "blacklist.json")) with
    | .content bytes => blacklistAnswer version (checkBlacklist E hmacKey bytes)
    | _ => .ok false := by
  have hload := loadBlacklistRaw_eq E (backupDir.join (.ofString "blacklist.json")) hmacKey
  have hafter := fs.after_read (backupDir.join (.ofString "blacklist.json")) w
  unfold World.lookup
  cases hread : fs.read (backupDir.join (.ofString "blacklist.json")) w with
  | ok bytes w₁ =>
    rw [Comp.after, hread] at hafter
    obtain rfl : w₁ = w.tick := hafter
    have hrun : loadBlacklistRaw E (backupDir.join (.ofString "blacklist.json")) hmacKey w =
        Comp.ofExcept (checkBlacklist E hmacKey bytes) w.tick := by
      rw [hload, Comp.bind_run, Comp.mapErr, hread]
    rw [isBlacklisted_run E hrun, pathState_content.2 hread]
    dsimp only
    cases blacklistAnswer version (checkBlacklist E hmacKey bytes) <;> rfl
  | error e w₁ =>
    have hrun : loadBlacklistRaw E (backupDir.join (.ofString "blacklist.json")) hmacKey w =
        Comp.ofExcept (.error (.Permission s!"Cannot read blacklist: {e.display}")) w₁ := by
      rw [hload, Comp.bind_run, Comp.mapErr, hread]
      rfl
    rw [isBlacklisted_run E hrun]
    cases hs : w.pathState (backupDir.join (.ofString "blacklist.json")) with
    | content bytes =>
      rw [pathState_content.1 hs] at hread
      cases hread
    | absent => rfl
    | unreadable => rfl

/-- A content that does not load is no missing file to the caller. -/
theorem blacklistAnswer_check {bytes : Bytes} {b : Bool} :
    blacklistAnswer version (checkBlacklist E hmacKey bytes) = .ok b ↔
      ∃ bl, checkBlacklist E hmacKey bytes = .ok bl ∧ bl.blacklisted.any (· == version) = b := by
  cases hcheck : checkBlacklist E hmacKey bytes with
  | ok bl => simp [blacklistAnswer]
  | error e =>
    have hkind : (∃ message, e = .InvalidInput message) ∨ ∃ message, e = .Crypto message := by
      unfold checkBlacklist at hcheck
      cases hparse : fromSlice E Blacklist.read bytes with
      | error message =>
        rw [hparse] at hcheck
        cases hcheck
        exact .inl ⟨_, rfl⟩
      | ok bl =>
        rw [hparse] at hcheck
        dsimp only [bind, Except.bind, Except.mapError] at hcheck
        split at hcheck <;> cases hcheck
        exact .inr ⟨_, rfl⟩
    rcases hkind with ⟨message, rfl⟩ | ⟨message, rfl⟩ <;> simp [blacklistAnswer]

theorem any_eq_iff {xs : List String} : xs.any (· == version) = true ↔ version ∈ xs := by
  simp

/-- **When a lookup is right.** It answers as the list says, or no when there is none, or fails,
unless something that cannot be read stands at the path. -/
theorem isBlacklisted_right (E : Externals) (version : String) (backupDir : UnixPath)
    (hmacKey : Bytes) (w : World) : w.LookupRight E version backupDir hmacKey ↔
      w.pathState (backupDir.join (.ofString "blacklist.json")) ≠ .unreadable := by
  have hverifies (bl : Blacklist) (bytes : Bytes)
      (hs : w.pathState (backupDir.join (.ofString "blacklist.json")) = .content bytes) :
      w.Verifies E backupDir hmacKey bl ↔ checkBlacklist E hmacKey bytes = .ok bl := by
    unfold World.Verifies
    rw [hs]
    simp
  constructor
  · rintro ⟨-, hno⟩ hs
    rw [World.lookup_eq, hs] at hno
    rcases hno.1 rfl with h | ⟨bl, ⟨bytes, h, -⟩, -⟩
    · cases h
    · cases hs.symm.trans h
  · intro hne
    have hlookup := @World.lookup_eq E version backupDir hmacKey w
    cases hs : w.pathState (backupDir.join (.ofString "blacklist.json")) with
    | unreadable => exact absurd hs hne
    | absent =>
      rw [hs] at hlookup
      have hnone (bl : Blacklist) : ¬ w.Verifies E backupDir hmacKey bl := by
        rintro ⟨bytes, h, -⟩
        cases hs.symm.trans h
      constructor
      · rw [hlookup]
        simp [hnone]
      · rw [hlookup]
        exact ⟨fun _ => .inl hs, fun _ => rfl⟩
    | content bytes =>
      rw [hs] at hlookup
      have hv (bl : Blacklist) := hverifies bl bytes hs
      constructor
      · rw [hlookup, blacklistAnswer_check]
        simp only [hv, any_eq_iff]
      · rw [hlookup, blacklistAnswer_check]
        simp only [hv, ← Bool.not_eq_true, any_eq_iff, hs, reduceCtorEq, false_or]

/-! ## Keeping a list -/

/-- After a call, the blacklist loads again and has the old versions and the new one. -/
def World.Closed (E : Externals) (version : String) (backupDir : UnixPath) (hmacKey : Bytes)
    (old : List String) (w : World) : Prop :=
  ∃ bl v, loadBlacklistRaw E (backupDir.join (.ofString "blacklist.json")) hmacKey
      (w.withFaults fun _ => none) = .ok bl v ∧
    ∀ x, x ∈ bl.blacklisted ↔ x ∈ old ∨ x = version

/-- Lists with one tag. -/
def SameTag (E : Externals) (hmacKey : Bytes) (xs ys : List String) : Prop :=
  (Blacklist.signed E hmacKey xs).listHmac = (Blacklist.signed E hmacKey ys).listHmac

/-- What a call that returned has left at the blacklist's path. -/
theorem blacklistVersion_stored {audit : AuditLogger} {bl : Blacklist} {w₁ : World}
    (hload : loadBlacklistRaw E (backupDir.join (.ofName blacklistJson)) hmacKey w = .ok bl w₁)
    (h : blacklistVersion E version (backupDir.join (.ofName blacklistJson)) hmacKey audit w =
      .ok () w') :
    ∃ B m, w'.base backupDir = .ok B ∧ w'.files.get (blacklistJson :: B) = some (.file
      (toVecPretty (Blacklist.signed E hmacKey
        (withVersion version bl.blacklisted)).toJson) m) := by
  have hload' := hload
  rw [loadBlacklistRaw_eq, Comp.bind_ok] at hload'
  obtain ⟨bytes, t, hread, hcheck⟩ := hload'
  obtain ⟨-, ⟨l, -, hl, -⟩, rfl⟩ := fs.read_ok.1 (Comp.mapErr_ok.1 hread)
  obtain ⟨B, hB, rfl⟩ := World.locate_join_eq_ok.1 hl
  obtain ⟨-, rfl⟩ := Comp.ofExcept_ok.1 hcheck
  rw [blacklistVersion_eq, Comp.bind_ok] at h
  obtain ⟨r, t, hr, h⟩ := h
  rcases Comp.outcome_ok.1 hr with ⟨bl', rfl, hr'⟩ | ⟨e, rfl, hr'⟩
  · cases hload.symm.trans hr'
    simp only [storeBlacklist, Comp.bind_ok, issue_ok, emit_ok] at h
    obtain ⟨_, w₁, hw₁, _, w₂, hwrite, _, w₃, hw₃, hlog⟩ := h
    have hbase : w₁.base backupDir = .ok B := by
      rw [hw₁]
      exact hB
    have hstored := (writeJsonAtomic_stored hbase hwrite).1
    have hsame := (AuditLogger.log_sameFiles E audit _ _).ok hlog
    obtain ⟨m, hfile⟩ := hstored.file
    have hsame₂ : w'.files = w₂.files ∧ w'.process = w₂.process := by
      rw [hsame.files, hsame.process, hw₃]
      exact ⟨rfl, rfl⟩
    refine ⟨B, m, ?_, ?_⟩
    · rw [World.base, hsame₂.1, hsame₂.2, hstored.process, UnixPath.base_sameDirs hstored.dirs]
      exact hbase
    · rw [hsame₂.1]
      exact hfile
  · cases hload.symm.trans hr'

/-- **When a list is kept.** A call of `blacklistVersion` that found a list it accepts and returned
leaves a list that is accepted, with the old versions and the new one and no others, exactly when
the version was not listed or the list was in order (or, out of order, has the tag of its order). -/
theorem blacklistVersion_closed (E : Externals) (version : String) (backupDir : UnixPath)
    (hmacKey : Bytes) (audit : AuditLogger) (w w₁ w' : World) (bl : Blacklist) (hE : E.ReadsPlain)
    (hload : loadBlacklistRaw E (backupDir.join (.ofString "blacklist.json")) hmacKey w = .ok bl w₁)
    (h : blacklistVersion E version (backupDir.join (.ofString "blacklist.json")) hmacKey audit w =
      .ok () w') :
    w'.Closed E version backupDir hmacKey bl.blacklisted ↔
      version ∉ bl.blacklisted ∨ bl.blacklisted.Pairwise (· ≤ ·) ∨
        SameTag E hmacKey (bl.blacklisted.insertionSort (· ≤ ·)) bl.blacklisted := by
  rw [ofString_blacklistJson] at hload h
  obtain ⟨B, m, hB, hfile⟩ := blacklistVersion_stored hload h
  have hreload := loadBlacklistRaw_run E (w := w'.withFaults fun _ => none) hmacKey rfl hB
  rw [World.withFaults_files, hfile] at hreload
  have hclosed : w'.Closed E version backupDir hmacKey bl.blacklisted ↔
      SameTag E hmacKey ((withVersion version bl.blacklisted).insertionSort (· ≤ ·))
        (withVersion version bl.blacklisted) := by
    unfold World.Closed
    rw [ofString_blacklistJson, hreload]
    simp only [Comp.ofExcept_ok, blacklistIn, checkBlacklist_toJson hE]
    constructor
    · rintro ⟨bl', v, ⟨⟨-, htag⟩, -⟩, -⟩
      exact htag
    · intro htag
      exact ⟨_, _, ⟨⟨rfl, htag⟩, rfl⟩, fun x => mem_withVersion.trans or_comm⟩
  rw [hclosed]
  by_cases hv : version ∈ bl.blacklisted
  · -- a version that is listed leaves the list as it stands
    have hwith : withVersion version bl.blacklisted = bl.blacklisted := if_pos hv
    rw [hwith]
    constructor
    · exact fun h => .inr (.inr h)
    · rintro (h | h | h)
      · exact absurd hv h
      · rw [h.insertionSort_eq]
        rfl
      · exact h
  · -- a new one puts it in order
    have hwith : withVersion version bl.blacklisted =
        (bl.blacklisted ++ [version]).insertionSort (· ≤ ·) := if_neg hv
    rw [hwith, (List.pairwise_insertionSort (· ≤ ·) _).insertionSort_eq]
    exact ⟨fun _ => .inl hv, fun _ => rfl⟩

end

/-! ## A list out of order -/

/-- A blacklist of two versions out of order, with the tag of their order. -/
def outOfOrder : Blacklist where
  blacklisted := ["2.0.0", "1.0.0"]
  listHmac := (Blacklist.signed .running [7] ["1.0.0", "2.0.0"]).listHmac

/-- A machine with that blacklist. -/
def outOfOrderWorld : World :=
  .boot .calm (.startedIn appExe.tail) ((installedFiles.set backupLoc .dir).set
    (blacklistJson :: backupLoc) (.file (toVecPretty outOfOrder.toJson) 0o644))

theorem outOfOrder_ready (n : Nat) : outOfOrderWorld.Ready (.ofString "/backup") backupLoc n where
  located := by decide +kernel
  writable := ⟨by decide +kernel, temp_not_dir (by decide +kernel) backupLoc⟩
  quiet := fun _ _ => rfl

theorem outOfOrder_file : outOfOrderWorld.files.get (blacklistJson :: backupLoc) =
    some (.file (toVecPretty outOfOrder.toJson) 0o644) := by
  exact FileTree.get_set_self _ (by decide +kernel)

/-- The list is accepted. -/
theorem outOfOrder_loads :
    loadBlacklistRaw .running ((UnixPath.ofString "/backup").join (.ofString "blacklist.json")) [7]
      outOfOrderWorld = .ok outOfOrder outOfOrderWorld.tick := by
  have hsorted : outOfOrder.blacklisted.insertionSort (· ≤ ·) = ["1.0.0", "2.0.0"] := by decide
  have hcheck : checkBlacklist .running [7] (toVecPretty outOfOrder.toJson) = .ok outOfOrder := by
    refine (checkBlacklist_toJson Externals.running_readsPlain).2 ⟨rfl, ?_⟩
    rw [hsorted]
    rfl
  rw [ofString_blacklistJson, loadBlacklistRaw_run .running [7] ((outOfOrder_ready 1).quiet 0
    Nat.one_pos) (outOfOrder_ready 1).located, outOfOrder_file, blacklistIn, hcheck]
  rfl

/-- A version can be blacklisted next to it. -/
theorem outOfOrder_returns (version : String) : ∃ w', blacklistVersion .running version
    ((UnixPath.ofString "/backup").join (.ofString "blacklist.json")) [7] ⟨[7], "installation"⟩
      outOfOrderWorld = .ok () w' := by
  rw [ofString_blacklistJson]
  obtain ⟨w', h, -⟩ := @blacklistVersion_returns .running _ _ ⟨[7], "installation"⟩ _ version
    _ (outOfOrder_ready 12)
    (by rw [outOfOrder_file]; exact nofun)
  exact ⟨w', h⟩

/-- A version that was not listed is added. -/
theorem blacklistVersion_closed_added : ∃ w', blacklistVersion .running "3.0.0"
    ((UnixPath.ofString "/backup").join (.ofString "blacklist.json")) [7] ⟨[7], "installation"⟩
      outOfOrderWorld = .ok () w' ∧
    w'.Closed .running "3.0.0" (.ofString "/backup") [7] outOfOrder.blacklisted := by
  obtain ⟨w', h⟩ := outOfOrder_returns "3.0.0"
  exact ⟨w', h, (blacklistVersion_closed .running "3.0.0" _ [7] _ _ _ w' outOfOrder
    Externals.running_readsPlain outOfOrder_loads h).2 (.inl (by decide))⟩

/-- A version that was listed already takes the list with it. -/
theorem blacklistVersion_lost : ∃ w', blacklistVersion .running "1.0.0"
    ((UnixPath.ofString "/backup").join (.ofString "blacklist.json")) [7] ⟨[7], "installation"⟩
      outOfOrderWorld = .ok () w' ∧
    ¬ w'.Closed .running "1.0.0" (.ofString "/backup") [7] outOfOrder.blacklisted := by
  obtain ⟨w', h⟩ := outOfOrder_returns "1.0.0"
  refine ⟨w', h, ?_⟩
  rintro ⟨bl, v, hload, -⟩
  have hloads := outOfOrder_loads
  rw [ofString_blacklistJson] at h hload hloads
  obtain ⟨B, m, hB, hfile⟩ := blacklistVersion_stored hloads h
  have hwith : withVersion "1.0.0" outOfOrder.blacklisted = ["2.0.0", "1.0.0"] := by decide
  rw [loadBlacklistRaw_run .running (w := w'.withFaults fun _ => none) [7] rfl hB,
    World.withFaults_files, hfile, hwith, Comp.ofExcept_ok, blacklistIn,
    checkBlacklist_toJson Externals.running_readsPlain] at hload
  have htags : (Blacklist.signed .running [7] ["1.0.0", "2.0.0"]).listHmac ≠
      (Blacklist.signed .running [7] ["2.0.0", "1.0.0"]).listHmac := by decide +kernel
  exact htags hload.1.2

/-! ## A directory for a list -/

/-- A machine with a directory in the blacklist's place. -/
def directoryWorld : World :=
  .boot .calm (.startedIn appExe.tail) ((installedFiles.set backupLoc .dir).set
    (blacklistJson :: backupLoc) .dir)

/-- The directory cannot be read, and the answer is no. -/
theorem isBlacklisted_directory :
    directoryWorld.lookup .running "1.0.0" (.ofString "/backup") [7] = .ok false ∧
      ¬ directoryWorld.LookupRight .running "1.0.0" (.ofString "/backup") [7] := by
  have hstate : directoryWorld.pathState ((UnixPath.ofString "/backup").join
      (.ofString "blacklist.json")) = .unreadable := by decide +kernel
  have hlookup : directoryWorld.lookup .running "1.0.0" (.ofString "/backup") [7] = .ok false := by
    rw [World.lookup_eq, hstate]
  refine ⟨hlookup, fun h => ?_⟩
  rcases h.no.1 hlookup with habsent | ⟨bl, ⟨bytes, hbytes, -⟩, -⟩
  · cases hstate.symm.trans habsent
  · cases hstate.symm.trans hbytes

end Synqro
