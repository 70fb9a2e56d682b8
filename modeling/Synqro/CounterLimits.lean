import Synqro.Bookkeeping

/-!
# The limits of a rollback counter

A counter is read as 64 bits, narrowed to 32, incremented up to the limit and written back.
`incrementRollbackCounter_keeps` says for which stored counts the new one is not below the old, and
when the counters of the other versions stay; a counters file whose existence could not be
determined is taken for a missing one.
-/

namespace Synqro

theorem toNat_saturatingSucc (n : UInt32) :
    (saturatingSucc n).toNat = min (n.toNat + 1) (2 ^ 32 - 1) := by
  have hmax : (UInt32.ofNat (2 ^ 32 - 1)).toNat = 2 ^ 32 - 1 := by decide
  have hlt := n.toNat_lt
  unfold saturatingSucc
  split
  · next h =>
    subst h
    rw [hmax]
    omega
  · next h =>
    have hn : n.toNat ≠ 2 ^ 32 - 1 := fun hn => h (UInt32.toNat_inj.1 (hn.trans hmax.symm))
    rw [UInt32.toNat_add]
    show (n.toNat + 1) % 2 ^ 32 = _
    omega

/-- The new count of a version whose stored count is `c`. -/
theorem toNat_saturatingSucc_counterValue (c : UInt64) :
    (saturatingSucc (counterValue (some (.num (.posInt c))))).toNat =
      min (c.toNat % 2 ^ 32 + 1) (2 ^ 32 - 1) := by
  rw [toNat_saturatingSucc]
  show min (c.toUInt32.toNat + 1) (2 ^ 32 - 1) = _
  rw [UInt64.toNat_toUInt32]

/-- The narrowed count is not below the stored one, as far as 32 bits can tell. -/
theorem le_narrowed_iff (c : UInt64) :
    min (c.toNat + 1) (2 ^ 32 - 1) ≤ min (c.toNat % 2 ^ 32 + 1) (2 ^ 32 - 1) ↔
      c.toNat < 2 ^ 32 ∨ 2 ^ 32 - 2 ≤ c.toNat % 2 ^ 32 := by
  omega

/-- The counters `counters'` are `counters` with a new count of the version that is not below `c`
and one more, as far as 32 bits can tell. -/
structure CountKept (version : String) (c : Nat) (counters counters' : Json.Members) (n : UInt32) :
    Prop where
  stored : Json.find version counters' = some (jsonU32 n)
  grows : min (c + 1) (2 ^ 32 - 1) ≤ n.toNat
  others : ∀ v, v ≠ version → Json.find v counters' = Json.find v counters

/-- The stored count survives the narrowing, and the existence of the file is determined. -/
def CountSafe (w : World) (version : String) (c : UInt64) (counters : Json.Members) : Prop :=
  w.Quiet ∧ (c.toNat < 2 ^ 32 ∨ 2 ^ 32 - 2 ≤ c.toNat % 2 ^ 32) ∨
    ¬ w.Quiet ∧ c.toNat = 0 ∧ ∀ v, v ≠ version → Json.find v counters = none

section
variable {E : Externals} {backupDir : UnixPath} {B : Loc} {version : String} {w w' : World}
  {counters : Json.Members}

theorem counted_kept {c : UInt64} (hc : Json.find version counters = some (.num (.posInt c))) :
    CountKept version c.toNat counters (counted version counters)
        (saturatingSucc (counterValue (Json.find version counters))) ↔
      c.toNat < 2 ^ 32 ∨ 2 ^ 32 - 2 ≤ c.toNat % 2 ^ 32 := by
  rw [← le_narrowed_iff, ← toNat_saturatingSucc_counterValue, ← hc]
  constructor
  · exact fun h => h.grows
  · intro h
    refine ⟨?_, h, fun v hv => ?_⟩
    · rw [counted, Json.find_insertMember, if_pos rfl]
    · rw [counted, Json.find_insertMember, if_neg hv]

/-- The counters that a new file starts with. -/
theorem counted_nil_kept {c : UInt64} :
    CountKept version c.toNat counters (counted version []) (saturatingSucc (counterValue none)) ↔
      c.toNat = 0 ∧ ∀ v, v ≠ version → Json.find v counters = none := by
  have hone : (saturatingSucc (counterValue none)).toNat = 1 := by decide
  have hother (v : String) (hv : v ≠ version) : Json.find v (counted version []) = none := by
    rw [counted, Json.find_insertMember, if_neg hv, Json.find_nil]
  constructor
  · intro h
    have hgrows := h.grows
    rw [hone] at hgrows
    exact ⟨by omega, fun v hv => (h.others v hv).symm.trans (hother v hv)⟩
  · rintro ⟨hc, hnone⟩
    refine ⟨?_, ?_, fun v hv => (hother v hv).trans (hnone v hv).symm⟩
    · rw [counted, Json.find_insertMember, if_pos rfl, Json.find_nil]
    · rw [hone, hc]
      decide

/-- The counters are read from their file, or the file is taken for a missing one. -/
theorem readCounters_ok {counters₀ : Json.Members} (hB : w.base backupDir = .ok B)
    (hfile : w.files.get (countersJson :: B) ≠ none)
    (hcounters : countersIn E (w.files.get (countersJson :: B)) = .ok counters)
    (h : readCounters E (backupDir.join (.ofName countersJson)) w = .ok counters₀ w') :
    (w.Quiet ∧ counters₀ = counters ∨ ¬ w.Quiet ∧ counters₀ = []) ∧ w'.base backupDir = .ok B := by
  by_cases hq : w.Quiet
  · by_cases hq' : w.tick.Quiet
    · have hquiet : w.QuietFor 2 :=
        World.quietFor_succ.2 ⟨hq, World.quietFor_succ.2 ⟨hq', World.quietFor_zero _⟩⟩
      rw [readCounters_run E hquiet hB, hcounters] at h
      cases h
      exact ⟨.inl ⟨hq, rfl⟩, hB⟩
    · have hpath : (backupDir.join (.ofName countersJson)).locate w.files w.process.cwd =
          .ok (countersJson :: B) := by
        rw [← UnixPath.locateFile_join_ofName]
        exact World.locate_join_of_base hB countersJson
      rw [readCounters, Comp.bind_run, fs.pathExists_run hq hpath
        (UnixPath.join_ofName_dirOnly backupDir _), Option.isSome_iff_ne_none.2 hfile] at h
      simp only [if_true, Comp.bind_ok, Comp.mapErr_ok, fs.read_ok] at h
      obtain ⟨_, _, ⟨hread, -⟩, -⟩ := h
      exact absurd hread hq'
  · rw [readCounters, Comp.bind_run, fs.pathExists_fault hq] at h
    cases h
    exact ⟨.inr ⟨hq, rfl⟩, hB⟩

theorem incrementRollbackCounter_ok {n : UInt32} (hB : w.base backupDir = .ok B)
    (hfile : w.files.get (countersJson :: B) ≠ none)
    (hcounters : countersIn E (w.files.get (countersJson :: B)) = .ok counters)
    (h : incrementRollbackCounter E version (backupDir.join (.ofName countersJson)) w = .ok n w') :
    ∃ counters₀, (w.Quiet ∧ counters₀ = counters ∨ ¬ w.Quiet ∧ counters₀ = []) ∧
      n = saturatingSucc (counterValue (Json.find version counters₀)) ∧ ∃ mode,
        w'.files.get (countersJson :: B) =
          some (.file (toVecPretty (.obj (counted version counters₀))) mode) := by
  rw [incrementRollbackCounter_eq] at h
  obtain ⟨counters₀, w₁, hread, hstore⟩ := Comp.bind_ok.1 h
  obtain ⟨hcases, hB₁⟩ := readCounters_ok hB hfile hcounters hread
  obtain ⟨_, w₂, hwrite, hreturn⟩ := Comp.bind_ok.1 hstore
  obtain ⟨rfl, rfl⟩ := Comp.pure_ok.1 hreturn
  exact ⟨counters₀, hcases, rfl, (writeJsonAtomic_stored hB₁ hwrite).1.file⟩

/-- With working I/O the count is stored. -/
theorem incrementRollbackCounter_returns (hr : w.Ready backupDir B 8)
    (hcounters : countersIn E (w.files.get (countersJson :: B)) = .ok counters) :
    ∃ n w', incrementRollbackCounter E version (backupDir.join (.ofName countersJson)) w =
      .ok n w' := by
  have hcalls : readCalls (w.files.get (countersJson :: B)) ≤ 2 := by
    unfold readCalls
    split <;> omega
  have hdir : w.files.get (countersJson :: B) ≠ some .dir := by
    intro hdir
    rw [hdir] at hcounters
    cases hcounters
  have hread := readCounters_run E (hr.later (n := 2) (.refl _) rfl rfl le_rfl (by omega)).quiet
    hr.located
  rw [hcounters] at hread
  generalize readCalls (w.files.get (countersJson :: B)) = k at hread hcalls
  have hr' : (w.advance k).Ready backupDir B 6 :=
    hr.later (.refl _) rfl rfl (Nat.le_add_right _ _) (by simp only [World.advance_calls]; omega)
  obtain ⟨w', hw'⟩ := writeJsonAtomic_returns
    (.obj (counted version counters)) hr'.quiet hr'.located
    hr'.writable hdir
  rw [incrementRollbackCounter_eq]
  exact ⟨_, w', Comp.bind_ok.2 ⟨counters, _, hread, Comp.bind_ok.2 ⟨(), w', hw', rfl⟩⟩⟩

/-- A count goes up, and the other counts stay, exactly when the stored count is safe. -/
theorem incrementRollbackCounter_keeps {c : UInt64} (hB : w.base backupDir = .ok B)
    (hcounters : countersIn E (w.files.get (countersJson :: B)) = .ok counters)
    (hc : Json.find version counters = some (.num (.posInt c))) :
    (w.Ready backupDir B 8 → ∃ n w',
        incrementRollbackCounter E version (backupDir.join (.ofName countersJson)) w = .ok n w') ∧
      ∀ n w', incrementRollbackCounter E version
        (backupDir.join (.ofName countersJson)) w = .ok n w' →
        ∃ counters' mode, w'.files.get (countersJson :: B) =
            some (.file (toVecPretty (.obj counters')) mode) ∧
          (CountKept version c.toNat counters counters' n ↔ CountSafe w version c counters) := by
  refine ⟨fun hr => incrementRollbackCounter_returns hr hcounters, fun n w' h => ?_⟩
  have hfile : w.files.get (countersJson :: B) ≠ none := by
    intro hnone
    rw [hnone] at hcounters
    cases hcounters
    cases hc
  obtain ⟨counters₀, hcases, rfl, mode, hstored⟩ := incrementRollbackCounter_ok hB hfile hcounters h
  refine ⟨_, mode, hstored, ?_⟩
  unfold CountSafe
  rcases hcases with ⟨hq, rfl⟩ | ⟨hq, rfl⟩
  · simp only [hq, true_and, not_true_eq_false, false_and, or_false]
    exact counted_kept hc
  · simp only [hq, not_false_eq_true, true_and, false_and, false_or]
    exact counted_nil_kept

end

/-- A machine whose counters file holds one count. -/
def countersAt (c : UInt64) : World :=
  .boot .calm (.startedIn appExe.tail) ((installedFiles.set backupLoc .dir).set
    (countersJson :: backupLoc) (.file (toVecPretty (.obj [("1.0.0", .num (.posInt c))])) 0o600))

theorem countersAt_counters (c : UInt64) :
    countersIn .running ((countersAt c).files.get (countersJson :: backupLoc)) =
      .ok [("1.0.0", .num (.posInt c))] := by
  have hset : (installedFiles.set backupLoc .dir).Settable (countersJson :: backupLoc) := by decide
  rw [countersAt, World.boot, FileTree.get_set_self _ hset]
  exact countersIn_stored Externals.running_readsPlain
    (Json.plain_obj.2 fun m hm => by rw [List.mem_singleton.1 hm]; exact Json.plain_posInt _)
    (by simp [Json.IsMap, Json.ofMembers, Json.insertMember]) _

theorem countersAt_ready (c : UInt64) :
    (countersAt c).Ready (.ofString "/backup") backupLoc 8 where
  located := rfl
  writable := ⟨rfl, temp_not_dir rfl backupLoc⟩
  quiet _ _ := rfl

theorem incrementRollbackCounter_keeps_one :
    ∃ n w', incrementRollbackCounter .running "1.0.0" ((UnixPath.ofString "/backup").join
        (.ofName countersJson)) (countersAt 1) = .ok n w' ∧
      ∃ counters' mode, w'.files.get (countersJson :: backupLoc) =
          some (.file (toVecPretty (.obj counters')) mode) ∧
        (CountKept "1.0.0" (UInt64.toNat 1) [("1.0.0", .num (.posInt 1))] counters' n ↔
          CountSafe (countersAt 1) "1.0.0" 1 [("1.0.0", .num (.posInt 1))]) := by
  obtain ⟨hreturns, hkeeps⟩ :=
    @incrementRollbackCounter_keeps .running (.ofString "/backup") backupLoc
    "1.0.0" (countersAt 1) _ 1 (countersAt_ready 1).located (countersAt_counters 1) rfl
  obtain ⟨n, w', h⟩ := hreturns (countersAt_ready 1)
  exact ⟨n, w', h, hkeeps n w' h⟩

/-- A count of 2³² goes back to 1. -/
theorem count_wraps :
    ¬ ∀ (E : Externals) (backupDir : UnixPath) (B : Loc) (version : String) (w : World)
      (counters : Json.Members) (c : UInt64), w.Ready backupDir B 8 →
      countersIn E (w.files.get (countersJson :: B)) = .ok counters →
      Json.find version counters = some (.num (.posInt c)) →
      ∃ n w', incrementRollbackCounter E version
        (backupDir.join (.ofName countersJson)) w = .ok n w' ∧
        min (c.toNat + 1) (2 ^ 32 - 1) ≤ n.toNat := by
  intro h
  have hcounters := countersAt_counters 4294967296
  obtain ⟨n, w', hn, hle⟩ :=
    h .running (.ofString "/backup") backupLoc "1.0.0" (countersAt 4294967296)
    _ _ (countersAt_ready _) hcounters rfl
  have hfile : (countersAt 4294967296).files.get (countersJson :: backupLoc) ≠ none := by
    intro hnone
    rw [hnone] at hcounters
    cases hcounters
  obtain ⟨counters₀, hcases, rfl, -⟩ :=
    incrementRollbackCounter_ok (countersAt_ready _).located hfile hcounters hn
  obtain ⟨-, rfl⟩ : (countersAt 4294967296).Quiet ∧ counters₀ = _ :=
    hcases.resolve_right fun hfault => hfault.1 rfl
  exact absurd hle (by decide)

end Synqro
