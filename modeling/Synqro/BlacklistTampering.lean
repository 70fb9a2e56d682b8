import Synqro.Bookkeeping
import Synqro.AuditTrail

/-!
# A blacklist that does not load

`blacklistVersion` starts from an empty list when the blacklist does not load, whatever the reason,
and signs what it writes. `World.Launders` is the harm: the file is replaced by a list that
verifies, or a version gets the answer that it is not blacklisted which it did not get before.
`blacklistVersion_launders` says when it comes to that: whenever the new list can be written.
-/

namespace Synqro

section
variable (E : Externals) (version : String) (backupDir : UnixPath) (hmacKey : Bytes)
  (audit : AuditLogger)

/-- The answer of `is_blacklisted` about a version, when its read meets the fault `o`, if any. -/
def World.answer (o : Option Fault) (v : String) (w : World) : Except SynqroError Bool :=
  match isBlacklisted E v (backupDir.join (.ofString "blacklist.json")) hmacKey
      (w.withFaults fun _ => o) with
  | .ok b _ => .ok b
  | .error e _ => .error e

/-- The world after a call of `blacklist_version`. -/
def World.afterBlacklisting (w : World) : World :=
  Comp.after (blacklistVersion E version
    (backupDir.join (.ofString "blacklist.json")) hmacKey audit) w

/-- A blacklist at `l` that does not load is not laundered: no list that verifies takes its place,
and no version gets a no that it did not get before. -/
structure World.NotLaundered (l : Loc) (w : World) : Prop where
  replaced : ∀ s bytes mode, .renamed s l (some (.file bytes mode)) ∈
    (w.afterBlacklisting E version backupDir hmacKey audit).trace.drop w.trace.length →
      ∀ bl, checkBlacklist E hmacKey bytes ≠ .ok bl
  answers : ∀ o v, w.answer E backupDir hmacKey o v ≠ .ok false →
    (w.afterBlacklisting E version backupDir hmacKey audit).answer E backupDir hmacKey o v ≠
      .ok false

end

/-- The five calls that replace the state file named `n` in the directory `B` go through: none of
them fails, and neither the file nor its temporary file is a directory. -/
structure World.CanReplace (n : FileName) (B : Loc) (w : World) : Prop where
  quiet : w.tick.QuietFor 5
  temp : w.files.Settable (w.tempFile :: B)
  file : w.files.Settable (n :: B)

instance (n : FileName) (B : Loc) (w : World) : Decidable (w.CanReplace n B) :=
  have : Decidable (w.tick.QuietFor 5) := inferInstanceAs (Decidable (∀ i < 5, _ = none))
  decidable_of_iff (w.tick.QuietFor 5 ∧ w.files.Settable (w.tempFile :: B) ∧
    w.files.Settable (n :: B)) ⟨fun ⟨h₁, h₂, h₃⟩ => ⟨h₁, h₂, h₃⟩, fun h => ⟨h.1, h.2, h.3⟩⟩

section
variable {E : Externals} {backupDir : UnixPath} {hmacKey : Bytes} {audit : AuditLogger} {B : Loc}
  {w w' : World}

/-- A state file is written exactly when its file can be replaced. -/
theorem writeJsonAtomic_returns_iff {n : FileName} {value : Json} (hB : w.base backupDir = .ok B) :
    (∃ w', writeJsonAtomic (backupDir.join (.ofName n)) value w = .ok () w') ↔
      w.CanReplace n B := by
  constructor
  · rintro ⟨w', h⟩
    obtain ⟨hq, B', t, hB', hp, -⟩ := writeJsonAtomic_ok.1 h
    obtain rfl : B = B' := Except.ok.inj (hB.symm.trans hB')
    obtain ⟨hs, hd⟩ := FileTree.publish_iff.1 ⟨t, hp⟩
    exact ⟨hq, hs, hd⟩
  · rintro ⟨hq, hs, hd⟩
    obtain ⟨t, ht⟩ := FileTree.publish_iff.2 ⟨hs, hd⟩
    exact ⟨_, writeJsonAtomic_ok.2 ⟨hq, B, t, hB, ht, rfl⟩⟩

/-- The answer is what the file says, and no when the file cannot be read. -/
theorem World.answer_eq (hB : w.base backupDir = .ok B) (o : Option Fault) (v : String) :
    w.answer E backupDir hmacKey o v = match o with
      | some _ => .ok false
      | none => blacklistAnswer v (blacklistIn E hmacKey (w.files.get (blacklistJson :: B))) := by
  unfold World.answer
  rw [ofString_blacklistJson]
  cases o with
  | some f =>
    have hload : loadBlacklistRaw E (backupDir.join (.ofName blacklistJson)) hmacKey
        (w.withFaults fun _ => some f) =
          Comp.ofExcept (.error (.Permission s!"Cannot read blacklist: {f.error.display}"))
            (w.withFaults fun _ => some f).tick := by
      rw [loadBlacklistRaw_eq]
      rfl
    rw [isBlacklisted_run E hload]
    rfl
  | none =>
    have hload := loadBlacklistRaw_run E (w := w.withFaults fun _ => none) hmacKey rfl hB
    rw [isBlacklisted_run E hload, World.withFaults_files]
    cases blacklistAnswer v (blacklistIn E hmacKey (w.files.get (blacklistJson :: B))) <;> rfl

/-- A call that finds a blacklist it cannot load starts from no versions. -/
theorem afterBlacklisting_eq {version : String} {e : SynqroError}
    (hrejected : loadBlacklistRaw E (backupDir.join (.ofName blacklistJson)) hmacKey w =
      .error e w') :
    w.afterBlacklisting E version backupDir hmacKey audit =
      Comp.after (storeBlacklist E version (backupDir.join (.ofName blacklistJson)) hmacKey audit
        (.error e)) w.tick := by
  obtain ⟨r, hr⟩ := loadBlacklistRaw_outcome E (backupDir.join (.ofName blacklistJson)) hmacKey w
  have hw : w' = w.tick := by
    rw [hrejected] at hr
    cases r <;> cases hr
    rfl
  subst hw
  have hload : (Comp.outcome (loadBlacklistRaw E (backupDir.join (.ofName blacklistJson)) hmacKey) :
      M _) w = .ok (.error e) w.tick := Comp.outcome_ok.2 (.inr ⟨e, rfl, hrejected⟩)
  unfold World.afterBlacklisting Comp.after
  rw [ofString_blacklistJson, blacklistVersion_eq, Comp.bind_run, hload]

/-- The file of the new list, and what a reader makes of it. -/
theorem checkBlacklist_one (hE : E.ReadsPlain) (version : String) :
    checkBlacklist E hmacKey (toVecPretty
      (Blacklist.signed E hmacKey (withVersion version [])).toJson) =
      .ok (Blacklist.signed E hmacKey (withVersion version [])) :=
  checkBlacklist_signed hE (withVersion_le List.Pairwise.nil)

/-- A list that could be written is put in the file's place. -/
theorem renamed_of_canReplace {version : String} {e : SynqroError} (hB : w.base backupDir = .ok B)
    (h : w.CanReplace blacklistJson B) :
    ∃ mode, .renamed (w.tempFile :: B) (blacklistJson :: B) (some (.file (toVecPretty
      (Blacklist.signed E hmacKey (withVersion version [])).toJson) mode)) ∈
        (Comp.after (storeBlacklist E version (backupDir.join (.ofName blacklistJson)) hmacKey audit
          (.error e)) w).trace.drop w.trace.length := by
  let i : Issue := ⟨.blacklistVersion, hmacKey, unsignedBlacklist (withVersion version [])⟩
  have hissued : (w.issue i).CanReplace blacklistJson B := ⟨h.quiet, h.temp, h.file⟩
  have hbase : (w.issue i).base backupDir = .ok B := hB
  obtain ⟨w₂, hw₂⟩ := (@writeJsonAtomic_returns_iff _ _ _ _
    (Blacklist.signed E hmacKey (withVersion version [])).toJson hbase).2 hissued
  obtain ⟨-, B', t, hB', hp, hw⟩ := writeJsonAtomic_ok.1 hw₂
  obtain rfl : B = B' := Except.ok.inj (hbase.symm.trans hB')
  obtain ⟨⟨mode, hfile⟩, -⟩ := FileTree.publish_ok hp
  have htrace : w₂.trace = w.trace ++ [.renamed (w.tempFile :: B) (blacklistJson :: B)
      (some (.file (toVecPretty
        (Blacklist.signed E hmacKey (withVersion version [])).toJson) mode))] := by
    rw [hw, hfile]
    rfl
  -- the steps after the rename only add to the trace
  have hrest : World.Evolves Effect.Any w₂ (Comp.after (storeBlacklist E version
      (backupDir.join (.ofName blacklistJson)) hmacKey audit (.error e)) w) := by
    have hafter : Comp.after (storeBlacklist E version
      (backupDir.join (.ofName blacklistJson)) hmacKey
        audit (.error e)) w = Comp.after (do
          emit (.blacklisted version)
          audit.log E .VersionBlacklisted (jsonObject [("version", .str version)])) w₂ := by
      have hissue : (issue i : M Unit) w = .ok () (w.issue i) := rfl
      exact (Comp.after_bind_ok hissue).trans (Comp.after_bind_ok hw₂)
    rw [hafter]
    exact Comp.Respects.bind (emit_evolves trivial)
      (fun _ => AuditLogger.log_evolves E audit _ _ trivial) w₂
  obtain ⟨new, hnew, -⟩ := hrest.trace
  refine ⟨mode, ?_⟩
  rw [hnew, htrace, List.append_assoc, List.drop_left]
  exact List.mem_append_left _ (List.mem_singleton.2 rfl)

/-- A list that could not be written left the file and the trace as they were. -/
theorem unchanged_of_not_canReplace {version : String} {e : SynqroError}
    (hB : w.base backupDir = .ok B) (h : ¬ w.CanReplace blacklistJson B)
    (hw : Comp.after (storeBlacklist E version (backupDir.join (.ofName blacklistJson)) hmacKey
      audit (.error e)) w = w') :
    w'.trace = w.trace ∧ w'.base backupDir = .ok B ∧
      w'.files.get (blacklistJson :: B) = w.files.get (blacklistJson :: B) := by
  let i : Issue := ⟨.blacklistVersion, hmacKey, unsignedBlacklist (withVersion version [])⟩
  let value : Json := (Blacklist.signed E hmacKey (withVersion version [])).toJson
  have hbase : (w.issue i).base backupDir = .ok B := hB
  have hissue : (issue i : M Unit) w = .ok () (w.issue i) := rfl
  obtain ⟨e', w₂, hw₂⟩ : ∃ e' w₂, writeJsonAtomic (backupDir.join (.ofName blacklistJson)) value
      (w.issue i) = .error e' w₂ := by
    cases hr : writeJsonAtomic (backupDir.join (.ofName blacklistJson)) value (w.issue i) with
    | ok u w₂ =>
      have hcan := (writeJsonAtomic_returns_iff hbase).1 ⟨w₂, hr⟩
      exact absurd ⟨hcan.quiet, hcan.temp, hcan.file⟩ h
    | error e' w₂ => exact ⟨e', w₂, rfl⟩
  obtain rfl : w₂ = w' := ((Comp.after_bind_ok hissue).trans
    (Comp.after_bind_error hw₂)).symm.trans hw
  have htrace : w₂.trace = (w.issue i).trace := writeJsonAtomic_trace hw₂
  have htouches := writeJsonAtomic_touches hw₂
  have htemp : ¬ (w.issue i).locate (backupDir.join (.ofName (w.issue i).tempFile)) =
      .ok (blacklistJson :: B) := by
    intro hl
    rw [World.locate_join_of_base hbase] at hl
    exact tempFileName_ne_blacklistJson _ (List.cons.inj (Except.ok.inj hl)).1
  refine ⟨htrace, ?_, htouches.files.2 _ htemp⟩
  rw [World.base, htouches.process, UnixPath.base_sameDirs htouches.files.1]
  exact hbase

/-- **When a blacklist that does not load is laundered.** A call of `blacklistVersion` that finds at
`blacklist.json` something its loader rejects replaces it by a list that verifies, or turns an
answer about a version into no, unless the new list cannot be written. -/
theorem blacklistVersion_launders {version : String} {e : SynqroError} (hE : E.ReadsPlain)
    (hB : w.base backupDir = .ok B)
    (hrejected : loadBlacklistRaw E (backupDir.join (.ofString "blacklist.json")) hmacKey w =
      .error e w') :
    w.NotLaundered E version backupDir hmacKey audit (blacklistJson :: B) ↔
      ¬ w.tick.CanReplace blacklistJson B := by
  rw [ofString_blacklistJson] at hrejected
  have hafter := @afterBlacklisting_eq _ _ _ audit _ _ version _ hrejected
  have hbase : w.tick.base backupDir = .ok B := hB
  constructor
  · intro h hcan
    obtain ⟨mode, hmem⟩ := @renamed_of_canReplace E _ hmacKey audit _ _ version e hbase hcan
    have hmem' := hmem
    rw [← hafter] at hmem'
    exact h.replaced _ _ mode hmem' _ (checkBlacklist_one hE version)
  · intro hcannot
    obtain ⟨htrace, hbase', hfile⟩ := @unchanged_of_not_canReplace E _ hmacKey audit _ _ _ version e
      hbase hcannot hafter.symm
    refine ⟨fun s bytes mode hmem => ?_, fun o v hv => ?_⟩
    · rw [htrace, World.tick_trace, List.drop_length] at hmem
      cases hmem
    · rw [World.answer_eq hbase', hfile]
      rwa [World.answer_eq hB] at hv

end

/-! ## A tampered list -/

/-- A world in which version 1.0.0 has been blacklisted and the list has been overwritten. -/
def tamperedList : World :=
  let w := (World.boot .calm (.startedIn appExe.tail)
    (installedFiles.set backupLoc .dir)).afterBlacklisting
    .running "1.0.0" (.ofString "/backup") [7] auditor
  w.setFiles (w.files.set (blacklistJson :: backupLoc) (.file [123] 0o644))

/-- What happens to the tampered list, evaluated once: it does not load, it gives no answer about
version 1.0.0, and after version 2.0.0 was blacklisted the answer is that 1.0.0 is not. -/
theorem tamperedList_runs :
    tamperedList.base (.ofString "/backup") = .ok backupLoc ∧
      Comp.returned (loadBlacklistRaw .running
        ((UnixPath.ofString "/backup").join (.ofString "blacklist.json")) [7] tamperedList) =
          false ∧
      tamperedList.answer .running (.ofString "/backup") [7] none "1.0.0" ≠ .ok false ∧
      (tamperedList.afterBlacklisting .running "2.0.0" (.ofString "/backup") [7] auditor).answer
        .running (.ofString "/backup") [7] none "1.0.0" = .ok false := by
  decide +kernel

theorem tamperedList_rejected : ∃ e w', loadBlacklistRaw .running
    ((UnixPath.ofString "/backup").join (.ofString "blacklist.json")) [7] tamperedList =
      .error e w' := by
  have hfails := tamperedList_runs.2.1
  cases h : loadBlacklistRaw .running
    ((UnixPath.ofString "/backup").join (.ofString "blacklist.json")) [7] tamperedList with
  | ok bl w' => rw [h] at hfails; cases hfails
  | error e w' => exact ⟨e, w', rfl⟩

theorem blacklistVersion_launders_tamperedList :
    tamperedList.NotLaundered .running "2.0.0" (.ofString "/backup") [7] auditor
      (blacklistJson :: backupLoc) ↔ ¬ tamperedList.tick.CanReplace blacklistJson backupLoc := by
  obtain ⟨e, w', hrejected⟩ := tamperedList_rejected
  exact blacklistVersion_launders Externals.running_readsPlain tamperedList_runs.1 hrejected

/-- Version 1.0.0 was blacklisted, the tampered list gave no answer about it, and after version
2.0.0 was blacklisted the answer is that 1.0.0 is not. -/
theorem tamperedList_laundered :
    ¬ tamperedList.NotLaundered .running "2.0.0" (.ofString "/backup") [7]
    auditor (blacklistJson :: backupLoc) := by
  intro h
  exact h.answers none "1.0.0" tamperedList_runs.2.2.1 tamperedList_runs.2.2.2

end Synqro
