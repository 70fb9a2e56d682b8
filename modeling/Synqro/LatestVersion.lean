import Synqro.OfferedVersions

/-!
# Which backup a rollback chooses

`synqroRollback` takes the version directory whose name comes last in the order of strings. That is
the one of the last update exactly when no other version directory comes after it
(`rollback_latest_iff`), which for versions whose numbers differ in length is not the order they
have as versions.
-/

namespace Synqro

/-- A directory of the version stands in the backup directory. -/
def IsVersionDir (t : FileTree) (B : Loc) (version : String) : Prop :=
  ∃ n, versionOfDir n = some version ∧ t.get (n :: B) = some .dir

section
variable {E : Externals} {w w' : World}

/-! ## The choice -/

/-- The head of a list sorted downwards is its greatest element. -/
theorem head?_sortDown {us : List String} {v : String}
    (h : (us.insertionSort fun a b => b ≤ a).head? = some v) : v ∈ us ∧ ∀ u ∈ us, u ≤ v := by
  have hperm := us.perm_insertionSort fun a b => b ≤ a
  have hsorted := us.pairwise_insertionSort fun a b => b ≤ a
  cases hs : us.insertionSort fun a b => b ≤ a with
  | nil => rw [hs] at h; cases h
  | cons v' vs =>
    rw [hs] at h hperm hsorted
    cases h
    refine ⟨hperm.mem_iff.1 (.head _), fun u hu => ?_⟩
    rcases List.mem_cons.1 (hperm.mem_iff.2 hu) with rfl | hu
    · exact le_rfl
    · exact (List.pairwise_cons.1 hsorted).1 u hu

/-- The version has a directory whose entry can be read in the listing of call number `i`. -/
def Listed (w : World) (i : Nat) (B : Loc) (version : String) : Prop :=
  ∃ n, versionOfDir n = some version ∧ w.files.get (n :: B) = some .dir ∧
    w.env.entryFault i n = none

/-- The versions read off a listing are the listed ones: `entry` is what becomes of an entry and
`read` what is read off it. -/
theorem mem_versions {i : Nat} {B : Loc} {es : List (FileName × Bool)}
    {entry : FileName × Bool → Except IoError (FileName × Bool)}
    {read : Except IoError (FileName × Bool) → Option String} (hes : w.files.list B = .ok es)
    (hentry : ∀ e, (w.env.entryFault i e.1 = none ∧ entry e = .ok e) ∨
      ∃ error, w.env.entryFault i e.1 = some error ∧ entry e = .error error)
    (hdir : ∀ n, read (.ok (n, true)) = versionOfDir n) (hfile : ∀ n, read (.ok (n, false)) = none)
    (herror : ∀ e, read (.error e) = none) (u : String) :
    u ∈ (es.map entry).filterMap read ↔ Listed w i B u := by
  rw [List.filterMap_map, List.mem_filterMap]
  constructor
  · rintro ⟨⟨n, b⟩, he, hn⟩
    rw [Function.comp] at hn
    rcases hentry (n, b) with ⟨hread, hok⟩ | ⟨error, -, hbad⟩
    · rw [hok] at hn
      cases b with
      | false =>
        rw [hfile] at hn
        cases hn
      | true =>
        rw [hdir] at hn
        obtain ⟨x, hx, hd⟩ := (FileTree.mem_list hes n true).1 he
        exact ⟨n, hn, by simpa [← of_decide_eq_true hd.symm] using hx, hread⟩
    · rw [hbad, herror] at hn
      cases hn
  · rintro ⟨n, hn, hd, hread⟩
    refine ⟨(n, true), (FileTree.mem_list hes n true).2 ⟨.dir, hd, by simp⟩, ?_⟩
    rcases hentry (n, true) with ⟨-, hok⟩ | ⟨error, hbad, -⟩
    · rw [Function.comp, hok, hdir, hn]
    · rw [hread] at hbad
      cases hbad

/-- The version chosen is listed, and no listed version comes after it. -/
theorem mostRecentBackupVersion_ok {backupDir : UnixPath} {B : Loc} {v : String}
    (hB : backupDir.locate w.files w.process.cwd = .ok B)
    (h : mostRecentBackupVersion backupDir w = .ok v w') :
    Listed w (w.calls + 1) B v ∧ ∀ u, Listed w (w.calls + 1) B u → u ≤ v := by
  simp only [mostRecentBackupVersion, Comp.bind_ok, Comp.mapErr_ok, fs.readDir_ok,
    require_ok] at h
  obtain ⟨_, _, ⟨-, ⟨l, es, hl, hes, rfl⟩, rfl⟩, hhead, rfl⟩ := h
  obtain rfl : B = l := Except.ok.inj (hB.symm.trans hl)
  obtain ⟨hmem, hmax⟩ := head?_sortDown hhead
  refine ⟨(mem_versions hes (fun e => ?_) (fun _ => ?_) (fun _ => ?_) (fun _ => ?_) v).1 hmem,
    fun u hu => hmax u ((mem_versions hes (fun e => ?_) (fun _ => ?_) (fun _ => ?_)
      (fun _ => ?_) u).2
      hu)⟩
  all_goals try rfl
  all_goals
    rw [World.tick_calls]
    cases w.env.entryFault (w.calls + 1) e.1 with
    | none => exact .inl ⟨rfl, rfl⟩
    | some error => exact .inr ⟨error, rfl, rfl⟩

/-- The version whose backup a rollback restores. -/
def ChoosesVersion (E : Externals) (engine : SynqroEngine) (w : World) (v : String) : Prop :=
  ∃ w₁ w₂, engine.audit.log E .RollbackTriggered (jsonObject []) w = .ok () w₁ ∧
    mostRecentBackupVersion (.ofString engine.config.update.backupDir) w₁ = .ok v w₂

/-- The version has a directory that a rollback starting now finds when it lists the backup
directory, with its sixth call. -/
def ListsVersion (w : World) (B : Loc) (version : String) : Prop := Listed w (w.calls + 6) B version

/-- What a rollback restores is what it chose: the version that sorts last. -/
theorem ChoosesVersion.latest {engine : SynqroEngine} {v : String} {B : Loc}
    (h : ChoosesVersion E engine w v)
    (hB : (UnixPath.ofString engine.config.update.backupDir).locate w.files w.process.cwd = .ok B) :
    ListsVersion w B v ∧ ∀ u, ListsVersion w B u → u ≤ v := by
  obtain ⟨w₁, w₂, hlog, hchoice⟩ := h
  obtain ⟨hfiles, hprocess, henv⟩ := (AuditLogger.log_sameFiles E engine.audit _ _).ok hlog
  have hcalls := AuditLogger.log_calls hlog
  have hsame (u : String) : Listed w₁ (w₁.calls + 1) B u ↔ ListsVersion w B u := by
    rw [Listed, ListsVersion, Listed, hfiles, henv, hcalls]
  obtain ⟨hv, hmax⟩ := mostRecentBackupVersion_ok (by rw [hfiles, hprocess]; exact hB) hchoice
  exact ⟨(hsame v).1 hv, fun u hu => hmax u ((hsame u).2 hu)⟩

/-- A rollback that succeeded chose a version, and rolled back to it. -/
theorem synqroRollback_ok {engine : SynqroEngine} {u : Unit}
    (h : synqroRollback E (some engine) w = .ok u w') :
    ∃ v w₁ w₂, engine.audit.log E .RollbackTriggered (jsonObject []) w = .ok () w₁ ∧
      mostRecentBackupVersion (.ofString engine.config.update.backupDir) w₁ = .ok v w₂ ∧
      rollback E v (.ofString engine.config.update.backupDir)
        (hmacKeyOf E engine.config.installationId) engine.audit w₂ = .ok u w' := by
  simp only [synqroRollback, getEngine, Comp.bind_ok, require_ok] at h
  obtain ⟨_, _, ⟨⟨⟩, rfl⟩, _, w₁, hlog, v, w₂, hchoice, hroll⟩ := h
  exact ⟨v, w₁, w₂, hlog, hchoice, hroll⟩

/-! ## Runs of updates -/

/-- The effect deploys no other version. -/
def Effect.DeploysOnly (version : String) (e : Effect) : Prop := ∀ v, e = .deployed v → v = version

theorem deploysOnly_of_plain (version : String) (e : Effect) (h : e.Plain) :
    e.DeploysOnly version := by
  rintro v rfl
  exact h.elim

/-- A successful update takes a snapshot of the executable under the version it deploys. -/
theorem synqroApplyUpdate_snapshot {engine : SynqroEngine} {u : Unit}
    (h : synqroApplyUpdate E (some engine) w = .ok u w') :
    ∃ version w₁ w₂, World.Evolves (Effect.DeploysOnly version) w w₁ ∧
      takeSnapshot E version [.ofLoc w.process.exe] (.ofString engine.config.update.backupDir)
        (hmacKeyOf E engine.config.installationId) w₁ = .ok () w₂ ∧
      World.Evolves (Effect.DeploysOnly version) w₂ w' := by
  simp only [synqroApplyUpdate, getEngine, Comp.bind_ok, require_ok] at h
  obtain ⟨_, _, ⟨⟨⟩, rfl⟩, d, wd, hd, m, wm, hm, h⟩ := h
  have hplain := deploysOnly_of_plain m.version
  have h₁ := ((engine.downloader_evolves).ok hd).trans
    ((d.fetchAndVerifyManifest_evolves hplain).ok hm)
  simp only [applyManifest, Comp.bind_ok, Comp.mapErr_ok, currentExe_ok] at h
  obtain ⟨_, ws, hstage, _, _, ⟨-, rfl, rfl⟩, _, w₂, hsnap, path, wp, hdown, _, wl,
    hlog, _, _, hget,
    hwatch⟩ := h
  have h₂ := (fs.createDirAll_evolves (Q := Effect.DeploysOnly m.version) _).ok hstage
  have h₃ := (d.downloadAndVerifyArtifact_evolves (fun e he => hplain e he.plain) m _
    (by rintro v ⟨⟩; rfl) fun _ r _ _ => hplain (.requested r) trivial).ok hdown
  have h₄ := (AuditLogger.log_evolves (Q := Effect.DeploysOnly m.version) E engine.audit _ _
    (by rintro v ⟨⟩)).ok hlog
  cases hget
  have h₅ := (Comp.Respects.ignore (startWatchdog_evolves hplain _ _ _)).ok hwatch
  have hexe : ws.process.exe = w.process.exe := by rw [h₂.process, h₁.process]
  rw [hexe] at hsnap
  exact ⟨m.version, ws.tick, w₂, (h₁.trans h₂).trans (.tick ws), hsnap, (h₃.trans h₄).trans h₅⟩

/-- Runs of successful updates to semantic versions, with the backup directory at `B`; in between
anything may happen that leaves the version directories where they are. -/
inductive UpdateRun (E : Externals) (engine : SynqroEngine) (B : Loc) : List String → World → Prop
  | start {w : World} : UpdateRun E engine B [] w
  | update {vs : List String} {w w' : World} (v : String) : UpdateRun E engine B vs w →
      synqroApplyUpdate E (some engine) w = .ok () w' →
      .deployed v ∈ w'.trace.drop w.trace.length → (SemVer.parse v).isSome = true →
      (UnixPath.ofString engine.config.update.backupDir).locate w'.files w'.process.cwd = .ok B →
      UpdateRun E engine B (vs ++ [v]) w'
  | outside {vs : List String} {w w' : World} : UpdateRun E engine B vs w →
      (∀ u, IsVersionDir w.files B u → IsVersionDir w'.files B u) → UpdateRun E engine B vs w'

/-- The name of the directory of a version without separators. -/
def versionName (v : String) (h : '/' ∉ v.toList) : FileName where
  text := s!"v{v}"
  plain := by
    have htext : (s!"v{v}").toList = 'v' :: v.toList := by
      show ("v" ++ v).toList = _
      rw [String.toList_append]
      rfl
    have hne : (s!"v{v}").toList.head? = some 'v' := by rw [htext]; rfl
    refine ⟨?_, ?_, ?_, ?_⟩
    · intro he
      rw [he] at hne
      exact absurd hne (by decide)
    · intro he
      rw [he] at hne
      exact absurd hne (by decide)
    · intro he
      rw [he] at hne
      exact absurd hne (by decide)
    · rw [htext, List.mem_cons]
      rintro (hs | hs)
      · exact absurd hs (by decide)
      · exact h hs

theorem versionOfDir_versionName {v : String} (h : '/' ∉ v.toList) :
    versionOfDir (versionName v h) = some v := by
  have htext : (versionName v h).text.toList = 'v' :: v.toList := by
    show ("v" ++ v).toList = _
    rw [String.toList_append]
    rfl
  rw [versionOfDir, htext]
  exact congrArg some String.ofList_toList

theorem versionOfDir_inj {n n' : FileName} {v : String} (h : versionOfDir n = some v)
    (h' : versionOfDir n' = some v) : n = n' := by
  have hof {n : FileName} (h : versionOfDir n = some v) : n.text.toList = 'v' :: v.toList := by
    unfold versionOfDir at h
    split at h
    · next rest heq =>
      cases h
      rw [heq, String.toList_ofList]
    · cases h
  exact FileName.ext (String.toList_inj.1 ((hof h).trans (hof h').symm))

/-- The directory of a snapshot of a semantic version is the one of its name in the backup
directory, wherever that is found afterwards. -/
theorem SnapshotTaken.isVersionDir {version : String} {targetPaths : List UnixPath}
    {backupDir : UnixPath} {hmacKey : Bytes} {d B : Loc} {m : SnapshotManifest} {ls : List Loc}
    {t₀ t₁ : FileTree} (h : SnapshotTaken E version targetPaths backupDir hmacKey w w' d m ls t₀ t₁)
    (hparse : (SemVer.parse version).isSome = true) {t : FileTree} (hkeep : w'.files.KeepsDirs t)
    (hB : backupDir.locate t w.process.cwd = .ok B) : IsVersionDir t B version := by
  obtain ⟨v, hv⟩ := Option.isSome_iff_exists.1 hparse
  have hslash := SemVer.slash_notMem hv
  have hname : UnixPath.ofString s!"v{version}" = .ofName (versionName version hslash) :=
    UnixPath.ofString_text (versionName version hslash)
  have hloc := h.versionDir
  have hempty := UnixPath.not_isEmpty_of_locate hB
  rw [hname, ← UnixPath.locateFile_join_ofName, UnixPath.locate_join_ofName, if_neg hempty] at hloc
  have hdirs : t₀.KeepsDirs t := IsTrans.trans _ _ _
    (h.copies.sameDirs.trans (FileTree.overwrite_ok h.written).2.2).keeps hkeep
  cases hB' : backupDir.locate t₀ w.process.cwd with
  | error e => rw [hB'] at hloc; cases hloc
  | ok B' =>
    obtain rfl : B' = B := Except.ok.inj ((hdirs.locate hB').symm.trans hB)
    rw [hB'] at hloc
    obtain rfl : versionName version hslash :: B' = d := Except.ok.inj hloc
    obtain ⟨⟨mode, hfile, -⟩, -⟩ := FileTree.overwrite_ok h.written
    exact ⟨_, versionOfDir_versionName hslash, hkeep _ (FileTree.get_parent hfile)⟩

/-- The versions updated to have their directories. -/
theorem UpdateRun.isVersionDir {engine : SynqroEngine} {B : Loc} {vs : List String}
    (h : UpdateRun E engine B vs w) : ∀ v ∈ vs, IsVersionDir w.files B v := by
  induction h with
  | start => simp
  | outside _ hkeep ih => exact fun v hv => hkeep v (ih v hv)
  | update v _ hrun hdeployed hparse hB ih =>
    obtain ⟨version, w₁, w₂, h₁, hsnap, h₂⟩ := synqroApplyUpdate_snapshot hrun
    obtain ⟨d, m, ls, t₀, t₁, htaken⟩ := takeSnapshot_ok hsnap
    have hs := (takeSnapshot_evolves (Q := Effect.DeploysOnly version) E _ _ _ _).ok hsnap
    have hev := (h₁.trans hs).trans h₂
    obtain rfl : v = version := by
      obtain ⟨new, hnew, honly⟩ := hev.trace
      rw [hnew, List.drop_left] at hdeployed
      exact honly _ hdeployed v rfl
    intro u hu
    rcases List.mem_append.1 hu with hu | hu
    · obtain ⟨n, hn, hdir⟩ := ih u hu
      exact ⟨n, hn, hev.dirs _ hdir⟩
    · rw [List.mem_singleton.1 hu]
      refine htaken.isVersionDir hparse h₂.dirs ?_
      rwa [h₂.process, htaken.process] at hB

/-- The entry of the version can be read when a rollback starting now lists the backup
directory. -/
def EntryReadable (w : World) (version : String) : Prop :=
  ∀ n, versionOfDir n = some version → w.env.entryFault (w.calls + 6) n = none

/-- After a run of updates a rollback that succeeds restores the backup of the last one exactly
when it can read that one's directory entry and finds no version directory that comes after it in
the order of strings. -/
theorem rollback_latest_iff {engine : SynqroEngine} {B : Loc} {vs : List String} {v : String}
    (h : UpdateRun E engine B (vs ++ [v]) w)
    (hB : (UnixPath.ofString engine.config.update.backupDir).locate w.files w.process.cwd = .ok B)
    (hrun : Comp.returned (synqroRollback E (some engine) w) = true) :
    ChoosesVersion E engine w v ↔
      EntryReadable w v ∧ ∀ u, ListsVersion w B u → u ≤ v := by
  constructor
  · intro hv
    obtain ⟨⟨n, hn, -, hread⟩, hmax⟩ := hv.latest hB
    refine ⟨fun n' hn' => ?_, hmax⟩
    rwa [versionOfDir_inj hn' hn]
  · rintro ⟨hread, hlatest⟩
    obtain ⟨_, w', hok⟩ := Comp.returned_iff.1 hrun
    obtain ⟨v', w₁, w₂, hlog, hchoice, -⟩ := synqroRollback_ok hok
    have hv' : ChoosesVersion E engine w v' := ⟨w₁, w₂, hlog, hchoice⟩
    obtain ⟨hlist, hmax⟩ := hv'.latest hB
    obtain ⟨n, hn, hdir⟩ := h.isVersionDir v (by simp)
    have heq : v = v' := le_antisymm (hmax v ⟨n, hn, hdir, hread n hn⟩) (hlatest v' hlist)
    exact heq ▸ hv'

end

/-! ## A version with two digits -/

theorem locate_backup (t : FileTree) (cwd : Loc) :
    (UnixPath.ofString releaseEngine.config.update.backupDir).locate t cwd = .ok backupLoc := by
  have h : UnixPath.ofString releaseEngine.config.update.backupDir = .ofLoc backupLoc := by
    decide +kernel
  rw [h, UnixPath.locate_ofLoc]

/-- Updates that succeed extend a run. -/
theorem UpdateRun.served {vs us : List String} {w : World}
    (h : UpdateRun .release releaseEngine backupLoc vs w) (hup : updates? us w = true)
    (hparse : ∀ v ∈ us, (SemVer.parse v).isSome = true) :
    UpdateRun .release releaseEngine backupLoc (vs ++ us) (w.updatedTo us) := by
  induction us generalizing vs w with
  | nil => rwa [List.append_nil]
  | cons v us ih =>
    obtain ⟨hs, hd, hrest⟩ := updates?_cons hup
    have hserved : UpdateRun .release releaseEngine backupLoc vs (w.served v) :=
      .outside h fun _ hu => hu
    have hdeployed : v ∈ deployedVersions (servedCall w v).effects := by
      rw [hd]
      exact .head _
    have hrun : UpdateRun .release releaseEngine backupLoc (vs ++ [v]) (w.updated v) :=
      .update v hserved (Comp.ok_of_returned hs) (mem_deployedVersions.1 hdeployed)
        (hparse v (.head _)) (locate_backup _ _)
    rw [← List.singleton_append, ← List.append_assoc]
    exact ih hrun hrest fun u hu => hparse u (.tail _ hu)

theorem World.updated_entryFault (w : World) (v : String) (i : Nat) (n : FileName) :
    (w.updated v).env.entryFault i n = none := by
  have hev : Evolves Effect.Any (w.served v) (w.updated v) := synqroApplyUpdate_any _ _
  rw [hev.env]
  rfl

/-- The installation after updates to 10.0.0, 9.0.0 and 10.0.0. -/
def updatedThrice : World := installed.updatedTo ["10.0.0", "9.0.0", "10.0.0"]

theorem updateRun_updatedThrice :
    UpdateRun .release releaseEngine backupLoc
      (["10.0.0", "9.0.0"] ++ ["10.0.0"]) updatedThrice := by
  have hstart : UpdateRun .release releaseEngine backupLoc [] installed := .start
  exact hstart.served updates?_installed.1 (by decide)

theorem rollback_latest_iff_updatedThrice :
    ChoosesVersion .release releaseEngine updatedThrice "10.0.0" ↔
      EntryReadable updatedThrice "10.0.0" ∧
        ∀ u, ListsVersion updatedThrice backupLoc u → u ≤ "10.0.0" :=
  rollback_latest_iff updateRun_updatedThrice (locate_backup _ _) updates?_installed.2

/-- The rollback after the last of these updates takes the backup of another one. -/
theorem rollback_notLatest :
    ¬ ∀ (E : Externals) (engine : SynqroEngine) (B : Loc) (vs : List String)
      (v : String) (w : World),
      UpdateRun E engine B (vs ++ [v]) w →
      (UnixPath.ofString engine.config.update.backupDir).locate w.files w.process.cwd = .ok B →
      Comp.returned (synqroRollback E (some engine) w) = true → ChoosesVersion E engine w v := by
  intro h
  have hchoice := h _ _ _ _ _ _ updateRun_updatedThrice (locate_backup _ _) updates?_installed.2
  obtain ⟨n, hn, hdir⟩ := updateRun_updatedThrice.isVersionDir "9.0.0" (.tail _ (.head _))
  have henv : updatedThrice.env.entryFault (updatedThrice.calls + 6) n = none := by
    rw [updatedThrice, World.updatedTo_cons, World.updatedTo_cons, World.updatedTo_cons,
      World.updatedTo_nil, World.updated_entryFault]
  exact absurd ((hchoice.latest (locate_backup _ _)).2 "9.0.0" ⟨n, hn, hdir, henv⟩) (by decide)

end Synqro
