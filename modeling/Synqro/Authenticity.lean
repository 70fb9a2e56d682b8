import Synqro.Runs
import Synqro.Snapshots

/-!
# What a rollback restores was recorded

The backup directory is not trusted: between the engine's calls it may come to hold anything. A
rollback accepts a manifest by its tag alone, and `rollback_authentic` says what that gives: each
file it renames into place holds bytes with the digest, and has the permissions, of an entry that
`takeSnapshot` recorded under the key. The engine tags records of three kinds under keys that may
coincide, audit lines, blacklists and snapshot manifests; the tag of one is never that of another
(`unsignedManifest_ne_payload`, `unsignedManifest_ne_unsignedBlacklist`).
-/

namespace Synqro

/-! ## Histories -/

/-- The worlds that the engine's functions lead to, in any order and with anything done to the
files, the process, the clock and the server in between. -/
inductive History (E : Externals) : World → Prop
  | start {w : World} : w.issued = [] → History E w
  | outside {w w' : World} : History E w → w'.issued = w.issued → History E w'
  | takeSnapshot {w : World} (version : String) (targetPaths : List UnixPath)
      (backupDir : UnixPath) (hmacKey : Bytes) : History E w →
      History E (Comp.after (takeSnapshot E version targetPaths backupDir hmacKey) w)
  | rollback {w : World} (version : String) (backupDir : UnixPath) (hmacKey : Bytes)
      (audit : AuditLogger) : History E w →
      History E (Comp.after (rollback E version backupDir hmacKey audit) w)
  | blacklistVersion {w : World} (version : String) (blacklistPath : UnixPath) (hmacKey : Bytes)
      (audit : AuditLogger) : History E w →
      History E (Comp.after (blacklistVersion E version blacklistPath hmacKey audit) w)
  | log {w : World} (audit : AuditLogger) (event : AuditEvent) (data : Json) : History E w →
      History E (Comp.after (audit.log E event data) w)
  | api {w : World} (engine : SynqroEngine) (c : ApiCall) : History E w →
      History E (Comp.after (c.run E engine) w)

section
variable {E : Externals} {w w' : World}

theorem ApiCall.run_evolves (engine : SynqroEngine) (c : ApiCall) (w : World) :
    World.Evolves Effect.Any w (Comp.after (c.run E engine) w) := by
  cases c with
  | checkUpdate => exact synqroCheckUpdate_evolves plain_any _ w
  | applyUpdate => exact synqroApplyUpdate_any _ w
  | rollback =>
    exact synqroRollback_evolves plain_any (fun _ => trivial) (fun _ => trivial)
      (fun _ => trivial) _ w

/-- Every record of a history has the form its signer tags. -/
theorem History.genuine (h : History E w) : ∀ i ∈ w.issued, i.Genuine := by
  have grow {u v : World} (hu : ∀ i ∈ u.issued, i.Genuine)
      (hv : World.Evolves Effect.Any u v) : ∀ i ∈ v.issued, i.Genuine := by
    obtain ⟨new, hnew, hg⟩ := hv.issued
    intro i hi
    rw [hnew, List.mem_append] at hi
    exact hi.elim (hu i) (hg i)
  induction h with
  | start h => simp [h]
  | outside _ heq ih => rwa [heq]
  | takeSnapshot version targetPaths backupDir hmacKey _ ih =>
    exact grow ih (takeSnapshot_evolves E _ _ _ _ _)
  | rollback version backupDir hmacKey audit _ ih =>
    exact grow ih (rollback_evolves (fun _ _ => trivial)
      (fun _ => trivial) fun _ _ _ _ _ _ _ _ _ _ _ => trivial)
  | blacklistVersion version blacklistPath hmacKey audit _ ih =>
    exact grow ih (blacklistVersion_evolves _ _ _ (fun _ _ _ _ _ => trivial) trivial
      (fun _ => trivial) _)
  | log audit event data _ ih => exact grow ih (AuditLogger.log_evolves E _ _ _ trivial _)
  | api engine c _ ih => exact grow ih (c.run_evolves engine _)

/-! ## Authentic manifests -/

/-- A tag is accepted on a manifest that a file holds only for a text that was tagged under the
key. -/
def World.Unforged (E : Externals) (hmacKey : Bytes) (w : World) : Prop :=
  ∀ l bytes mode m, w.files.get l = some (.file bytes mode) →
    fromSlice E SnapshotManifest.read bytes = .ok m → m.Tagged E hmacKey →
      ∃ i ∈ w.issued, i.key = hmacKey ∧ encodeUtf8 (canonicalJsonSorted i.record) =
        encodeUtf8 (canonicalJsonSorted (unsignedManifest m.version m.createdAt m.files))

/-- `takeSnapshot` tagged a manifest with the entry under the key. -/
def World.Recorded (hmacKey : Bytes) (entry : FileEntry) (w : World) : Prop :=
  ∃ version createdAt files, entry ∈ files ∧
    ⟨.takeSnapshot, hmacKey, unsignedManifest version createdAt files⟩ ∈ w.issued

theorem canonicalJsonSorted_jsonObject_inj {ms ns : List (String × Json)}
    (h : canonicalJsonSorted (jsonObject ms) = canonicalJsonSorted (jsonObject ns)) :
    jsonObject ms = jsonObject ns := by
  have := toJsonString_inj h
  rwa [jsonObject, jsonObject, Json.sortKeys_value, Json.sortKeys_value] at this

/-- Among genuine records, only one of `takeSnapshot` has the text of a manifest. -/
theorem Issue.Genuine.of_manifest {i : Issue} (hi : i.Genuine) {version createdAt : String}
    {files : List FileEntry} (h : canonicalJsonSorted i.record =
      canonicalJsonSorted (unsignedManifest version createdAt files)) :
    i.signer = .takeSnapshot ∧ i.record = unsignedManifest version createdAt files := by
  obtain ⟨signer, key, record⟩ := i
  cases signer with
  | takeSnapshot =>
    obtain ⟨version', createdAt', files', rfl⟩ := hi
    exact ⟨rfl, canonicalJsonSorted_jsonObject_inj h⟩
  | log =>
    obtain ⟨logger, ts, event, data, rfl⟩ := hi
    exact absurd (canonicalJsonSorted_jsonObject_inj h).symm
      (unsignedManifest_ne_payload version createdAt files _ _ _ _ data)
  | blacklistVersion =>
    obtain ⟨versions, rfl⟩ := hi
    exact absurd (canonicalJsonSorted_jsonObject_inj h).symm
      (unsignedManifest_ne_unsignedBlacklist version createdAt files versions)

/-- The entries of a manifest that was loaded were recorded. -/
theorem loadSnapshot_recorded (hw : History E w) {hmacKey : Bytes} (hforge : w.Unforged E hmacKey)
    {version : String} {versionDir : UnixPath} {audit : AuditLogger} {m : SnapshotManifest}
    (h : loadSnapshot E version versionDir hmacKey audit w = .ok m w') :
    ∀ entry ∈ m.files, w.Recorded hmacKey entry := by
  obtain ⟨-, ⟨l, bytes, mode, -, hfile, hread⟩, htag, -⟩ := loadSnapshot_ok.1 h
  obtain ⟨⟨signer, key, record⟩, hi, hkey, htext⟩ := hforge l bytes mode m hfile hread htag
  obtain ⟨rfl, rfl⟩ := (hw.genuine _ hi).of_manifest (encodeUtf8_inj htext)
  obtain rfl : key = hmacKey := hkey
  exact fun entry he => ⟨_, _, m.files, he, hi⟩

/-- The effect of restoring a recorded entry: the file put at the entry's path holds bytes with
the entry's digest and has the entry's permissions. -/
def AuthenticRestore (E : Externals) (hmacKey : Bytes) (w : World) (d : Loc) (node : Option Node) :
    Prop :=
  ∃ entry bytes, w.Recorded hmacKey entry ∧ hexEncode (E.sha256 bytes) = entry.sha256 ∧
    (∃ t, (UnixPath.ofString entry.path).locateFile t w.process.cwd = .ok d) ∧
    node = some (.file bytes entry.mode)

/-- The effect of writing one of the two state files of a backup directory. -/
def StateWrite (backupDir : UnixPath) (s d : Loc) : Prop :=
  StateTemp s ∧ ∃ w : World,
    w.locate (backupDir.join (.ofString "rollback_counters.json")) = .ok d ∨
      w.locate (backupDir.join (.ofString "blacklist.json")) = .ok d

/-- Rollback restores only authenticated bytes, whatever the files hold and however it ends: apart
from its own state files, each file it renames into place is a restore of a recorded entry. -/
theorem rollback_authentic (hw : History E w) {hmacKey : Bytes} (hforge : w.Unforged E hmacKey)
    (version : String) (backupDir : UnixPath) (audit : AuditLogger) (s d : Loc)
    (node : Option Node) (hrename : .renamed s d node ∈
      (Comp.after (rollback E version backupDir hmacKey audit) w).trace.drop w.trace.length) :
    StateWrite backupDir s d ∨ AuthenticRestore E hmacKey w d node := by
  have hev : World.Evolves (fun e => ∀ s d node, e = .renamed s d node →
      StateWrite backupDir s d ∨ AuthenticRestore E hmacKey w d node) w
      (Comp.after (rollback E version backupDir hmacKey audit) w) := by
    refine rollback_evolves ?_ ?_ ?_
    · rintro _ he s d node rfl
      exact .inl he
    · rintro _ _ _ _ ⟨⟩
    · rintro m w₁ hm entry he s d t bytes hd hsum _ _ _ ⟨⟩
      exact .inr ⟨entry, bytes, loadSnapshot_recorded hw hforge hm entry he, hsum, ⟨t, hd⟩, rfl⟩
  obtain ⟨new, hnew, hQ⟩ := hev.trace
  rw [hnew, List.drop_left] at hrename
  exact hQ _ hrename s d node rfl

end

/-! ## A snapshot and its rollback -/

/-- Whether every manifest in a file has a text that was tagged under the key. -/
def World.unforged? (E : Externals) (hmacKey : Bytes) (w : World) : Bool :=
  w.files.nodes.entries.all fun e =>
    match e.2 with
    | .dir => true
    | .file bytes _ =>
      match fromSlice E SnapshotManifest.read bytes with
      | .error _ => true
      | .ok m =>
        w.issued.any fun i => i.key == hmacKey && encodeUtf8 (canonicalJsonSorted i.record) ==
          encodeUtf8 (canonicalJsonSorted (unsignedManifest m.version m.createdAt m.files))

theorem World.Unforged.of_check {E : Externals} {hmacKey : Bytes} {w : World}
    (h : w.unforged? E hmacKey = true) : w.Unforged E hmacKey := by
  intro l bytes mode m hl hm _
  have hmem := FileTree.mem_entries_of_get (by rintro rfl; cases hl) hl
  have := List.all_eq_true.1 h _ hmem
  simp only [hm, List.any_eq_true, Bool.and_eq_true, beq_iff_eq] at this
  exact this

/-- The snapshot's manifest was tagged and its rollback returns, evaluated once. -/
theorem snapshotTaken_authentic : snapshotTaken.unforged? .running [7] = true ∧
    Comp.returned (rollback .running "1.0.0" (.ofString "/backup")
      [7] ⟨[], ""⟩ snapshotTaken) = true := by
  decide +kernel

theorem rollback_authentic_snapshotTaken :
    Comp.returned (rollback .running "1.0.0" (.ofString "/backup") [7] ⟨[], ""⟩ snapshotTaken) ∧
      ∀ s d node, .renamed s d node ∈ (Comp.after
        (rollback .running "1.0.0" (.ofString "/backup") [7]
          ⟨[], ""⟩) snapshotTaken).trace.drop snapshotTaken.trace.length →
        StateWrite (.ofString "/backup") s d ∨ AuthenticRestore .running [7] snapshotTaken d node :=
  ⟨snapshotTaken_authentic.2, rollback_authentic (.takeSnapshot _ _ _ _ (.start rfl))
    (.of_check snapshotTaken_authentic.1) "1.0.0" (.ofString "/backup") ⟨[], ""⟩⟩

end Synqro
