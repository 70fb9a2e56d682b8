import Synqro.Lib.JsonDecode
import Synqro.Audit

/-!
# Snapshots

The data of `src/rollback.rs` (`FileEntry`, `SnapshotManifest`, `Blacklist`) with its JSON form,
and `take_snapshot`.
-/

namespace Synqro

/-- Metadata record for one file included in a snapshot. -/
structure FileEntry where
  path : String
  sha256 : String
  permissions : UInt32
  sizeBytes : UInt64
deriving DecidableEq

/-- The permission bits that a restore gives the file. -/
def FileEntry.mode (e : FileEntry) : Mode := Fin.ofNat 4096 e.permissions.toNat

/-- The signed snapshot manifest. -/
structure SnapshotManifest where
  version : String
  createdAt : String
  files : List FileEntry
  manifestHmac : String
deriving DecidableEq

/-- Signed version blacklist. -/
structure Blacklist where
  blacklisted : List String
  listHmac : String
deriving DecidableEq

/-! ## JSON forms -/

def FileEntry.toJson (e : FileEntry) : Json :=
  .obj [("path", .str e.path), ("sha256", .str e.sha256), ("permissions", jsonU32 e.permissions),
    ("size_bytes", .num (.posInt e.sizeBytes))]

def FileEntry.read (j : Json) : Option FileEntry := do
  match ← Json.structFields
    [⟨"path", false⟩, ⟨"sha256", false⟩, ⟨"permissions", false⟩, ⟨"size_bytes", false⟩] j with
  | [path, sha256, permissions, sizeBytes] =>
    return {
      path := ← Json.readString path
      sha256 := ← Json.readString sha256
      permissions := ← Json.readU32 permissions
      sizeBytes := ← Json.readU64 sizeBytes }
  | _ => none

def SnapshotManifest.toJson (m : SnapshotManifest) : Json :=
  .obj [("version", .str m.version), ("created_at", .str m.createdAt),
    ("files", .arr (m.files.map FileEntry.toJson)), ("manifest_hmac", .str m.manifestHmac)]

def SnapshotManifest.read (j : Json) : Option SnapshotManifest := do
  match ← Json.structFields
    [⟨"version", false⟩, ⟨"created_at", false⟩, ⟨"files", false⟩, ⟨"manifest_hmac", false⟩] j with
  | [version, createdAt, files, manifestHmac] =>
    return {
      version := ← Json.readString version
      createdAt := ← Json.readString createdAt
      files := ← Json.readVec FileEntry.read files
      manifestHmac := ← Json.readString manifestHmac }
  | _ => none

/-- The payload that a manifest's tag covers. -/
def unsignedManifest (version createdAt : String) (files : List FileEntry) : Json :=
  jsonObject [("version", .str version), ("created_at", .str createdAt),
    ("files", .arr (files.map FileEntry.toJson))]

def Blacklist.toJson (b : Blacklist) : Json :=
  .obj [("blacklisted", .arr (b.blacklisted.map .str)), ("list_hmac", .str b.listHmac)]

def Blacklist.read (j : Json) : Option Blacklist := do
  match ← Json.structFields [⟨"blacklisted", false⟩, ⟨"list_hmac", false⟩] j with
  | [blacklisted, listHmac] =>
    return {
      blacklisted := ← Json.readVec Json.readString blacklisted
      listHmac := ← Json.readString listHmac }
  | _ => none

/-- The payload that a blacklist's tag covers. -/
def unsignedBlacklist (blacklisted : List String) : Json :=
  jsonObject [("blacklisted", .arr (blacklisted.map .str))]

/-! ## What the forms determine -/

@[simp] theorem FileEntry.read_toJson (e : FileEntry) : FileEntry.read e.toJson = some e := by
  obtain ⟨path, sha256, permissions, sizeBytes⟩ := e
  have hfields : Json.structFields
      [⟨"path", false⟩, ⟨"sha256", false⟩, ⟨"permissions", false⟩, ⟨"size_bytes", false⟩]
      (FileEntry.toJson ⟨path, sha256, permissions, sizeBytes⟩) =
        some [.str path, .str sha256, jsonU32 permissions, .num (.posInt sizeBytes)] := rfl
  have hlt : permissions.toNat < 4294967296 := permissions.toNat_lt
  simp [FileEntry.read, hfields, Json.readString, Json.readU32, Json.readU64, jsonU32, hlt]

theorem FileEntry.stable_read : Json.Stable FileEntry.read := by
  intro j e h
  simp only [FileEntry.read, Option.bind_eq_bind, Option.bind_eq_some_iff] at h
  obtain ⟨vs, hvs, h⟩ := h
  simp only [FileEntry.read, Json.structFields_value hvs]
  split at h
  · simp only [Option.bind_eq_some_iff, Option.pure_def, Option.some.injEq] at h
    obtain ⟨path, h1, sha256, h2, permissions, h3, sizeBytes, h4, rfl⟩ := h
    simp [Json.stable_readString _ _ h1, Json.stable_readString _ _ h2,
      Json.stable_readU32 _ _ h3, Json.stable_readU64 _ _ h4]
  · cases h

@[simp] theorem SnapshotManifest.read_toJson (m : SnapshotManifest) :
    SnapshotManifest.read m.toJson = some m := by
  obtain ⟨version, createdAt, files, manifestHmac⟩ := m
  have hfields : Json.structFields
      [⟨"version", false⟩, ⟨"created_at", false⟩, ⟨"files", false⟩, ⟨"manifest_hmac", false⟩]
      (SnapshotManifest.toJson ⟨version, createdAt, files, manifestHmac⟩) =
        some [.str version, .str createdAt, .arr (files.map FileEntry.toJson),
          .str manifestHmac] := rfl
  simp [SnapshotManifest.read, hfields, Json.readString,
    Json.readVec_map FileEntry.read_toJson]

/-- A manifest's tree is three levels deep. -/
theorem SnapshotManifest.nesting_toJson (m : SnapshotManifest) : m.toJson.nesting ≤ 3 := by
  have hfiles : Json.nestingList (m.files.map FileEntry.toJson) ≤ 1 := by
    induction m.files with
    | nil => simp [Json.nestingList]
    | cons e es ih =>
      rw [List.map_cons, Json.nestingList]
      exact max_le le_rfl ih
  simp only [SnapshotManifest.toJson, Json.nesting, Json.nestingMembers]
  omega

/-- A member of an object. -/
def memberOf (key : String) : Json → Option Json
  | .obj ms => Json.find key ms
  | _ => none

/-- The tagged payload determines the manifest's version, date and entries. -/
theorem unsignedManifest_inj {version version' createdAt createdAt' : String}
    {files files' : List FileEntry}
    (h : unsignedManifest version createdAt files = unsignedManifest version' createdAt' files') :
    version = version' ∧ createdAt = createdAt' ∧ files = files' := by
  have hversion := congrArg (memberOf "version") h
  have hdate := congrArg (memberOf "created_at") h
  have hfiles := congrArg (memberOf "files") h
  simp [memberOf, unsignedManifest, jsonObject, Json.ofMembers,
    Json.find_insertMember] at hversion hdate hfiles
  have hread := congrArg (fun js => Json.readVec FileEntry.read (.arr js)) hfiles
  have hback (e : FileEntry) : FileEntry.read ((Json.value ∘ FileEntry.toJson) e) = some e :=
    FileEntry.stable_read _ _ e.read_toJson
  simp only [Json.readVec_map hback] at hread
  exact ⟨hversion, hdate, Option.some.inj hread⟩

/-- A blacklist's payload is no manifest's. -/
theorem unsignedManifest_ne_unsignedBlacklist (version createdAt : String) (files : List FileEntry)
    (blacklisted : List String) :
    unsignedManifest version createdAt files ≠ unsignedBlacklist blacklisted := by
  intro h
  have hversion := congrArg (memberOf "version") h
  simp [memberOf, unsignedManifest, unsignedBlacklist, jsonObject, Json.ofMembers,
    Json.find_insertMember] at hversion

/-- An audit line's payload, of whatever event, is no manifest's. -/
theorem unsignedManifest_ne_payload (version createdAt : String) (files : List FileEntry)
    (ts event severity installationId : String) (data : Json) :
    unsignedManifest version createdAt files ≠ jsonObject [("ts", .str ts), ("event", .str event),
      ("severity", .str severity), ("installation_id", .str installationId), ("data", data)] := by
  intro h
  have hversion := congrArg (memberOf "version") h
  simp [memberOf, unsignedManifest, jsonObject, Json.ofMembers, Json.find_insertMember] at hversion

section
variable (E : Externals)

/-- `serde_json::from_slice` for a type with the reader `read`. -/
def fromSlice {α : Type} (read : Json → Option α) (bytes : Bytes) : Except String α :=
  match E.parseJson bytes with
  | .error e => .error e
  | .ok j =>
    match read j with
    | some a => .ok a
    | none => .error (E.shapeError bytes)

/-! ## `take_snapshot` -/

/-- Verify that `path` is inside `parent` and does not leave it. -/
def assertPathUnderParent (path parent : UnixPath) : Except SynqroError Unit :=
  match path.stripPrefix parent with
  | none =>
    .error (.InvalidInput s!"Path traversal detected: {path.debug} is not under {parent.debug}")
  | some relative =>
    if .parentDir ∈ relative.components then
      .error (.InvalidInput "Path traversal: `..` component detected in relative path")
    else .ok ()

/-- Copy one target into the version directory and describe the copy. -/
def snapshotFile (canonicalBackup srcPath : UnixPath) : M FileEntry := do
  let canonicalSrc ← Comp.mapErr
    (fun e => .Permission s!"Cannot canonicalize source path: {e.display}")
    (fs.canonicalize srcPath)
  let fileName ← Comp.ofExcept <| match canonicalSrc.fileName with
    | some n => .ok n
    | none => .error (.InvalidInput "Source path has no file name")
  let destPath := canonicalBackup.join (.ofName fileName)
  Comp.ofExcept (assertPathUnderParent destPath canonicalBackup)
  let fileBytes ← Comp.mapErr (fun e => .Permission s!"Cannot read source file: {e.display}")
    (fs.read canonicalSrc)
  let permissions ← Comp.mapErr (fun e => .Permission s!"Cannot stat file: {e.display}")
    (fs.metadataMode canonicalSrc)
  Comp.mapErr (fun e => .Permission s!"Cannot write backup file: {e.display}")
    (fs.write destPath fileBytes)
  return {
    path := fileName.text
    sha256 := hexEncode (E.sha256 fileBytes)
    permissions
    sizeBytes := UInt64.ofNat fileBytes.length }

/-- The loop over the targets. -/
def snapshotFiles (canonicalBackup : UnixPath) : List UnixPath → M (List FileEntry)
  | [] => return []
  | srcPath :: srcPaths => do
    let entry ← snapshotFile E canonicalBackup srcPath
    let entries ← snapshotFiles canonicalBackup srcPaths
    return entry :: entries

/-- Take a pre-update snapshot of `targetPaths` into `backupDir`. -/
def takeSnapshot (version : String) (targetPaths : List UnixPath) (backupDir : UnixPath)
    (hmacKey : Bytes) : M Unit := do
  Comp.mapErr (fun e => .Permission s!"Cannot create backup dir: {e.display}")
    (fs.createDirAll backupDir)
  let versionDir := backupDir.join (.ofString s!"v{version}")
  Comp.mapErr (fun e => .Permission s!"Cannot create version backup dir: {e.display}")
    (fs.createDirAll versionDir)
  let canonicalBackup ← Comp.mapErr
    (fun e => .Permission s!"Cannot canonicalize backup dir: {e.display}")
    (fs.canonicalize versionDir)
  let fileEntries ← snapshotFiles E canonicalBackup targetPaths
  let createdAt := E.toRfc3339 (← now)
  let unsigned := unsignedManifest version createdAt fileEntries
  let manifestHmac := computeHmac E hmacKey (encodeUtf8 (canonicalJsonSorted unsigned))
  issue ⟨.takeSnapshot, hmacKey, unsigned⟩
  let manifest : SnapshotManifest := { version, createdAt, files := fileEntries, manifestHmac }
  let manifestPath := canonicalBackup.join (.ofString "snapshot.json")
  Comp.mapErr (fun e => .Permission s!"Cannot write snapshot.json: {e.display}")
    (fs.write manifestPath (toVecPretty manifest.toJson))

end

end Synqro
