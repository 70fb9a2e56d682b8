import Synqro.Snapshot

/-!
# Rollback

`src/rollback.rs`: `rollback` with its restore loop, the rollback counters, the blacklist and
`write_json_atomic`.
-/

namespace Synqro

section
variable (E : Externals)

/-! ## State files -/

/-- `timestamp_nanos_opt().unwrap_or(0)`. -/
def timestampNanos (t : Int) : Int := if -2 ^ 63 ≤ t ∧ t < 2 ^ 63 then t else 0

/-- The decimal text of an integer. -/
def decimal (t : Int) : List Char :=
  if t < 0 then '-' :: Nat.toDigits 10 t.natAbs else Nat.toDigits 10 t.natAbs

/-- The name of a temporary file for a state file. -/
def tempName (nanos : Int) : String :=
  String.ofList (".synqro_tmp_".toList ++ decimal nanos ++ ".json".toList)

theorem slash_notMem_decimal (t : Int) : '/' ∉ decimal t := by
  have hdigits (n : Nat) : '/' ∉ Nat.toDigits 10 n := by
    intro h
    have := Nat.isDigit_of_mem_toDigits (by decide) (by decide) h
    exact absurd this (by decide)
  unfold decimal
  split
  · rw [List.mem_cons]
    rintro (h | h)
    · exact absurd h (by decide)
    · exact hdigits _ h
  · exact hdigits _

theorem tempName_toList (nanos : Int) :
    (tempName nanos).toList = '.' :: 's' ::
    ("ynqro_tmp_".toList ++ decimal nanos ++ ".json".toList) := by
  have hfront : ".synqro_tmp_".toList = '.' :: 's' :: "ynqro_tmp_".toList := by simp
  unfold tempName
  exact String.toList_ofList.trans (by rw [hfront]; rfl)

theorem tempName_plain (nanos : Int) :
    tempName nanos ≠ "" ∧ tempName nanos ≠ "." ∧ tempName nanos ≠ ".." ∧
      '/' ∉ (tempName nanos).toList := by
  simp only [Ne, ← String.toList_inj, tempName_toList]
  generalize hd : decimal nanos = ds
  have hslash : '/' ∉ ds := hd ▸ slash_notMem_decimal nanos
  simp [hslash]

/-- The name of a temporary file, as a file name. -/
def tempFileName (nanos : Int) : FileName := ⟨tempName nanos, tempName_plain nanos⟩

@[simp] theorem ofString_tempName (nanos : Int) :
    UnixPath.ofString (tempName nanos) = .ofName (tempFileName nanos) :=
  UnixPath.ofString_text (tempFileName nanos)

/-- Write `value` to `path` atomically: write temp → fsync → rename. -/
def writeJsonAtomic (path : UnixPath) (value : Json) : M Unit := do
  let parent := path.parent.getD (.ofString ".")
  let tempPath := parent.join (.ofString (tempName (timestampNanos (← now))))
  let jsonBytes := toVecPretty value
  let tempFile ← Comp.mapErr (fun e => .Permission s!"Cannot create temp file: {e.display}")
    (fs.create tempPath)
  Comp.mapErr (fun e => .Internal s!"Temp file write failed: {e.display}")
    (fs.writeAll tempFile jsonBytes)
  Comp.mapErr (fun e => .Internal s!"Temp file flush failed: {e.display}") bareCall
  Comp.mapErr (fun e => .Internal s!"Temp file fsync failed: {e.display}") bareCall
  Comp.onError (fs.rename tempPath path) fun e => do
    Comp.ignore (fs.removeFile tempPath)
    return .Permission s!"Atomic rename failed: {e.display}"

/-- `Value::as_u64` of a counter, narrowed to 32 bits; anything else counts as zero. -/
def counterValue (v : Option Json) : UInt32 :=
  match v with
  | some (.num (.posInt n)) => n.toUInt32
  | _ => 0

/-- A map read from JSON: the last of repeated keys wins. -/
def readMap : Json → Option Json.Members
  | .obj ms => some (AuditLogger.members (Json.value (.obj ms)))
  | _ => none

/-- `serde_json::from_slice` for an untyped map or value. -/
def fromSliceValue {α : Type} (read : Json → Option α) (bytes : Bytes) : Except String α :=
  match E.refusesValue bytes with
  | some e => .error e
  | none => fromSlice E read bytes

/-- Increment the rollback counter for `version` and return the new count. -/
def incrementRollbackCounter (version : String) (path : UnixPath) : M UInt32 := do
  let counters : Json.Members ←
    if ← fs.pathExists path then do
      let bytes ← Comp.mapErr (fun e => .Internal s!"Cannot read rollback counters: {e.display}")
        (fs.read path)
      Comp.ofExcept <| (fromSliceValue E readMap bytes).mapError fun e =>
        .Internal s!"Rollback counters JSON parse error: {e}"
    else pure []
  let next := saturatingSucc (counterValue (Json.find version counters))
  writeJsonAtomic path (.obj (Json.insertMember version (jsonU32 next) counters))
  return next

/-! ## The blacklist -/

def loadBlacklistRaw (path : UnixPath) (hmacKey : Bytes) : M Blacklist := do
  let bytes ← Comp.mapErr (fun e => .Permission s!"Cannot read blacklist: {e.display}")
    (fs.read path)
  let bl ← Comp.ofExcept <| (fromSlice E Blacklist.read bytes).mapError fun e =>
    .InvalidInput s!"Blacklist is not valid JSON: {e}"
  let sorted := bl.blacklisted.insertionSort (· ≤ ·)
  let expected := computeHmac E hmacKey
    (encodeUtf8 (canonicalJsonSorted (unsignedBlacklist sorted)))
  if !constantTimeEq (utf8 expected) (utf8 bl.listHmac) then
    throw (.Crypto "Blacklist HMAC invalid — file may have been tampered with")
  else return bl

/-- Add `version` to the HMAC-signed blacklist and emit `VERSION_BLACKLISTED`. -/
def blacklistVersion (version : String) (blacklistPath : UnixPath) (hmacKey : Bytes)
    (audit : AuditLogger) : M Unit := do
  let loaded ← Comp.outcome (loadBlacklistRaw E blacklistPath hmacKey)
  let old := match loaded with
    | .ok bl => bl.blacklisted
    | .error _ => []
  let blacklisted :=
    if version ∈ old then old else (old ++ [version]).insertionSort (· ≤ ·)
  let unsigned := unsignedBlacklist blacklisted
  let listHmac := computeHmac E hmacKey (encodeUtf8 (canonicalJsonSorted unsigned))
  issue ⟨.blacklistVersion, hmacKey, unsigned⟩
  writeJsonAtomic blacklistPath (Blacklist.toJson { blacklisted, listHmac })
  emit (.blacklisted version)
  audit.log E .VersionBlacklisted (jsonObject [("version", .str version)])

/-- Whether `version` appears in the HMAC-verified blacklist; an unreadable file counts as
missing. -/
def isBlacklisted (version : String) (blacklistPath : UnixPath) (hmacKey : Bytes) : M Bool := do
  match ← Comp.outcome (loadBlacklistRaw E blacklistPath hmacKey) with
  | .ok bl => return bl.blacklisted.any (· == version)
  | .error (.Permission _) => return false
  | .error e => throw e

/-! ## `rollback` -/

/-- The extension of the temporary sibling of a restored file. -/
def restoreExtension : FileName := ⟨"synqro_restore.tmp", by decide⟩

/-- Step 2: read one backup file and verify its digest. -/
def verifyBackupFile (version : String) (canonicalBackup : UnixPath) (audit : AuditLogger)
    (entry : FileEntry) : M Bytes := do
  let backupFile := canonicalBackup.join (.ofString entry.path)
  Comp.ofExcept (assertPathUnderParent backupFile canonicalBackup)
  let backupBytes ← Comp.mapErr
    (fun e => .Rollback s!"Cannot read backup file `{entry.path}`: {e.display}")
    (fs.read backupFile)
  let actualSha256 := hexEncode (E.sha256 backupBytes)
  if !constantTimeEq (utf8 actualSha256) (utf8 entry.sha256) then
    Comp.ignore <| audit.log E .BackupTampered <| jsonObject [("version", .str version),
      ("file", .str entry.path), ("expected", .str entry.sha256), ("actual", .str actualSha256)]
    throw (.Rollback s!"Backup file `{entry.path}` SHA-256 mismatch — backup tampered")
  else return backupBytes

/-- Ensure that the directory of a destination exists. -/
def ensureParent (entry : FileEntry) (dest : UnixPath) : M Unit :=
  match dest.parent with
  | some parent =>
    if parent.IsEmpty then pure ()
    else Comp.mapErr
      (fun e => .Permission s!"Cannot create parent dir for `{entry.path}`: {e.display}")
      (fs.createDirAll parent)
  | none => pure ()

/-- Write to a temp file next to the destination, then rename. -/
def replaceFile (entry : FileEntry) (dest : UnixPath) (backupBytes : Bytes) : M Unit := do
  let tempDest := dest.withExtension restoreExtension
  Comp.mapErr (fun e => .Rollback s!"Cannot write restore temp for `{entry.path}`: {e.display}")
    (fs.write tempDest backupBytes)
  Comp.mapErr (fun e => .Permission s!"Cannot set permissions on `{entry.path}`: {e.display}")
    (fs.setPermissions tempDest entry.permissions)
  Comp.onError (fs.rename tempDest dest) fun e => do
    Comp.ignore (fs.removeFile tempDest)
    return .Rollback s!"Atomic rename failed for `{entry.path}`: {e.display}"

/-- Verify one backup file and restore it, relative to the working directory. -/
def restoreFile (version : String) (canonicalBackup : UnixPath) (audit : AuditLogger)
    (entry : FileEntry) : M Unit := do
  let backupBytes ← verifyBackupFile E version canonicalBackup audit entry
  let dest := UnixPath.ofString entry.path
  ensureParent entry dest
  replaceFile entry dest backupBytes

/-- The loop over the entries. -/
def restoreFiles (version : String) (canonicalBackup : UnixPath) (audit : AuditLogger) :
    List FileEntry → M Unit
  | [] => return
  | entry :: entries => do
    restoreFile E version canonicalBackup audit entry
    restoreFiles version canonicalBackup audit entries

/-- Load the snapshot manifest of a version directory and verify its tag. -/
def loadSnapshot (version : String) (versionDir : UnixPath) (hmacKey : Bytes)
    (audit : AuditLogger) : M SnapshotManifest := do
  let snapshotPath := versionDir.join (.ofString "snapshot.json")
  let snapshotBytes ← Comp.mapErr (fun e => .Rollback s!"Cannot read snapshot.json: {e.display}")
    (fs.read snapshotPath)
  let manifest ← Comp.ofExcept <|
    (fromSlice E SnapshotManifest.read snapshotBytes).mapError fun e =>
    .Rollback s!"Snapshot.json is not valid JSON: {e}"
  let unsigned := unsignedManifest manifest.version manifest.createdAt manifest.files
  let expectedHmac := computeHmac E hmacKey (encodeUtf8 (canonicalJsonSorted unsigned))
  if !constantTimeEq (utf8 expectedHmac) (utf8 manifest.manifestHmac) then
    Comp.ignore (audit.log E .BackupTampered (jsonObject [("version", .str version)]))
    throw (.Rollback "Snapshot HMAC invalid — rollback aborted (backup tampered)")
  else return manifest

/-- Steps 4 and 5: log the rollback, count it and blacklist the version at the third. -/
def finishRollback (version : String) (backupDir : UnixPath) (hmacKey : Bytes)
    (audit : AuditLogger) (fileCount : Nat) : M Unit := do
  let ts := E.toRfc3339 (← now)
  audit.log E .RollbackSuccess <| jsonObject [("version", .str version),
    ("file_count", jsonLen fileCount), ("ts", .str ts)]
  let counterPath := backupDir.join (.ofString "rollback_counters.json")
  let newCount ← incrementRollbackCounter E version counterPath
  if 3 ≤ newCount then
    let blacklistPath := backupDir.join (.ofString "blacklist.json")
    blacklistVersion E version blacklistPath hmacKey audit
  else return

/-- Restore the application from the backup snapshot for `version`. -/
def rollback (version : String) (backupDir : UnixPath) (hmacKey : Bytes) (audit : AuditLogger) :
    M Unit := do
  let versionDir := backupDir.join (.ofString s!"v{version}")
  let manifest ← loadSnapshot E version versionDir hmacKey audit
  let canonicalBackup ← Comp.mapErr
    (fun e => .Permission s!"Cannot canonicalize backup dir: {e.display}")
    (fs.canonicalize versionDir)
  restoreFiles E version canonicalBackup audit manifest.files
  finishRollback E version backupDir hmacKey audit manifest.files.length

end

end Synqro
