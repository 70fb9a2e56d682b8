import Synqro.World

/-!
# The audit log

`src/audit.rs`: the events, their names and severities, and `AuditLogger.log`, which appends one
line with its tag under the advisory lock. Linux build: the lock is taken and released around the
write.
-/

namespace Synqro

/-- Canonical string representation persisted in the log. -/
def AuditEvent.asStr : AuditEvent → String
  | .SynqroInit => "SYNQRO_INIT"
  | .UpdateCheckStarted => "UPDATE_CHECK_STARTED"
  | .UpdateAvailable => "UPDATE_AVAILABLE"
  | .ManifestSignatureOk => "MANIFEST_SIGNATURE_OK"
  | .ManifestSignatureFail => "MANIFEST_SIGNATURE_FAIL"
  | .PayloadHashOk => "PAYLOAD_HASH_OK"
  | .PayloadHashFail => "PAYLOAD_HASH_FAIL"
  | .PayloadSignatureFail => "PAYLOAD_SIGNATURE_FAIL"
  | .UpdateApplied => "UPDATE_APPLIED"
  | .HealthCheckFail => "HEALTH_CHECK_FAIL"
  | .RollbackTriggered => "ROLLBACK_TRIGGERED"
  | .RollbackSuccess => "ROLLBACK_SUCCESS"
  | .RollbackFailed => "ROLLBACK_FAILED"
  | .BackupTampered => "BACKUP_TAMPERED"
  | .VersionBlacklisted => "VERSION_BLACKLISTED"
  | .CrashReportSent => "CRASH_REPORT_SENT"
  | .CrashReportRateLimited => "CRASH_REPORT_RATE_LIMITED"
  | .CertPinMismatch => "CERT_PIN_MISMATCH"
  | .TokenLoadFail => "TOKEN_LOAD_FAIL"
  | .DegradedModeEntered => "DEGRADED_MODE_ENTERED"

/-- The characters of `char::to_uppercase`, as far as they are ASCII; the image of any other
character outside ASCII has a character outside ASCII. -/
def uppercase : Char → List Char
  | 'ß' => ['S', 'S']
  | 'ı' => ['I']
  | 'ſ' => ['S']
  | 'ﬀ' => ['F', 'F']
  | 'ﬁ' => ['F', 'I']
  | 'ﬂ' => ['F', 'L']
  | 'ﬃ' => ['F', 'F', 'I']
  | 'ﬄ' => ['F', 'F', 'L']
  | 'ﬅ' => ['S', 'T']
  | 'ﬆ' => ['S', 'T']
  | c => [c.toUpper]

/-- Parse from the string representation used in the log, in any case. -/
def AuditEvent.fromStr (s : String) : Option AuditEvent :=
  match String.ofList (s.toList.flatMap uppercase) with
  | "SYNQRO_INIT" => some .SynqroInit
  | "UPDATE_CHECK_STARTED" => some .UpdateCheckStarted
  | "UPDATE_AVAILABLE" => some .UpdateAvailable
  | "MANIFEST_SIGNATURE_OK" => some .ManifestSignatureOk
  | "MANIFEST_SIGNATURE_FAIL" => some .ManifestSignatureFail
  | "PAYLOAD_HASH_OK" => some .PayloadHashOk
  | "PAYLOAD_HASH_FAIL" => some .PayloadHashFail
  | "PAYLOAD_SIGNATURE_FAIL" => some .PayloadSignatureFail
  | "UPDATE_APPLIED" => some .UpdateApplied
  | "HEALTH_CHECK_FAIL" => some .HealthCheckFail
  | "ROLLBACK_TRIGGERED" => some .RollbackTriggered
  | "ROLLBACK_SUCCESS" => some .RollbackSuccess
  | "ROLLBACK_FAILED" => some .RollbackFailed
  | "BACKUP_TAMPERED" => some .BackupTampered
  | "VERSION_BLACKLISTED" => some .VersionBlacklisted
  | "CRASH_REPORT_SENT" => some .CrashReportSent
  | "CRASH_REPORT_RATE_LIMITED" => some .CrashReportRateLimited
  | "CERT_PIN_MISMATCH" => some .CertPinMismatch
  | "TOKEN_LOAD_FAIL" => some .TokenLoadFail
  | "DEGRADED_MODE_ENTERED" => some .DegradedModeEntered
  | _ => none

/-- Severity classification for audit events. -/
inductive AuditSeverity where
  | Info
  | Warn
  | Critical

def AuditSeverity.asStr : AuditSeverity → String
  | .Info => "INFO"
  | .Warn => "WARN"
  | .Critical => "CRITICAL"

/-- Severity level of an event. -/
def AuditEvent.severity : AuditEvent → AuditSeverity
  | .SynqroInit | .UpdateCheckStarted | .UpdateAvailable | .ManifestSignatureOk | .PayloadHashOk
  | .UpdateApplied | .RollbackSuccess | .CrashReportSent | .CrashReportRateLimited => .Info
  | .HealthCheckFail | .RollbackTriggered | .VersionBlacklisted | .DegradedModeEntered => .Warn
  | .ManifestSignatureFail | .PayloadHashFail | .PayloadSignatureFail | .RollbackFailed
  | .BackupTampered | .CertPinMismatch | .TokenLoadFail => .Critical

/-- Tamper-evident, append-only logger; its open file is the world's `auditFile`. -/
structure AuditLogger where
  hmacKey : Bytes
  installationId : String

section
variable (E : Externals)

/-- `compute_hmac`: the tag in hexadecimal; a key of any length is accepted. -/
def computeHmac (key data : Bytes) : String := hexEncode (E.hmacSha256 key data)

namespace AuditLogger

/-- `nix::fcntl::flock` on the log file. -/
def flock (lock : Bool) : Comp World IoError Unit :=
  call (modify fun w => w.setAuditFile { w.auditFile with locked := lock }) fun _ => pure ()

/-- `write_all` on the log file, opened for appending. -/
def writeAll (bytes : Bytes) : Comp World IoError Unit :=
  let append (b : Bytes) : Comp World IoError Unit :=
    modify fun w => w.setAuditFile { w.auditFile with bytes := w.auditFile.bytes ++ b }
  call (append bytes) fun done => append (bytes.take done)

/-- The fields of a line without its tag. -/
def payload (logger : AuditLogger) (ts : String) (event : AuditEvent) (data : Json) : Json :=
  jsonObject [("ts", .str ts), ("event", .str event.asStr), ("severity", .str event.severity.asStr),
    ("installation_id", .str logger.installationId), ("data", data)]

/-- The members of an object. -/
def members : Json → Json.Members
  | .obj ms => ms
  | _ => []

/-- Append a signed log line for `event` with associated `data`. -/
def log (logger : AuditLogger) (event : AuditEvent) (data : Json) : M Unit := do
  let ts := E.toRfc3339 (← now)
  let payload := logger.payload ts event data
  let lineHmac := computeHmac E logger.hmacKey (encodeUtf8 (canonicalJsonSorted payload))
  issue ⟨.log, logger.hmacKey, payload⟩
  let lineObj := Json.insertMember "line_hmac" (.str lineHmac) (members payload)
  let lineBytes := encodeUtf8 (toJsonString (.obj lineObj)) ++ [10]
  Comp.mapErr (fun e => .Permission s!"flock failed: {e.display}") (flock true)
  Comp.mapErr (fun e => .Internal s!"Audit log write failed: {e.display}") (writeAll lineBytes)
  emit (.logged event data)
  Comp.ignore (flock false)
  Comp.mapErr (fun e => .Internal s!"Audit log flush failed: {e.display}") bareCall

end AuditLogger

end

end Synqro
