import Synqro.Lib.Lines
import Synqro.Calls
import Synqro.Snapshot

/-!
# The verification of the audit log

The reading side of `src/audit.rs`: `AuditLogLine` and `verify_log`, which takes a file line by
line, and what it means that a line is accepted. `AuditLogger.verifyLog_ok` says that a file passes
exactly when each of its lines does.
-/

namespace Synqro

/-- A single line in the JSONL audit log. -/
structure AuditLogLine where
  ts : String
  event : String
  severity : String
  installationId : String
  data : Json
  lineHmac : String

namespace AuditLogLine

def fields : List Json.Field :=
  [⟨"ts", false⟩, ⟨"event", false⟩, ⟨"severity", false⟩, ⟨"installation_id", false⟩,
    ⟨"data", false⟩, ⟨"line_hmac", false⟩]

def read (j : Json) : Option AuditLogLine := do
  match ← Json.structFields fields j with
  | [ts, event, severity, installationId, data, lineHmac] =>
    return {
      ts := ← Json.readString ts
      event := ← Json.readString event
      severity := ← Json.readString severity
      installationId := ← Json.readString installationId
      data := Json.value data
      lineHmac := ← Json.readString lineHmac }
  | _ => none

/-- The payload without `line_hmac`. -/
def payload (l : AuditLogLine) : Json :=
  jsonObject [("ts", .str l.ts), ("event", .str l.event), ("severity", .str l.severity),
    ("installation_id", .str l.installationId), ("data", l.data)]

end AuditLogLine

/-- The characters with the property `White_Space`. -/
def isWhitespace (c : Char) : Bool :=
  (9 ≤ c.toNat && c.toNat ≤ 13) || (0x2000 ≤ c.toNat && c.toNat ≤ 0x200A) ||
    [0x20, 0x85, 0xA0, 0x1680, 0x2028, 0x2029, 0x202F, 0x205F, 0x3000].contains c.toNat

/-- `File::open`: the location stands for the open file; a directory can be opened too. -/
def fs.openFile (p : UnixPath) : Comp World IoError Loc :=
  call (onFiles fun w => Comp.query fun t => do
    let l ← p.locate t w.process.cwd
    match t.get l with
    | some .dir => return l
    | some (.file _ _) => if p.dirOnly then throw .notADirectory else return l
    | none => throw .notFound) fun _ => pure ()

section
variable (E : Externals)

/-- `usize::saturating_add(1)`. -/
def usizeSucc (n : Nat) : Nat := min (n + 1) (E.usizeRange - 1)

/-- The error of a line that could not be read. -/
def readError (lineNo : Nat) (e : IoError) : SynqroError :=
  .Internal s!"Read error at line {lineNo}: {e.display}"

namespace AuditLogger

/-- One line: whether it counts, being not blank. -/
def verifyLine (logger : AuditLogger) (lineNo : Nat) (line : Bytes) : Except SynqroError Bool :=
  match decodeUtf8? line with
  | none => .error (readError lineNo (.other "stream did not contain valid UTF-8"))
  | some text =>
    if text.all isWhitespace then .ok false
    else
      match fromSlice E AuditLogLine.read line with
      | .error e => .error (.InvalidInput s!"Line {lineNo} is not valid JSON: {e}")
      | .ok logLine =>
        let canonical := canonicalJsonSorted logLine.payload
        let expectedHmac := computeHmac E logger.hmacKey (encodeUtf8 canonical)
        if !constantTimeEq (utf8 expectedHmac) (utf8 logLine.lineHmac) then
          .error (.Crypto
            s!"HMAC mismatch on line {lineNo} — log may have been tampered with")
        else .ok true

/-- The loop over the lines; each is read from the file, and the end of the file is too. -/
def verifyLines (logger : AuditLogger) : Nat → Nat → List Bytes → M Nat
  | lineNo, validCount, [] => do
    Comp.mapErr (readError (usizeSucc E lineNo)) bareCall
    return validCount
  | lineNo, validCount, line :: lines => do
    Comp.mapErr (readError (usizeSucc E lineNo)) bareCall
    let counts ← Comp.ofExcept (logger.verifyLine E (usizeSucc E lineNo) line)
    verifyLines logger (lineNo + 1) (if counts then usizeSucc E validCount else validCount) lines

/-- Verify every line in the log file at `path`: the number of lines that are not blank. -/
def verifyLog (logger : AuditLogger) (path : UnixPath) : M Nat := do
  let file ← Comp.mapErr
    (fun e => .Permission s!"Cannot open log for verification: {e.display}") (fs.openFile path)
  match (← get).files.read file with
  | .ok bytes => logger.verifyLines E 0 0 (Lines.lines bytes)
  | .error e => do
    Comp.mapErr (readError (usizeSucc E 0)) bareCall
    throw (readError (usizeSucc E 0) e)

end AuditLogger

/-! ## Lines that are accepted -/

/-- The line's tag is that of its payload under the key. -/
def AuditLogLine.Tagged (hmacKey : Bytes) (l : AuditLogLine) : Prop :=
  computeHmac E hmacKey (encodeUtf8 (canonicalJsonSorted l.payload)) = l.lineHmac

/-- The line holds nothing but white space. -/
def isBlank (line : Bytes) : Bool := (decodeUtf8? line).any (·.all isWhitespace)

/-- The line is blank, or a JSON text with its own tag under the key. -/
def AcceptedLine (hmacKey line : Bytes) : Prop :=
  isBlank line = true ∨ (decodeUtf8? line).isSome ∧
    ∃ l, fromSlice E AuditLogLine.read line = .ok l ∧ l.Tagged E hmacKey

/-- The lines that count. -/
def countLines (ls : List Bytes) : Nat := (ls.filter fun l => !isBlank l).length

end

section
variable {E : Externals} {logger : AuditLogger} {w w' : World}

theorem fs.openFile_ok {p : UnixPath} {l : Loc} : fs.openFile p w = .ok l w' ↔
    w.Quiet ∧ (p.locate w.files w.process.cwd = .ok l ∧
      (w.files.get l = some .dir ∨ p.dirOnly = false ∧ ∃ b m, w.files.get l = some (.file b m))) ∧
      w' = w.tick := by
  simp only [fs.openFile, queryCall_ok, except_bind_ok]
  refine and_congr_right fun _ => and_congr_left fun _ => ?_
  constructor
  · rintro ⟨l', hl, h⟩
    split at h
    · next hg => cases h; exact ⟨hl, .inl hg⟩
    · next b m hg =>
      split at h
      · cases h
      · next hd => cases h; exact ⟨hl, .inr ⟨by simpa using hd, b, m, hg⟩⟩
    · cases h
  · rintro ⟨hl, hg | ⟨hd, b, m, hg⟩⟩
    · exact ⟨l, hl, by simp only [hg]; rfl⟩
    · exact ⟨l, hl, by simp only [hg, hd]; rfl⟩

/-- A line that was taken is accepted, and counts unless it is blank. -/
theorem AuditLogger.verifyLine_ok {lineNo : Nat} {line : Bytes} {counts : Bool} :
    logger.verifyLine E lineNo line = .ok counts ↔
      AcceptedLine E logger.hmacKey line ∧ counts = !isBlank line := by
  unfold AuditLogger.verifyLine AcceptedLine isBlank
  cases hd : decodeUtf8? line with
  | none => simp
  | some text =>
    cases hb : text.all isWhitespace with
    | true => simp [hb, eq_comm]
    | false =>
      cases hr : fromSlice E AuditLogLine.read line with
      | error e => simp [hb]
      | ok l =>
        by_cases ht : l.Tagged E logger.hmacKey
        · have heq : constantTimeEq (utf8 (computeHmac E logger.hmacKey
              (encodeUtf8 (canonicalJsonSorted l.payload)))) (utf8 l.lineHmac) = true :=
            constantTimeEq_iff.2 (congrArg utf8 ht)
          simp [hb, heq, ht, eq_comm]
        · have heq : constantTimeEq (utf8 (computeHmac E logger.hmacKey
              (encodeUtf8 (canonicalJsonSorted l.payload)))) (utf8 l.lineHmac) = false := by
            rw [Bool.eq_false_iff]
            exact fun h => ht (utf8_inj (constantTimeEq_iff.1 h))
          simp [hb, heq, ht]

/-- The lines are read without a fault, each is accepted, and those that count are counted. -/
theorem AuditLogger.verifyLines_ok {ls : List Bytes} {lineNo validCount n : Nat}
    (hc : validCount ≤ E.usizeRange - 1) :
    logger.verifyLines E lineNo validCount ls w = .ok n w' ↔
      w.QuietFor (ls.length + 1) ∧ (∀ l ∈ ls, AcceptedLine E logger.hmacKey l) ∧
        n = min (validCount + countLines ls) (E.usizeRange - 1) ∧
          w' = w.advance (ls.length + 1) := by
  induction ls generalizing lineNo validCount w with
  | nil =>
    simp only [verifyLines, Comp.bind_ok, Comp.mapErr_ok, bareCall_ok, Comp.pure_ok]
    constructor
    · rintro ⟨_, _, ⟨hq, rfl⟩, rfl, rfl⟩
      exact ⟨World.quietFor_succ.2 ⟨hq, World.quietFor_zero _⟩, nofun,
        (Nat.min_eq_left hc).symm, rfl⟩
    · rintro ⟨hq, -, rfl, rfl⟩
      exact ⟨(), _, ⟨(World.quietFor_succ.1 hq).1, rfl⟩, (Nat.min_eq_left hc).symm, rfl⟩
  | cons l ls ih =>
    have hadvance : w.advance (ls.length + 1 + 1) = w.tick.advance (ls.length + 1) := by
      simp only [World.advance, World.tick, Nat.add_assoc, Nat.add_comm 1]
    have hnext : (if (!isBlank l) = true then usizeSucc E validCount else validCount) ≤
        E.usizeRange - 1 := by
      unfold usizeSucc
      split <;> omega
    have hcount : min ((if (!isBlank l) = true then usizeSucc E validCount else validCount) +
        countLines ls) (E.usizeRange - 1) =
          min (validCount + countLines (l :: ls)) (E.usizeRange - 1) := by
      unfold usizeSucc countLines
      cases hb : isBlank l
      · simp [hb]
        omega
      · simp [hb]
    simp only [verifyLines, Comp.bind_ok, Comp.mapErr_ok, bareCall_ok, Comp.ofExcept_ok,
      verifyLine_ok, List.forall_mem_cons, List.length_cons, hadvance, World.quietFor_succ (w := w)]
    constructor
    · rintro ⟨_, _, ⟨hq, rfl⟩, counts, _, ⟨⟨hl, rfl⟩, rfl⟩, h⟩
      obtain ⟨hq', hls, rfl, rfl⟩ := (ih hnext).1 h
      exact ⟨⟨hq, hq'⟩, ⟨hl, hls⟩, hcount, rfl⟩
    · rintro ⟨⟨hq, hq'⟩, ⟨hl, hls⟩, rfl, rfl⟩
      exact ⟨(), _, ⟨hq, rfl⟩, _, _, ⟨⟨hl, rfl⟩, rfl⟩, (ih hnext).2 ⟨hq', hls, hcount.symm, rfl⟩⟩

/-- A file passes exactly when it is read without a fault and each of its lines is accepted. -/
theorem AuditLogger.verifyLog_ok {path : UnixPath} {n : Nat} :
    logger.verifyLog E path w = .ok n w' ↔ ∃ file bytes mode, w.locate path = .ok file ∧
      w.files.get file = some (.file bytes mode) ∧
      w.QuietFor ((Lines.lines bytes).length + 2) ∧
      (∀ l ∈ Lines.lines bytes, AcceptedLine E logger.hmacKey l) ∧
      n = min (countLines (Lines.lines bytes)) (E.usizeRange - 1) ∧
      w' = w.advance ((Lines.lines bytes).length + 2) := by
  have hadvance (k : Nat) : w.advance (k + 2) = w.tick.advance (k + 1) := by
    simp only [World.advance, World.tick, Nat.add_assoc, Nat.add_comm 1]
  simp only [verifyLog, Comp.bind_ok, Comp.mapErr_ok, fs.openFile_ok]
  constructor
  · rintro ⟨file, _, ⟨hq, ⟨hl, hf⟩, rfl⟩, _, _, hget, h⟩
    cases hget
    rcases hf with hdir | ⟨hd, bytes, mode, hfile⟩
    · have hread : w.tick.files.read file = .error .isADirectory := by
        rw [World.tick_files, FileTree.read, hdir]
      simp only [hread] at h
      obtain ⟨_, _, -, h⟩ := Comp.bind_ok.1 h
      cases h
    · have hread : w.tick.files.read file = .ok bytes := FileTree.read_ok.2 ⟨mode, hfile⟩
      simp only [hread] at h
      obtain ⟨hq', hls, rfl, rfl⟩ := (verifyLines_ok (Nat.zero_le _)).1 h
      refine ⟨file, bytes, mode, ?_, hfile, World.quietFor_succ.2 ⟨hq, hq'⟩, hls,
        by rw [Nat.zero_add], (hadvance _).symm⟩
      simp [World.locate, UnixPath.locateFile, hd, hl]
  · rintro ⟨file, bytes, mode, hl, hfile, hq, hls, rfl, rfl⟩
    obtain ⟨hq, hq'⟩ := World.quietFor_succ.1 hq
    have hread : w.tick.files.read file = .ok bytes := FileTree.read_ok.2 ⟨mode, hfile⟩
    have hpath : path.dirOnly = false ∧ path.locate w.files w.process.cwd = .ok file := by
      unfold World.locate UnixPath.locateFile at hl
      split at hl
      · cases hl
      · next hd => exact ⟨by simpa using hd, hl⟩
    refine ⟨file, _, ⟨hq, ⟨hpath.2, .inr ⟨hpath.1, bytes, mode, hfile⟩⟩, rfl⟩, _, _, rfl, ?_⟩
    simp only [hread]
    exact (verifyLines_ok (Nat.zero_le _)).2 ⟨hq', hls, by rw [Nat.zero_add], hadvance _⟩

end

end Synqro
