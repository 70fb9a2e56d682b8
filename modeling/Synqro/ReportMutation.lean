import Synqro.Lib.PyText
import Synqro.Scrubbing

/-!
# The caller's report

`send_report` takes the tag out of the caller's dictionary to compute the digest of the rest and
puts it back. Here the dictionary is part of the state and its texts may hold surrogates, so what an
exception between the two steps leaves behind is visible. `sendReport_intact` says when the caller
finds every key with the value it had.
-/

namespace Synqro

namespace TelegramBot

/-- A process that sends a report: the caller's dictionary, what the reporter remembers, and how
often it has read the clock. -/
structure SendState where
  report : List (PyText × PyJson)
  lastSent : List (PyText × Int)
  calls : Nat

/-- The computations of a process that sends a report. -/
abbrev S := Comp SendState PyError

namespace InPlace

def hmacField : PyText := .ofString "hmac_sha256"

/-- `str(value)`; `repr` is Python's for lists and dictionaries. -/
def str (repr : PyJson → PyText) : PyJson → PyText
  | .null => .ofString "None"
  | .bool b => .ofString (if b then "True" else "False")
  | .int n => .ofString (toString n)
  | .float r => .ofString r
  | .str t => t
  | v => repr v

/-- `hmac.compare_digest` of two texts. -/
def compareDigest (a b : PyText) : Except PyError Bool :=
  if a.isAscii && b.isAscii then .ok (a = b)
  else .error (.other "TypeError" "comparing strings with non-ASCII characters is not supported")

/-- Compact JSON with sorted keys. -/
def canonicalJson (d : List (PyText × PyJson)) : PyText := (PyJson.dict d).dumps

mutual

/-- A value without surrogates, as the formatter's model takes it. -/
def toPyValue : PyJson → PyValue
  | .null => .none
  | .bool b => .bool b
  | .int n => .int n
  | .float r => .float r
  | .str t => .str t.toString
  | .list xs => .list (toPyValues xs)
  | .dict ms => .dict (toPyMembers ms)

def toPyValues : List PyJson → List PyValue
  | [] => []
  | x :: xs => toPyValue x :: toPyValues xs

def toPyMembers : List (PyText × PyJson) → List (String × PyValue)
  | [] => []
  | (k, v) :: ms => (k.toString, toPyValue v) :: toPyMembers ms

end

/-- `report.pop("hmac_sha256", None)`. -/
def popHmac : S (Option PyJson) := do
  let s ← get
  modify fun s => { s with report := PyJson.remove hmacField s.report }
  return PyJson.find hmacField s.report

/-- `report["hmac_sha256"] = provided_hmac`. -/
def putHmac (providedHmac : PyJson) : S Unit :=
  modify fun s => { s with report := PyJson.insert hmacField providedHmac s.report }

/-- `time.monotonic()`. -/
def monotonic (inv : Invocation) : S Int := do
  let s ← get
  modify fun s => { s with calls := s.calls + 1 }
  return inv.monotonic s.calls

/-- The last delivery for this installation was less than the limit ago. -/
def isRateLimited (inv : Invocation) (installId : PyText) : S Bool := do
  match (← get).lastSent.lookup installId with
  | none => return false
  | some last => return decide ((← monotonic inv) - last < rateLimit)

section
variable (P : PyLibrary) (repr : PyJson → PyText)

/-- Verify a tag against the report it was taken out of, and restore it. -/
def verifyPopped (hmacKey : Bytes) (providedHmac : PyJson) : S Unit := do
  let canonical := canonicalJson (← get).report
  let message ← Comp.ofExcept canonical.encode
  let expectedHmac := hexEncode (P.hmacSha256 hmacKey message)
  if ← Comp.ofExcept (compareDigest (.ofString expectedHmac) (str repr providedHmac)) then
    putHmac providedHmac
  else
    -- so that the caller sees an intact report
    putHmac providedHmac
    throw (.value "HMAC verification failed — report may have been tampered with")

/-- Pop the tag, verify it, and restore it. -/
def verifyHmac (hmacKey : Bytes) : S Unit := do
  match ← popHmac with
  | none => throw (.value "Report missing 'hmac_sha256' field")
  | some .null => throw (.value "Report missing 'hmac_sha256' field")
  | some providedHmac => verifyPopped P repr hmacKey providedHmac

/-- Format the report, send it and record when. -/
def deliver (inv : Invocation) (reporter : CrashReporter) (installId : PyText) : S Unit := do
  let messageText := formatReport P (toPyMembers (← get).report)
  Comp.ofExcept (sendOutcome P inv reporter messageText)
  let now ← monotonic inv
  modify fun s => { s with lastSent := (installId, now) :: s.lastSent.filter (·.1 ≠ installId) }

/-- `str(report.get("installation_id", ""))`. -/
def installIdOf (report : List (PyText × PyJson)) : PyText :=
  str repr ((PyJson.find (.ofString "installation_id") report).getD (.str []))

/-- Send the caller's report: `true` when it was delivered, `false` when it is rate-limited. -/
def sendReport (inv : Invocation) (reporter : CrashReporter) (hmacKey : Bytes) : S Bool := do
  let installId := installIdOf repr (← get).report
  if ← isRateLimited inv installId then
    -- the log line says when the next report is allowed
    let _ ← monotonic inv
    return false
  verifyHmac P repr hmacKey
  deliver P inv reporter installId
  return true

end

/-! ## What is left of the report -/

/-- The dictionary maps the same keys to the same values. -/
def Same (after before : List (PyText × PyJson)) : Prop :=
  ∀ k, PyJson.find k after = PyJson.find k before

/-- The tag can be taken out and put back: there is none, or it is a value whose text is ASCII and
the rest of the report can be encoded. -/
def Restorable (repr : PyJson → PyText) (report : List (PyText × PyJson)) : Prop :=
  PyJson.find hmacField report = none ∨
    ∃ tag, PyJson.find hmacField report = some tag ∧ tag ≠ .null ∧
      (str repr tag).isAscii = true ∧ (PyJson.dict (PyJson.remove hmacField report)).Encodable

/-- The last delivery for the installation was less than the limit ago. -/
def limited (inv : Invocation) (s : SendState) (installId : PyText) : Bool :=
  match s.lastSent.lookup installId with
  | none => false
  | some last => decide (inv.monotonic s.calls - last < rateLimit)

section
variable {P : PyLibrary} {repr : PyJson → PyText} {hmacKey : Bytes} {inv : Invocation}
  {reporter : CrashReporter} {report : List (PyText × PyJson)} {s : SendState}

/-- A report that lost its tag is another one. -/
theorem not_same_remove {tag : PyJson} (h : PyJson.find hmacField report = some tag) :
    ¬ Same (PyJson.remove hmacField report) report := by
  intro hsame
  have hgone := hsame hmacField
  rw [PyJson.find_remove, if_pos rfl, h] at hgone
  cases hgone

theorem same_restored {tag : PyJson} (h : PyJson.find hmacField report = some tag) :
    Same (PyJson.insert hmacField tag (PyJson.remove hmacField report)) report :=
  fun _ => PyJson.find_restored h

theorem isAscii_hexEncode (b : Bytes) : (PyText.ofString (hexEncode b)).isAscii = true := by
  have hhex := (isHex_hexEncode b).ascii
  rw [List.all_eq_true] at hhex
  rw [PyText.isAscii, PyText.ofString, List.all_map, List.all_eq_true]
  intro c hc
  have hlt : c.toNat < 128 := of_decide_eq_true (hhex c hc)
  have hval : (Fin.ofNat 0x110000 c.toNat).val = c.toNat := Nat.mod_eq_of_lt (by omega)
  exact decide_eq_true (hval.trans_lt hlt)

/-- Comparing with a digest raises exactly when the tag's text is not ASCII. -/
theorem compareDigest_hexEncode (b : Bytes) (provided : PyText) :
    (∃ equal, compareDigest (.ofString (hexEncode b)) provided = .ok equal) ↔
      provided.isAscii = true := by
  rw [compareDigest, isAscii_hexEncode, Bool.true_and]
  split
  · next h => exact iff_of_true ⟨_, rfl⟩ h
  · next h =>
    refine iff_of_false ?_ h
    rintro ⟨equal, hok⟩
    cases hok

/-- A popped tag is put back when nothing is raised before its comparison has come out. -/
theorem verifyPopped_same {tag : PyJson} {popped : SendState}
    (hfind : PyJson.find hmacField report = some tag)
    (hpopped : popped.report = PyJson.remove hmacField report) :
    Same (Comp.after (verifyPopped P repr hmacKey tag) popped).report report ↔
      (str repr tag).isAscii = true ∧ (PyJson.dict (PyJson.remove hmacField report)).Encodable := by
  have hlost : ¬ Same popped.report report := hpopped ▸ not_same_remove hfind
  have hrestored : Same (PyJson.insert hmacField tag popped.report) report :=
    hpopped ▸ same_restored hfind
  rw [← PyJson.encodable_dumps, ← PyText.encode_eq_ok, ← canonicalJson, ← hpopped]
  unfold verifyPopped
  rw [Comp.after_bind_ok (Comp.get_run popped)]
  dsimp only
  cases (canonicalJson popped.report).encode with
  | error e =>
    refine iff_of_false hlost ?_
    rintro ⟨-, bytes, hok⟩
    cases hok
  | ok message =>
    rw [Comp.ofExcept_ok_bind, ← compareDigest_hexEncode (P.hmacSha256 hmacKey message),
      and_iff_left ⟨message, rfl⟩]
    cases compareDigest (.ofString (hexEncode (P.hmacSha256 hmacKey message))) (str repr tag) with
    | error e =>
      refine iff_of_false hlost ?_
      rintro ⟨equal, hok⟩
      cases hok
    | ok equal =>
      rw [Comp.ofExcept_ok_bind]
      refine iff_of_true ?_ ⟨equal, rfl⟩
      cases equal
      · exact hrestored
      · exact hrestored

/-- Verification leaves the report as it was exactly when its tag can be taken out and put back. -/
theorem verifyHmac_same (s : SendState) :
    Same (Comp.after (verifyHmac P repr hmacKey) s).report s.report ↔ Restorable repr s.report := by
  unfold verifyHmac
  have hpop : popHmac s = .ok (PyJson.find hmacField s.report)
      { s with report := PyJson.remove hmacField s.report } := rfl
  rw [Comp.after_bind_ok hpop, Restorable]
  cases hfind : PyJson.find hmacField s.report with
  | none =>
    refine iff_of_true ?_ (.inl rfl)
    intro k
    show PyJson.find k (PyJson.remove hmacField s.report) = _
    rw [PyJson.find_remove]
    split
    · next hk => rw [hk, hfind]
    · rfl
  | some tag =>
    have hcondition (hnull : tag ≠ .null) :
        (some tag = none ∨ ∃ tag', some tag = some tag' ∧ tag' ≠ .null ∧
          (str repr tag').isAscii = true ∧
            (PyJson.dict (PyJson.remove hmacField s.report)).Encodable) ↔
        (str repr tag).isAscii = true ∧
          (PyJson.dict (PyJson.remove hmacField s.report)).Encodable := by
      simp [hnull]
    cases tag with
    | null =>
      refine iff_of_false (not_same_remove hfind) ?_
      simp
    | _ =>
      rw [hcondition PyJson.noConfusion]
      exact verifyPopped_same hfind rfl

theorem isRateLimited_run (inv : Invocation) (s : SendState) (installId : PyText) :
    ∃ calls, isRateLimited inv installId s = .ok (limited inv s installId) { s with calls } := by
  have hget : isRateLimited inv installId s = (match s.lastSent.lookup installId with
      | none => pure false
      | some last => do return decide ((← monotonic inv) - last < rateLimit) : S Bool) s := rfl
  rw [hget, limited]
  cases s.lastSent.lookup installId with
  | none => exact ⟨s.calls, rfl⟩
  | some last => exact ⟨s.calls + 1, rfl⟩

/-- Formatting and sending do not touch the report. -/
theorem deliver_report (installId : PyText) (s : SendState) :
    (Comp.after (deliver P inv reporter installId) s).report = s.report := by
  unfold deliver
  rw [Comp.after_bind_ok (Comp.get_run s)]
  dsimp only
  cases sendOutcome P inv reporter (formatReport P (toPyMembers s.report)) with
  | error e => rfl
  | ok u => rfl

/-- Past the rate limit, a call leaves the report as the verification does. -/
theorem sendReport_unlimited (h : limited inv s (installIdOf repr s.report) = false) :
    ∃ calls, (Comp.after (sendReport P repr inv reporter hmacKey) s).report =
      (Comp.after (verifyHmac P repr hmacKey) { s with calls }).report := by
  obtain ⟨calls, hlimited⟩ := isRateLimited_run inv s (installIdOf repr s.report)
  rw [h] at hlimited
  refine ⟨calls, ?_⟩
  unfold sendReport
  rw [Comp.after_bind_ok (Comp.get_run s)]
  dsimp only
  rw [Comp.after_bind_ok hlimited, if_neg Bool.false_ne_true]
  cases hrun : verifyHmac P repr hmacKey { s with calls } with
  | error e t =>
    rw [Comp.after_bind_error hrun, Comp.after, hrun]
    rfl
  | ok u t =>
    rw [Comp.after_bind_ok hrun, Comp.after_bind_pure, deliver_report, Comp.after, hrun]
    rfl

/-- **The caller's report.** A call leaves every key with the value it had exactly when it is
rate-limited, or the tag can be taken out and put back. -/
theorem sendReport_intact (P : PyLibrary) (repr : PyJson → PyText) (inv : Invocation)
    (reporter : CrashReporter) (hmacKey : Bytes) (s : SendState) :
    Same (Comp.after (sendReport P repr inv reporter hmacKey) s).report s.report ↔
      limited inv s (installIdOf repr s.report) = true ∨ Restorable repr s.report := by
  cases h : limited inv s (installIdOf repr s.report) with
  | true =>
    refine iff_of_true ?_ (.inl rfl)
    obtain ⟨calls, hlimited⟩ := isRateLimited_run inv s (installIdOf repr s.report)
    rw [h] at hlimited
    unfold sendReport
    rw [Comp.after_bind_ok (Comp.get_run s)]
    dsimp only
    rw [Comp.after_bind_ok hlimited]
    exact fun _ => rfl
  | false =>
    obtain ⟨calls, hreport⟩ := @sendReport_unlimited P repr hmacKey inv reporter s h
    rw [hreport, or_iff_right Bool.false_ne_true]
    exact verifyHmac_same { s with calls }

end

/-- A report of a new process, with the tag `é`. -/
def accented : SendState := ⟨[(hmacField, .str (.ofString "é"))], [], 0⟩

/-- A tag that is not ASCII is taken out, and comparing it raises. -/
theorem sendReport_loses_tag : ¬ Same
    (Comp.after (sendReport .running (fun _ => []) .calm chatReporter []) accented).report
    accented.report := by
  have hfind : PyJson.find hmacField accented.report = some (.str (.ofString "é")) := if_pos rfl
  have hlost : ¬ Restorable (fun _ => []) accented.report := by
    rw [Restorable, hfind]
    rintro (hnone | ⟨tag, htag, -, hascii, -⟩)
    · cases hnone
    · cases htag
      revert hascii
      decide
  obtain ⟨calls, hreport⟩ :=
    @sendReport_unlimited .running (fun _ => []) [] .calm chatReporter accented rfl
  rw [hreport]
  exact fun hsame => hlost ((verifyHmac_same { accented with calls }).1 hsame)

end InPlace

end TelegramBot

end Synqro
