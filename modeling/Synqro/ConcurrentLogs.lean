import Synqro.Lib.LockedAppend
import Synqro.Lib.JsonLines
import Synqro.Lib.Utf8
import Synqro.LogFaults

/-!
# One audit log of several loggers

The application and the watchdog each open the audit log, and calls of `AuditLogger.log` come from
any thread of either. A call has its line ready before it takes the mutex of its logger and then the
lock on the file (`AuditLogger.log_run`). `AuditLogger.concurrentLog_verified` says what the file is
worth after any number of calls in any interleaving: the lines of the calls that had the lock, each
once, and when the verifier accepts them.
-/

namespace Synqro

open LockedAppend (Phase Outcome)

/-! ## The tree of a line -/

namespace AuditLogLine

/-- The tree of a line: the payload with the tag. -/
def toJson (l : AuditLogLine) : Json :=
  .obj (Json.insertMember "line_hmac" (.str l.lineHmac) (AuditLogger.members l.payload))

section
variable {l : AuditLogLine}

theorem find_toJson (k : String) : Json.find k
      (Json.insertMember "line_hmac" (.str l.lineHmac) (AuditLogger.members l.payload)) =
    if k = "line_hmac" then some (.str l.lineHmac)
    else if k = "data" then some (Json.value l.data)
    else if k = "installation_id" then some (.str l.installationId)
    else if k = "severity" then some (.str l.severity)
    else if k = "event" then some (.str l.event)
    else if k = "ts" then some (.str l.ts) else none := by
  simp only [payload, jsonObject, Json.value_obj, AuditLogger.members, Json.ofMembers,
    List.map_cons, List.map_nil, List.foldl_cons, List.foldl_nil, Json.find_insertMember,
    Json.find_nil, Json.value_str]

theorem read_toJson (h : Json.value l.data = l.data) : read l.toJson = some l := by
  have hsorted : Json.SortedKeys
      (Json.insertMember "line_hmac" (.str l.lineHmac) (AuditLogger.members l.payload)) := by
    rw [payload, jsonObject, Json.value_obj]
    exact Json.sortedKeys_insertMember (Json.sortedKeys_ofMembers _) _ _
  have honce : Json.Once fields
      (Json.insertMember "line_hmac" (.str l.lineHmac) (AuditLogger.members l.payload)) :=
    fun f _ => List.nodup_iff_count_le_one.1 hsorted.nodup f.name
  have hfields : Json.structFields fields l.toJson = some [.str l.ts, .str l.event, .str l.severity,
      .str l.installationId, l.data, .str l.lineHmac] := by
    rw [toJson, Json.structFields, if_pos honce]
    simp [fields, Json.Field.of, find_toJson, h]
  rw [read, hfields]
  simp [Json.readString, h]

theorem noFloats_toJson (h : l.data.NoFloats) : l.toJson.NoFloats := by
  have hdata : Json.Plain (Json.nesting l.data) l.data := ⟨h, le_rfl⟩
  have hpayload : Json.Plain (Json.nesting l.data + 1) l.payload := by
    rw [payload, jsonObject]
    refine Json.Plain.value (Json.plain_obj.2 ?_)
    simpa using hdata
  rw [payload, jsonObject, Json.value_obj] at hpayload
  exact (Json.Plain.insertMember hpayload (Json.plain_str _)).1

/-- A line nests one level deeper than its data. -/
theorem nesting_toJson {n : Nat} : l.toJson.nesting ≤ n + 1 ↔ (Json.value l.data).nesting ≤ n := by
  constructor
  · intro h
    exact Json.nesting_obj.1 h _ (Json.mem_of_find ((find_toJson "data").trans rfl))
  · intro h
    refine Json.nesting_insertMember ?_ (Nat.zero_le _)
    rw [payload, jsonObject, Json.value_obj]
    refine Json.nesting_obj.2 fun m hm => ?_
    have hmem := Json.mem_of_mem_ofMembers hm
    simp only [List.map_cons, List.map_nil, List.mem_cons, List.not_mem_nil, or_false] at hmem
    rcases hmem with rfl | rfl | rfl | rfl | rfl
    · exact Nat.zero_le _
    · exact Nat.zero_le _
    · exact Nat.zero_le _
    · exact Nat.zero_le _
    · exact h

end

end AuditLogLine

/-- The reader takes back the lines of the log, when they hold no floating-point number and nest at
most 127 deep, and no deeper ones. -/
structure Externals.RereadsLines (E : Externals) : Prop where
  reads : ∀ l : AuditLogLine, l.toJson.Plain 127 →
    E.parseJson (encodeUtf8 (toJsonString l.toJson)) = .ok l.toJson
  nested : ∀ (l : AuditLogLine) (i : Json),
    E.parseJson (encodeUtf8 (toJsonString l.toJson)) = .ok i → l.toJson.nesting ≤ 127

theorem Externals.running_parseLine (cs : List Char) : Externals.running.parseJson (encodeUtf8 cs) =
    match Json.read 127 cs with
    | some j => .ok j
    | none => .error "expected value" := by
  have hread : (decodeUtf8? (encodeUtf8 cs)).bind (Json.read 127) = Json.read 127 cs := by
    rw [decodeUtf8?_encodeUtf8, Option.bind_some]
  show (match (decodeUtf8? (encodeUtf8 cs)).bind (Json.read 127) with
    | some j => Except.ok j
    | none => .error "expected value") = _
  rw [hread]

theorem Externals.running_rereadsLines : Externals.running.RereadsLines where
  reads l h := by
    rw [running_parseLine, toJsonString, Json.read_printWith h.2]
  nested l i h := by
    rw [running_parseLine] at h
    split at h
    · next j hj => exact Json.nesting_of_read_printWith hj
    · cases h

/-! ## One call -/

/-- What a log call is about, with the time at which it was made. -/
structure LogCall where
  ts : String
  event : AuditEvent
  data : Json

namespace AuditLogger

section
variable (E : Externals) (logger : AuditLogger)

/-- The line of a call. -/
def lineOf (c : LogCall) : AuditLogLine :=
  logger.signedLine c.ts c.event c.data
    (computeHmac E logger.hmacKey (encodeUtf8 (canonicalJsonSorted
      (logger.payload c.ts c.event c.data))))

/-- The text of the line, without its newline. -/
def lineText (c : LogCall) : Bytes := encodeUtf8 (toJsonString (logger.lineOf E c).toJson)

/-- The call that is made in a world. -/
def callIn (event : AuditEvent) (data : Json) (w : World) : LogCall :=
  ⟨E.toRfc3339 (w.env.clock w.calls), event, data⟩

end

section
variable {E : Externals} {logger : AuditLogger} {event : AuditEvent} {data : Json} {w : World}
  {c : LogCall}

theorem lineBytes_eq : logger.lineBytes E event data w =
    logger.lineText E (callIn E event data w) ++ [10] := by
  unfold lineBytes lineText AuditLogLine.toJson lineOf callIn
  dsimp only
  rw [← payload_eq]
  simp only [signedLine]

/-- **A call is a task.** What a call alone does to the log file and its lock, whichever of its
steps fails, is a run of one task with the call's line. -/
theorem log_run (hfree : w.auditFile.locked = false) :
    ∃ s outcome, LockedAppend.Run (fun _ : Unit => ())
        (fun _ => logger.lineText E (callIn E event data w) ++ [10])
        (.start Unit Unit w.auditFile.bytes) s ∧
      s.phase () = .returned outcome ∧
      s.file = (Comp.after (logger.log E event data) w).auditFile.bytes ∧
      s.lock.isSome = (Comp.after (logger.log E event data) w).auditFile.locked ∧
      (Comp.returned (logger.log E event data w) = true → outcome = .whole) := by
  obtain ⟨hfile, hreturned, -⟩ := @log_spec E logger event data w
  rw [lineBytes_eq] at hfile
  rw [hfile, hreturned]
  generalize logger.lineText E (callIn E event data w) ++ [10] = text
  cases h₁ : w.env.fault (w.calls + 1) with
  | some f =>
    refine ⟨_, .refused, .tail (.tail .refl (.enter () rfl rfl)) (.leave () .refused rfl), rfl, rfl,
      hfree.symm, nofun⟩
  | none =>
    cases h₂ : w.env.fault (w.calls + 2) with
    | some f =>
      have hsplit : (Phase.writing text : Phase UInt8) =
          .writing (text.take f.done ++ text.drop f.done) := by
        rw [List.take_append_drop]
      exact ⟨_, .torn, .tail (.tail (.tail (.tail .refl (.enter () rfl rfl))
        (.acquire () rfl (.inl rfl))) (.write () _ _ hsplit)) (.leave () .torn rfl), rfl, rfl, rfl,
        nofun⟩
    | none =>
      have hall : (Phase.writing text : Phase UInt8) = .writing (text ++ []) := by
        rw [List.append_nil]
      -- the lock stays where it is when the unlocking fails
      cases h₃ : w.env.fault (w.calls + 3) with
      | none =>
        exact ⟨_, .whole, .tail (.tail (.tail (.tail (.tail .refl (.enter () rfl rfl))
          (.acquire () rfl (.inl rfl))) (.write () _ _ hall)) (.release () none rfl (.inl rfl)))
          (.leave () .whole rfl), rfl, rfl, rfl, fun _ => rfl⟩
      | some f =>
        exact ⟨_, .whole, .tail (.tail (.tail (.tail (.tail .refl (.enter () rfl rfl))
          (.acquire () rfl (.inl rfl))) (.write () _ _ hall)) (.release () _ rfl (.inr rfl)))
          (.leave () .whole rfl), rfl, rfl, rfl, fun _ => rfl⟩

/-! ## The line of a call -/

/-- The bytes of a text without control characters are those of none. -/
theorem mem_encodeUtf8 {cs : List Char} (h : Json.Printable cs) : ∀ b ∈ encodeUtf8 cs, 32 ≤ b := by
  intro b hb
  obtain ⟨c, hc, hb⟩ := List.mem_flatMap.1 hb
  have hprintable := h c hc
  rw [UInt8.le_iff_toNat_le]
  show 32 ≤ b.toNat
  by_contra hlow
  have heq := Utf8.toNat_eq_of_mem hb (by omega)
  omega

/-- The text of a line is one line of a file, which is not blank. -/
theorem isLine_lineText : Lines.IsLine (logger.lineText E c) := by
  have hbytes := mem_encodeUtf8 (Json.printable_compact (logger.lineOf E c).toJson 0)
  refine ⟨fun h => absurd (hbytes _ h) (by decide), fun h => ?_⟩
  exact absurd (hbytes _ (List.mem_of_getLast? h)) (by decide)

theorem isBlank_lineText : isBlank (logger.lineText E c) = false := by
  obtain ⟨inner, hinner⟩ := Json.printWith_obj Json.compact 0
    (Json.insertMember "line_hmac" (.str (logger.lineOf E c).lineHmac)
      (members (logger.lineOf E c).payload))
  rw [isBlank, lineText, decodeUtf8?_encodeUtf8, toJsonString, AuditLogLine.toJson, hinner]
  rfl

/-- The verifier accepts the line of a call exactly when its data nests at most 126 deep. -/
theorem acceptedLine_lineText (hE : E.RereadsLines) (hfloats : c.data.NoFloats) :
    AcceptedLine E logger.hmacKey (logger.lineText E c) ↔ (Json.value c.data).nesting ≤ 126 := by
  have hvalue : Json.value (logger.lineOf E c).data = (logger.lineOf E c).data :=
    Json.value_value c.data
  have hnesting : (logger.lineOf E c).toJson.nesting ≤ 127 ↔ (Json.value c.data).nesting ≤ 126 := by
    rw [AuditLogLine.nesting_toJson, hvalue]
    rfl
  have hplain : (logger.lineOf E c).data.NoFloats :=
    (Json.Plain.value (⟨hfloats, le_rfl⟩ : Json.Plain c.data.nesting c.data)).1
  constructor
  · intro h
    obtain ⟨l, hl, -⟩ := h.tagged isBlank_lineText
    unfold fromSlice at hl
    split at hl
    · cases hl
    · next i hi => exact hnesting.1 (hE.nested _ _ hi)
  · intro h
    refine .inr ⟨?_, logger.lineOf E c, ?_, ?_⟩
    · rw [lineText, decodeUtf8?_encodeUtf8]
      rfl
    · rw [fromSlice, lineText,
        hE.reads _ ⟨AuditLogLine.noFloats_toJson hplain, hnesting.2 h⟩]
      dsimp only
      rw [AuditLogLine.read_toJson hvalue]
    · unfold AuditLogLine.Tagged lineOf
      rw [← payload_eq]
      rfl

end

/-! ## Any number of calls -/

section
variable {E : Externals} {logger : AuditLogger} {ι : Type} {call : ι → LogCall} {bytes : Bytes}

theorem flatMap_lineText (order : List ι) :
    order.flatMap (fun i => logger.lineText E (call i) ++ [10]) =
      Lines.unlines (order.map fun i => logger.lineText E (call i)) := by
  rw [Lines.unlines, List.flatMap_map]

theorem lines_calls (hsound : logger.SoundLog E bytes) (order : List ι) :
    Lines.lines (bytes ++ order.flatMap fun i => logger.lineText E (call i) ++ [10]) =
      Lines.lines bytes ++ order.map fun i => logger.lineText E (call i) := by
  rw [hsound.whole.lines_append, flatMap_lineText, Lines.lines_unlines]
  intro l hl
  obtain ⟨i, -, rfl⟩ := List.mem_map.1 hl
  exact isLine_lineText

theorem countLines_calls (order : List ι) (ls : List Bytes) :
    countLines (ls ++ order.map fun i => logger.lineText E (call i)) =
      countLines ls + order.length := by
  have hall : (order.map fun i => logger.lineText E (call i)).filter (fun l => !isBlank l) =
      order.map fun i => logger.lineText E (call i) := by
    refine List.filter_eq_self.2 fun l hl => ?_
    obtain ⟨i, -, rfl⟩ := List.mem_map.1 hl
    rw [isBlank_lineText]
    rfl
  rw [countLines, List.filter_append, hall, List.length_append, List.length_map, countLines]

end

/-- **Logging at once.** Loggers of one installation append to one file, by any number of calls in
any interleaving. While no call is writing and none has been torn, the file has the lines it had and
then the line of each call that has had the lock, once and in the order of the lock; and it passes
the verifier exactly when the data of none of them nests too deep. -/
theorem concurrentLog_verified (E : Externals) (logger : AuditLogger) {ι π : Type} [DecidableEq ι]
    [DecidableEq π] (opener : ι → π) (call : ι → LogCall) (bytes : Bytes)
    (s : LockedAppend.State ι π UInt8) (hE : E.RereadsLines) (hsound : logger.SoundLog E bytes)
    (hfloats : ∀ i, (call i).data.NoFloats)
    (hrun : LockedAppend.Run opener (fun i => logger.lineText E (call i) ++ [10])
      (.start ι π bytes) s)
    (hidle : ∀ i rest, s.phase i ≠ .writing rest) (hwhole : ∀ i, s.phase i ≠ .returned .torn) :
    (Lines.lines s.file = Lines.lines bytes ++ s.order.map (fun i => logger.lineText E (call i)) ∧
      s.order.Nodup ∧ ∀ i, i ∈ s.order ↔ s.phase i = .written ∨ s.phase i = .returned .whole) ∧
    ∀ path w, World.Holds path s.file w → w.QuietFor ((Lines.lines s.file).length + 2) →
      (Comp.returned (logger.verifyLog E path w) = true ↔
        ∀ i ∈ s.order, (Json.value (call i).data).nesting ≤ 126) ∧
      ∀ n w', logger.verifyLog E path w = .ok n w' →
        n = min (countLines (Lines.lines bytes) + s.order.length) (E.usizeRange - 1) := by
  obtain ⟨hfile, hnodup, hordered⟩ := hrun.file_eq hidle hwhole
  have hlines : Lines.lines s.file =
      Lines.lines bytes ++ s.order.map (fun i => logger.lineText E (call i)) := by
    rw [hfile, lines_calls hsound]
  refine ⟨⟨hlines, hnodup, fun i => ?_⟩, fun path w hholds hquiet => ⟨?_, fun n w' h => ?_⟩⟩
  · rw [hordered]
    cases hphase : s.phase i with
    | waiting | entered => simp [Phase.Ordered]
    | writing rest => exact absurd hphase (hidle i rest)
    | written => simp [Phase.Ordered]
    | returned outcome =>
      cases outcome with
      | refused => simp [Phase.Ordered]
      | torn => exact absurd hphase (hwhole i)
      | whole => simp [Phase.Ordered]
  · rw [returned_verifyLog hholds, and_iff_right hquiet, hlines]
    constructor
    · intro h i hi
      exact (acceptedLine_lineText hE (hfloats i)).1
        (h _ (List.mem_append_right _ (List.mem_map_of_mem hi)))
    · intro h l hl
      rcases List.mem_append.1 hl with hl | hl
      · exact hsound.accepted l hl
      · obtain ⟨i, hi, rfl⟩ := List.mem_map.1 hl
        exact (acceptedLine_lineText hE (hfloats i)).2 (h i hi)
  · obtain ⟨-, -, hn⟩ := verifyLog_holds hholds h
    rw [hn, hlines, countLines_calls]

/-- Two loggers, a call in each: the second waits for the lock while the first writes its text in
two pieces. -/
theorem twoLoggers_run (text : Bool → Bytes) : ∃ s,
    LockedAppend.Run id text (.start Bool Bool []) s ∧ (∀ i, s.phase i = .returned .whole) ∧
      s.order = [false, true] := by
  have hpieces : (Phase.writing (text false) : Phase UInt8) =
      .writing ((text false).take 5 ++ (text false).drop 5) := by
    rw [List.take_append_drop]
  have hrest : (Phase.writing ((text false).drop 5) : Phase UInt8) =
      .writing ((text false).drop 5 ++ []) := by
    rw [List.append_nil]
  have hall : (Phase.writing (text true) : Phase UInt8) = .writing (text true ++ []) := by
    rw [List.append_nil]
  refine ⟨_, .head (.enter false rfl rfl) <| .head (.enter true rfl rfl) <|
    .head (.acquire false rfl (.inl rfl)) <| .head (.write false _ _ hpieces) <|
    .head (.write false _ _ hrest) <| .head (.release false none rfl (.inl rfl)) <|
    .head (.acquire true rfl (.inl rfl)) <| .head (.leave false .whole rfl) <|
    .head (.write true _ _ hall) <| .head (.release true none rfl (.inl rfl)) <|
    .head (.leave true .whole rfl) .refl, fun i => ?_, rfl⟩
  cases i <;> rfl

/-- The call of each logger. -/
def startedAndUpdated : Bool → LogCall
  | false => ⟨"2026-01-01T00:00:00+00:00", .SynqroInit, jsonObject []⟩
  | true => ⟨"2026-01-01T00:00:01+00:00", .UpdateApplied, jsonObject [("version", .str "1.0.1")]⟩

theorem concurrentLog_verified_twoLoggers : ∃ s : LockedAppend.State Bool Bool UInt8,
    Lines.lines s.file = [auditor.lineText .running (startedAndUpdated false),
      auditor.lineText .running (startedAndUpdated true)] ∧
    ∀ path w, World.Holds path s.file w → w.QuietFor ((Lines.lines s.file).length + 2) →
      Comp.returned (auditor.verifyLog .running path w) = true := by
  obtain ⟨s, hrun, hreturned, horder⟩ := twoLoggers_run fun i =>
    auditor.lineText .running (startedAndUpdated i) ++ [10]
  have hidle : ∀ i rest, s.phase i ≠ .writing rest := by
    intro i rest h
    rw [hreturned] at h
    cases h
  have hwhole : ∀ i, s.phase i ≠ .returned .torn := by
    intro i h
    rw [hreturned] at h
    cases h
  have hfloats : ∀ i, (startedAndUpdated i).data.NoFloats := by
    intro i
    cases i <;> simp [startedAndUpdated, jsonObject, Json.ofMembers, Json.insertMember,
      Json.NoFloats, Json.NoFloatsMembers]
  obtain ⟨⟨hlines, -, -⟩, hverified⟩ :=
    concurrentLog_verified .running auditor id startedAndUpdated []
    s Externals.running_rereadsLines ⟨.inl rfl, fun _ h => absurd h List.not_mem_nil⟩ hfloats hrun
    hidle hwhole
  rw [horder] at hlines hverified
  refine ⟨s, hlines, fun path w hholds hquiet => ((hverified path w hholds hquiet).1).2 ?_⟩
  intro i _
  cases i <;> decide

end AuditLogger

end Synqro
