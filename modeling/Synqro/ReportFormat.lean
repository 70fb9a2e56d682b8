import Synqro.Scrubbing

/-!
# The length of a message

`formatReport` cuts the log tail to what the other parts leave of `maxPayloadChars`; the other parts
are not cut. Their length is `fixedLength`, a sum over the fields of the report in which every
character that MarkdownV2 reserves counts twice. `formatReport_fits` says for which reports the
message is within Telegram's limit, and that what is shown of the log tail is an end of it.
-/

namespace Synqro.TelegramBot

/-- The characters that are escaped. -/
def isReserved (c : Char) : Bool := "_*[]()~`>#+-=|\x7b\x7d.!\\".toList.contains c

/-- The length of a text once it is escaped. -/
def escapedLength (text : String) : Nat := text.length + text.toList.countP isReserved

theorem length_escapeMdv2 (text : String) : (escapeMdv2 text).length = escapedLength text := by
  have hchars (cs : List Char) :
    (cs.flatMap fun c => if isReserved c then ['\\', c] else [c]).length =
      cs.length + cs.countP isReserved := by
    induction cs with
    | nil => rfl
    | cons c cs ih =>
      rw [List.flatMap_cons, List.length_append, ih, List.countP_cons, List.length_cons]
      split
      · rw [List.length_cons, List.length_singleton]
        omega
      · rw [List.length_singleton]
        omega
  rw [escapeMdv2, String.length_ofList, escapedLength, ← String.length_toList]
  exact hchars text.toList

section
variable (P : PyLibrary) (r : List (String × PyValue))

/-! ## The parts of a message -/

/-- The fields of the header as they are shown, before they are escaped. -/
def installPrefix : String := .ofList ((field P r "installation_id" "unknown").toList.take 8)

def hmacPrefix : String := (String.ofList ((field P r "hmac_sha256" "").toList.take 16)) ++ "..."

/-- What is shown of the error message. -/
def errorShown : String := .ofList ((field P r "error_message" "").toList.take 400)

def reportHeader : String :=
  "🔴 *Synqro Crash Report*\ninstall: `" ++ escapeMdv2 (installPrefix P r) ++
    "\\.\\.\\.\n`trigger: `" ++ escapeMdv2 (field P r "trigger" "unknown") ++
    "`\ntime: `" ++ escapeMdv2 (field P r "timestamp" "unknown") ++
    "`\nversion: `" ++ escapeMdv2 (field P r "version" "unknown") ++
    "`\nos: `" ++ escapeMdv2 (field P r "os" "unknown") ++
    "`\nexit: `" ++ escapeMdv2 (field P r "exit_code" "unknown") ++
    "`\nhmac: `" ++ escapeMdv2 (hmacPrefix P r) ++ "`\n"

def errorSection : String :=
  if field P r "error_message" "" = "" then ""
  else "\n*Error:*\n```\n" ++ errorShown P r ++ "\n```\n"

/-- The characters of a message that are not of its log tail. -/
def fixedLength : Nat :=
  escapedLength (installPrefix P r) + escapedLength (field P r "trigger" "unknown") +
    escapedLength (field P r "timestamp" "unknown") +
      escapedLength (field P r "version" "unknown") +
    escapedLength (field P r "os" "unknown") + escapedLength (field P r "exit_code" "unknown") +
    escapedLength (hmacPrefix P r) +
    (if field P r "error_message" "" = "" then 0
      else min 400 (field P r "error_message" "").length + 19) + 165

theorem formatReport_parts : formatReport P r = reportHeader P r ++ errorSection P r ++
    "\n*Log tail:*\n```\n" ++ truncateLogTail (field P r "log_tail" "") (maxPayloadChars -
      ((reportHeader P r).length + (errorSection P r).length + "\n*Log tail:*\n```\n".length +
        "\n```".length + "\n_Report generated by Synqro crash reporter_".length)) ++ "\n```" ++
    "\n_Report generated by Synqro crash reporter_" := by
  unfold formatReport reportHeader errorSection installPrefix hmacPrefix errorShown
  dsimp only

theorem length_reportHeader : (reportHeader P r).length =
    escapedLength (installPrefix P r) + escapedLength (field P r "trigger" "unknown") +
      escapedLength (field P r "timestamp" "unknown") +
      escapedLength (field P r "version" "unknown") + escapedLength (field P r "os" "unknown") +
      escapedLength (field P r "exit_code" "unknown") + escapedLength (hmacPrefix P r) + 100 := by
  have h₁ : "🔴 *Synqro Crash Report*\ninstall: `".length = 34 := rfl
  have h₂ : "\\.\\.\\.\n`trigger: `".length = 18 := rfl
  have h₃ : "`\ntime: `".length = 9 := rfl
  have h₄ : "`\nversion: `".length = 12 := rfl
  have h₅ : "`\nos: `".length = 7 := rfl
  have h₆ : "`\nexit: `".length = 9 := rfl
  have h₇ : "`\nhmac: `".length = 9 := rfl
  have h₈ : "`\n".length = 2 := rfl
  unfold reportHeader
  simp only [String.length_append, length_escapeMdv2, h₁, h₂, h₃, h₄, h₅, h₆, h₇, h₈]
  omega

theorem length_errorSection : (errorSection P r).length =
    if field P r "error_message" "" = "" then 0
    else min 400 (field P r "error_message" "").length + 19 := by
  have h₁ : "\n*Error:*\n```\n".length = 14 := rfl
  have h₂ : "\n```\n".length = 5 := rfl
  unfold errorSection errorShown
  split
  · rfl
  · simp only [String.length_append, String.length_ofList, List.length_take, String.length_toList,
      h₁, h₂]
    omega

/-- The message: what is not cut, and what is shown of the log tail. -/
theorem formatReport_eq : formatReport P r = reportHeader P r ++ errorSection P r ++
    "\n*Log tail:*\n```\n" ++
    truncateLogTail (field P r "log_tail" "") (maxPayloadChars - fixedLength P r) ++ "\n```" ++
    "\n_Report generated by Synqro crash reporter_" := by
  have h₁ : "\n*Log tail:*\n```\n".length = 17 := rfl
  have h₂ : "\n```".length = 4 := rfl
  have h₃ : "\n_Report generated by Synqro crash reporter_".length = 44 := rfl
  have hfixed : (reportHeader P r).length + (errorSection P r).length + 17 + 4 + 44 =
      fixedLength P r := by
    rw [length_reportHeader, length_errorSection, fixedLength]
    omega
  rw [formatReport_parts, h₁, h₂, h₃, hfixed]

theorem length_formatReport : (formatReport P r).length = fixedLength P r +
    (truncateLogTail (field P r "log_tail" "") (maxPayloadChars - fixedLength P r)).length := by
  have h₁ : "\n*Log tail:*\n```\n".length = 17 := rfl
  have h₂ : "\n```".length = 4 := rfl
  have h₃ : "\n_Report generated by Synqro crash reporter_".length = 44 := rfl
  rw [formatReport_eq]
  simp only [String.length_append, length_reportHeader, length_errorSection, h₁, h₂, h₃]
  rw [fixedLength]
  omega

end

/-! ## The log tail -/

/-- The mark in front of a log tail that was cut. -/
def mark : String := "...[truncated]\n"

/-- What is shown of a log tail is all of it, or the mark and an end of it. -/
theorem truncateLogTail_suffix (logTail : String) (budget : Nat) :
    truncateLogTail logTail budget = logTail ∨
      ∃ kept : String, truncateLogTail logTail budget = mark ++ kept ∧
        kept.toList <:+ logTail.toList := by
  unfold truncateLogTail
  split
  · exact .inl rfl
  · refine .inr ⟨_, rfl, ?_⟩
    rw [String.toList_ofList]
    exact List.drop_suffix _ _

/-- The length of what is shown: within the budget, except that the mark is always whole. -/
theorem length_truncateLogTail (logTail : String) (budget : Nat) :
    (truncateLogTail logTail budget).length =
      if logTail.length ≤ budget then logTail.length else max budget 15 := by
  have hmark : "...[truncated]\n".length = 15 := rfl
  unfold truncateLogTail
  split
  · rfl
  · simp only [String.length_append, String.length_ofList, List.length_drop, String.length_toList,
      hmark]
    omega

/-! ## The limit -/

/-- `MAX_TELEGRAM_CHARS`. -/
def maxTelegramChars : Nat := 4096

section
variable (P : PyLibrary) (r : List (String × PyValue))

/-- What is shown of the log tail is all of it, or the mark and an end of it. -/
def ShowsLogEnd : Prop :=
  ∃ shown : String, formatReport P r = reportHeader P r ++ errorSection P r ++
      "\n*Log tail:*\n```\n" ++ shown ++ "\n```" ++
      "\n_Report generated by Synqro crash reporter_" ∧
    (shown = field P r "log_tail" "" ∨
      ∃ kept : String, shown = mark ++ kept ∧ kept.toList <:+ (field P r "log_tail" "").toList)

theorem formatReport_showsLogEnd : ShowsLogEnd P r :=
  ⟨_, formatReport_eq P r, truncateLogTail_suffix _ _⟩

/-- The message is within the limit exactly when its other parts leave room for the mark, or for
nothing when there is no log tail. -/
theorem formatReport_fits :
    ((formatReport P r).length ≤ maxTelegramChars ∧ ShowsLogEnd P r) ↔
      fixedLength P r + 15 ≤ maxTelegramChars ∨
        field P r "log_tail" "" = "" ∧ fixedLength P r ≤ maxTelegramChars := by
  rw [and_iff_left (formatReport_showsLogEnd P r), length_formatReport, length_truncateLogTail,
    ← String.length_eq_zero_iff, maxTelegramChars, maxPayloadChars]
  split
  · next hshort => omega
  · next hlong => omega

end

/-- A field of the header is not cut. -/
theorem length_trigger (P : PyLibrary) (trigger : String) :
    trigger.length + 165 ≤ (formatReport P [("trigger", .str trigger)]).length := by
  have hfield : field P [("trigger", .str trigger)] "trigger" "unknown" = trigger := rfl
  rw [length_formatReport]
  unfold fixedLength escapedLength
  rw [hfield]
  omega

/-- A trigger as long as the limit overflows it. -/
theorem longTrigger_overflows : ¬ (formatReport .running
    [("trigger", .str (.ofList (List.replicate 4096 'x')))]).length ≤ maxTelegramChars := by
  have hlong := length_trigger .running (.ofList (List.replicate 4096 'x'))
  rw [String.length_ofList, List.length_replicate] at hlong
  unfold maxTelegramChars
  omega

end Synqro.TelegramBot
