import Synqro.Lib.MarkdownV2
import Synqro.ReportFormat

/-!
# The markup of a message

The message of a report as a template: its words, the code of its header, which is written escaped,
and two blocks, the error message and the log tail, which are not. `formatReport_markup` says for
which reports the message is read with the entities of the template and the texts of the fields in
them.
-/

namespace Synqro.TelegramBot

open MarkdownV2 (Piece Style)

theorem toList_escapeMdv2 (text : String) :
    (escapeMdv2 text).toList = MarkdownV2.escape text.toList := by
  rw [escapeMdv2, String.toList_ofList]
  rfl

section
variable (P : PyLibrary) (r : List (String × PyValue))

/-- What is shown of the log tail, with the mark in front when it was cut. -/
def logShown : String :=
  truncateLogTail (field P r "log_tail" "") (maxPayloadChars - fixedLength P r)

def headerPieces : List Piece :=
  [.plain "🔴 ".toList, .styled .bold "Synqro Crash Report".toList, .plain "\ninstall: ".toList,
    .code ((installPrefix P r).toList ++ "...\n".toList) 't', .plain "rigger: ".toList,
    .code (field P r "trigger" "unknown").toList '\n', .plain "time: ".toList,
    .code (field P r "timestamp" "unknown").toList '\n', .plain "version: ".toList,
    .code (field P r "version" "unknown").toList '\n', .plain "os: ".toList,
    .code (field P r "os" "unknown").toList '\n', .plain "exit: ".toList,
    .code (field P r "exit_code" "unknown").toList '\n', .plain "hmac: ".toList,
    .code (hmacPrefix P r).toList '\n']

def errorPieces : List Piece :=
  if field P r "error_message" "" = "" then []
  else [.plain "\n".toList, .styled .bold "Error:".toList, .plain "\n".toList,
    .block (errorShown P r).toList, .plain "\n".toList]

def logPieces : List Piece :=
  [.plain "\n".toList, .styled .bold "Log tail:".toList, .plain "\n".toList,
    .block (logShown P r).toList, .plain "\n".toList,
    .styled .italic "Report generated by Synqro crash reporter".toList]

/-- The template of the message, with the texts of the fields in it. -/
def reportPieces : List Piece := headerPieces P r ++ errorPieces P r ++ logPieces P r

theorem headerPieces_source :
    (headerPieces P r).flatMap Piece.source = (reportHeader P r).toList := by
  have h₁ : "🔴 *Synqro Crash Report*\ninstall: `".toList = "🔴 ".toList ++ ('*' ::
    "Synqro Crash Report".toList ++ ['*']) ++ "\ninstall: ".toList ++ ['`'] := by decide
  have h₂ : "\\.\\.\\.\n`trigger: `".toList = ['\\', '.', '\\', '.', '\\', '.', '\n'] ++
    ['`', 't'] ++ "rigger: ".toList ++ ['`'] := rfl
  have hdots : MarkdownV2.escape "...\n".toList =
    ['\\', '.', '\\', '.', '\\', '.', '\n'] := by decide
  have hescape (cs ds : List Char) : MarkdownV2.escape (cs ++ ds) = MarkdownV2.escape cs ++
    MarkdownV2.escape ds := List.flatMap_append
  have h₃ : "`\ntime: `".toList = ['`', '\n'] ++ "time: ".toList ++ ['`'] := rfl
  have h₄ : "`\nversion: `".toList = ['`', '\n'] ++ "version: ".toList ++ ['`'] := rfl
  have h₅ : "`\nos: `".toList = ['`', '\n'] ++ "os: ".toList ++ ['`'] := rfl
  have h₆ : "`\nexit: `".toList = ['`', '\n'] ++ "exit: ".toList ++ ['`'] := rfl
  have h₇ : "`\nhmac: `".toList = ['`', '\n'] ++ "hmac: ".toList ++ ['`'] := rfl
  have h₈ : "`\n".toList = ['`', '\n'] := rfl
  unfold headerPieces reportHeader
  simp only [String.toList_append, h₁, h₂, h₃, h₄, h₅, h₆, h₇, h₈, toList_escapeMdv2]
  simp only [List.flatMap_cons, List.flatMap_nil, Piece.source, hescape, hdots, Style.mark]
  simp only [List.append_assoc, List.cons_append, List.nil_append, List.append_nil]

theorem errorPieces_source :
    (errorPieces P r).flatMap Piece.source = (errorSection P r).toList := by
  have h₁ : "\n*Error:*\n```\n".toList = "\n".toList ++ ('*' :: "Error:".toList ++ ['*']) ++
    "\n".toList ++ "```\n".toList := rfl
  have h₂ : "\n```\n".toList = "\n```".toList ++ "\n".toList := rfl
  unfold errorPieces errorSection
  split
  · rfl
  · simp only [String.toList_append, h₁, h₂]
    simp only [List.flatMap_cons, List.flatMap_nil, Piece.source, Style.mark]
    simp only [List.append_assoc, List.cons_append, List.nil_append, List.append_nil]

theorem reportPieces_source :
    (reportPieces P r).flatMap Piece.source = (formatReport P r).toList := by
  have h₁ : "\n*Log tail:*\n```\n".toList = "\n".toList ++ ('*' :: "Log tail:".toList ++ ['*']) ++
    "\n".toList ++ "```\n".toList := rfl
  have h₂ : "\n_Report generated by Synqro crash reporter_".toList = "\n".toList ++ ('_' ::
    "Report generated by Synqro crash reporter".toList ++ ['_']) := by decide
  rw [formatReport_eq, reportPieces, List.flatMap_append, List.flatMap_append,
    headerPieces_source, errorPieces_source]
  unfold logPieces logShown
  simp only [String.toList_append, h₁, h₂]
  simp only [List.flatMap_cons, List.flatMap_nil, Piece.source, Style.mark]
  simp only [List.append_assoc, List.cons_append, List.nil_append, List.append_nil]

/-- The words of the template need no escape. -/
theorem reportPieces_literal : ∀ p ∈ reportPieces P r, p.Literal := by
  have word {text : List Char} (h : text.all (!MarkdownV2.isReserved ·) = true) :
      ∀ c ∈ text, MarkdownV2.isReserved c = false := MarkdownV2.forall_of_all h
  have hheader : ∀ p ∈ headerPieces P r, p.Literal := by
    simp only [headerPieces, List.forall_mem_cons, Piece.Literal]
    exact ⟨word rfl, word rfl, word rfl, rfl, word rfl, rfl, word rfl, rfl, word rfl, rfl,
      word rfl, rfl, word rfl, rfl, word rfl, rfl, List.forall_mem_nil _⟩
  have herror : ∀ p ∈ errorPieces P r, p.Literal := by
    unfold errorPieces
    split
    · exact List.forall_mem_nil _
    · simp only [List.forall_mem_cons, Piece.Literal]
      exact ⟨word rfl, word rfl, word rfl, trivial, word rfl, List.forall_mem_nil _⟩
  have hlog : ∀ p ∈ logPieces P r, p.Literal := by
    simp only [logPieces, List.forall_mem_cons, Piece.Literal]
    exact ⟨word rfl, word rfl, word rfl, trivial, word rfl, word rfl, List.forall_mem_nil _⟩
  intro p hp
  rcases List.mem_append.1 hp with hp | hp
  · exact (List.mem_append.1 hp).elim (hheader p) (herror p)
  · exact hlog p hp

/-- The blocks of the template are the error message and the log tail. -/
theorem reportPieces_clean : (∀ p ∈ reportPieces P r, p.Clean) ↔
    (∀ c ∈ (errorShown P r).toList, MarkdownV2.isCodeSpecial c = false) ∧
      ∀ c ∈ (logShown P r).toList, MarkdownV2.isCodeSpecial c = false := by
  have hheader : ∀ p ∈ headerPieces P r, p.Clean := by
    simp only [headerPieces, List.forall_mem_cons, Piece.Clean, true_and]
    exact List.forall_mem_nil _
  have herror : (∀ p ∈ errorPieces P r, p.Clean) ↔
      ∀ c ∈ (errorShown P r).toList, MarkdownV2.isCodeSpecial c = false := by
    unfold errorPieces errorShown
    split
    · next hempty =>
      rw [hempty]
      exact ⟨fun _ c hc => (List.not_mem_nil hc).elim, fun _ => List.forall_mem_nil _⟩
    · simp only [List.forall_mem_cons, Piece.Clean, true_and]
      exact and_iff_left (List.forall_mem_nil _)
  have hlog : (∀ p ∈ logPieces P r, p.Clean) ↔
      ∀ c ∈ (logShown P r).toList, MarkdownV2.isCodeSpecial c = false := by
    simp only [logPieces, List.forall_mem_cons, Piece.Clean, true_and]
    exact and_iff_left (List.forall_mem_nil _)
  rw [reportPieces, List.forall_mem_append, List.forall_mem_append, herror, hlog]
  exact and_congr_left fun _ => and_iff_right hheader

end

/-! ## What is shown -/

/-- How many characters of the end of a log tail are shown. -/
def keptLength (logLength budget : Nat) : Nat :=
  if logLength ≤ budget then logLength else budget - 15

/-- What is shown of a log tail is clean when the end that is kept is: the mark is. -/
theorem truncateLogTail_clean {logTail : String} {budget : Nat} :
    (∀ c ∈ (truncateLogTail logTail budget).toList, MarkdownV2.isCodeSpecial c = false) ↔
      ∀ c ∈ logTail.toList.drop (logTail.length - keptLength logTail.length budget),
        MarkdownV2.isCodeSpecial c = false := by
  unfold truncateLogTail keptLength
  split
  · rw [Nat.sub_self, List.drop_zero]
  · next hlong =>
    have hmark : ∀ c ∈ "...[truncated]\n".toList, MarkdownV2.isCodeSpecial c = false :=
      MarkdownV2.forall_of_all rfl
    have hlength : "...[truncated]\n".length = 15 := rfl
    dsimp only
    rw [hlength, String.toList_append, List.forall_mem_append, and_iff_right hmark,
      String.toList_ofList]
    by_cases hbudget : 15 ≤ budget
    · rw [show logTail.length - budget + 15 = logTail.length - (budget - 15) by omega]
    · have hzero : budget - 15 = 0 := by omega
      have hend : logTail.toList.length ≤ logTail.length - budget + 15 := by
        rw [String.length_toList]
        omega
      rw [hzero, Nat.sub_zero, List.drop_eq_nil_of_le hend,
        List.drop_eq_nil_of_le (Nat.le_of_eq String.length_toList)]

section
variable (P : PyLibrary) (r : List (String × PyValue))

/-- The message is read as its template, with the texts of the fields in the entities that are
opened for them, exactly when what is shown of the error message and of the log tail holds no
backtick and no backslash. -/
theorem formatReport_markup :
    MarkdownV2.parse (formatReport P r).toList = some ((reportPieces P r).flatMap Piece.spans) ↔
      (∀ c ∈ (field P r "error_message" "").toList.take 400, MarkdownV2.isCodeSpecial c = false) ∧
      ∀ c ∈ (field P r "log_tail" "").toList.drop ((field P r "log_tail" "").length -
          keptLength (field P r "log_tail" "").length (maxPayloadChars - fixedLength P r)),
        MarkdownV2.isCodeSpecial c = false := by
  rw [← reportPieces_source, MarkdownV2.parse_pieces (reportPieces_literal P r),
    reportPieces_clean, logShown, truncateLogTail_clean, errorShown, String.toList_ofList]

end

/-- A log tail that closes its block. -/
theorem ticks_break_out :
    MarkdownV2.parse (formatReport .running [("log_tail", .str "```")]).toList ≠
    some ((reportPieces .running [("log_tail", .str "```")]).flatMap Piece.spans) := by
  intro h
  rw [← reportPieces_source, MarkdownV2.parse_pieces (reportPieces_literal _ _),
    reportPieces_clean, logShown] at h
  have hfixed : fixedLength .running [("log_tail", .str "```")] ≤ 3000 := by decide
  have hshown : truncateLogTail "```" (maxPayloadChars - fixedLength .running
      [("log_tail", .str "```")]) = "```" := by
    refine if_pos ?_
    have hlength : "```".length = 3 := rfl
    rw [hlength, maxPayloadChars]
    omega
  have hclean := h.2 '`'
  rw [show field .running [("log_tail", .str "```")] "log_tail" "" = "```" from rfl,
    hshown] at hclean
  exact absurd (hclean (by decide)) (by decide)

end Synqro.TelegramBot
