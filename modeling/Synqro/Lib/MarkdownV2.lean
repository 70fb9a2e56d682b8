import Mathlib.Data.List.Infix

/-!
# MarkdownV2

A reader of the markup of messages, one character at a time: bold and italic entities, code, and
preformatted blocks with an optional language. A backslash takes the next character, of code 1 to
126, as itself everywhere. Outside code and preformatted blocks the other reserved characters must
be escaped, and inside them the backtick and the backslash must. Entities of other kinds, and
entities within bold or italic ones, are refused with the texts that break these rules.

The reader only adds spans at the end (`MarkdownV2.run_spans`), so a block whose text holds an
unescaped backtick or backslash is told from one that holds its text as it is by the first span in
which they differ (`MarkdownV2.run_pre`).
-/

namespace MarkdownV2

inductive Style where
  | bold
  | italic
deriving DecidableEq

/-- The character that opens and closes a styled text. -/
def Style.mark : Style → Char
  | .bold => '*'
  | .italic => '_'

/-- The kinds of entities. A block has a language, which may be empty. -/
inductive Kind where
  | styled (style : Style)
  | code
  | pre (language : List Char)
deriving DecidableEq

/-- A part of a message: a character, or an entity with its text. -/
inductive Span where
  | plain (c : Char)
  | entity (kind : Kind) (text : List Char)
deriving DecidableEq

/-- Where the reader is. -/
inductive Mode where
  | outside
  | escapeOutside
  | inside (kind : Kind) (text : List Char)
  | escapeInside (kind : Kind) (text : List Char)
  /-- After one backtick, which opens code or is the first of three. -/
  | tick
  /-- After two backticks: empty code, or the second of three. -/
  | twoTicks
  /-- After the three backticks that open a block. -/
  | language (read : List Char)
  /-- In a block, after `ticks` of the three backticks that close it. -/
  | closing (language text : List Char) (ticks : Nat)
deriving DecidableEq

/-- What has been read, and where the reader is. -/
structure State where
  spans : List Span
  mode : Mode
deriving DecidableEq

/-- The characters that can be escaped. -/
def isEscapable (c : Char) : Bool := 1 ≤ c.toNat && c.toNat ≤ 126

/-- The characters that must be escaped outside code and blocks. -/
def isReserved (c : Char) : Bool := "_*[]()~`>#+-=|\x7b\x7d.!\\".toList.contains c

/-- The characters that must be escaped in code and blocks. -/
def isCodeSpecial (c : Char) : Bool := c = '`' || c = '\\'

/-- The next character outside every entity. -/
def stepOutside (spans : List Span) (c : Char) : Option State :=
  if c = '\\' then some ⟨spans, .escapeOutside⟩
  else if c = '*' then some ⟨spans, .inside (.styled .bold) []⟩
  else if c = '_' then some ⟨spans, .inside (.styled .italic) []⟩
  else if c = '`' then some ⟨spans, .tick⟩
  else if isReserved c then none
  else some ⟨spans ++ [.plain c], .outside⟩

/-- The next character in an entity. -/
def stepInside (spans : List Span) (kind : Kind) (text : List Char) (c : Char) : Option State :=
  if c = '\\' then some ⟨spans, .escapeInside kind text⟩
  else
    match kind with
    | .styled style =>
      if c = style.mark then some ⟨spans ++ [.entity (.styled style) text], .outside⟩
      else if isReserved c then none
      else some ⟨spans, .inside (.styled style) (text ++ [c])⟩
    | .code =>
      if c = '`' then some ⟨spans ++ [.entity .code text], .outside⟩
      else some ⟨spans, .inside .code (text ++ [c])⟩
    | .pre language =>
      if c = '`' then some ⟨spans, .closing language text 1⟩
      else some ⟨spans, .inside (.pre language) (text ++ [c])⟩

/-- The next character. -/
def step (s : State) (c : Char) : Option State :=
  match s.mode with
  | .outside => stepOutside s.spans c
  | .escapeOutside => if isEscapable c then some ⟨s.spans ++ [.plain c], .outside⟩ else none
  | .inside kind text => stepInside s.spans kind text c
  | .escapeInside kind text =>
    if isEscapable c then some ⟨s.spans, .inside kind (text ++ [c])⟩ else none
  | .tick => if c = '`' then some ⟨s.spans, .twoTicks⟩ else stepInside s.spans .code [] c
  | .twoTicks =>
    if c = '`' then some ⟨s.spans, .language []⟩
    else stepOutside (s.spans ++ [.entity .code []]) c
  | .language read =>
    if c = '\n' then some ⟨s.spans, .inside (.pre read) []⟩
    else if c = '`' then some ⟨s.spans, .closing [] read 1⟩
    else if c.isWhitespace then some ⟨s.spans, .inside (.pre read) [c]⟩
    else some ⟨s.spans, .language (read ++ [c])⟩
  | .closing language text ticks =>
    if c ≠ '`' then none
    else if ticks = 2 then some ⟨s.spans ++ [.entity (.pre language) text], .outside⟩
    else some ⟨s.spans, .closing language text (ticks + 1)⟩

/-- The reader over a text. -/
def run (s : State) : List Char → Option State
  | [] => some s
  | c :: cs => (step s c).bind fun t => run t cs

/-- The spans of a message: every entity must be closed at its end. -/
def parse (cs : List Char) : Option (List Span) :=
  match run ⟨[], .outside⟩ cs with
  | some ⟨spans, .outside⟩ => some spans
  | some ⟨spans, .twoTicks⟩ => some (spans ++ [.entity .code []])
  | _ => none

theorem run_append {s : State} {cs ds : List Char} :
    run s (cs ++ ds) = (run s cs).bind fun t => run t ds := by
  induction cs generalizing s with
  | nil => rfl
  | cons c cs ih =>
    rw [List.cons_append, run, run, Option.bind_assoc]
    exact Option.bind_congr fun t _ => ih

theorem run_append_some {s t : State} {cs ds : List Char} (h : run s cs = some t) :
    run s (cs ++ ds) = run t ds := by
  rw [run_append, h, Option.bind_some]

/-! ## Spans are added at the end -/

theorem stepOutside_spans {spans : List Span} {c : Char} {t : State}
    (h : stepOutside spans c = some t) : spans <+: t.spans := by
  unfold stepOutside at h
  split at h
  · cases h
    exact List.prefix_rfl
  split at h
  · cases h
    exact List.prefix_rfl
  split at h
  · cases h
    exact List.prefix_rfl
  split at h
  · cases h
    exact List.prefix_rfl
  split at h
  · cases h
  · cases h
    exact List.prefix_append _ _

theorem stepInside_spans {spans : List Span} {kind : Kind} {text : List Char} {c : Char} {t : State}
    (h : stepInside spans kind text c = some t) : spans <+: t.spans := by
  unfold stepInside at h
  split at h
  · cases h
    exact List.prefix_rfl
  cases kind with
  | styled style =>
    dsimp only at h
    split at h
    · cases h
      exact List.prefix_append _ _
    split at h
    · cases h
    · cases h
      exact List.prefix_rfl
  | code =>
    dsimp only at h
    split at h
    · cases h
      exact List.prefix_append _ _
    · cases h
      exact List.prefix_rfl
  | pre language =>
    dsimp only at h
    split at h
    · cases h
      exact List.prefix_rfl
    · cases h
      exact List.prefix_rfl

theorem step_spans {s t : State} {c : Char} (h : step s c = some t) : s.spans <+: t.spans := by
  unfold step at h
  split at h
  · exact stepOutside_spans h
  · split at h
    · cases h
      exact List.prefix_append _ _
    · cases h
  · exact stepInside_spans h
  · split at h
    · cases h
      exact List.prefix_rfl
    · cases h
  · split at h
    · cases h
      exact List.prefix_rfl
    · exact stepInside_spans h
  · split at h
    · cases h
      exact List.prefix_rfl
    · exact (List.prefix_append _ _).trans (stepOutside_spans h)
  · split at h
    · cases h
      exact List.prefix_rfl
    split at h
    · cases h
      exact List.prefix_rfl
    split at h
    · cases h
      exact List.prefix_rfl
    · cases h
      exact List.prefix_rfl
  · split at h
    · cases h
    split at h
    · cases h
      exact List.prefix_append _ _
    · cases h
      exact List.prefix_rfl

theorem run_spans {s t : State} {cs : List Char} (h : run s cs = some t) : s.spans <+: t.spans := by
  induction cs generalizing s with
  | nil =>
    cases h
    exact List.prefix_rfl
  | cons c cs ih =>
    obtain ⟨u, hstep, hrun⟩ := Option.bind_eq_some_iff.1 h
    exact (step_spans hstep).trans (ih hrun)

/-! ## Texts that follow the rules -/

theorem isEscapable_of_isReserved {c : Char} (h : isReserved c = true) : isEscapable c = true := by
  have hall : "_*[]()~`>#+-=|\x7b\x7d.!\\".toList.all isEscapable = true := rfl
  exact List.all_eq_true.1 hall c (List.contains_iff_mem.1 h)

/-- A text that has been looked through holds no such character. -/
theorem forall_of_all {special : Char → Bool} {text : List Char}
    (h : text.all (!special ·) = true) : ∀ c ∈ text, special c = false := by
  intro c hc
  have hnot := List.all_eq_true.1 h c hc
  rwa [Bool.not_eq_true'] at hnot

theorem isCodeSpecial_eq_false {c : Char} : isCodeSpecial c = false ↔ c ≠ '`' ∧ c ≠ '\\' := by
  simp [isCodeSpecial]

/-- The markup characters are reserved. -/
theorem ne_of_not_reserved {c : Char} (h : isReserved c = false) :
    c ≠ '\\' ∧ c ≠ '*' ∧ c ≠ '_' ∧ c ≠ '`' := by
  refine ⟨?_, ?_, ?_, ?_⟩
  all_goals
    rintro rfl
    cases h

theorem run_plain {spans : List Span} {cs : List Char} (h : ∀ c ∈ cs, isReserved c = false) :
    run ⟨spans, .outside⟩ cs = some ⟨spans ++ cs.map .plain, .outside⟩ := by
  induction cs generalizing spans with
  | nil => rw [run, List.map_nil, List.append_nil]
  | cons c cs ih =>
    have hc := h c (.head _)
    obtain ⟨h₁, h₂, h₃, h₄⟩ := ne_of_not_reserved hc
    have hstep : step ⟨spans, .outside⟩ c = some ⟨spans ++ [.plain c], .outside⟩ := by
      simp only [step, stepOutside, if_neg h₁, if_neg h₂, if_neg h₃, if_neg h₄, hc,
        Bool.false_eq_true, if_false]
    rw [run, hstep, Option.bind_some, ih fun d hd => h d (.tail _ hd), List.append_assoc]
    rfl

/-- A styled text between its marks. -/
theorem run_styled {spans : List Span} {style : Style} {cs : List Char}
    (h : ∀ c ∈ cs, isReserved c = false) :
    run ⟨spans, .outside⟩ (style.mark :: cs ++ [style.mark]) =
      some ⟨spans ++ [.entity (.styled style) cs], .outside⟩ := by
  have hinside (ds text : List Char) (hds : ∀ c ∈ ds, isReserved c = false) :
      run ⟨spans, .inside (.styled style) text⟩ (ds ++ [style.mark]) =
        some ⟨spans ++ [.entity (.styled style) (text ++ ds)], .outside⟩ := by
    induction ds generalizing text with
    | nil =>
      rw [List.append_nil]
      cases style <;> rfl
    | cons c ds ih =>
      have hc := hds c (.head _)
      obtain ⟨h₁, h₂, h₃, -⟩ := ne_of_not_reserved hc
      have hmark : c ≠ style.mark := by
        cases style
        · exact h₂
        · exact h₃
      have hstep : step ⟨spans, .inside (.styled style) text⟩ c =
          some ⟨spans, .inside (.styled style) (text ++ [c])⟩ := by
        simp only [step, stepInside, if_neg h₁, if_neg hmark, hc, Bool.false_eq_true, if_false]
      rw [List.cons_append, run, hstep, Option.bind_some, ih _ fun d hd => hds d (.tail _ hd),
        List.append_assoc]
      rfl
  have hopen : run ⟨spans, .outside⟩ (style.mark :: cs ++ [style.mark]) =
      run ⟨spans, .inside (.styled style) []⟩ (cs ++ [style.mark]) := by
    cases style <;> rfl
  rw [hopen]
  exact hinside cs [] h

/-- The text with its reserved characters escaped. -/
def escape (cs : List Char) : List Char :=
  cs.flatMap fun c => if isReserved c then ['\\', c] else [c]

/-- An escaped text in code. -/
theorem run_escaped {spans : List Span} {text cs : List Char} :
    run ⟨spans, .inside .code text⟩ (escape cs) = some ⟨spans, .inside .code (text ++ cs)⟩ := by
  induction cs generalizing text with
  | nil =>
    rw [List.append_nil]
    rfl
  | cons c cs ih =>
    have hchar : run ⟨spans, .inside .code text⟩ (if isReserved c then ['\\', c] else [c]) =
        some ⟨spans, .inside .code (text ++ [c])⟩ := by
      cases hc : isReserved c with
      | true =>
        have hstep : step ⟨spans, .escapeInside .code text⟩ c =
            some ⟨spans, .inside .code (text ++ [c])⟩ := if_pos (isEscapable_of_isReserved hc)
        show (step ⟨spans, .escapeInside .code text⟩ c).bind some = _
        rw [hstep, Option.bind_some]
      | false =>
        obtain ⟨h₁, -, -, h₄⟩ := ne_of_not_reserved hc
        simp only [run, step, stepInside, if_neg h₁, if_neg h₄, Bool.false_eq_true, if_false,
          Option.bind_some]
    rw [escape, List.flatMap_cons, run_append_some hchar]
    rw [escape] at ih
    rw [ih, List.append_assoc]
    rfl

/-! ## Blocks -/

/-- The text of a block that holds no backtick and no backslash is itself. -/
theorem run_pre_clean {spans : List Span} {language text cs : List Char}
    (h : ∀ c ∈ cs, isCodeSpecial c = false) :
    run ⟨spans, .inside (.pre language) text⟩ cs =
      some ⟨spans, .inside (.pre language) (text ++ cs)⟩ := by
  induction cs generalizing text with
  | nil => rw [run, List.append_nil]
  | cons c cs ih =>
    obtain ⟨h₁, h₂⟩ := isCodeSpecial_eq_false.1 (h c (.head _))
    have hstep : step ⟨spans, .inside (.pre language) text⟩ c =
        some ⟨spans, .inside (.pre language) (text ++ [c])⟩ := by
      simp only [step, stepInside, if_neg h₁, if_neg h₂]
    rw [run, hstep, Option.bind_some, ih fun d hd => h d (.tail _ hd), List.append_assoc]
    rfl

/-- The end of a block: a line break and three backticks. -/
def blockEnd (rest : List Char) : List Char := '\n' :: '`' :: '`' :: '`' :: rest

theorem run_blockEnd {spans : List Span} {language text rest : List Char} :
    run ⟨spans, .inside (.pre language) text⟩ (blockEnd rest) =
      run ⟨spans ++ [.entity (.pre language) (text ++ ['\n'])], .outside⟩ rest := rfl

/-- The block shows something shorter than `n` characters, or at most as long. -/
def Shows (spans : List Span) (language : List Char) (n : Nat) (dirty : Prop) (t : State) : Prop :=
  ∃ shown, spans ++ [.entity (.pre language) shown] <+: t.spans ∧ shown.length ≤ n ∧
    (dirty → shown.length < n)

/-- After a backtick in a block only two more let the reader go on, and they close it. -/
theorem run_tick_spans {spans : List Span} {language text cs rest : List Char} {t : State}
    (h : run ⟨spans, .closing language text 1⟩ (cs ++ blockEnd rest) = some t) :
    spans ++ [.entity (.pre language) text] <+: t.spans := by
  have htick (ticks : Nat) (ds : List Char) (h : run ⟨spans, .closing language text ticks⟩
      (ds ++ blockEnd rest) = some t) : ∃ es, ds = '`' :: es := by
    cases ds with
    | nil => cases h
    | cons d ds =>
      obtain ⟨u, hstep, -⟩ := Option.bind_eq_some_iff.1 h
      by_cases hd : d = '`'
      · exact ⟨ds, by rw [hd]⟩
      · have hnone : step ⟨spans, .closing language text ticks⟩ d = none := if_pos hd
        rw [hnone] at hstep
        cases hstep
  obtain ⟨ds, rfl⟩ := htick 1 cs h
  obtain ⟨es, rfl⟩ := htick 2 ds h
  have hrun : run ⟨spans ++ [.entity (.pre language) text], .outside⟩ (es ++ blockEnd rest) =
    some t := h
  exact run_spans hrun

theorem run_pre_shows {spans : List Span} {language text cs rest : List Char} {t : State}
    (h : run ⟨spans, .inside (.pre language) text⟩ (cs ++ blockEnd rest) = some t) :
    Shows spans language (text.length + cs.length + 1) (∃ c ∈ cs, isCodeSpecial c = true) t := by
  induction hn : cs.length using Nat.strong_induction_on generalizing cs text with
  | h n ih =>
    subst hn
    cases cs with
    | nil =>
      rw [List.nil_append, run_blockEnd] at h
      refine ⟨_, run_spans h, ?_, fun hdirty => ?_⟩
      · rw [List.length_append]
        exact Nat.le_refl _
      · obtain ⟨c, hc, -⟩ := hdirty
        cases hc
    | cons c cs =>
      rw [List.cons_append, run] at h
      by_cases hback : c = '\\'
      · -- the backslash takes the next character, which is the line break at the latest
        subst hback
        cases cs with
        | nil =>
          have hrun : run ⟨spans ++ [.entity (.pre language) (text ++ ['\n'])], .outside⟩ rest =
            some t := h
          refine ⟨_, run_spans hrun, ?_, fun _ => ?_⟩
          all_goals
            rw [List.length_append, List.length_singleton, List.length_singleton]
            omega
        | cons d cs =>
          change run ⟨spans, .escapeInside (.pre language) text⟩ (d :: (cs ++ blockEnd rest)) =
            some t at h
          obtain ⟨u, hstep, hrun⟩ := Option.bind_eq_some_iff.1 h
          obtain rfl : (⟨spans, .inside (.pre language) (text ++ [d])⟩ : State) = u := by
            simp only [step] at hstep
            split at hstep
            · exact Option.some.inj hstep
            · cases hstep
          obtain ⟨shown, hspans, hle, -⟩ := ih cs.length (by simp only [List.length_cons]; omega)
            hrun rfl
          rw [List.length_append, List.length_singleton] at hle
          refine ⟨shown, hspans, ?_, fun _ => ?_⟩
          all_goals
            simp only [List.length_cons]
            omega
      by_cases htick : c = '`'
      · subst htick
        have hspans := run_tick_spans h
        refine ⟨text, hspans, ?_, fun _ => ?_⟩
        all_goals
          rw [List.length_cons]
          omega
      · have hstep : step ⟨spans, .inside (.pre language) text⟩ c =
            some ⟨spans, .inside (.pre language) (text ++ [c])⟩ := by
          simp only [step, stepInside, if_neg hback, if_neg htick]
        rw [hstep, Option.bind_some] at h
        obtain ⟨shown, hspans, hle, hlt⟩ := ih cs.length (Nat.lt_succ_self _) h rfl
        rw [List.length_append, List.length_singleton] at hle hlt
        refine ⟨shown, hspans, ?_, fun hdirty => ?_⟩
        · rw [List.length_cons]
          omega
        · have hcs : ∃ d ∈ cs, isCodeSpecial d = true := by
            obtain ⟨d, hd, hspecial⟩ := hdirty
            rcases List.mem_cons.1 hd with rfl | hd
            · rw [isCodeSpecial_eq_false.2 ⟨htick, hback⟩] at hspecial
              cases hspecial
            · exact ⟨d, hd, hspecial⟩
          have hshort := hlt hcs
          rw [List.length_cons]
          omega

/-! ## Templates -/

/-- A part of a template. Code is written escaped, with the character after it, which tells an empty
one from the first two of three backticks; a block is written as it is. -/
inductive Piece where
  | plain (text : List Char)
  | styled (style : Style) (text : List Char)
  | code (text : List Char) (next : Char)
  | block (text : List Char)

namespace Piece

/-- What stands in the message for the part. -/
def source : Piece → List Char
  | .plain text => text
  | .styled style text => style.mark :: text ++ [style.mark]
  | .code text next => '`' :: escape text ++ ['`', next]
  | .block text => "```\n".toList ++ text ++ "\n```".toList

/-- What the part is to be read as. -/
def spans : Piece → List Span
  | .plain text => text.map .plain
  | .styled style text => [.entity (.styled style) text]
  | .code text next => [.entity .code text, .plain next]
  | .block text => [.entity (.pre []) (text ++ ['\n'])]

/-- The words of a template, outside code and blocks, hold no reserved character. -/
def Literal : Piece → Prop
  | .plain text | .styled _ text => ∀ c ∈ text, isReserved c = false
  | .code _ next => isReserved next = false
  | .block _ => True

/-- The text of a block holds no backtick and no backslash. -/
def Clean : Piece → Prop
  | .block text => ∀ c ∈ text, isCodeSpecial c = false
  | .plain _ | .styled _ _ | .code _ _ => True

theorem run_code {sp : List Span} {text : List Char} {next : Char} (h : isReserved next = false) :
    run ⟨sp, .outside⟩ ('`' :: escape text ++ ['`', next]) =
      some ⟨sp ++ [.entity .code text, .plain next], .outside⟩ := by
  obtain ⟨h₁, h₂, h₃, h₄⟩ := ne_of_not_reserved h
  have hnext (spans : List Span) :
    stepOutside spans next = some ⟨spans ++ [.plain next], .outside⟩ := by
    simp only [stepOutside, if_neg h₁, if_neg h₂, if_neg h₃, if_neg h₄, h, Bool.false_eq_true,
      if_false]
  have hend : run ⟨sp, .inside .code []⟩ (escape text ++ ['`', next]) =
      some ⟨sp ++ [.entity .code text, .plain next], .outside⟩ := by
    rw [run_append_some run_escaped]
    show (stepOutside (sp ++ [.entity .code text]) next).bind some = _
    rw [hnext, Option.bind_some, List.append_assoc]
    rfl
  have hopen (c : Char) (cs : List Char) (hc : c ≠ '`') :
      run ⟨sp, .outside⟩ ('`' :: c :: cs) = run ⟨sp, .inside .code []⟩ (c :: cs) := by
    have hstep : step ⟨sp, .tick⟩ c = stepInside sp .code [] c := if_neg hc
    show (step ⟨sp, .tick⟩ c).bind _ = (stepInside sp .code [] c).bind _
    rw [hstep]
  cases text with
  | nil =>
    have hstep : step ⟨sp, .twoTicks⟩ next =
      stepOutside (sp ++ [.entity .code []]) next := if_neg h₄
    show (step ⟨sp, .twoTicks⟩ next).bind some = _
    rw [hstep, hnext, Option.bind_some, List.append_assoc]
    rfl
  | cons c cs =>
    rw [← hend]
    cases hc : isReserved c with
    | true =>
      have hescape : escape (c :: cs) = '\\' :: c :: escape cs := by
        rw [escape, List.flatMap_cons, hc]
        rfl
      rw [hescape]
      exact hopen _ _ (by decide)
    | false =>
      have hescape : escape (c :: cs) = c :: escape cs := by
        rw [escape, List.flatMap_cons, hc]
        rfl
      rw [hescape]
      exact hopen _ _ (ne_of_not_reserved hc).2.2.2

theorem run_source {sp : List Span} {p : Piece} (hl : p.Literal) (hc : p.Clean) :
    run ⟨sp, .outside⟩ p.source = some ⟨sp ++ p.spans, .outside⟩ := by
  cases p with
  | plain text => exact run_plain hl
  | styled style text => exact run_styled hl
  | code text next => exact run_code hl
  | block text =>
    show run ⟨sp, .inside (.pre []) []⟩ (text ++ "\n```".toList) = _
    rw [run_append_some (run_pre_clean hc)]
    rfl

theorem run_pieces {sp : List Span} {ps : List Piece} (hl : ∀ p ∈ ps, p.Literal)
    (hc : ∀ p ∈ ps, p.Clean) :
    run ⟨sp, .outside⟩ (ps.flatMap source) = some ⟨sp ++ ps.flatMap spans, .outside⟩ := by
  induction ps generalizing sp with
  | nil => rw [List.flatMap_nil, List.flatMap_nil, List.append_nil, run]
  | cons p ps ih =>
    rw [List.flatMap_cons, run_append_some (run_source (hl p (.head _)) (hc p (.head _))),
      ih (fun q hq => hl q (.tail _ hq)) fun q hq => hc q (.tail _ hq), List.flatMap_cons,
      List.append_assoc]

/-- A template with a block that is not clean is not read as it should be. -/
theorem not_prefix_of_dirty {sp : List Span} {ps : List Piece} {t : State}
    (hl : ∀ p ∈ ps, p.Literal) (hdirty : ¬ ∀ p ∈ ps, p.Clean)
    (h : run ⟨sp, .outside⟩ (ps.flatMap source) = some t) :
    ¬ t.spans <+: sp ++ ps.flatMap spans := by
  induction ps generalizing sp with
  | nil => exact absurd (List.forall_mem_nil _) hdirty
  | cons p ps ih =>
    rw [List.flatMap_cons] at h ⊢
    by_cases hp : p.Clean
    · have hrest : ¬ ∀ q ∈ ps, q.Clean := fun hps => hdirty (List.forall_mem_cons.2 ⟨hp, hps⟩)
      rw [run_append_some (run_source (hl p (.head _)) hp)] at h
      rw [← List.append_assoc]
      exact ih (fun q hq => hl q (.tail _ hq)) hrest h
    · cases p with
      | plain text => exact absurd trivial hp
      | styled style text => exact absurd trivial hp
      | code text next => exact absurd trivial hp
      | block text =>
        have hspecial : ∃ c ∈ text, isCodeSpecial c = true := by
          obtain ⟨c, hc⟩ := Classical.not_forall.1 hp
          obtain ⟨hmem, hc⟩ := Classical.not_imp.1 hc
          exact ⟨c, hmem, Bool.of_not_eq_false hc⟩
        have hblock : run ⟨sp, .inside (.pre []) []⟩ (text ++ blockEnd (ps.flatMap source)) =
            some t := by
          rw [← h, source, List.append_assoc, List.append_assoc]
          rfl
        obtain ⟨shown, hspans, -, hlt⟩ := run_pre_shows hblock
        intro hprefix
        have hsame := (List.prefix_append_right_inj sp).1 (hspans.trans hprefix)
        obtain ⟨hspan, -⟩ := List.cons_prefix_cons.1 hsame
        have hlong : shown.length = text.length + 1 := by
          injection hspan with _ htext
          rw [htext, List.length_append, List.length_singleton]
        have hshort := hlt hspecial
        rw [List.length_nil] at hshort
        omega

end Piece

/-- A template is read as it should be exactly when its blocks hold no backtick and no backslash. -/
theorem parse_pieces {ps : List Piece} (hl : ∀ p ∈ ps, p.Literal) :
    parse (ps.flatMap Piece.source) = some (ps.flatMap Piece.spans) ↔ ∀ p ∈ ps, p.Clean := by
  constructor
  · intro h
    refine Classical.byContradiction fun hdirty => ?_
    unfold parse at h
    split at h
    · next spans hrun =>
      cases h
      exact Piece.not_prefix_of_dirty hl hdirty hrun (List.prefix_rfl)
    · next spans hrun =>
      refine Piece.not_prefix_of_dirty hl hdirty hrun ?_
      rw [List.nil_append, ← Option.some.inj h]
      exact List.prefix_append _ _
    · cases h
  · intro hc
    rw [parse, Piece.run_pieces hl hc]
    rfl

end MarkdownV2
