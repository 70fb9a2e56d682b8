import Synqro.Lib.Json
import Mathlib.Tactic.IntervalCases

/-!
# JSON texts: printing and reading back

`Json.printWith` prints a tree with the standard string escapes under a `Layout`: `compact` has no
white space, `pretty` puts every member on a line of its own, two spaces deeper than its parent.
`Json.read` reads a text back, giving up on texts nested deeper than its limit. Reading inverts
printing (`Json.read_printWith`), so a printed text determines its tree (`Json.printWith_inj`).
-/

namespace Json

/-! ## Printing -/

/-- The white space between tokens. -/
def isSpace (c : Char) : Bool := c == ' ' || c == '\n' || c == '\t' || c == '\r'

/-- Where a printer puts white space: before a member at a nesting level and after a colon. -/
structure Layout where
  newline : Nat → List Char
  afterColon : List Char
  newline_space : ∀ k, (newline k).all isSpace = true
  afterColon_space : afterColon.all isSpace = true

/-- No white space at all. -/
def compact : Layout := ⟨fun _ => [], [], fun _ => rfl, rfl⟩

/-- One member on each line, indented by two spaces for each level. -/
def pretty : Layout where
  newline k := '\n' :: List.replicate (2 * k) ' '
  afterColon := [' ']
  newline_space k := by
    rw [List.all_cons, List.all_replicate]
    split <;> decide
  afterColon_space := by decide

/-- The letter of a character that has an escape of two characters. -/
def shortEscape? (c : Char) : Option Char :=
  if c = '"' then some '"'
  else if c = '\\' then some '\\'
  else if c = '\x08' then some 'b'
  else if c = '\x0c' then some 'f'
  else if c = '\n' then some 'n'
  else if c = '\r' then some 'r'
  else if c = '\t' then some 't'
  else none

/-- The text of a character inside a string. -/
def escapeChar (c : Char) : List Char :=
  match shortEscape? c with
  | some e => ['\\', e]
  | none =>
    if c.toNat < 32 then
      ['\\', 'u', '0', '0', Nat.digitChar (c.toNat / 16), Nat.digitChar (c.toNat % 16)]
    else [c]

/-- The text of a string, quotes included. -/
def printStr (s : String) : List Char := '"' :: (s.toList.flatMap escapeChar ++ ['"'])

/-- The text of a number. -/
def printNumber : Number → List Char
  | .posInt n => Nat.toDigits 10 n.toNat
  | .negInt k => '-' :: Nat.toDigits 10 (k.val + 1)
  | .float t => t.chars

mutual

/-- The text of a tree that stands at nesting level `k`. -/
def printWith (L : Layout) : Nat → Json → List Char
  | _, .null => ['n', 'u', 'l', 'l']
  | _, .bool true => ['t', 'r', 'u', 'e']
  | _, .bool false => ['f', 'a', 'l', 's', 'e']
  | _, .num n => printNumber n
  | _, .str s => printStr s
  | _, .arr [] => ['[', ']']
  | k, .arr (x :: xs) =>
    '[' :: (L.newline (k + 1) ++ (printWith L (k + 1) x ++ (printTail L (k + 1) xs ++
      (L.newline k ++ [']']))))
  | _, .obj [] => ['{', '}']
  | k, .obj ((key, v) :: ms) =>
    '{' :: (L.newline (k + 1) ++ (printStr key ++ (':' :: (L.afterColon ++
      (printWith L (k + 1) v ++ (printMembers L (k + 1) ms ++ (L.newline k ++ ['}'])))))))

/-- The text of the elements after the first. -/
def printTail (L : Layout) : Nat → List Json → List Char
  | _, [] => []
  | k, x :: xs => ',' :: (L.newline k ++ (printWith L k x ++ printTail L k xs))

/-- The text of the members after the first. -/
def printMembers (L : Layout) : Nat → List (String × Json) → List Char
  | _, [] => []
  | k, (key, v) :: ms =>
    ',' :: (L.newline k ++ (printStr key ++ (':' :: (L.afterColon ++
      (printWith L k v ++ printMembers L k ms)))))
end

/-! ## Reading -/

/-- The text from its first character that is not white space. -/
def skipSpace (cs : List Char) : List Char := cs.dropWhile isSpace

/-- What follows `c`, when it is the first character that is not white space. -/
def expect (c : Char) (cs : List Char) : Option (List Char) :=
  match skipSpace cs with
  | d :: r => if d = c then some r else none
  | [] => none

/-- The value of a hexadecimal digit. -/
def hexValue? (c : Char) : Option Nat :=
  if '0' ≤ c ∧ c ≤ '9' then some (c.toNat - 48)
  else if 'a' ≤ c ∧ c ≤ 'f' then some (c.toNat - 87)
  else if 'A' ≤ c ∧ c ≤ 'F' then some (c.toNat - 55)
  else none

/-- The code unit of four hexadecimal digits. -/
def readHex4 : List Char → Option (Nat × List Char)
  | a :: b :: c :: d :: r => do
    let a ← hexValue? a
    let b ← hexValue? b
    let c ← hexValue? c
    let d ← hexValue? d
    return (((a * 16 + b) * 16 + c) * 16 + d, r)
  | _ => none

/-- The character of an escape, after its backslash; surrogates must come in pairs. -/
def readEscape : List Char → Option (Char × List Char)
  | [] => none
  | e :: r =>
    if e = '"' then some ('"', r)
    else if e = '\\' then some ('\\', r)
    else if e = '/' then some ('/', r)
    else if e = 'b' then some ('\x08', r)
    else if e = 'f' then some ('\x0c', r)
    else if e = 'n' then some ('\n', r)
    else if e = 'r' then some ('\r', r)
    else if e = 't' then some ('\t', r)
    else if e = 'u' then do
      let (n, r) ← readHex4 r
      if n < 0xD800 ∨ 0xDFFF < n then return (Char.ofNat n, r)
      else if n < 0xDC00 then
        match r with
        | '\\' :: 'u' :: r =>
          let (m, r) ← readHex4 r
          if 0xDC00 ≤ m ∧ m ≤ 0xDFFF then
            return (Char.ofNat (0x10000 + (n - 0xD800) * 0x400 + (m - 0xDC00)), r)
          else none
        | _ => none
      else none
    else none

/-- The characters of a string, after its opening quote. -/
def readStr : Nat → List Char → Option (List Char × List Char)
  | 0, _ => none
  | _ + 1, [] => none
  | fuel + 1, c :: r =>
    if c = '"' then some ([], r)
    else if c = '\\' then do
      let (d, r) ← readEscape r
      let (s, r) ← readStr fuel r
      return (d :: s, r)
    else if c.toNat < 32 then none
    else do
      let (s, r) ← readStr fuel r
      return (c :: s, r)

/-- Decimal digits without a leading zero. -/
def isInteger (ds : List Char) : Bool :=
  ds.all Char.isDigit && ds != [] && (ds.head? != some '0' || ds.length == 1)

/-- The negative integer of the digits `ds`; minus zero is a floating-point number. -/
def negative? (ds : List Char) : Option Number :=
  let n := Nat.ofDigitChars 10 ds 0
  if isInteger ds then
    if n = 0 then some (.float ⟨['-', '0', '.', '0'], by decide, by decide⟩)
    else if h : n - 1 < 2 ^ 63 then some (.negInt ⟨n - 1, h⟩) else none
  else none

/-- The unsigned integer of the digits `ds`. -/
def natural? (ds : List Char) : Option Number :=
  let n := Nat.ofDigitChars 10 ds 0
  if isInteger ds ∧ n < 2 ^ 64 then some (.posInt (UInt64.ofNat n)) else none

/-- The number a token of number characters spells; integers out of range spell none. -/
def number? (tok : List Char) : Option Number :=
  if hf : tok.any isFloatMark = true then
    if hn : tok.all isNumberChar = true then some (.float ⟨tok, hn, hf⟩) else none
  else if tok.head? = some '-' then negative? tok.tail
  else natural? tok

/-- The number at the front of a text. -/
def readNumber (cs : List Char) : Option (Json × List Char) :=
  (number? (cs.takeWhile isNumberChar)).map fun n => (.num n, cs.dropWhile isNumberChar)

/-- A keyword at the front of a text. -/
def readKeyword (word : List Char) (j : Json) (cs : List Char) : Option (Json × List Char) :=
  if word <+: cs then some (j, cs.drop word.length) else none

mutual

/-- The value at the front of a text, nested at most `depth` deep. -/
def readValue : Nat → Nat → List Char → Option (Json × List Char)
  | 0, _, _ => none
  | fuel + 1, depth, cs =>
    match skipSpace cs with
    | [] => none
    | c :: r =>
      if c = 'n' then readKeyword ['n', 'u', 'l', 'l'] .null (c :: r)
      else if c = 't' then readKeyword ['t', 'r', 'u', 'e'] (.bool true) (c :: r)
      else if c = 'f' then readKeyword ['f', 'a', 'l', 's', 'e'] (.bool false) (c :: r)
      else if c = '"' then (readStr (r.length + 1) r).map fun s => (.str (String.ofList s.1), s.2)
      else if c = '[' then
        match depth with
        | 0 => none
        | depth + 1 =>
          match expect ']' r with
          | some r => some (.arr [], r)
          | none => (readElems fuel depth r).map fun xs => (.arr xs.1, xs.2)
      else if c = '{' then
        match depth with
        | 0 => none
        | depth + 1 =>
          match expect '}' r with
          | some r => some (.obj [], r)
          | none => (readMembers fuel depth r).map fun ms => (.obj ms.1, ms.2)
      else readNumber (c :: r)

/-- The elements of an array up to its closing bracket. -/
def readElems : Nat → Nat → List Char → Option (List Json × List Char)
  | 0, _, _ => none
  | fuel + 1, depth, cs =>
    match readValue fuel depth cs with
    | none => none
    | some (x, r) =>
      match expect ',' r with
      | some r => (readElems fuel depth r).map fun xs => (x :: xs.1, xs.2)
      | none => (expect ']' r).map fun r => ([x], r)

/-- The members of an object up to its closing brace. -/
def readMembers : Nat → Nat → List Char → Option (List (String × Json) × List Char)
  | 0, _, _ => none
  | fuel + 1, depth, cs =>
    match (expect '"' cs).bind fun r => readStr (r.length + 1) r with
    | none => none
    | some (k, r) =>
      match (expect ':' r).bind fun r => readValue fuel depth r with
      | none => none
      | some (v, r) =>
        match expect ',' r with
        | some r => (readMembers fuel depth r).map fun ms => ((String.ofList k, v) :: ms.1, ms.2)
        | none => (expect '}' r).map fun r => ([(String.ofList k, v)], r)
end

/-- The tree of a text nested at most `limit` deep, with nothing but white space after it. -/
def read (limit : Nat) (cs : List Char) : Option Json :=
  match readValue (cs.length + 1) limit cs with
  | some (j, r) => if skipSpace r = [] then some j else none
  | none => none

/-! ## Strings come back -/

theorem hexValue?_digitChar {n : Nat} (h : n < 16) : hexValue? (Nat.digitChar n) = some n := by
  interval_cases n <;> decide

theorem readEscape_control {c : Char} (h : c.toNat < 32) (rest : List Char) :
    readEscape ('u' :: '0' :: '0' :: Nat.digitChar (c.toNat / 16) ::
      Nat.digitChar (c.toNat % 16) :: rest) = some (c, rest) := by
  have h1 : hexValue? '0' = some 0 := by decide
  have h2 : c.toNat / 16 * 16 + c.toNat % 16 = c.toNat := by omega
  simp only [readEscape, readHex4, h1, hexValue?_digitChar (show c.toNat / 16 < 16 by omega),
    hexValue?_digitChar (show c.toNat % 16 < 16 by omega)]
  simp [h2, show c.toNat < 55296 by omega, Char.ofNat_toNat]

theorem readEscape_short {c e : Char} (h : shortEscape? c = some e) (rest : List Char) :
    readEscape (e :: rest) = some (c, rest) := by
  unfold shortEscape? at h
  split_ifs at h with h1 h2 h3 h4 h5 h6 h7
  all_goals cases h; subst c; rfl

/-- Reading a character's escaped text gives the character. -/
theorem readStr_escapeChar (fuel : Nat) (c : Char) (rest : List Char) :
    readStr (fuel + 1) (escapeChar c ++ rest) =
      (readStr fuel rest).map fun s => (c :: s.1, s.2) := by
  unfold escapeChar
  split
  · next e he =>
    simp only [List.cons_append, List.nil_append, readStr, readEscape_short he]
    cases h : readStr fuel rest <;> simp [h]
  · next hs =>
    have hq : c ≠ '"' := by rintro rfl; simp [shortEscape?] at hs
    have hb : c ≠ '\\' := by rintro rfl; simp [shortEscape?] at hs
    split
    · next h =>
      simp only [List.cons_append, List.nil_append, readStr, readEscape_control h]
      cases h : readStr fuel rest <;> simp [h]
    · next h =>
      simp only [List.cons_append, List.nil_append, readStr, if_neg hq, if_neg hb, if_neg h]
      cases h : readStr fuel rest <;> simp

theorem escapeChar_length_pos (c : Char) : 1 ≤ (escapeChar c).length := by
  unfold escapeChar
  split
  · simp
  · split <;> simp

theorem length_le_flatMap_escape (cs : List Char) :
    cs.length ≤ (cs.flatMap escapeChar).length := by
  induction cs with
  | nil => simp
  | cons c cs ih =>
    have := escapeChar_length_pos c
    simp only [List.flatMap_cons, List.length_append, List.length_cons]
    omega

/-- Reading the escaped text of a string up to its closing quote gives its characters. -/
theorem readStr_escaped {fuel : Nat} {cs : List Char} (h : cs.length < fuel) (rest : List Char) :
    readStr fuel (cs.flatMap escapeChar ++ '"' :: rest) = some (cs, rest) := by
  induction cs generalizing fuel with
  | nil =>
    cases fuel with
    | zero => simp at h
    | succ fuel => simp [readStr]
  | cons c cs ih =>
    cases fuel with
    | zero => simp at h
    | succ fuel =>
      rw [List.flatMap_cons, List.append_assoc, readStr_escapeChar,
        ih (by simp only [List.length_cons] at h; omega)]
      rfl

/-- The same, with the fuel the readers use. -/
theorem readStr_text (cs rest : List Char) :
    readStr ((cs.flatMap escapeChar ++ '"' :: rest).length + 1)
      (cs.flatMap escapeChar ++ '"' :: rest) = some (cs, rest) := by
  refine readStr_escaped ?_ rest
  have := length_le_flatMap_escape cs
  simp only [List.length_append, List.length_cons]
  omega

/-! ## Numbers come back -/

/-- The text after a number cannot prolong it. -/
def Delimited (cs : List Char) : Prop := ∀ c ∈ cs.head?, isNumberChar c = false

theorem isNumberChar_of_isDigit {c : Char} (h : c.isDigit = true) : isNumberChar c = true := by
  simp [isNumberChar, h]

theorem isDigit_of_mem_toDigits {n : Nat} {c : Char} (h : c ∈ Nat.toDigits 10 n) :
    c.isDigit = true := Nat.isDigit_of_mem_toDigits (by omega) (by omega) h

theorem head?_toDigits {n : Nat} (h : 0 < n) : (Nat.toDigits 10 n).head? ≠ some '0' := by
  induction n using Nat.strongRecOn with
  | ind n ih =>
    by_cases hn : n < 10
    · rw [Nat.toDigits_of_lt_base hn]
      interval_cases n <;> decide
    · rw [Nat.toDigits_of_base_le (by omega) (by omega), List.head?_append_of_ne_nil]
      · exact ih (n / 10) (by omega) (by omega)
      · exact Nat.toDigits_ne_nil

theorem isInteger_toDigits (n : Nat) : isInteger (Nat.toDigits 10 n) = true := by
  have h1 : (Nat.toDigits 10 n).all Char.isDigit = true :=
    List.all_eq_true.2 fun c hc => isDigit_of_mem_toDigits hc
  have h2 : Nat.toDigits 10 n ≠ [] := Nat.toDigits_ne_nil
  rcases Nat.eq_zero_or_pos n with rfl | hn
  · decide
  · simp [isInteger, h1, h2, head?_toDigits hn]

/-- Digits hold neither a point nor an exponent. -/
theorem not_float_of_digits {ds : List Char} (h : ∀ c ∈ ds, c.isDigit = true) :
    ds.any isFloatMark = false := by
  rw [List.any_eq_false]
  intro c hc hf
  have hd := h c hc
  simp only [isFloatMark, Bool.or_eq_true, beq_iff_eq] at hf
  rcases hf with (rfl | rfl) | rfl <;> exact absurd hd (by decide)

theorem natural?_toDigits (n : UInt64) : natural? (Nat.toDigits 10 n.toNat) = some (.posInt n) := by
  rw [natural?, Nat.ofDigitChars_ten_toDigits]
  simp only [isInteger_toDigits, n.toNat_lt, and_self, if_true, UInt64.ofNat_toNat]

theorem negative?_toDigits (k : Fin (2 ^ 63)) :
    negative? (Nat.toDigits 10 (k.val + 1)) = some (.negInt k) := by
  have hlt := k.isLt
  rw [negative?, Nat.ofDigitChars_ten_toDigits]
  simp [isInteger_toDigits]

theorem number?_printNumber (n : Number) : number? (printNumber n) = some n := by
  cases n with
  | posInt n =>
    have hd : ∀ c ∈ Nat.toDigits 10 n.toNat, c.isDigit = true := fun c => isDigit_of_mem_toDigits
    have hhead : (Nat.toDigits 10 n.toNat).head? ≠ some '-' := fun h =>
      absurd (hd '-' (List.mem_of_head? h)) (by decide)
    show number? (Nat.toDigits 10 n.toNat) = _
    rw [number?, dif_neg (by simp [not_float_of_digits hd]), if_neg hhead, natural?_toDigits]
  | negInt k =>
    have hd : ∀ c ∈ Nat.toDigits 10 (k.val + 1), c.isDigit = true :=
      fun c => isDigit_of_mem_toDigits
    have hnf : ('-' :: Nat.toDigits 10 (k.val + 1)).any isFloatMark = false := by
      rw [List.any_cons, not_float_of_digits hd]
      rfl
    show number? ('-' :: Nat.toDigits 10 (k.val + 1)) = _
    rw [number?, dif_neg (by simp [hnf]), List.head?_cons, if_pos rfl, List.tail_cons,
      negative?_toDigits]
  | float t =>
    show number? t.chars = _
    rw [number?, dif_pos t.float, dif_pos t.number]

theorem printNumber_number (n : Number) : ∀ c ∈ printNumber n, isNumberChar c = true := by
  intro c hc
  cases n with
  | posInt n => exact isNumberChar_of_isDigit (isDigit_of_mem_toDigits hc)
  | negInt k =>
    rcases List.mem_cons.1 hc with rfl | hc
    · rfl
    · exact isNumberChar_of_isDigit (isDigit_of_mem_toDigits hc)
  | float t => exact List.all_eq_true.1 t.number c hc

theorem printNumber_ne_nil (n : Number) : printNumber n ≠ [] := by
  cases n with
  | posInt n => exact Nat.toDigits_ne_nil
  | negInt k => simp [printNumber]
  | float t =>
    intro h
    have hf := t.float
    rw [show t.chars = [] from h] at hf
    cases hf

/-- Reading a number's text gives the number, when the text ends there. -/
theorem readNumber_printNumber (n : Number) {rest : List Char} (h : Delimited rest) :
    readNumber (printNumber n ++ rest) = some (.num n, rest) := by
  have hall := printNumber_number n
  have htake : (printNumber n ++ rest).takeWhile isNumberChar = printNumber n := by
    rw [List.takeWhile_append_of_pos hall]
    cases rest with
    | nil => simp
    | cons c r => rw [List.takeWhile_cons_of_neg (by simp [h c rfl]), List.append_nil]
  have hdrop : (printNumber n ++ rest).dropWhile isNumberChar = rest := by
    rw [List.dropWhile_append_of_pos hall]
    cases rest with
    | nil => rfl
    | cons c r => rw [List.dropWhile_cons_of_neg (by simp [h c rfl])]
  rw [readNumber, htake, hdrop, number?_printNumber]
  rfl

/-! ## White space -/

theorem skipSpace_append {ws : List Char} (h : ws.all isSpace = true) (cs : List Char) :
    skipSpace (ws ++ cs) = skipSpace cs := by
  rw [skipSpace, List.dropWhile_append_of_pos (List.all_eq_true.1 h)]
  rfl

theorem skipSpace_cons {c : Char} (h : isSpace c = false) (cs : List Char) :
    skipSpace (c :: cs) = c :: cs := List.dropWhile_cons_of_neg (by simp [h])

theorem expect_self {ws : List Char} (h : ws.all isSpace = true) {c : Char}
    (hc : isSpace c = false) (cs : List Char) : expect c (ws ++ c :: cs) = some cs := by
  rw [expect, skipSpace_append h, skipSpace_cons hc]
  exact if_pos rfl

theorem expect_ne {ws : List Char} (h : ws.all isSpace = true) {c d : Char}
    (hd : isSpace d = false) (hne : d ≠ c) (cs : List Char) : expect c (ws ++ d :: cs) = none := by
  rw [expect, skipSpace_append h, skipSpace_cons hd]
  exact if_neg hne

theorem expect_head {c : Char} (hc : isSpace c = false) (cs : List Char) :
    expect c (c :: cs) = some cs := expect_self (List.all_nil) hc cs

theorem delimited_head {c : Char} (hc : isNumberChar c = false) (cs : List Char) :
    Delimited (c :: cs) := fun _ hd => by cases hd; exact hc

theorem delimited_space {ws : List Char} (h : ws.all isSpace = true) {c : Char}
    (hc : isNumberChar c = false) (cs : List Char) : Delimited (ws ++ c :: cs) := by
  intro d hd
  cases ws with
  | nil => cases hd; exact hc
  | cons w ws =>
    cases hd
    rw [List.all_cons, Bool.and_eq_true] at h
    have hw := h.1
    simp only [isSpace, Bool.or_eq_true, beq_iff_eq] at hw
    rcases hw with ((rfl | rfl) | rfl) | rfl <;> decide

/-! ## Values come back

`need` bounds the fuel a tree takes and `nesting` its depth. The induction is on the tree; the two
list lemmas carry it through the elements of an array and the members of an object.
-/

mutual

/-- The fuel that reading a tree back takes. -/
def need : Json → Nat
  | .arr xs => 1 + needList xs
  | .obj ms => 1 + needMembers ms
  | _ => 1

/-- `need` over the elements of an array. -/
def needList : List Json → Nat
  | [] => 0
  | x :: xs => 1 + max (need x) (needList xs)

/-- `need` over the members of an object. -/
def needMembers : List (String × Json) → Nat
  | [] => 0
  | (_, v) :: ms => 1 + max (need v) (needMembers ms)
end

mutual

/-- How deep arrays and objects are nested in a tree. -/
def nesting : Json → Nat
  | .arr xs => 1 + nestingList xs
  | .obj ms => 1 + nestingMembers ms
  | _ => 0

/-- `nesting` over the elements of an array. -/
def nestingList : List Json → Nat
  | [] => 0
  | x :: xs => max (nesting x) (nestingList xs)

/-- `nesting` over the members of an object. -/
def nestingMembers : List (String × Json) → Nat
  | [] => 0
  | (_, v) :: ms => max (nesting v) (nestingMembers ms)
end

/-- Reading `j` back with enough fuel and depth, after white space and before a delimiter. -/
def ReadsBack (L : Layout) (j : Json) : Prop :=
  ∀ ⦃k fuel depth : Nat⦄ ⦃ws rest : List Char⦄, need j ≤ fuel → nesting j ≤ depth →
    ws.all isSpace = true → Delimited rest →
    readValue fuel depth (ws ++ (printWith L k j ++ rest)) = some (j, rest)

section
variable {L : Layout}

theorem readElems_print {xs : List Json} (hxs : ∀ x ∈ xs, ReadsBack L x) {x : Json}
    (hx : ReadsBack L x) {k fuel depth : Nat} {ws ws' : List Char} (rest : List Char)
    (hfuel : needList (x :: xs) ≤ fuel) (hdepth : nestingList (x :: xs) ≤ depth)
    (hws : ws.all isSpace = true) (hws' : ws'.all isSpace = true) :
    readElems fuel depth (ws ++ (printWith L k x ++ (printTail L k xs ++ (ws' ++ ']' :: rest)))) =
      some (x :: xs, rest) := by
  induction xs generalizing x fuel ws with
  | nil =>
    simp only [needList, nestingList] at hfuel hdepth
    cases fuel with
    | zero => omega
    | succ fuel =>
      rw [readElems, printTail, List.nil_append, hx (by omega) (by omega) hws
        (delimited_space hws' (by decide) rest)]
      simp only [expect_ne hws' (show isSpace ']' = false by decide) (show ']' ≠ ',' by decide),
        expect_self hws' (show isSpace ']' = false by decide), Option.map_some]
  | cons y ys ih =>
    rw [needList] at hfuel
    rw [nestingList] at hdepth
    cases fuel with
    | zero => omega
    | succ fuel =>
      have hy : ReadsBack L y := hxs y (.head _)
      have hsplit : printTail L k (y :: ys) ++ (ws' ++ ']' :: rest) =
          ',' :: (L.newline k ++ (printWith L k y ++
            (printTail L k ys ++ (ws' ++ ']' :: rest)))) := by
        simp [printTail]
      rw [readElems, hsplit, hx (show need x ≤ fuel by omega) (show nesting x ≤ depth by omega) hws
        (delimited_head (show isNumberChar ',' = false by decide) _)]
      simp only [expect_head (show isSpace ',' = false by decide)]
      rw [ih (fun z hz => hxs z (.tail _ hz)) hy (by omega) (by omega) (L.newline_space k)]
      simp only [Option.map_some]

theorem readKey (key : String) (ws rest : List Char) (hws : ws.all isSpace = true) :
    ((expect '"' (ws ++ (printStr key ++ rest))).bind fun r => readStr (r.length + 1) r) =
      some (key.toList, rest) := by
  rw [printStr, List.cons_append, expect_self hws (by decide)]
  simp only [Option.bind_some, List.append_assoc, List.cons_append, List.nil_append]
  exact readStr_text _ _

theorem readMembers_print {ms : Members} (hms : ∀ m ∈ ms, ReadsBack L m.2) {key : String}
    {v : Json} (hv : ReadsBack L v) {k fuel depth : Nat} {ws ws' : List Char} (rest : List Char)
    (hfuel : needMembers ((key, v) :: ms) ≤ fuel)
    (hdepth : nestingMembers ((key, v) :: ms) ≤ depth)
    (hws : ws.all isSpace = true) (hws' : ws'.all isSpace = true) :
    readMembers fuel depth (ws ++ (printStr key ++ (':' :: (L.afterColon ++ (printWith L k v ++
      (printMembers L k ms ++ (ws' ++ '}' :: rest))))))) = some ((key, v) :: ms, rest) := by
  induction ms generalizing key v fuel ws with
  | nil =>
    simp only [needMembers, nestingMembers] at hfuel hdepth
    cases fuel with
    | zero => omega
    | succ fuel =>
      rw [readMembers, readKey _ _ _ hws, printMembers, List.nil_append]
      simp only [expect_head (show isSpace ':' = false by decide), Option.bind_some]
      rw [hv (show need v ≤ fuel by omega) (show nesting v ≤ depth by omega) L.afterColon_space
        (delimited_space hws' (show isNumberChar '}' = false by decide) rest)]
      simp only [expect_ne hws' (show isSpace '}' = false by decide) (show '}' ≠ ',' by decide),
        expect_self hws' (show isSpace '}' = false by decide), Option.map_some,
        String.ofList_toList]
  | cons m ms ih =>
    obtain ⟨key', v'⟩ := m
    rw [needMembers] at hfuel
    rw [nestingMembers] at hdepth
    cases fuel with
    | zero => omega
    | succ fuel =>
      have hv' : ReadsBack L v' := hms (key', v') (.head _)
      have hsplit : printMembers L k ((key', v') :: ms) ++ (ws' ++ '}' :: rest) =
          ',' :: (L.newline k ++ (printStr key' ++ (':' :: (L.afterColon ++
            (printWith L k v' ++ (printMembers L k ms ++ (ws' ++ '}' :: rest))))))) := by
        simp [printMembers]
      rw [readMembers, readKey _ _ _ hws, hsplit]
      simp only [expect_head (show isSpace ':' = false by decide), Option.bind_some]
      rw [hv (show need v ≤ fuel by omega) (show nesting v ≤ depth by omega) L.afterColon_space
        (delimited_head (show isNumberChar ',' = false by decide) _)]
      have hrec := ih (fun z hz => hms z (.tail _ hz)) hv'
        (show needMembers ((key', v') :: ms) ≤ fuel by omega)
        (show nestingMembers ((key', v') :: ms) ≤ depth by omega) (L.newline_space k)
      simp only [expect_head (show isSpace ',' = false by decide), hrec, Option.map_some,
        String.ofList_toList]

theorem readKeyword_self (word : List Char) (j : Json) (rest : List Char) :
    readKeyword word j (word ++ rest) = some (j, rest) := by
  rw [readKeyword, if_pos (List.prefix_append _ _), List.drop_left]

/-- A number starts with none of the characters that start another value. -/
theorem readValue_number {fuel depth : Nat} {ws : List Char} (n : Number) {rest : List Char}
    (hws : ws.all isSpace = true) (hrest : Delimited rest) :
    readValue (fuel + 1) depth (ws ++ (printNumber n ++ rest)) = some (.num n, rest) := by
  have hread := readNumber_printNumber n hrest
  rw [readValue, skipSpace_append hws]
  cases htok : printNumber n with
  | nil => exact absurd htok (printNumber_ne_nil n)
  | cons c cs =>
    have hc : isNumberChar c = true := printNumber_number n c (by rw [htok]; exact .head _)
    have hne : ∀ d, isNumberChar d = false → c ≠ d := by
      rintro d hd rfl
      rw [hc] at hd
      cases hd
    have hspace : isSpace c = false := by
      simp [isSpace, hne ' ' (by decide), hne '\n' (by decide), hne '\t' (by decide),
        hne '\r' (by decide)]
    rw [htok, List.cons_append] at hread
    rw [List.cons_append, skipSpace_cons hspace]
    simp only [if_neg (hne 'n' (by decide)), if_neg (hne 't' (by decide)),
      if_neg (hne 'f' (by decide)), if_neg (hne '"' (by decide)), if_neg (hne '[' (by decide)),
      if_neg (hne '{' (by decide))]
    exact hread

/-- A quote opens a string. -/
theorem readValue_quote {fuel depth : Nat} {ws : List Char} (hws : ws.all isSpace = true)
    (r : List Char) : readValue (fuel + 1) depth (ws ++ '"' :: r) =
      (readStr (r.length + 1) r).map fun s => (.str (String.ofList s.1), s.2) := by
  rw [readValue, skipSpace_append hws, skipSpace_cons (by decide)]
  rfl

/-- A bracket opens an array. -/
theorem readValue_bracket {fuel depth : Nat} {ws : List Char} (hws : ws.all isSpace = true)
    {r : List Char} (h : expect ']' r = none) :
    readValue (fuel + 1) (depth + 1) (ws ++ '[' :: r) =
      (readElems fuel depth r).map fun xs => (.arr xs.1, xs.2) := by
  rw [readValue, skipSpace_append hws, skipSpace_cons (by decide)]
  simp [h]

/-- A brace opens an object. -/
theorem readValue_brace {fuel depth : Nat} {ws : List Char} (hws : ws.all isSpace = true)
    {r : List Char} (h : expect '}' r = none) :
    readValue (fuel + 1) (depth + 1) (ws ++ '{' :: r) =
      (readMembers fuel depth r).map fun ms => (.obj ms.1, ms.2) := by
  rw [readValue, skipSpace_append hws, skipSpace_cons (by decide)]
  simp [h]

/-- What follows an opening bracket does not close it, when an element stands there. -/
theorem expect_printWith_ne {c : Char} (hc : isNumberChar c = false)
    (hcs : c ∉ ['n', 't', 'f', '"', '[', '{']) {ws : List Char} (hws : ws.all isSpace = true)
    (k : Nat) (j : Json) (rest : List Char) :
    expect c (ws ++ (printWith L k j ++ rest)) = none := by
  simp only [List.mem_cons, List.not_mem_nil, or_false, not_or] at hcs
  obtain ⟨h1, h2, h3, h4, h5, h6⟩ := hcs
  cases j with
  | null => exact expect_ne hws (by decide) (Ne.symm h1) _
  | bool b =>
    cases b
    · exact expect_ne hws (by decide) (Ne.symm h3) _
    · exact expect_ne hws (by decide) (Ne.symm h2) _
  | num n =>
    rw [printWith]
    cases htok : printNumber n with
    | nil => exact absurd htok (printNumber_ne_nil n)
    | cons d ds =>
      have hd : isNumberChar d = true := printNumber_number n d (by rw [htok]; exact .head _)
      have hne : ∀ e, isNumberChar e = false → d ≠ e := by
        rintro e he rfl
        rw [hd] at he
        cases he
      refine expect_ne hws ?_ (hne c hc) _
      simp [isSpace, hne ' ' (by decide), hne '\n' (by decide), hne '\t' (by decide),
        hne '\r' (by decide)]
  | str s => exact expect_ne hws (by decide) (Ne.symm h4) _
  | arr xs =>
    cases xs with
    | nil => exact expect_ne hws (by decide) (Ne.symm h5) _
    | cons x xs => exact expect_ne hws (by decide) (Ne.symm h5) _
  | obj ms =>
    cases ms with
    | nil => exact expect_ne hws (by decide) (Ne.symm h6) _
    | cons m ms => exact expect_ne hws (by decide) (Ne.symm h6) _

/-- Reading inverts printing, at any layout and level. -/
theorem readsBack (j : Json) : ReadsBack L j := by
  induction j using recTree with
  | null =>
    intro k fuel depth ws rest hfuel _ hws _
    cases fuel with
    | zero => simp [need] at hfuel
    | succ fuel =>
      rw [readValue, printWith, skipSpace_append hws]
      exact readKeyword_self ['n', 'u', 'l', 'l'] _ rest
  | bool b =>
    intro k fuel depth ws rest hfuel _ hws _
    cases fuel with
    | zero => simp [need] at hfuel
    | succ fuel =>
      cases b with
      | true =>
        rw [readValue, printWith, skipSpace_append hws]
        exact readKeyword_self ['t', 'r', 'u', 'e'] _ rest
      | false =>
        rw [readValue, printWith, skipSpace_append hws]
        exact readKeyword_self ['f', 'a', 'l', 's', 'e'] _ rest
  | num n =>
    intro k fuel depth ws rest hfuel _ hws hrest
    cases fuel with
    | zero => simp [need] at hfuel
    | succ fuel => exact readValue_number n hws hrest
  | str s =>
    intro k fuel depth ws rest hfuel _ hws _
    cases fuel with
    | zero => simp [need] at hfuel
    | succ fuel =>
      rw [printWith, printStr, List.cons_append, readValue_quote hws]
      simp only [List.append_assoc, List.cons_append, List.nil_append]
      rw [readStr_text, Option.map_some, String.ofList_toList]
  | arr xs ih =>
    intro k fuel depth ws rest hfuel hdepth hws _
    rw [need] at hfuel
    rw [nesting] at hdepth
    cases fuel with
    | zero => omega
    | succ fuel =>
      cases depth with
      | zero => omega
      | succ depth =>
        cases xs with
        | nil =>
          rw [readValue, printWith, skipSpace_append hws]
          rfl
        | cons x xs =>
          rw [printWith, List.cons_append, readValue_bracket hws]
          · simp only [List.append_assoc, List.cons_append, List.nil_append]
            rw [readElems_print (fun y hy => ih y (.tail _ hy)) (ih x (.head _)) rest (by omega)
              (by omega) (L.newline_space _) (L.newline_space _)]
            rfl
          · simp only [List.append_assoc]
            exact expect_printWith_ne (by decide) (by decide) (L.newline_space _) _ _ _
  | obj ms ih =>
    intro k fuel depth ws rest hfuel hdepth hws _
    rw [need] at hfuel
    rw [nesting] at hdepth
    cases fuel with
    | zero => omega
    | succ fuel =>
      cases depth with
      | zero => omega
      | succ depth =>
        cases ms with
        | nil =>
          rw [readValue, printWith, skipSpace_append hws]
          rfl
        | cons m ms =>
          obtain ⟨key, v⟩ := m
          rw [printWith, List.cons_append, readValue_brace hws]
          · have hfuel' : needMembers ((key, v) :: ms) ≤ fuel := by omega
            have hdepth' : nestingMembers ((key, v) :: ms) ≤ depth := by omega
            have hv : ReadsBack L v := ih (key, v) (.head _)
            have hread := readMembers_print (k := k + 1) (fun n hn => ih n (.tail _ hn)) hv rest
              hfuel' hdepth' (L.newline_space (k + 1)) (L.newline_space k)
            simp only [List.append_assoc, List.cons_append, List.nil_append] at hread ⊢
            rw [hread]
            rfl
          · simp only [List.append_assoc]
            exact expect_ne (L.newline_space _) (by decide) (by decide) _

/-! ## Texts come back -/

theorem needList_le_length {xs : List Json} (h : ∀ x ∈ xs, ∀ k, need x ≤ (printWith L k x).length)
    (k : Nat) : needList xs ≤ (printTail L k xs).length := by
  induction xs with
  | nil => simp [needList]
  | cons x xs ih =>
    have h1 := h x (.head _) k
    have h2 := ih fun y hy => h y (.tail _ hy)
    simp only [needList, printTail, List.length_cons, List.length_append]
    omega

theorem needMembers_le_length {ms : Members}
    (h : ∀ m ∈ ms, ∀ k, need m.2 ≤ (printWith L k m.2).length) (k : Nat) :
    needMembers ms ≤ (printMembers L k ms).length := by
  induction ms with
  | nil => simp [needMembers]
  | cons m ms ih =>
    obtain ⟨key, v⟩ := m
    have h1 := h (key, v) (.head _) k
    have h2 := ih fun y hy => h y (.tail _ hy)
    simp only [needMembers, printMembers, List.length_cons, List.length_append] at h1 ⊢
    omega

theorem need_le_length (j : Json) : ∀ k, need j ≤ (printWith L k j).length := by
  induction j using recTree with
  | null => intro k; simp [need, printWith]
  | bool b => intro k; cases b <;> simp [need, printWith]
  | num n =>
    intro k
    exact List.length_pos_of_ne_nil (printNumber_ne_nil n)
  | str s => intro k; simp [need, printWith, printStr]
  | arr xs ih =>
    intro k
    cases xs with
    | nil => simp [need, needList, printWith]
    | cons x xs =>
      have h1 := ih x (.head _) (k + 1)
      have h2 := needList_le_length (L := L) (fun y hy => ih y (.tail _ hy)) (k + 1)
      simp only [need, needList, printWith, List.length_cons, List.length_append, List.length_nil]
      omega
  | obj ms ih =>
    intro k
    cases ms with
    | nil => simp [need, needMembers, printWith]
    | cons m ms =>
      obtain ⟨key, v⟩ := m
      have h1 := ih (key, v) (.head _) (k + 1)
      have h2 := needMembers_le_length (L := L) (fun y hy => ih y (.tail _ hy)) (k + 1)
      simp only [need, needMembers, printWith, List.length_cons, List.length_append,
        List.length_nil] at h1 ⊢
      omega

/-- **Reading inverts printing.** -/
theorem read_printWith {j : Json} {limit : Nat} (h : nesting j ≤ limit) :
    read limit (printWith L 0 j) = some j := by
  have hfuel : need j ≤ (printWith L 0 j).length + 1 := Nat.le_succ_of_le (need_le_length j 0)
  have hend : Delimited [] := by simp [Delimited]
  have hread := @readsBack L j 0 _ _ [] [] hfuel h List.all_nil hend
  rw [List.nil_append, List.append_nil] at hread
  rw [read, hread]
  rfl

/-- A printed text determines its tree. -/
theorem printWith_inj {i j : Json} (h : printWith L 0 i = printWith L 0 j) : i = j := by
  have hi := read_printWith (L := L) (j := i) (le_max_left (nesting i) (nesting j))
  rw [h, read_printWith (le_max_right (nesting i) (nesting j))] at hi
  exact (Option.some.inj hi).symm

end

end Json
