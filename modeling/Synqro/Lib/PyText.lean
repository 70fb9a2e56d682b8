import Synqro.Lib.PyValue

/-!
# Texts with surrogates

A Python text is a sequence of code points, and `json.loads` makes one with a lone surrogate from
an escape that stands for half a pair. Such a text can be compared, printed into JSON and stored,
but not encoded. `PyJson` is a value that `json.loads` returns, `PyJson.dumps` its compact text with
sorted keys, and `PyJson.encodable_dumps` says that the text can be encoded exactly when no text in
the value holds a surrogate.
-/

/-- A code point: a scalar value or a surrogate. -/
abbrev CodePoint := Fin 0x110000

abbrev PyText := List CodePoint

namespace PyText

def ofString (s : String) : PyText := s.toList.map fun c => Fin.ofNat 0x110000 c.toNat

/-- Half of a surrogate pair, which no UTF-8 text has. -/
def isSurrogate (c : CodePoint) : Bool := 0xd800 ≤ c.val && c.val ≤ 0xdfff

def isAscii (t : PyText) : Bool := t.all (·.val < 128)

/-- No code point of the text is a surrogate. -/
def Encodable (t : PyText) : Prop := ∀ c ∈ t, isSurrogate c = false

instance (t : PyText) : Decidable t.Encodable := inferInstanceAs (Decidable (∀ c ∈ t, _))

/-- The text of the scalar values. -/
def toString (t : PyText) : String := .ofList (t.map fun c => Char.ofNat c.val)

/-- `text.encode("utf-8")`. -/
def encode (t : PyText) : Except PyError (List UInt8) :=
  if t.Encodable then .ok t.toString.toUTF8.data.toList
  else .error (.value "'utf-8' codec can't encode character: surrogates not allowed")

/-- A text has a UTF-8 form exactly when it holds no surrogate. -/
theorem encode_eq_ok {t : PyText} : (∃ bytes, t.encode = .ok bytes) ↔ t.Encodable := by
  unfold encode
  split
  · next h => exact iff_of_true ⟨_, rfl⟩ h
  · next h =>
    refine iff_of_false ?_ h
    rintro ⟨bytes, hok⟩
    cases hok

/-- Encodable texts can be put together and taken apart. -/
@[simp]
theorem encodable_append {s t : PyText} : Encodable (s ++ t) ↔ s.Encodable ∧ t.Encodable :=
  List.forall_mem_append

@[simp]
theorem encodable_cons {c : CodePoint} {t : PyText} :
    Encodable (c :: t) ↔ isSurrogate c = false ∧ t.Encodable := List.forall_mem_cons

@[simp]
theorem encodable_nil : Encodable [] := List.forall_mem_nil _

/-- A scalar value is no surrogate. -/
theorem encodable_ofString (s : String) : (ofString s).Encodable := by
  intro c hc
  obtain ⟨d, -, rfl⟩ := List.mem_map.1 hc
  have hvalid : d.toNat < 0xd800 ∨ 0xdfff < d.toNat ∧ d.toNat < 0x110000 := d.valid
  have hval : (Fin.ofNat 0x110000 d.toNat).val = d.toNat := Nat.mod_eq_of_lt (by omega)
  rw [isSurrogate, hval, Bool.and_eq_false_iff, decide_eq_false_iff_not, decide_eq_false_iff_not]
  omega

/-- A joined text is encodable when its parts are. -/
theorem encodable_intercalate {sep : PyText} {ts : List PyText} (hsep : sep.Encodable) :
    Encodable (sep.intercalate ts) ↔ ∀ t ∈ ts, t.Encodable := by
  induction ts with
  | nil => simp
  | cons t ts ih =>
    cases ts with
    | nil => simp
    | cons u ts =>
      rw [List.intercalate_cons_cons, encodable_append, encodable_append, ih, and_iff_left hsep]
      exact List.forall_mem_cons.symm

end PyText

/-- A value that `json.loads` returns. A float is kept as its `repr`. -/
inductive PyJson where
  | null
  | bool (b : Bool)
  | int (n : Int)
  | float (repr : String)
  | str (t : PyText)
  | list (xs : List PyJson)
  | dict (ms : List (PyText × PyJson))

namespace PyJson

/-- Induction over a value, with the members of lists and dictionaries at hand. -/
theorem recTree {P : PyJson → Prop} (null : P .null) (bool : ∀ b, P (.bool b))
    (int : ∀ n, P (.int n)) (float : ∀ r, P (.float r)) (str : ∀ t, P (.str t))
    (list : ∀ xs, (∀ x ∈ xs, P x) → P (.list xs))
    (dict : ∀ ms, (∀ m ∈ ms, P m.2) → P (.dict ms)) : ∀ v, P v := by
  intro v
  refine @PyJson.rec P (fun xs => ∀ x ∈ xs, P x) (fun ms => ∀ m ∈ ms, P m.2) (fun m => P m.2)
    null bool int float str list dict ?_ ?_ ?_ ?_ ?_ v
  · intro x hx
    cases hx
  · intro x xs hx hxs y hy
    rcases List.mem_cons.1 hy with rfl | hy
    exacts [hx, hxs y hy]
  · intro m hm
    cases hm
  · intro m ms hm hms n hn
    rcases List.mem_cons.1 hn with rfl | hn
    exacts [hm, hms n hn]
  · intro _ _ h
    exact h

/-! ## Dictionaries -/

/-- The value of a key. -/
def find (k : PyText) : List (PyText × PyJson) → Option PyJson
  | [] => none
  | (k', v) :: ms => if k = k' then some v else find k ms

/-- The dictionary without a key. -/
def remove (k : PyText) (ms : List (PyText × PyJson)) : List (PyText × PyJson) :=
  ms.filter (·.1 ≠ k)

/-- `d[key] = value` for a key that is not there. -/
def insert (k : PyText) (v : PyJson) (ms : List (PyText × PyJson)) : List (PyText × PyJson) :=
  ms ++ [(k, v)]

/-- After a removal the key is not found, and the others as before. -/
theorem find_remove {k k' : PyText} {ms : List (PyText × PyJson)} :
    find k (remove k' ms) = if k = k' then none else find k ms := by
  induction ms with
  | nil => split <;> rfl
  | cons m ms ih =>
    obtain ⟨j, v⟩ := m
    unfold remove at ih ⊢
    rw [List.filter_cons, find]
    by_cases hj : j = k'
    · subst hj
      simp only [ne_eq, not_true_eq_false, decide_false, Bool.false_eq_true, if_false, ih]
      split <;> rfl
    · simp only [ne_eq, hj, not_false_eq_true, decide_true, if_true, find, ih]
      by_cases hk : k = j
      · subst hk
        rw [if_pos rfl, if_neg hj, if_pos rfl]
      · rw [if_neg hk, if_neg hk]

/-- After an insertion a new key has the value; a key that was there keeps its own. -/
theorem find_insert {k k' : PyText} {v : PyJson} {ms : List (PyText × PyJson)} :
    find k (insert k' v ms) = (find k ms).or (if k = k' then some v else none) := by
  induction ms with
  | nil => rfl
  | cons m ms ih =>
    obtain ⟨j, w⟩ := m
    unfold insert at ih ⊢
    rw [List.cons_append, find, find, ih]
    split <;> rfl

/-- A key that was taken out and put back has its value, and the others have theirs. -/
theorem find_restored {k k' : PyText} {v : PyJson} {ms : List (PyText × PyJson)}
    (h : find k' ms = some v) : find k (insert k' v (remove k' ms)) = find k ms := by
  rw [find_insert, find_remove]
  by_cases hk : k = k'
  · subst hk
    rw [if_pos rfl, if_pos rfl, h]
    rfl
  · rw [if_neg hk, if_neg hk, Option.or_none]

/-! ## JSON text -/

/-- A code point in a JSON string that is not limited to ASCII. -/
def escapeChar (c : CodePoint) : PyText :=
  if c.val = 0x22 then .ofString "\\\""
  else if c.val = 0x5c then .ofString "\\\\"
  else if c.val = 0x0a then .ofString "\\n"
  else if c.val = 0x0d then .ofString "\\r"
  else if c.val = 0x09 then .ofString "\\t"
  else if c.val = 0x0c then .ofString "\\f"
  else if c.val = 0x08 then .ofString "\\b"
  else if c.val < 0x20 then
    .ofString (.ofList ['\\', 'u', '0', '0', Nat.digitChar (c.val / 16),
      Nat.digitChar (c.val % 16)])
  else [c]

def printStr (t : PyText) : PyText :=
  .ofString "\"" ++ (t.flatMap escapeChar ++ .ofString "\"")

/-- A member of an object: its key and the text of its value. -/
def printMember (m : PyText × PyText) : PyText := printStr m.1 ++ (.ofString ":" ++ m.2)

mutual

/-- `json.dumps` with sorted keys, the separators `,` and `:` and nothing but what must be
escaped. -/
def dumps : PyJson → PyText
  | .null => .ofString "null"
  | .bool b => .ofString (if b then "true" else "false")
  | .int n => .ofString (toString n)
  | .float r => .ofString (.ofList (PyValue.floatText r))
  | .str t => printStr t
  | .list xs => .ofString "[" ++ ((PyText.ofString ",").intercalate (dumpsList xs) ++ .ofString "]")
  | .dict ms =>
    .ofString "\x7b" ++ ((PyText.ofString ",").intercalate
      (((dumpsMembers ms).insertionSort (·.1 ≤ ·.1)).map printMember) ++ .ofString "\x7d")

def dumpsList : List PyJson → List PyText
  | [] => []
  | x :: xs => dumps x :: dumpsList xs

def dumpsMembers : List (PyText × PyJson) → List (PyText × PyText)
  | [] => []
  | (k, v) :: ms => (k, dumps v) :: dumpsMembers ms

end

mutual

/-- No text of the value holds a surrogate. -/
def Encodable : PyJson → Prop
  | .str t => t.Encodable
  | .list xs => EncodableList xs
  | .dict ms => EncodableMembers ms
  | _ => True

def EncodableList : List PyJson → Prop
  | [] => True
  | x :: xs => Encodable x ∧ EncodableList xs

/-- `Encodable` over the members of a dictionary, with their keys. -/
def EncodableMembers : List (PyText × PyJson) → Prop
  | [] => True
  | (k, v) :: ms => (k.Encodable ∧ Encodable v) ∧ EncodableMembers ms

end

open PyText (encodable_append encodable_intercalate encodable_ofString)

/-- Only a surrogate is written as one. -/
theorem encodable_escapeChar (c : CodePoint) :
    PyText.Encodable (escapeChar c) ↔ PyText.isSurrogate c = false := by
  have hlow (hc : c.val < 0x80) : PyText.isSurrogate c = false := by
    rw [PyText.isSurrogate, Bool.and_eq_false_iff, decide_eq_false_iff_not]
    omega
  unfold escapeChar
  split
  · exact iff_of_true (encodable_ofString _) (hlow (by omega))
  split
  · exact iff_of_true (encodable_ofString _) (hlow (by omega))
  split
  · exact iff_of_true (encodable_ofString _) (hlow (by omega))
  split
  · exact iff_of_true (encodable_ofString _) (hlow (by omega))
  split
  · exact iff_of_true (encodable_ofString _) (hlow (by omega))
  split
  · exact iff_of_true (encodable_ofString _) (hlow (by omega))
  split
  · exact iff_of_true (encodable_ofString _) (hlow (by omega))
  split
  · exact iff_of_true (encodable_ofString _) (hlow (by omega))
  · exact List.forall_mem_singleton

/-- A string and its printed form hold the same surrogates. -/
theorem encodable_printStr (t : PyText) : (printStr t).Encodable ↔ t.Encodable := by
  have hflat : PyText.Encodable (t.flatMap escapeChar) ↔ t.Encodable := by
    induction t with
    | nil => exact Iff.rfl
    | cons c t ih =>
      rw [List.flatMap_cons, encodable_append, encodable_escapeChar, ih, PyText.encodable_cons]
  rw [printStr, encodable_append, encodable_append, hflat, and_iff_right (encodable_ofString _),
    and_iff_left (encodable_ofString _)]

theorem encodableList_iff {xs : List PyJson} : EncodableList xs ↔ ∀ x ∈ xs, Encodable x := by
  induction xs with
  | nil => simp [EncodableList]
  | cons x xs ih => rw [EncodableList, ih, List.forall_mem_cons]

theorem encodableMembers_iff {ms : List (PyText × PyJson)} :
    EncodableMembers ms ↔ ∀ m ∈ ms, m.1.Encodable ∧ Encodable m.2 := by
  induction ms with
  | nil => simp [EncodableMembers]
  | cons m ms ih => rw [EncodableMembers, ih, List.forall_mem_cons]

theorem dumpsList_eq (xs : List PyJson) : dumpsList xs = xs.map dumps := by
  induction xs with
  | nil => rfl
  | cons x xs ih => rw [dumpsList, ih, List.map_cons]

theorem dumpsMembers_eq (ms : List (PyText × PyJson)) :
    dumpsMembers ms = ms.map fun m => (m.1, dumps m.2) := by
  induction ms with
  | nil => rfl
  | cons m ms ih => rw [dumpsMembers, ih, List.map_cons]

/-- The text of a value can be encoded exactly when the value holds no surrogate. -/
theorem encodable_dumps (v : PyJson) : (dumps v).Encodable ↔ v.Encodable := by
  induction v using recTree with
  | null | bool | int | float => exact iff_of_true (encodable_ofString _) trivial
  | str t => exact encodable_printStr t
  | list xs ih =>
    rw [dumps, encodable_append, encodable_append, and_iff_right (encodable_ofString _),
      and_iff_left (encodable_ofString _), encodable_intercalate (encodable_ofString _),
        dumpsList_eq,
      List.forall_mem_map, Encodable, encodableList_iff]
    exact forall₂_congr ih
  | dict ms ih =>
    rw [dumps, encodable_append, encodable_append, and_iff_right (encodable_ofString _),
      and_iff_left (encodable_ofString _), encodable_intercalate (encodable_ofString _),
      List.forall_mem_map, Encodable, encodableMembers_iff, dumpsMembers_eq]
    have hmember (m : PyText × PyText) :
        (printMember m).Encodable ↔ m.1.Encodable ∧ m.2.Encodable := by
      rw [printMember, encodable_append, encodable_append, encodable_printStr,
        and_iff_right (encodable_ofString _)]
    simp only [List.mem_insertionSort, hmember, List.forall_mem_map]
    exact forall₂_congr fun m hm => and_congr_right fun _ => ih m hm

end PyJson
