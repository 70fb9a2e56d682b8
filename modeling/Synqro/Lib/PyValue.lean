import Synqro.Lib.JsonText

/-!
# Python values

The values that Python's JSON and YAML readers build, with the operations on them that scripts use:
truth, `str`, `dict.get`, iteration, and `json.dumps` in its compact form with sorted keys. A
dictionary holds its members under text keys, in the order they were first set and each key once. An
operation on a value of another type raises.
-/

/-- An exception, by the class its handlers name. -/
inductive PyError where
  | os (message : String)
  | value (message : String)
  | runtime (message : String)
  | other (kind message : String)
deriving DecidableEq

/-- A Python value. A float is kept as its `repr`; `object` is any value of another type. -/
inductive PyValue where
  | none
  | bool (b : Bool)
  | int (n : Int)
  | float (repr : String)
  | str (s : String)
  | list (xs : List PyValue)
  | dict (ms : List (String × PyValue))
  | object (truthy : Bool) (text : String)

namespace PyValue

/-- Induction over a value, with the members of lists and dictionaries at hand. -/
theorem recTree {P : PyValue → Prop} (none : P .none) (bool : ∀ b, P (.bool b))
    (int : ∀ n, P (.int n)) (float : ∀ r, P (.float r)) (str : ∀ s, P (.str s))
    (list : ∀ xs, (∀ x ∈ xs, P x) → P (.list xs))
    (dict : ∀ ms, (∀ m ∈ ms, P m.2) → P (.dict ms)) (object : ∀ b s, P (.object b s)) :
    ∀ v, P v := by
  intro v
  refine @PyValue.rec P (fun xs => ∀ x ∈ xs, P x) (fun ms => ∀ m ∈ ms, P m.2) (fun m => P m.2)
    none bool int float str list dict object ?_ ?_ ?_ ?_ ?_ v
  · exact nofun
  · intro x xs hx hxs y hy
    rcases List.mem_cons.1 hy with rfl | hy
    exacts [hx, hxs y hy]
  · exact nofun
  · intro m ms hm hms n hn
    rcases List.mem_cons.1 hn with rfl | hn
    exacts [hm, hms n hn]
  · exact fun _ _ h => h

/-! ## Members -/

/-- The value of a key. -/
def find (k : String) : List (String × PyValue) → Option PyValue
  | [] => .none
  | (k', v) :: ms => if k = k' then some v else find k ms

/-- The dictionary without a key. -/
def remove (k : String) (ms : List (String × PyValue)) : List (String × PyValue) :=
  ms.filter (·.1 ≠ k)

/-- `value.get(key, default)`. -/
def get (v : PyValue) (key : String) (dflt : PyValue) : Except PyError PyValue :=
  match v with
  | .dict ms => .ok ((find key ms).getD dflt)
  | _ => .error (.other "AttributeError" "object has no attribute 'get'")

/-- What a `for` loop goes through. -/
def iterate : PyValue → Except PyError (List PyValue)
  | .list xs => .ok xs
  | .dict ms => .ok (ms.map fun m => .str m.1)
  | .str s => .ok (s.toList.map fun c => .str (.singleton c))
  | _ => .error (.other "TypeError" "object is not iterable")

/-- The truth of a value. -/
def truthy : PyValue → Bool
  | .none => false
  | .bool b => b
  | .int n => n ≠ 0
  | .float r => r ≠ "0.0" && r ≠ "-0.0"
  | .str s => s ≠ ""
  | .list xs => !xs.isEmpty
  | .dict ms => !ms.isEmpty
  | .object b _ => b

/-- The value equals a text. -/
def isStr (s : String) : PyValue → Bool
  | .str t => t = s
  | _ => false

/-- `str(value)`, from the `repr` of what it holds. -/
def toStr (repr : PyValue → String) : PyValue → String
  | .none => "None"
  | .bool true => "True"
  | .bool false => "False"
  | .int n => toString n
  | .float r => r
  | .str s => s
  | .list xs => "[" ++ ", ".intercalate (xs.map repr) ++ "]"
  | .dict ms => "\x7b" ++ ", ".intercalate
      (ms.map fun m => repr (.str m.1) ++ ": " ++ repr m.2) ++ "\x7d"
  | .object _ text => text

/-! ## JSON text -/

/-- The text of a float: infinities and the value that is no number have their own names. -/
def floatText (r : String) : List Char :=
  if r = "nan" then "NaN".toList
  else if r = "inf" then "Infinity".toList
  else if r = "-inf" then "-Infinity".toList
  else r.toList

/-- The texts of the members, with their keys. -/
def joinMembers (ms : List (String × List Char)) : List Char :=
  [','].intercalate (ms.map fun m => Json.printStr m.1 ++ ':' :: m.2)

mutual

/-- `json.dumps` with sorted keys, the separators `,` and `:` and nothing but what must be
escaped. -/
def dumps : PyValue → Except PyError (List Char)
  | .none => .ok "null".toList
  | .bool b => .ok (if b then "true".toList else "false".toList)
  | .int n => .ok (toString n).toList
  | .float r => .ok (floatText r)
  | .str s => .ok (Json.printStr s)
  | .list xs => do return '[' :: [','].intercalate (← dumpsList xs) ++ [']']
  | .dict ms => do
    return '\x7b' :: joinMembers ((← dumpsMembers ms).insertionSort (·.1 ≤ ·.1)) ++ ['\x7d']
  | .object _ _ => .error (.other "TypeError" "Object is not JSON serializable")

def dumpsList : List PyValue → Except PyError (List (List Char))
  | [] => .ok []
  | x :: xs => do return (← dumps x) :: (← dumpsList xs)

def dumpsMembers : List (String × PyValue) → Except PyError (List (String × List Char))
  | [] => .ok []
  | (k, v) :: ms => do return (k, ← dumps v) :: (← dumpsMembers ms)

end

/-! ## The texts of a value -/

mutual

/-- The texts among the values at any depth. -/
def texts : PyValue → List String
  | .str s => [s]
  | .list xs => textsList xs
  | .dict ms => textsMembers ms
  | _ => []

def textsList : List PyValue → List String
  | [] => []
  | x :: xs => texts x ++ textsList xs

def textsMembers : List (String × PyValue) → List String
  | [] => []
  | (_, v) :: ms => texts v ++ textsMembers ms

end

theorem textsList_eq (xs : List PyValue) : textsList xs = xs.flatMap texts := by
  induction xs with
  | nil => rfl
  | cons x xs ih => rw [textsList, ih, List.flatMap_cons]

theorem textsMembers_eq (ms : List (String × PyValue)) :
    textsMembers ms = ms.flatMap (texts ·.2) := by
  induction ms with
  | nil => rfl
  | cons m ms ih => rw [textsMembers, ih, List.flatMap_cons]

/-- The texts of a dictionary are those under a key and those of the rest. -/
theorem forall_textsMembers {Good : String → Prop} {k : String} {v : PyValue}
    {ms : List (String × PyValue)} (hkeys : (ms.map Prod.fst).Nodup) (hv : find k ms = some v) :
    (∀ s ∈ textsMembers ms, Good s) ↔
      (∀ s ∈ v.texts, Good s) ∧ ∀ s ∈ textsMembers (remove k ms), Good s := by
  induction ms with
  | nil => cases hv
  | cons m ms ih =>
    obtain ⟨hfresh, hkeys⟩ := List.nodup_cons.1 hkeys
    rw [find] at hv
    rw [textsMembers, List.forall_mem_append]
    split at hv
    · next hk =>
      cases hv
      have hrest : remove k (m :: ms) = ms := by
        rw [remove, List.filter_cons_of_neg (by simp [hk]), List.filter_eq_self]
        rintro m' hm'
        rw [decide_eq_true_eq]
        rintro rfl
        exact hfresh (List.mem_map.2 ⟨m', hm', hk⟩)
      rw [hrest]
    · next hk =>
      have hrest : remove k (m :: ms) = m :: remove k ms :=
        List.filter_cons_of_pos (by simpa using Ne.symm hk)
      rw [hrest, textsMembers, List.forall_mem_append, ih hkeys hv]
      exact and_left_comm

/-! ## What a text says of its value -/

/-- A quoted text is told apart from what follows it. -/
theorem printStr_append {s s' : String} {r r' : List Char}
    (h : Json.printStr s ++ r = Json.printStr s' ++ r') : s = s' ∧ r = r' := by
  have hread := Json.readKey s [] r rfl
  rw [List.nil_append, h, ← List.nil_append (Json.printStr s' ++ r'),
    Json.readKey s' [] r' rfl] at hread
  obtain ⟨hs, hr⟩ := Prod.mk.inj (Option.some.inj hread)
  exact ⟨(String.toList_inj.1 hs).symm, hr.symm⟩

/-- Two rows of texts, each of which is told apart from what follows it. -/
theorem intercalate_append {α : Type} {a b : α → List Char} {Same : α → Prop} {xs : List α}
    {r r' : List Char}
    (hxs : ∀ x ∈ xs, ∀ r r', a x ++ r = b x ++ r' → Same x ∧ r = r')
    (h : [','].intercalate (xs.map a) ++ r = [','].intercalate (xs.map b) ++ r') :
    (∀ x ∈ xs, Same x) ∧ r = r' := by
  induction xs with
  | nil => exact ⟨nofun, h⟩
  | cons x xs ih =>
    cases xs with
    | nil =>
      obtain ⟨hx, hr⟩ := hxs x (.head _) r r' (by simpa [List.intercalate] using h)
      exact ⟨List.forall_mem_singleton.2 hx, hr⟩
    | cons y ys =>
      simp only [List.map_cons, List.intercalate_cons_cons, List.append_assoc, List.cons_append,
        List.nil_append] at h
      obtain ⟨hx, htail⟩ := hxs x (.head _) _ _ h
      obtain ⟨hys, hr⟩ := ih (fun z hz => hxs z (.tail _ hz)) (List.cons.inj htail).2
      exact ⟨List.forall_mem_cons.2 ⟨hx, hys⟩, hr⟩

/-- The JSON text of a value that has one. -/
def text (v : PyValue) : List Char := v.dumps.toOption.getD []

theorem text_of_dumps {v : PyValue} {t : List Char} (h : v.dumps = .ok t) : v.text = t := by
  rw [text, h]
  rfl

theorem dumpsList_ok {xs : List PyValue} {ts : List (List Char)} (h : dumpsList xs = .ok ts) :
    ts = xs.map text ∧ ∀ x ∈ xs, x.dumps = .ok x.text := by
  induction xs generalizing ts with
  | nil =>
    cases h
    exact ⟨rfl, nofun⟩
  | cons x xs ih =>
    rw [dumpsList] at h
    cases hx : x.dumps with
    | error e =>
      rw [hx] at h
      cases h
    | ok t =>
      cases hxs : dumpsList xs with
      | error e =>
        rw [hx, hxs] at h
        cases h
      | ok ts' =>
        rw [hx, hxs] at h
        cases h
        obtain ⟨rfl, htexts⟩ := ih hxs
        obtain rfl := text_of_dumps hx
        exact ⟨rfl, List.forall_mem_cons.2 ⟨hx, htexts⟩⟩

theorem dumpsMembers_ok {ms : List (String × PyValue)} {ts : List (String × List Char)}
    (h : dumpsMembers ms = .ok ts) :
    ts = ms.map (fun m => (m.1, m.2.text)) ∧ ∀ m ∈ ms, m.2.dumps = .ok m.2.text := by
  induction ms generalizing ts with
  | nil =>
    cases h
    exact ⟨rfl, nofun⟩
  | cons m ms ih =>
    rw [dumpsMembers] at h
    cases hm : m.2.dumps with
    | error e =>
      rw [hm] at h
      cases h
    | ok t =>
      cases hms : dumpsMembers ms with
      | error e =>
        rw [hm, hms] at h
        cases h
      | ok ts' =>
        rw [hm, hms] at h
        cases h
        obtain ⟨rfl, htexts⟩ := ih hms
        obtain rfl := text_of_dumps hm
        exact ⟨rfl, List.forall_mem_cons.2 ⟨hm, htexts⟩⟩

theorem dumps_list {xs : List PyValue} {t : List Char} (h : (PyValue.list xs).dumps = .ok t) :
    t = '[' :: [','].intercalate (xs.map text) ++ [']'] ∧ ∀ x ∈ xs, x.dumps = .ok x.text := by
  rw [dumps] at h
  cases hxs : dumpsList xs with
  | error e =>
    rw [hxs] at h
    cases h
  | ok ts =>
    rw [hxs] at h
    cases h
    obtain ⟨rfl, htexts⟩ := dumpsList_ok hxs
    exact ⟨rfl, htexts⟩

/-- The members stand in the order of their keys. -/
theorem dumps_dict {ms : List (String × PyValue)} {t : List Char}
    (h : (PyValue.dict ms).dumps = .ok t) :
    t = '\x7b' :: [','].intercalate ((ms.insertionSort (·.1 ≤ ·.1)).map fun m =>
      Json.printStr m.1 ++ ':' :: m.2.text) ++ ['\x7d'] ∧ ∀ m ∈ ms, m.2.dumps = .ok m.2.text := by
  rw [dumps] at h
  cases hms : dumpsMembers ms with
  | error e =>
    rw [hms] at h
    cases h
  | ok ts =>
    rw [hms] at h
    cases h
    obtain ⟨rfl, htexts⟩ := dumpsMembers_ok hms
    have hsort : (ms.insertionSort (·.1 ≤ ·.1)).map (fun m => (m.1, m.2.text)) =
        (ms.map fun m => (m.1, m.2.text)).insertionSort (·.1 ≤ ·.1) :=
      List.map_insertionSort _ _ _ ms fun _ _ _ _ => Iff.rfl
    refine ⟨?_, htexts⟩
    rw [← hsort, joinMembers, List.map_map]
    rfl

/-! ## JSON trees -/

mutual

/-- The Python value of a JSON tree that repeats no key. -/
def ofJson : Json → PyValue
  | .null => .none
  | .bool b => .bool b
  | .num (.posInt n) => .int n.toNat
  | .num (.negInt k) => .int (Int.negSucc k)
  | .num (.float text) => .float (.ofList text.chars)
  | .str s => .str s
  | .arr xs => .list (ofJsonList xs)
  | .obj ms => .dict (ofJsonMembers ms)

def ofJsonList : List Json → List PyValue
  | [] => []
  | x :: xs => ofJson x :: ofJsonList xs

def ofJsonMembers : List (String × Json) → List (String × PyValue)
  | [] => []
  | (k, v) :: ms => (k, ofJson v) :: ofJsonMembers ms

end

end PyValue
