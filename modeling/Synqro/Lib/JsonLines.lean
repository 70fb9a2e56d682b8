import Synqro.Lib.JsonNumbers

/-!
# JSON texts that stand on one line

A printer that puts no white space between tokens writes no control character at all
(`Json.printable_compact`), since strings escape theirs: its texts can be the lines of a file. A
reader with a limit on nesting takes back the trees within the limit and no others
(`Json.nesting_of_read_printWith`).
-/

namespace Json

/-! ## No control characters -/

/-- The text holds no control character. -/
def Printable (cs : List Char) : Prop := ∀ c ∈ cs, 32 ≤ c.toNat

section
variable {cs ds : List Char} {c : Char}

theorem Printable.nil : Printable [] := List.forall_mem_nil _

theorem Printable.cons (hc : 32 ≤ c.toNat) (h : Printable cs) : Printable (c :: cs) :=
  List.forall_mem_cons.2 ⟨hc, h⟩

/-- Printable texts can be put together. -/
theorem Printable.append (h : Printable cs) (h' : Printable ds) : Printable (cs ++ ds) :=
  List.forall_mem_append.2 ⟨h, h'⟩

/-- The characters of a number are printable. -/
theorem printable_of_numberChar (h : isNumberChar c = true) : 32 ≤ c.toNat := by
  by_contra hlt
  have hnone : ∀ n < 32, isNumberChar (Char.ofNat n) = false := by decide
  have hchar := hnone c.toNat (not_le.1 hlt)
  rw [Char.ofNat_toNat, h] at hchar
  cases hchar

/-- What is written for a character has no control character in it. -/
theorem printable_escapeChar (c : Char) : Printable (escapeChar c) := by
  unfold escapeChar
  split
  · next e he =>
    have hshort : 32 ≤ e.toNat := by
      unfold shortEscape? at he
      repeat' split at he
      all_goals cases he
      all_goals decide
    exact .cons (by decide) (.cons hshort .nil)
  · split
    · next hcontrol =>
      have hdigit {n : Nat} (hn : n < 16) : 32 ≤ (Nat.digitChar n).toNat := by
        decide +revert
      exact .cons (by decide) (.cons (by decide) (.cons (by decide) (.cons (by decide)
        (.cons (hdigit (by omega)) (.cons (hdigit (by omega)) .nil)))))
    · next hcontrol => exact .cons (by omega) .nil

/-- A string is printed without control characters, whatever it holds. -/
theorem printable_printStr (s : String) : Printable (printStr s) := by
  refine .cons (by decide) (.append (fun c hc => ?_) (.cons (by decide) .nil))
  obtain ⟨d, -, hd⟩ := List.mem_flatMap.1 hc
  exact printable_escapeChar d c hd

/-- The rest of a list is printable when its elements are. -/
theorem printable_printTail {xs : List Json}
    (h : ∀ x ∈ xs, ∀ k, Printable (printWith compact k x)) (k : Nat) :
    Printable (printTail compact k xs) := by
  induction xs with
  | nil => exact .nil
  | cons x xs ih =>
    exact .cons (by decide) (.append .nil (.append (h x (.head _) k)
      (ih fun y hy => h y (.tail _ hy))))

/-- The members are printable when their values are: the keys always are. -/
theorem printable_printMembers {ms : Members}
    (h : ∀ m ∈ ms, ∀ k, Printable (printWith compact k m.2)) (k : Nat) :
    Printable (printMembers compact k ms) := by
  induction ms with
  | nil => exact .nil
  | cons m ms ih =>
    exact .cons (by decide) (.append .nil (.append (printable_printStr m.1) (.cons (by decide)
      (.append .nil (.append (h m (.head _) k) (ih fun n hn => h n (.tail _ hn)))))))

/-- A compact text holds no control character. -/
theorem printable_compact (j : Json) : ∀ k, Printable (printWith compact k j) := by
  induction j using recTree with
  | null =>
    exact fun k => .cons (by decide)
      (.cons (by decide) (.cons (by decide) (.cons (by decide) .nil)))
  | bool b =>
    intro k
    cases b
    · exact .cons (by decide) (.cons (by decide) (.cons (by decide) (.cons (by decide)
        (.cons (by decide) .nil))))
    · exact .cons (by decide) (.cons (by decide) (.cons (by decide) (.cons (by decide) .nil)))
  | num n =>
    intro k c hc
    exact printable_of_numberChar (printNumber_number n c hc)
  | str s =>
    intro k
    exact printable_printStr s
  | arr xs ih =>
    intro k
    cases xs with
    | nil => exact .cons (by decide) (.cons (by decide) .nil)
    | cons x xs =>
      exact .cons (by decide) (.append .nil (.append (ih x (.head _) _)
        (.append (printable_printTail (fun y hy => ih y (.tail _ hy)) _)
          (.append .nil (.cons (by decide) .nil)))))
  | obj ms ih =>
    intro k
    cases ms with
    | nil => exact .cons (by decide) (.cons (by decide) .nil)
    | cons m ms =>
      exact .cons (by decide) (.append .nil (.append (printable_printStr m.1) (.cons (by decide)
        (.append .nil (.append (ih m (.head _) _)
          (.append (printable_printMembers (fun n hn => ih n (.tail _ hn)) _)
            (.append .nil (.cons (by decide) .nil))))))))

/-- The text of an object stands between braces. -/
theorem printWith_obj (L : Layout) (k : Nat) (ms : Members) :
    ∃ inner, printWith L k (.obj ms) = '{' :: (inner ++ ['}']) := by
  cases ms with
  | nil => exact ⟨[], rfl⟩
  | cons m ms =>
    rw [printWith]
    exact ⟨L.newline (k + 1) ++ (printStr m.1 ++ (':' :: (L.afterColon ++
      (printWith L (k + 1) m.2 ++ (printMembers L (k + 1) ms ++ L.newline k))))),
      by simp only [List.append_assoc, List.cons_append]⟩

end

/-! ## Deeper limits -/

/-- What is read within a limit is read within a deeper one. -/
def ReadsDeeper (fuel : Nat) : Prop :=
  (∀ {depth depth' cs v}, depth ≤ depth' → readValue fuel depth cs = some v →
    readValue fuel depth' cs = some v) ∧
  (∀ {depth depth' cs v}, depth ≤ depth' → readElems fuel depth cs = some v →
    readElems fuel depth' cs = some v) ∧
  ∀ {depth depth' cs v}, depth ≤ depth' → readMembers fuel depth cs = some v →
    readMembers fuel depth' cs = some v

/-- One more unit of fuel, by the first character of the text. -/
theorem readsDeeper_succ {fuel : Nat} (ih : ReadsDeeper fuel) : ReadsDeeper (fuel + 1) := by
  obtain ⟨hvalue, helems, hmembers⟩ := ih
  refine ⟨fun {depth depth' cs v} hle h => ?_, fun {depth depth' cs v} hle h => ?_,
    fun {depth depth' cs v} hle h => ?_⟩
  · rw [readValue] at h ⊢
    split at h
    · cases h
    · next c rest hskip =>
      split_ifs at h ⊢ with hnull htrue hfalse hquote hbracket hbrace
      · exact h
      · exact h
      · exact h
      · exact h
      · cases depth with
        | zero => cases h
        | succ depth =>
          obtain ⟨depth', rfl⟩ := Nat.exists_eq_add_one.2 (Nat.lt_of_lt_of_le depth.succ_pos hle)
          dsimp only at h ⊢
          split at h
          · exact h
          · obtain ⟨xs, hxs, hj⟩ := Option.map_eq_some_iff.1 h
            exact Option.map_eq_some_iff.2 ⟨xs, helems (Nat.le_of_succ_le_succ hle) hxs, hj⟩
      · cases depth with
        | zero => cases h
        | succ depth =>
          obtain ⟨depth', rfl⟩ := Nat.exists_eq_add_one.2 (Nat.lt_of_lt_of_le depth.succ_pos hle)
          dsimp only at h ⊢
          split at h
          · exact h
          · obtain ⟨ms, hms, hj⟩ := Option.map_eq_some_iff.1 h
            exact Option.map_eq_some_iff.2 ⟨ms, hmembers (Nat.le_of_succ_le_succ hle) hms, hj⟩
      · exact h
  · rw [readElems] at h ⊢
    split at h
    · cases h
    · next x rest hx =>
      rw [hvalue hle hx]
      dsimp only
      split at h
      · obtain ⟨xs, hxs, hj⟩ := Option.map_eq_some_iff.1 h
        exact Option.map_eq_some_iff.2 ⟨xs, helems hle hxs, hj⟩
      · exact h
  · rw [readMembers] at h ⊢
    split at h
    · cases h
    · next k rest hk =>
      split at h
      · cases h
      · next x rest' hx =>
        obtain ⟨r, hr, hx⟩ := Option.bind_eq_some_iff.1 hx
        rw [hr, Option.bind_some, hvalue hle hx]
        dsimp only
        split at h
        · obtain ⟨ms, hms, hj⟩ := Option.map_eq_some_iff.1 h
          exact Option.map_eq_some_iff.2 ⟨ms, hmembers hle hms, hj⟩
        · exact h

/-- By induction on the fuel. -/
theorem readsDeeper (fuel : Nat) : ReadsDeeper fuel := by
  induction fuel with
  | zero =>
    refine ⟨fun _ h => ?_, fun _ h => ?_, fun _ h => ?_⟩
    · rw [readValue] at h
      cases h
    · rw [readElems] at h
      cases h
    · rw [readMembers] at h
      cases h
  | succ fuel ih => exact readsDeeper_succ ih

/-- **A higher limit** on the nesting reads all that a lower one reads, and the same. -/
theorem read_deeper {limit limit' : Nat} {cs : List Char} {j : Json} (hle : limit ≤ limit')
    (h : read limit cs = some j) : read limit' cs = some j := by
  unfold read at h ⊢
  split at h
  · next i r hread =>
    rw [(readsDeeper _).1 hle hread]
    exact h
  · cases h

/-- A printed text is read within its nesting and no shallower limit. -/
theorem nesting_of_read_printWith {L : Layout} {limit : Nat} {i j : Json}
    (h : read limit (printWith L 0 j) = some i) : nesting j ≤ limit := by
  have hdeep := read_deeper (le_max_left limit (nesting j)) h
  rw [read_printWith (le_max_right limit (nesting j))] at hdeep
  rw [Option.some.inj hdeep]
  exact nesting_read h

end Json
