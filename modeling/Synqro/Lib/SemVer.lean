import Mathlib.Data.String.Basic

/-!
# Semantic versions

`SemVer.parse` reads a version string by the grammar of Semantic Versioning 2.0.0 and
`SemVer.precedence` is its order: the three numbers first, then a pre-release below its release,
identifiers compared one by one, numbers below words. Build metadata takes no part.
-/

/-- A pre-release identifier. -/
inductive SemVer.Ident where
  | num (n : Nat)
  | word (s : String)
deriving DecidableEq

/-- A semantic version without its build metadata. -/
structure SemVer where
  major : Nat
  minor : Nat
  patch : Nat
  pre : List SemVer.Ident
deriving DecidableEq

namespace SemVer

/-- The characters of an identifier. -/
def isIdentChar (c : Char) : Bool := c.isAlphanum || c == '-'

/-- The characters of a version string. -/
def isVersionChar (c : Char) : Bool := isIdentChar c || c == '.' || c == '+'

/-- A number without a leading zero. -/
def numeric? (ds : List Char) : Option Nat :=
  if ds ≠ [] ∧ ds.all Char.isDigit ∧ (ds.head? ≠ some '0' ∨ ds = ['0']) then
    some (Nat.ofDigitChars 10 ds 0)
  else none

/-- An identifier: digits alone make a number. -/
def ident? (cs : List Char) : Option Ident :=
  if cs ≠ [] ∧ cs.all isIdentChar then
    if cs.all Char.isDigit then (numeric? cs).map .num else some (.word (String.ofList cs))
  else none

/-- The identifiers after a mark, when the mark is there. -/
def idents? : List Char → Option (List Ident)
  | [] => some []
  | _ :: cs => (cs.splitOn '.').mapM ident?

/-- Build metadata after its mark, when the mark is there. -/
def isBuild : List Char → Bool
  | [] => true
  | _ :: cs => (cs.splitOn '.').all fun b => b != [] && b.all isIdentChar

/-- The version of a string without its build metadata. -/
def release? (cs : List Char) : Option SemVer :=
  match ((cs.takeWhile (· ≠ '-')).splitOn '.').mapM numeric?, idents? (cs.dropWhile (· ≠ '-')) with
  | some [major, minor, patch], some pre => some ⟨major, minor, patch, pre⟩
  | _, _ => none

/-- The version a string spells. -/
def parse (s : String) : Option SemVer :=
  if s.toList.all isVersionChar ∧ isBuild (s.toList.dropWhile (· ≠ '+')) then
    release? (s.toList.takeWhile (· ≠ '+'))
  else none

/-- Numbers come before words. -/
def Ident.precedence : Ident → Ident → Ordering
  | .num a, .num b => compare a b
  | .num _, .word _ => .lt
  | .word _, .num _ => .gt
  | .word a, .word b => compareOfLessAndEq a b

/-- Identifiers one by one; a longer list comes after its beginning. -/
def identsPrecedence : List Ident → List Ident → Ordering
  | [], [] => .eq
  | [], _ :: _ => .lt
  | _ :: _, [] => .gt
  | a :: as, b :: bs => (a.precedence b).then (identsPrecedence as bs)

/-- A pre-release comes before its release. -/
def prePrecedence : List Ident → List Ident → Ordering
  | [], [] => .eq
  | [], _ :: _ => .gt
  | _ :: _, [] => .lt
  | as, bs => identsPrecedence as bs

def precedence (u v : SemVer) : Ordering :=
  (compare u.major v.major).then <| (compare u.minor v.minor).then <|
    (compare u.patch v.patch).then <| prePrecedence u.pre v.pre

/-- `u` and `v` are semantic versions and `u` comes before `v`. -/
def Lower (u v : String) : Prop :=
  ∃ u' v', parse u = some u' ∧ parse v = some v' ∧ u'.precedence v' = .lt

/-- A version string is one path component. -/
theorem slash_notMem {s : String} {v : SemVer} (h : parse s = some v) : '/' ∉ s.toList := by
  unfold parse at h
  split at h
  · next hc =>
    intro hs
    exact absurd (List.all_eq_true.1 hc.1 '/' hs) (by decide)
  · cases h

example : Lower "9.0.0" "10.0.0" := ⟨_, _, rfl, rfl, by decide⟩

example : Lower "1.0.0-rc.9+b1" "1.0.0-rc.10" := ⟨_, _, rfl, rfl, by decide⟩

end SemVer
