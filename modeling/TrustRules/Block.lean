import TrustRules.Text.Blank
import TrustRules.Text.Break

/-!
# Blocks

Rule text consists of blocks between blank lines.  A separator is a line
break, spaces and tabs, and a second line break; a line break is a line feed
with or without a carriage return before it.  The text is cut at the leftmost
separators that do not overlap, and only then are its pieces trimmed.
-/

namespace TrustRules

open Text

namespace Block

/-- What follows a line break at the front of the text. -/
def lineBreak? : List Char → Option (List Char)
  | '\n' :: rest => some rest
  | '\r' :: '\n' :: rest => some rest
  | _ => none

/-- A character that a blank line may hold besides its carriage return. -/
def isSpacing (c : Char) : Bool :=
  c == ' ' || c == '\t'

/-- What follows a separator at the front of the text. -/
def separator? (s : List Char) : Option (List Char) :=
  (lineBreak? s).bind fun rest => lineBreak? (rest.dropWhile isSpacing)

theorem length_lt_of_lineBreak? {s rest : List Char} (found : lineBreak? s = some rest) :
    rest.length < s.length := by
  unfold lineBreak? at found
  split at found
  · cases found
    exact Nat.lt_succ_self _
  · cases found
    exact Nat.lt_succ_of_lt (Nat.lt_succ_self _)
  · cases found

/-- A separator has at least two characters. -/
theorem length_lt_of_separator? {s rest : List Char} (found : separator? s = some rest) :
    rest.length < s.length := by
  obtain ⟨middle, first, second⟩ := Option.bind_eq_some_iff.1 found
  have shorter := length_lt_of_lineBreak? second
  have kept : (middle.dropWhile isSpacing).length ≤ middle.length :=
    (List.dropWhile_suffix isSpacing).length_le
  exact Nat.lt_of_lt_of_le shorter
    (Nat.le_trans kept (Nat.le_of_lt (length_lt_of_lineBreak? first)))

/-- The pieces of a text between its separators, untrimmed. -/
def pieces : List Char → List (List Char)
  | [] => [[]]
  | c :: rest =>
      match _ : separator? (c :: rest) with
      | some after => [] :: pieces after
      | none => (pieces rest).modifyHead (c :: ·)
termination_by s => s.length
decreasing_by
  · exact length_lt_of_separator? ‹_›
  · exact Nat.lt_succ_self _

theorem pieces_nil : pieces [] = [[]] := by
  rw [pieces]

/-- A separator at the front closes an empty piece. -/
theorem pieces_of_separator {s rest : List Char} (found : separator? s = some rest) :
    pieces s = [] :: pieces rest := by
  cases s with
  | nil => cases found
  | cons c s =>
      rw [pieces]
      split
      · next after same =>
          rw [found] at same
          cases same
          rfl
      · next none =>
          rw [found] at none
          cases none

/-- A character that starts no separator belongs to the first piece. -/
theorem pieces_cons {c : Char} {rest : List Char} (none : separator? (c :: rest) = none) :
    pieces (c :: rest) = (pieces rest).modifyHead (c :: ·) := by
  rw [pieces]
  split
  · next after found =>
      rw [none] at found
      cases found
  · rfl

/-- The blocks of a text: its trimmed pieces, without the empty ones. -/
def ofText (s : List Char) : List (List Char) :=
  ((pieces s).map trim).filter fun block => !block.isEmpty

end Block

end TrustRules
