/-!
# Marks in a text

A mark is a fixed piece of text.  A text is broken at the first place where a
mark stands, or loses a mark that stands at one of its ends.
-/

namespace TrustRules.Text

/-- The text before and after the first place where the mark stands. -/
def breakOn (mark : List Char) : List Char → Option (List Char × List Char)
  | [] => if mark.isEmpty then some ([], []) else none
  | c :: rest =>
      match mark.isPrefixOf? (c :: rest) with
      | some after => some ([], after)
      | none => (breakOn mark rest).map fun parts => (c :: parts.1, parts.2)

/-- The text without the mark in front; a text that starts otherwise stays. -/
def dropOpening (mark s : List Char) : List Char :=
  (mark.isPrefixOf? s).getD s

/-- The text without the mark at the end; a text that ends otherwise stays. -/
def dropClosing (mark s : List Char) : List Char :=
  (mark.isSuffixOf? s).getD s

/-- The pieces of a text between its line feeds. -/
def lines (s : List Char) : List (List Char) :=
  s.splitOn '\n'

/-- What follows a mark is no longer than the text. -/
theorem length_le_of_isPrefixOf? {mark s rest : List Char}
    (starts : mark.isPrefixOf? s = some rest) : rest.length ≤ s.length := by
  induction mark generalizing s with
  | nil =>
      cases s <;> cases starts <;> exact Nat.le_refl _
  | cons m mark ih =>
      cases s with
      | nil => cases starts
      | cons c s =>
          change (if m == c then mark.isPrefixOf? s else none) = some rest at starts
          split at starts
          · exact Nat.le_succ_of_le (ih starts)
          · cases starts

end TrustRules.Text
