import TrustRules.Text.Blank
import TrustRules.Rule
import TrustRules.Rule.Mark

/-!
# Name headers

The body of a custom rule that was read from rule text starts with the name
line of its block.  The body proper is what follows that header; a body with
another beginning is the body proper already.
-/

namespace TrustRules

open Text

namespace Header

/-- A character that ends a line or stands before one that does. -/
def isLineBreak (c : Char) : Bool :=
  c == '\r' || c == '\n'

/-- The text behind the first line feed; nothing if there is none. -/
def afterLine (s : List Char) : List Char :=
  (s.dropWhile (· != '\n')).drop 1

/-- The first line that is not blank is a name line. -/
def present (body : List Char) : Bool :=
  Mark.name.isPrefixOf (trimStart body)

/--
The body without its header.  With the header go the line breaks that follow
it, and with it the blanks before it; a body without a header stays as it is.
-/
def drop (body : List Char) : List Char :=
  if present body then (afterLine (trimStart body)).dropWhile isLineBreak
  else body

/-- A body that starts otherwise is untouched. -/
theorem drop_of_not_present {body : List Char} (other : present body = false) :
    drop body = body := by
  simp [drop, other]

/-- What remains is the end of the body. -/
theorem drop_suffix (body : List Char) : drop body <:+ body := by
  unfold drop
  split
  · refine (List.dropWhile_suffix _).trans ?_
    refine (List.drop_suffix _ _).trans ?_
    exact (List.dropWhile_suffix _).trans (List.dropWhile_suffix _)
  · exact List.suffix_refl body

end Header

/-- The body of a rule without its name header. -/
def Rule.bodyProper? (rule : Rule) : Option String :=
  rule.body.map fun body => String.ofList (Header.drop body.toList)

end TrustRules
