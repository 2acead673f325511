/-!
# Diagnostics

Reading rule text never fails.  What a templated block holds beyond its rule
is reported piece by piece, with its place and with the reason why it could
not be used.
-/

namespace TrustRules

/-- Why a piece of a line contributed nothing. -/
inductive Cause where
  /-- The line starts with no known mark. -/
  | unrecognizedLine
  /-- A condition lacks a claim type or an issuer. -/
  | incompleteCondition
  /-- An argument has no sign between key and value. -/
  | malformedPair
  deriving DecidableEq, Repr

namespace Cause

/-- The name under which a cause is reported. -/
def name : Cause → String
  | .unrecognizedLine => "unrecognized_line"
  | .incompleteCondition => "incomplete_condition"
  | .malformedPair => "malformed_pair"

/-- The cause of exactly this name. -/
def ofName? (name : String) : Option Cause :=
  if name = "unrecognized_line" then some .unrecognizedLine
  else if name = "incomplete_condition" then some .incompleteCondition
  else if name = "malformed_pair" then some .malformedPair
  else none

theorem ofName?_name (cause : Cause) : ofName? cause.name = some cause := by
  cases cause <;> rfl

end Cause

/-- A piece of a block that was not used. -/
structure Diagnostic where
  /-- The place of the block's rule in the set that was read. -/
  block : Nat
  /-- The line within the block, counted from one. -/
  line : Nat
  text : String
  cause : Cause
  deriving DecidableEq, Repr

/-- The same diagnostic of a block that stands `count` rules later. -/
def Diagnostic.later (diagnostic : Diagnostic) (count : Nat) : Diagnostic :=
  { diagnostic with block := count + diagnostic.block }

end TrustRules
