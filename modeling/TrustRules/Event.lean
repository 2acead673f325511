import TrustRules.Diagnostic

/-!
# Log events

Reading, writing and applying rules is logged.  An operation that logs returns
its value together with its events, in the order in which they arise.
-/

namespace TrustRules

/-- What is reported while rules are read, written or applied. -/
inductive Event where
  /-- A piece of the text between blank lines was blank itself. -/
  | emptyBlock
  /-- A block is about to be read; its rule will have this place. -/
  | block (place : Nat) (text : String)
  | nameLine (name : String)
  | templateLine (identifier : String)
  /-- An argument of a condition has an unknown key. -/
  | ignoredInCondition (key : String)
  /-- An argument of an action has an unknown key. -/
  | ignoredInAction (key : String)
  /-- A block was kept whole as a custom rule. -/
  | assumedCustom (name : String)
  | skipped (diagnostic : Diagnostic)
  /-- A text was read to its end. -/
  | textRead (rules skipped : Nat)
  /-- A templated rule was written. -/
  | ruleWritten (name identifier : String)
  /-- A whole rule set was written. -/
  | textWritten (rules bytes : Nat)
  /-- The command that reads a trust did not print its rules. -/
  | rulesMissing (trust output : String)
  | trustRead (trust : String) (rules skipped : Nat)
  | trustApplied (trust : String) (rules : Nat)
  deriving DecidableEq, Repr

/-- A value with the events that were logged on the way to it. -/
structure Logged (α : Type) where
  value : α
  events : List Event := []

end TrustRules
