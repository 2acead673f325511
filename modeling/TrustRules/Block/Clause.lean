import TrustRules.Block.Argument
import TrustRules.Event

/-!
# Clauses

A line of a block states one clause, or two if an action follows a condition.
What a clause contributes to its rule, what it leaves unused and what it logs
depends on the clause alone, never on the lines before it.
-/

namespace TrustRules

open Text

/-- One statement of a block. -/
inductive Clause where
  /-- What follows the mark of a name line. -/
  | name (value : List Char)
  /-- What follows the mark of a template line. -/
  | template (value : List Char)
  /-- A condition with its marks. -/
  | condition (text : List Char)
  /-- An action with its marks. -/
  | action (text : List Char)
  /-- A text that starts with no known mark. -/
  | unrecognized (text : List Char)
  deriving DecidableEq, Repr

namespace Clause

/-! ## The clauses of a line -/

/-- What may follow a condition on its line: nothing, or an action. -/
def ofTail (rest : List Char) : List Clause :=
  if rest.isEmpty then []
  else if Mark.action.isPrefixOf rest then [.action rest]
  else [.unrecognized rest]

/--
The clauses of a line that starts with a condition.  The condition ends at its
first bracket outside double quotes; without one it takes the whole line.
-/
def ofConditionLine (line : List Char) : List Clause :=
  match throughUnquoted ']' false line with
  | some (front, rest) => .condition front :: ofTail (trim rest)
  | none => [.condition line]

/-- The clauses of a trimmed line that is not empty. -/
def ofTrimmed (line : List Char) : List Clause :=
  match Mark.name.isPrefixOf? line with
  | some value => [.name value]
  | none =>
      match Mark.template.isPrefixOf? line with
      | some value => [.template value]
      | none =>
          if Mark.condition.isPrefixOf line then ofConditionLine line
          else if Mark.action.isPrefixOf line then [.action line]
          else [.unrecognized line]

/-- The clauses of a line; a blank line has none. -/
def ofLine (line : List Char) : List Clause :=
  if allBlank line then [] else ofTrimmed (trim line)

/-! ## What a clause leaves unused -/

/-- The arguments of a clause without a sign between key and value. -/
def malformed (arguments : List Argument) : List (List Char × Cause) :=
  (arguments.filterMap Argument.malformed?).map fun text => (text, .malformedPair)

/-- The pieces of a clause that could not be used, in the order of reports. -/
def unused : Clause → List (List Char × Cause)
  | .name _ => []
  | .template _ => []
  | .condition text =>
      malformed (Condition.argumentsOf text) ++
        if (Condition.ofText? text).isSome then [] else [(text, .incompleteCondition)]
  | .action text => malformed (Action.argumentsOf text)
  | .unrecognized text => [(text, .unrecognizedLine)]

/-! ## What a clause logs -/

/-- The keys of a list of arguments that are not known. -/
def unknownKeys (known : List (List Char)) (arguments : List Argument) : List String :=
  (arguments.filterMap (Argument.unknownKey? known)).map String.ofList

/-- The events of a clause. -/
def events : Clause → List Event
  | .name value => [.nameLine (String.ofList (bare value))]
  | .template value => [.templateLine (String.ofList (bare value))]
  | .condition text =>
      (unknownKeys Condition.keys (Condition.argumentsOf text)).map .ignoredInCondition
  | .action text =>
      (unknownKeys Action.keys (Action.argumentsOf text)).map .ignoredInAction
  | .unrecognized _ => []

end Clause

end TrustRules
