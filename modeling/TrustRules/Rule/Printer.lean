import TrustRules.Event
import TrustRules.LineEnding
import TrustRules.Rule.Header
import TrustRules.Rule.Shape

/-!
# Written rules

The text of conditions, actions, rules and rule sets.  Names and values stand
in double quotes and are written as they are.  Every rule is checked before it
is written, and the first rule of a wrong shape stops the writing of its set.
-/

namespace TrustRules

open Text

/-- A value in double quotes. -/
def wrapped (value : String) : List Char :=
  '"' :: value.toList ++ ['"']

/-! ## Conditions and actions -/

namespace Condition

/-- The arguments of a condition, in the order in which they are written. -/
def arguments (condition : Condition) : List (List Char) :=
  ["Type == ".toList ++ wrapped condition.claimType,
    "Issuer == ".toList ++ wrapped condition.issuer]

/-- The text of a condition. -/
def text (condition : Condition) : List Char :=
  Mark.condition ++ Mark.separator.intercalate condition.arguments ++ Mark.conditionEnd

end Condition

namespace Action

/-- The list of types in parentheses. -/
def typesText (types : List String) : List Char :=
  Mark.typesStart ++ Mark.separator.intercalate (types.map wrapped) ++ Mark.typesEnd

/-- The arguments that are present, in the order in which they are written. -/
def arguments (action : Action) : List (List Char) :=
  (action.store.map fun store => "store = ".toList ++ wrapped store).toList ++
    (action.types.map fun types => "types = ".toList ++ typesText types).toList ++
    (action.query.map fun query => "query = ".toList ++ wrapped query).toList ++
    (action.param.map fun param => "param = ".toList ++ param.toList).toList

/-- The text of an action. -/
def text (action : Action) : List Char :=
  Mark.action ++ Mark.separator.intercalate action.arguments ++ Mark.actionEnd

end Action

/-! ## Rules -/

namespace LineEnding

/-- The text as a line of its own. -/
def line (ending : LineEnding) (s : List Char) : List Char :=
  s ++ ending.text

/-- The text as a line of its own, and no line for an empty text. -/
def lineUnlessEmpty (ending : LineEnding) (s : List Char) : List Char :=
  if s.isEmpty then [] else ending.line s

end LineEnding

namespace Rule

/-- The name line, without its line ending. -/
def nameText (rule : Rule) : List Char :=
  Mark.name ++ ' ' :: wrapped rule.name

/-- The template line, without its line ending. -/
def templateText (rule : Rule) : List Char :=
  Mark.template ++ ' ' :: wrapped rule.template.identifier

/-- The condition and the action of a templated rule, as far as it has them. -/
def statement (rule : Rule) : List Char :=
  (match rule.condition with
    | some condition => condition.text ++ [' ']
    | none => []) ++
  (match rule.action with
    | some action => action.text
    | none => [])

/-- The body of a custom rule as it is written: no header, no line breaks at the end. -/
def bodyText (rule : Rule) : List Char :=
  match rule.body with
  | some body => ((Header.drop body.toList).reverse.dropWhile Header.isLineBreak).reverse
  | none => []

/-- The lines of a rule.  The shape of the rule is not checked. -/
def text (ending : LineEnding) (rule : Rule) : List Char :=
  ending.line rule.nameText ++
    if rule.isCustom then ending.lineUnlessEmpty rule.bodyText
    else ending.line rule.templateText ++ ending.lineUnlessEmpty rule.statement

/-- Write a rule; only templated rules are logged. -/
def write (ending : LineEnding) (rule : Rule) : Logged String where
  value := String.ofList (rule.text ending)
  events :=
    if rule.isCustom then []
    else [.ruleWritten rule.name rule.template.identifier]

end Rule

/-! ## Rule sets -/

namespace RuleSet

/--
Check and write the rules of a list, with an empty line between two rules.
What was logged before a failure stays logged.
-/
def writeRules (ending : LineEnding) : List Rule → Logged (Except Failure (List Char))
  | [] => ⟨.ok [], []⟩
  | rule :: rest =>
      match rule.check with
      | .error failure => ⟨.error failure, []⟩
      | .ok () =>
          let others := writeRules ending rest
          let gap := if rest.isEmpty then [] else ending.text
          { value := others.value.map fun text => rule.text ending ++ gap ++ text
            events := (rule.write ending).events ++ others.events }

/-- Write a rule set, or fail at its first rule of a wrong shape. -/
def write (ending : LineEnding) (set : RuleSet) : Logged (Except Failure String) :=
  let written := writeRules ending set.rules
  match written.value with
  | .error failure => ⟨.error failure, written.events⟩
  | .ok chars =>
      let text := String.ofList chars
      ⟨.ok text, written.events ++ [.textWritten set.size text.utf8ByteSize]⟩

end RuleSet

end TrustRules
