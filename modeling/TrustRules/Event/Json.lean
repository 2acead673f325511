import TrustRules.Event
import TrustRules.Json

/-!
# Log events as JSON

An event is written with its level and its fields.  The fields `event` and
`phase` tell the events apart; a text without a field of its own is the
`message`.
-/

namespace TrustRules

open JsonForm

namespace Event

/-- How serious an event is. -/
def level : Event → String
  | .skipped _ => "WARN"
  | .trustRead _ _ _ => "INFO"
  | .trustApplied _ _ => "INFO"
  | _ => "DEBUG"

/-- What was going on when the event arose. -/
def activity : Event → String
  | .ruleWritten _ _ => "Serialize"
  | .textWritten _ _ => "Serialize"
  | .rulesMissing _ _ => "Issuance"
  | .trustRead _ _ _ => "Issuance"
  | .trustApplied _ _ => "Issuance"
  | _ => "Parse"

/-- The part of the activity that the event belongs to. -/
def phase : Event → String
  | .emptyBlock => "Block"
  | .block _ _ => "Block"
  | .nameLine _ => "Line"
  | .templateLine _ => "Line"
  | .ignoredInCondition _ => "Condition"
  | .ignoredInAction _ => "Action"
  | .assumedCustom _ => "Classify"
  | .skipped _ => "Skip"
  | .textRead _ _ => "Result"
  | .ruleWritten _ _ => "Rule"
  | .textWritten _ _ => "Result"
  | .rulesMissing _ _ => "Read"
  | .trustRead _ _ _ => "Read"
  | .trustApplied _ _ => "Apply"

/-- The fields of an event besides its activity and phase. -/
def details : Event → List (String × Json)
  | .emptyBlock => [("message", encode "skipping empty rule block")]
  | .block place text => [("index", encode place), ("block", encode text)]
  | .nameLine name => [("rule_name", encode name)]
  | .templateLine identifier => [("rule_template", encode identifier)]
  | .ignoredInCondition key => [("ignored_key", encode key)]
  | .ignoredInAction key => [("ignored_key", encode key)]
  | .assumedCustom name =>
      [("name", encode name),
        ("message", encode "no rule template found, assuming CustomRule")]
  | .skipped diagnostic =>
      [("block", encode diagnostic.block), ("line", encode diagnostic.line),
        ("reason", encode diagnostic.cause.name), ("text", encode diagnostic.text)]
  | .textRead rules unused => [("rules", encode rules), ("skipped", encode unused)]
  | .ruleWritten name identifier =>
      [("name", encode name), ("template", encode identifier)]
  | .textWritten rules bytes => [("rules", encode rules), ("bytes", encode bytes)]
  | .rulesMissing trust output => [("trust", encode trust), ("output", encode output)]
  | .trustRead trust rules unused =>
      [("trust", encode trust), ("rules", encode rules), ("skipped", encode unused)]
  | .trustApplied trust rules => [("trust", encode trust), ("rules", encode rules)]

/-- The JSON form of an event. -/
def json (event : Event) : Json :=
  .object
    [("level", encode event.level),
      ("fields",
        .object
          (("event", encode event.activity) :: ("phase", encode event.phase) ::
            event.details))]

end Event

end TrustRules
