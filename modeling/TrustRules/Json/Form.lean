import TrustRules.Json
import TrustRules.LineEnding
import TrustRules.Reading

/-!
# JSON forms

How templates, rules, readings, layouts and failures are written as JSON, and
in which forms they may be given.  Absent parts are left out when they are
written; when they are given, they may be missing or empty.
-/

namespace TrustRules

open JsonForm

/-! ## Rules -/

instance : JsonForm Template where
  encode template := .string template.identifier
  decode? json := (decode? json).map Template.ofIdentifier

instance : JsonForm Condition where
  encode condition :=
    .object
      [("claim_type", encode condition.claimType), ("issuer", encode condition.issuer)]
  decode? json := do
    let [claimType, issuer] ← json.fields? ["claim_type", "issuer"] | none
    return { claimType := ← required? claimType, issuer := ← required? issuer }

instance : JsonForm Action where
  encode action :=
    .object
      (member "store" action.store ++ member "types" action.types ++
        member "query" action.query ++ member "param" action.param)
  decode? json := do
    let [store, types, query, param] ← json.fields? ["store", "types", "query", "param"]
      | none
    return {
      store := ← optional? store
      types := ← optional? types
      query := ← optional? query
      param := ← optional? param }

instance : JsonForm Rule where
  encode rule :=
    .object
      ([("name", encode rule.name), ("template", encode rule.template)] ++
        member "body" rule.body ++ member "condition" rule.condition ++
        member "action" rule.action)
  decode? json := do
    let [name, template, body, condition, action] ←
        json.fields? ["name", "template", "body", "condition", "action"]
      | none
    return {
      name := ← required? name
      template := ← required? template
      body := ← optional? body
      condition := ← optional? condition
      action := ← optional? action }

instance : JsonForm RuleSet where
  encode set := encode set.rules
  decode? json := (decode? json).map RuleSet.mk

/-! ## Readings -/

instance : JsonForm Cause where
  encode cause := .string cause.name
  decode? json := json.constant?.bind Cause.ofName?

instance : JsonForm Diagnostic where
  encode diagnostic :=
    .object
      [("block", encode diagnostic.block), ("line", encode diagnostic.line),
        ("text", encode diagnostic.text), ("reason", encode diagnostic.cause)]
  decode? json := do
    let [block, line, text, cause] ← json.fields? ["block", "line", "text", "reason"]
      | none
    return {
      block := ← required? block
      line := ← required? line
      text := ← required? text
      cause := ← required? cause }

instance : JsonForm Reading where
  encode reading :=
    .object [("document", encode reading.set), ("skipped", encode reading.skipped)]
  decode? json := do
    let [set, skipped] ← json.fields? ["document", "skipped"] | none
    return { set := ← required? set, skipped := ← required? skipped }

/-! ## Layouts and failures -/

instance : JsonForm LineEnding where
  encode ending := .string ending.name
  decode? json := json.constant?.bind LineEnding.ofName?

instance : JsonForm Layout where
  encode layout := .object [("line_ending", encode layout.lineEnding)]
  decode? json := do
    let [ending] ← json.fields? ["line_ending"] | none
    return { lineEnding := ← required? ending }

namespace Failure

/-- The name of the kind of a failure. -/
def kind : Failure → String
  | .invalidRule _ _ => "Validation"
  | .invalidFormat _ => "InvalidFormat"
  | .command _ => "Command"
  | .missingKey _ => "MissingOutputKey"

/-- What a failure of some kind holds, as JSON. -/
def content : Failure → Json
  | .invalidRule rule reason => .object [("rule", encode rule), ("reason", encode reason)]
  | .invalidFormat detail => encode detail
  | .command detail => encode detail
  | .missingKey key => encode key

/-- The failure of this kind that holds this. -/
def ofContent? (kind : String) (content : Json) : Option Failure :=
  if kind = "Validation" then
    match content with
    | .object members => do
        return .invalidRule
          (← required? (Json.member? members "rule"))
          (← required? (Json.member? members "reason"))
    | _ => none
  else if kind = "InvalidFormat" then (decode? content).map .invalidFormat
  else if kind = "Command" then (decode? content).map .command
  else if kind = "MissingOutputKey" then (decode? content).map .missingKey
  else none

end Failure

instance : JsonForm Failure where
  encode failure := .object [(failure.kind, failure.content)]
  decode?
    | .object [(kind, content)] => Failure.ofContent? kind content
    | _ => none

end TrustRules
