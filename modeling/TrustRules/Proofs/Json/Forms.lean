import TrustRules.Json.Form
import TrustRules.Proofs.Json.Faithful
import TrustRules.Proofs.Reading.Places
import TrustRules.Proofs.Reading.Shapes

/-!
# Round trips through JSON

Main statement: rules, readings, layouts and failures are read back from the
JSON that they are written as, if every template is the one that its identifier
names and every place is a count of 64 bits.  Whatever is read from JSON meets these
conditions.  What is read from a text meets them too, if 64 bits are enough to
count its characters.
-/

namespace TrustRules

open Text JsonForm

/-! ## Rules -/

theorem Template.faithful : Faithful Template Canonical where
  present _ := Json.noConfusion
  decode?_encode _ canonical := congrArg some canonical
  exact_of_decode? json template read := by
    obtain ⟨identifier, -, rfl⟩ := Option.map_eq_some_iff.1 read
    exact canonical_ofIdentifier identifier

theorem Condition.faithful : Faithful Condition fun _ => True where
  present _ := Json.noConfusion
  decode?_encode condition _ := by
    have fields : (encode condition).fields? ["claim_type", "issuer"] =
        some [some (encode condition.claimType), some (encode condition.issuer)] := by
      simp [encode, Json.fields?, Json.member?_cons, Json.member?_nil]
    simp only [decode?, fields, Option.bind_eq_bind, Option.bind_some,
      faithful_string.required?_encode, Option.pure_def]
  exact_of_decode? _ _ _ := trivial

theorem Action.faithful : Faithful Action fun _ => True where
  present _ := Json.noConfusion
  decode?_encode action _ := by
    have fields : (encode action).fields? ["store", "types", "query", "param"] =
        some [action.store.map encode, action.types.map encode, action.query.map encode,
          action.param.map encode] := by
      simp [encode, Json.fields?, Json.member?_append, member?_member]
    have types : ∀ types ∈ action.types, ∀ type ∈ types, True := fun _ _ _ _ => trivial
    simp only [decode?, fields, Option.bind_eq_bind, Option.bind_some,
      faithful_string.optional?_encode fun _ _ => trivial,
      faithful_string.list.optional?_encode types, Option.pure_def]
  exact_of_decode? _ _ _ := trivial

namespace Rule

theorem template_of_decode? {json : Json} {rule : Rule} (read : decode? json = some rule) :
    ∃ field, required? field = some rule.template := by
  obtain ⟨fields, -, read⟩ := Option.bind_eq_some_iff.1 read
  split at read
  · obtain ⟨name, -, read⟩ := Option.bind_eq_some_iff.1 read
    obtain ⟨template, found, read⟩ := Option.bind_eq_some_iff.1 read
    obtain ⟨body, -, read⟩ := Option.bind_eq_some_iff.1 read
    obtain ⟨condition, -, read⟩ := Option.bind_eq_some_iff.1 read
    obtain ⟨action, -, read⟩ := Option.bind_eq_some_iff.1 read
    obtain rfl := Option.some.inj read
    exact ⟨_, found⟩
  · cases read

theorem faithful : Faithful Rule fun rule => rule.template.Canonical where
  present _ := Json.noConfusion
  decode?_encode rule canonical := by
    have fields : (encode rule).fields? ["name", "template", "body", "condition", "action"] =
        some [some (encode rule.name), some (encode rule.template), rule.body.map encode,
          rule.condition.map encode, rule.action.map encode] := by
      simp [encode, Json.fields?, Json.member?_append, Json.member?_cons, member?_member]
    simp only [decode?, fields, Option.bind_eq_bind, Option.bind_some,
      faithful_string.required?_encode, Template.faithful.required?_encode canonical,
      faithful_string.optional?_encode fun _ _ => trivial,
      Condition.faithful.optional?_encode fun _ _ => trivial,
      Action.faithful.optional?_encode fun _ _ => trivial, Option.pure_def]
  exact_of_decode? json rule read := by
    obtain ⟨field, found⟩ := template_of_decode? read
    exact Template.faithful.exact_of_required? found

end Rule

theorem RuleSet.faithful :
    Faithful RuleSet fun set => ∀ rule ∈ set.rules, rule.template.Canonical where
  present _ := Json.noConfusion
  decode?_encode set canonical := by
    have rules := Rule.faithful.list.decode?_encode set.rules canonical
    exact congrArg (Option.map RuleSet.mk) rules
  exact_of_decode? json set read := by
    obtain ⟨rules, found, rfl⟩ := Option.map_eq_some_iff.1 read
    exact Rule.faithful.list.exact_of_decode? json rules found

/-! ## Readings -/

theorem Cause.faithful : Faithful Cause fun _ => True where
  present _ := Json.noConfusion
  decode?_encode cause _ := ofName?_name cause
  exact_of_decode? _ _ _ := trivial

namespace Diagnostic

/-- The place of the diagnostic is given by counts of 64 bits. -/
def Counted (diagnostic : Diagnostic) : Prop :=
  diagnostic.block < UInt64.size ∧ diagnostic.line < UInt64.size

theorem place_of_decode? {json : Json} {diagnostic : Diagnostic}
    (read : decode? json = some diagnostic) :
    (∃ field, required? field = some diagnostic.block) ∧
      ∃ field, required? field = some diagnostic.line := by
  obtain ⟨fields, -, read⟩ := Option.bind_eq_some_iff.1 read
  split at read
  · obtain ⟨block, isBlock, read⟩ := Option.bind_eq_some_iff.1 read
    obtain ⟨line, isLine, read⟩ := Option.bind_eq_some_iff.1 read
    obtain ⟨text, -, read⟩ := Option.bind_eq_some_iff.1 read
    obtain ⟨cause, -, read⟩ := Option.bind_eq_some_iff.1 read
    obtain rfl := Option.some.inj read
    exact ⟨⟨_, isBlock⟩, ⟨_, isLine⟩⟩
  · cases read

theorem faithful : Faithful Diagnostic Counted where
  present _ := Json.noConfusion
  decode?_encode diagnostic counted := by
    have fields : (encode diagnostic).fields? ["block", "line", "text", "reason"] =
        some [some (encode diagnostic.block), some (encode diagnostic.line),
          some (encode diagnostic.text), some (encode diagnostic.cause)] := by
      simp [encode, Json.fields?, Json.member?_cons, Json.member?_nil]
    simp only [decode?, fields, Option.bind_eq_bind, Option.bind_some,
      faithful_count.required?_encode counted.1, faithful_count.required?_encode counted.2,
      faithful_string.required?_encode, Cause.faithful.required?_encode, Option.pure_def]
  exact_of_decode? json diagnostic read := by
    obtain ⟨⟨_, block⟩, ⟨_, line⟩⟩ := place_of_decode? read
    exact ⟨faithful_count.exact_of_required? block, faithful_count.exact_of_required? line⟩

end Diagnostic

namespace Reading

/-- The templates are those of their identifiers, and the places are counts of 64 bits. -/
structure Exact (reading : Reading) : Prop where
  canonical : ∀ rule ∈ reading.set.rules, rule.template.Canonical
  counted : ∀ diagnostic ∈ reading.skipped, diagnostic.Counted

theorem parts_of_decode? {json : Json} {reading : Reading} (read : decode? json = some reading) :
    (∃ field, required? field = some reading.set) ∧
      ∃ field, required? field = some reading.skipped := by
  obtain ⟨fields, -, read⟩ := Option.bind_eq_some_iff.1 read
  split at read
  · obtain ⟨set, isSet, read⟩ := Option.bind_eq_some_iff.1 read
    obtain ⟨skipped, areSkipped, read⟩ := Option.bind_eq_some_iff.1 read
    obtain rfl := Option.some.inj read
    exact ⟨⟨_, isSet⟩, ⟨_, areSkipped⟩⟩
  · cases read

theorem faithful : Faithful Reading Exact where
  present _ := Json.noConfusion
  decode?_encode reading exact := by
    have fields : (encode reading).fields? ["document", "skipped"] =
        some [some (encode reading.set), some (encode reading.skipped)] := by
      simp [encode, Json.fields?, Json.member?_cons, Json.member?_nil]
    simp only [decode?, fields, Option.bind_eq_bind, Option.bind_some,
      RuleSet.faithful.required?_encode exact.canonical,
      Diagnostic.faithful.list.required?_encode exact.counted, Option.pure_def]
  exact_of_decode? json reading read := by
    obtain ⟨⟨_, set⟩, ⟨_, skipped⟩⟩ := parts_of_decode? read
    exact ⟨RuleSet.faithful.exact_of_required? set,
      Diagnostic.faithful.list.exact_of_required? skipped⟩

theorem canonical_of_mem_ofText {text : String} {rule : Rule}
    (mem : rule ∈ (ofText text).set.rules) : rule.template.Canonical := by
  rw [rules_ofText] at mem
  obtain ⟨block, isBlock, rfl⟩ := List.mem_map.1 mem
  exact (Block.isBlock_of_mem_ofText isBlock).isReadFrom_rule.canonical

/-- A text has no more blocks, and no block of it more lines, than it has characters. -/
theorem exact_ofText {text : String} (small : text.toList.length < UInt64.size) :
    (ofText text).Exact := by
  refine ⟨fun rule mem => canonical_of_mem_ofText mem, fun diagnostic mem => ?_⟩
  obtain ⟨block, line, isBlock, -, isLine, -⟩ := (isLocated_of_mem_skipped mem).shown
  have place := (List.getElem?_eq_some_iff.1 isBlock).1
  have number := (List.getElem?_eq_some_iff.1 isLine).1
  have blocks := Block.length_ofText_le text.toList
  have lines := (Block.isBlock_of_mem_ofText (List.mem_of_getElem? isBlock)).length_lines_le
  exact ⟨by omega, by omega⟩

end Reading

/-! ## Layouts and failures -/

theorem LineEnding.faithful : Faithful LineEnding fun _ => True where
  present _ := Json.noConfusion
  decode?_encode ending _ := ofName?_name ending
  exact_of_decode? _ _ _ := trivial

theorem Layout.faithful : Faithful Layout fun _ => True where
  present _ := Json.noConfusion
  decode?_encode layout _ := by
    have fields : (encode layout).fields? ["line_ending"] =
        some [some (encode layout.lineEnding)] := by
      simp [encode, Json.fields?, Json.member?_cons, Json.member?_nil]
    simp only [decode?, fields, Option.bind_eq_bind, Option.bind_some,
      LineEnding.faithful.required?_encode, Option.pure_def]
  exact_of_decode? _ _ _ := trivial

theorem Failure.faithful : Faithful Failure fun _ => True where
  present _ := Json.noConfusion
  decode?_encode failure _ := by
    cases failure with
    | invalidRule rule reason =>
        simp [decode?, encode, kind, content, ofContent?, Json.member?_cons, Json.member?_nil,
          required?]
    | _ => rfl
  exact_of_decode? _ _ _ := trivial

/-! ## Main statement -/

namespace JsonForm

/--
Every value is read back from its JSON form, as far as its templates are those
of their identifiers and its places are counts of 64 bits; and every value that
was read from JSON is of that kind, however it was spelled.  What is read from a
text has such templates, and such places if they can be counted with 64 bits.
-/
theorem values_roundTrip :
    RoundTrips Template Template.Canonical ∧
      RoundTrips Condition (fun _ => True) ∧
      RoundTrips Action (fun _ => True) ∧
      RoundTrips Rule (fun rule => rule.template.Canonical) ∧
      RoundTrips RuleSet (fun set => ∀ rule ∈ set.rules, rule.template.Canonical) ∧
      RoundTrips Diagnostic Diagnostic.Counted ∧
      RoundTrips Reading Reading.Exact ∧
      RoundTrips Layout (fun _ => True) ∧
      RoundTrips Failure (fun _ => True) ∧
      ∀ text : String,
        (∀ rule ∈ (Reading.ofText text).set.rules, rule.template.Canonical) ∧
          (text.length < UInt64.size →
            decode? (encode (Reading.ofText text)) = some (Reading.ofText text)) := by
  refine ⟨Template.faithful.roundTrips, Condition.faithful.roundTrips,
    Action.faithful.roundTrips, Rule.faithful.roundTrips, RuleSet.faithful.roundTrips,
    Diagnostic.faithful.roundTrips, Reading.faithful.roundTrips, Layout.faithful.roundTrips,
    Failure.faithful.roundTrips, fun text => ⟨?_, fun small => ?_⟩⟩
  · exact fun rule mem => Reading.canonical_of_mem_ofText mem
  · rw [← String.length_toList] at small
    exact Reading.faithful.decode?_encode _ (Reading.exact_ofText small)

/-- A reading with an empty list of types and with the last place that there is. -/
def lastPlaceExample : Reading where
  set := ⟨[{ name := "R", template := .other "T", action := some { types := some [] } }]⟩
  skipped := [⟨UInt64.size - 1, UInt64.size - 1, "k", .malformedPair⟩]

/-- The same reading, with a field too many, an empty field and records as arrays. -/
def spelledExample : Json :=
  .object
    [("note", .bool true),
      ("skipped", .array [.array [.natural (UInt64.size - 1), .natural (UInt64.size - 1),
        .string "k", .object [("malformed_pair", .null)]]]),
      ("document", .array [.object [("name", .string "R"), ("template", .string "T"),
        ("body", .null), ("action", .array [.null, .array []])]])]

theorem values_roundTrip_spelledExample :
    decode? (encode lastPlaceExample) = some lastPlaceExample ∧
      decode? spelledExample = some lastPlaceExample ∧
      (decode? (encode lastPlaceExample) : Option Reading).map encode =
        some (encode lastPlaceExample) ∧
      "@RuleName = \"R\"".length < UInt64.size ∧
      decode? (encode (Reading.ofText "@RuleName = \"R\"")) =
        some (Reading.ofText "@RuleName = \"R\"") := by
  have spelled : decode? spelledExample = some lastPlaceExample := by rfl
  have small : "@RuleName = \"R\"".length < UInt64.size := by decide
  have readings := values_roundTrip.2.2.2.2.2.2.1
  have texts := values_roundTrip.2.2.2.2.2.2.2.2.2
  obtain ⟨exact, -, itself⟩ := readings.2 spelledExample lastPlaceExample spelled
  exact ⟨readings.1 lastPlaceExample exact, spelled, itself, small, (texts _).2 small⟩

end JsonForm

end TrustRules
