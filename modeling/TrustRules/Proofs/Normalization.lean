import Mathlib.Data.List.Forall2
import TrustRules.Proofs.Block.Bodies
import TrustRules.Proofs.Block.Values

/-!
# Normalized rule text

Rule text of any origin is read, whatever it holds.  When the values that were
read can be written, the written text is a normal form: it is read without
diagnostics as the same rules, and writing these gives the same text.
-/

namespace TrustRules

open Text

/-! ## Rules that were read are stable -/

namespace Rule

/-- A rule with a name whose values can stand in quotes, and its expression in a list. -/
structure Writable (rule : Rule) : Prop where
  named : rule.name ≠ ""
  condition : ∀ stated ∈ rule.condition,
    '"' ∉ stated.claimType.toList ∧ '"' ∉ stated.issuer.toList
  quoted : ∀ action ∈ rule.action, action.Quoted fun s => '"' ∉ s
  param : ∀ action ∈ rule.action, ∀ value ∈ action.param,
    '"' ∉ value.toList ∧ Nesting.outer.Joined value.toList

instance (rule : Rule) : Decidable rule.Writable :=
  decidable_of_iff
    (rule.name ≠ "" ∧
      (∀ stated ∈ rule.condition,
        '"' ∉ stated.claimType.toList ∧ '"' ∉ stated.issuer.toList) ∧
      (∀ action ∈ rule.action, action.Quoted fun s => '"' ∉ s) ∧
      ∀ action ∈ rule.action, ∀ value ∈ action.param,
        '"' ∉ value.toList ∧ Nesting.outer.Joined value.toList)
    ⟨fun ⟨named, condition, quoted, param⟩ => ⟨named, condition, quoted, param⟩,
      fun ⟨named, condition, quoted, param⟩ => ⟨named, condition, quoted, param⟩⟩

end Rule

namespace Block

theorem wellFormed_of_mem_condition {block : List Char} {condition : Condition}
    (mem : condition ∈ (draft block).condition)
    (unquoted : '"' ∉ condition.claimType.toList ∧ '"' ∉ condition.issuer.toList) :
    condition.WellFormed := by
  obtain ⟨claimType, issuer⟩ := bare_of_mem_condition mem
  exact ⟨claimType.quotable unquoted.1, issuer.quotable unquoted.2⟩

theorem separable_of_mem_action {block : List Char} {action : Action}
    (mem : action ∈ (draft block).action) (unquoted : action.Quoted fun s => '"' ∉ s)
    (param : ∀ value ∈ action.param,
      '"' ∉ value.toList ∧ Nesting.outer.Joined value.toList) : action.Separable := by
  have allBare := allBare_of_mem_action mem
  refine ⟨⟨fun value isStore => ?_, fun list isTypes type inList => ?_,
    fun value isQuery => ?_⟩, fun value isParam => ?_⟩
  · exact (allBare.store value isStore).quotable (unquoted.store value isStore)
  · exact (allBare.types list isTypes type inList).quotable
      (unquoted.types list isTypes type inList)
  · exact (allBare.query value isQuery).quotable (unquoted.query value isQuery)
  · exact ⟨(allBare.param value isParam).1, (param value isParam).2⟩

/-- A rule that was read from a block of paired text is stable if it can be written. -/
theorem IsBlock.stable_rule {text block : List Char} (isBlock : IsBlock text block)
    (paired : ReturnsPaired text) (writable : (rule block).Writable) : (rule block).Stable := by
  have named := writable.named
  rw [name_rule] at named
  obtain ⟨name, stated⟩ : ∃ name, statedName? block = some name := by
    cases stated : statedName? block with
    | none => rw [stated] at named; exact absurd rfl named
    | some name => exact ⟨name, rfl⟩
  have isName : (rule block).name = name := by
    rw [name_rule, stated]
    rfl
  refine ⟨⟨writable.named, isName ▸ bare_of_statedName? stated⟩, ?_⟩
  cases kind : (statedTemplate? block).all Template.isCustom with
  | true =>
      have shape := rule_eq_custom kind
      refine .inr ?_
      rw [shape]
      refine ⟨⟨rfl, rfl, rfl⟩, String.ofList block, rfl, ?_⟩
      rw [String.toList_ofList]
      have isBodyOf := isBlock.isBodyOf paired stated kind
      rw [stated]
      exact isBodyOf
  | false =>
      cases template : statedTemplate? block with
      | none => rw [template] at kind; cases kind
      | some stated =>
          rw [template] at kind
          have shape := rule_eq_templated template kind
          obtain ⟨canonical, identifier⟩ := bare_of_statedTemplate? template
          refine .inl ?_
          rw [shape] at writable ⊢
          refine ⟨⟨kind, rfl, canonical, identifier, fun condition mem => ?_,
            fun action mem => ?_⟩, fun action mem value isParam => ?_⟩
          · exact wellFormed_of_mem_condition mem (writable.condition condition mem)
          · exact separable_of_mem_action mem (writable.quoted action mem)
              (writable.param action mem)
          · exact ((allBare_of_mem_action mem).param value isParam).2

end Block

/-! ## The normal form -/

namespace Rule

variable {rule : Rule}

theorem bodyText_eq (rule : Rule) :
    rule.bodyText = (rule.bodyProper?.getD "").toList.rdropWhile Header.isLineBreak := by
  rw [bodyProper?]
  cases isBody : rule.body with
  | none => rw [bodyText, isBody]; rfl
  | some body =>
      rw [bodyText_of_some isBody, Option.map_some, Option.getD_some, String.toList_ofList]

/-- The text of a custom rule depends on its name and its body proper alone. -/
theorem text_eq_of_bodyProper? {other : Rule} (kind : rule.isCustom = true)
    (otherKind : other.isCustom = true) (name : other.name = rule.name)
    (body : other.bodyProper? = rule.bodyProper?) (ending : LineEnding) :
    other.text ending = rule.text ending := by
  rw [text, text, if_pos kind, if_pos otherKind, bodyText_eq, bodyText_eq, body, nameText,
    nameText, name]

/-- What a stable rule is read as can be written, and its text is the same. -/
theorem Stable.write_reread (stable : rule.Stable) (ending : LineEnding) :
    (rule.reread ending).WellShaped ∧ (rule.reread ending).text ending = rule.text ending := by
  obtain ⟨same, kept⟩ := stable.reread_eq ending
  cases kind : rule.isCustom with
  | false =>
      rw [same kind]
      exact ⟨stable.wellShaped, rfl⟩
  | true =>
      obtain ⟨custom, name, body⟩ := kept kind
      refine ⟨?_, text_eq_of_bodyProper? kind custom name body ending⟩
      rcases stable.parts with templated | isCustom
      · rw [templated.kind] at kind
        cases kind
      · rw [reread, isCustom.rule_block stable.bare]
        exact ⟨stable.toNamed.isUnnamed_eq_false, rfl, rfl, rfl⟩

end Rule

namespace RuleSet

/-- Writing what was read from the text of stable rules gives that text again. -/
theorem write_reread_of_stable {set : RuleSet} (stable : ∀ rule ∈ set.rules, rule.Stable)
    (ending : LineEnding) :
    (write ending ⟨set.rules.map (Rule.reread ending)⟩).value =
      .ok (String.ofList (set.fullText ending)) := by
  refine value_write_eq_ok_iff.2 ⟨fun rule mem => ?_, ?_⟩
  · obtain ⟨original, isRule, rfl⟩ := List.mem_map.1 mem
    exact ((stable original isRule).write_reread ending).1
  · have same : (set.rules.map (Rule.reread ending)).map (Rule.text ending) =
        set.rules.map (Rule.text ending) := by
      rw [List.map_map]
      exact List.map_congr_left fun rule mem => ((stable rule mem).write_reread ending).2
    rw [fullText, fullText, same]

/--
What was read from any paired text is written to a normal form, as far as its
values can be written.
-/
theorem read_write_of_read (text : String) (paired : ReturnsPaired text.toList)
    (ending : LineEnding)
    (writable : ∀ rule ∈ (Reading.ofText text).set.rules, rule.Writable) :
    ∃ once, ((Reading.ofText text).set.write ending).value = .ok once ∧
      (Reading.ofText once).isClean = true ∧
      (Reading.ofText once).set.size = (Reading.ofText text).set.size ∧
      List.Forall₂ (fun rule again =>
        (rule.isCustom = false → again = rule) ∧
        (rule.isCustom = true →
          again.isCustom = true ∧ again.name = rule.name ∧
            again.bodyProper? = rule.bodyProper?))
        (Reading.ofText text).set.rules (Reading.ofText once).set.rules ∧
      ((Reading.ofText once).set.write ending).value = .ok once := by
  have stable : ∀ rule ∈ (Reading.ofText text).set.rules, rule.Stable := by
    intro rule mem
    have writableRule := writable rule mem
    rw [Reading.rules_ofText] at mem
    obtain ⟨block, isBlock, rfl⟩ := List.mem_map.1 mem
    exact (Block.isBlock_of_mem_ofText isBlock).stable_rule paired writableRule
  obtain ⟨written, clean, rules⟩ := read_write_of_stable stable ending
  refine ⟨_, written, clean, ?_, ?_, ?_⟩
  · rw [size, size, rules, List.length_map]
  · rw [rules, List.forall₂_map_right_iff, List.forall₂_same]
    exact fun rule mem => (stable rule mem).reread_eq ending
  · have again := write_reread_of_stable stable ending
    rw [← rules] at again
    exact again

/-- Repeated name lines, an unended action, unknown lines and paired line breaks. -/
def normalizationExample : String :=
  String.ofList (['\n'].intercalate
    ["  @RuleName = \"first\"\r".toList, "\r".toList, "@RuleName = \"a\"".toList,
      "@RuleTemplate = x\" ".toList, "noise".toList, "c:[Type = \"t\"]".toList,
      "c:[Issuer == i], Type == \"u, (v\" => issue(".toList, "=> issue(types = (t, \"w".toList,
      " \t\r".toList, "=> add();".toList, "@RuleName = \"b\"\r".toList,
      "@RuleName = \"c \"d\" ".toList, "\u00a0".toList, "end".toList])

theorem read_write_normalizationExample :
    ReturnsPaired normalizationExample.toList ∧
      (∀ rule ∈ (Reading.ofText normalizationExample).set.rules, rule.Writable) ∧
      ∃ once, ((Reading.ofText normalizationExample).set.write .crlf).value = .ok once ∧
        ((Reading.ofText once).set.write .crlf).value = .ok once := by
  have paired : ReturnsPaired normalizationExample.toList := by
    rw [normalizationExample, String.toList_ofList]
    decide +kernel
  have writable :
      ∀ rule ∈ (Reading.ofText normalizationExample).set.rules, rule.Writable := by
    rw [Reading.rules_ofText, Block.ofText_eq_ofLines, normalizationExample,
      String.toList_ofList]
    decide +kernel
  obtain ⟨once, written, _, _, _, again⟩ :=
    read_write_of_read normalizationExample paired .crlf writable
  exact ⟨paired, writable, once, written, again⟩

end RuleSet

end TrustRules
