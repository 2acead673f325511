import Mathlib.Data.List.Forall2
import TrustRules.Proofs.Block.Values
import TrustRules.Proofs.Reading.Blocks
import TrustRules.Proofs.Rule.Stable

/-!
# The shape of read rules

Whatever a text holds, each rule that is read from it is either templated
without a body or custom with its whole block as its body, and its name and its
identifier are bare.  Main statement: such a rule fails its check exactly when
it has the empty name, and so does the writing of a set that was read.
-/

namespace TrustRules

open Text

/-- The failure of a rule without a name. -/
def Failure.unnamed : Failure :=
  .invalidRule "<unnamed>" "rule name is empty"

namespace Rule

/--
The forms that the rule of a block can have: templated without a body, or
custom with the whole block as its body and with nothing else.
-/
structure IsReadFrom (block : List Char) (rule : Rule) : Prop where
  visible : block ≠ []
  firm : Firm isBlank block
  parts :
    (rule.template ≠ .custom ∧ rule.body = none) ∨
      (rule.template = .custom ∧ rule.body = some (String.ofList block) ∧
        rule.condition = none ∧ rule.action = none)
  canonical : rule.template.Canonical
  name : Bare rule.name.toList
  identifier : Bare rule.template.identifier.toList

variable {rule : Rule} {block : List Char}

/-- A bare name is blank only if it is empty. -/
theorem isUnnamed_iff (bare : Bare rule.name.toList) :
    rule.isUnnamed = true ↔ rule.name = "" := by
  constructor
  · intro unnamed
    by_contra named
    rw [Named.isUnnamed_eq_false ⟨named, bare⟩] at unnamed
    cases unnamed
  · intro empty
    rw [isUnnamed, empty]
    rfl

/-- A read rule that has a name can be written. -/
theorem IsReadFrom.wellShaped (read : rule.IsReadFrom block) (named : rule.name ≠ "") :
    rule.WellShaped := by
  refine ⟨Named.isUnnamed_eq_false ⟨named, read.name⟩, ?_⟩
  rcases read.parts with ⟨templated, body⟩ | ⟨custom, body, condition, action⟩
  · have kind : ¬ rule.isCustom = true := fun isCustom =>
      templated (Template.isCustom_iff.1 isCustom)
    rw [if_neg kind, body]
    rfl
  · have kind : rule.isCustom = true := Template.isCustom_iff.2 custom
    rw [if_pos kind, body, condition, action]
    exact ⟨rfl, rfl, rfl⟩

/-- The empty name is all that keeps a read rule from being written. -/
theorem IsReadFrom.failure?_eq_some_iff (read : rule.IsReadFrom block) {failure : Failure} :
    rule.failure? = some failure ↔ rule.name = "" ∧ failure = .unnamed := by
  by_cases named : rule.name = ""
  · have unnamed : rule.isUnnamed = true := (isUnnamed_iff read.name).2 named
    have only : rule.failure? = some .unnamed := by
      rw [failure?, flaw?, label, if_pos unnamed, if_pos unnamed]
      rfl
    rw [only, Option.some.injEq, eq_comm, and_iff_right named]
  · rw [(failure?_eq_none_iff rule).2 (read.wellShaped named)]
    constructor
    · intro fails
      cases fails
    · rintro ⟨empty, _⟩
      exact absurd empty named

theorem IsReadFrom.check_eq_error_iff (read : rule.IsReadFrom block) {failure : Failure} :
    rule.check = .error failure ↔ rule.name = "" ∧ failure = .unnamed := by
  rw [← read.failure?_eq_some_iff, check_eq]
  cases rule.failure? <;> simp

end Rule

namespace Block

/-- The rule of a block has one of the forms in which rules are read. -/
theorem IsBlock.isReadFrom_rule {text block : List Char} (isBlock : IsBlock text block) :
    (rule block).IsReadFrom block := by
  have name : Bare (rule block).name.toList := by
    rw [name_rule]
    cases stated : statedName? block with
    | none => decide
    | some name => exact bare_of_statedName? stated
  cases kind : (statedTemplate? block).all Template.isCustom with
  | true =>
      rw [rule_eq_custom kind] at name ⊢
      have identifier : Bare Template.custom.identifier.toList := by decide
      exact ⟨isBlock.nonempty, isBlock.firm, .inr ⟨rfl, rfl, rfl, rfl⟩, rfl, name, identifier⟩
  | false =>
      cases stated : statedTemplate? block with
      | none => rw [stated] at kind; cases kind
      | some template =>
          rw [stated] at kind
          obtain ⟨canonical, identifier⟩ := bare_of_statedTemplate? stated
          rw [rule_eq_templated stated kind] at name ⊢
          refine ⟨isBlock.nonempty, isBlock.firm, .inl ⟨?_, rfl⟩, canonical, name, identifier⟩
          rintro rfl
          cases kind

end Block

namespace Reading

/-- Each rule of a text is read from its own block. -/
theorem isReadFrom_ofText (text : String) :
    List.Forall₂ (fun block rule => rule.IsReadFrom block)
      (Block.ofText text.toList) (ofText text).set.rules := by
  rw [rules_ofText, List.forall₂_map_right_iff, List.forall₂_same]
  exact fun block mem => (Block.isBlock_of_mem_ofText mem).isReadFrom_rule

/-- Rules that were read are not written exactly when one of them has the empty name. -/
theorem write_ofText_eq_error_iff (text : String) (ending : LineEnding) {failure : Failure} :
    ((ofText text).set.write ending).value = .error failure ↔
      (∃ rule ∈ (ofText text).set.rules, rule.name = "") ∧ failure = .unnamed := by
  have read : ∀ rule ∈ (ofText text).set.rules, ∃ block, rule.IsReadFrom block := by
    intro rule mem
    rw [rules_ofText] at mem
    obtain ⟨block, isBlock, rfl⟩ := List.mem_map.1 mem
    exact ⟨block, (Block.isBlock_of_mem_ofText isBlock).isReadFrom_rule⟩
  rw [RuleSet.value_write]
  cases first : (ofText text).set.rules.findSome? Rule.failure? with
  | some found =>
      obtain ⟨rule, mem, fails⟩ := List.exists_of_findSome?_eq_some first
      obtain ⟨block, isRead⟩ := read rule mem
      obtain ⟨empty, rfl⟩ := isRead.failure?_eq_some_iff.1 fails
      have unnamed : ∃ rule ∈ (ofText text).set.rules, rule.name = "" := ⟨rule, mem, empty⟩
      rw [and_iff_right unnamed]
      exact ⟨fun same => (Except.error.inj same).symm, fun same => congrArg Except.error same.symm⟩
  | none =>
      have named : ¬ ∃ rule ∈ (ofText text).set.rules, rule.name = "" := by
        rintro ⟨rule, mem, empty⟩
        obtain ⟨block, isRead⟩ := read rule mem
        have fails := isRead.failure?_eq_some_iff.2 ⟨empty, rfl⟩
        rw [List.findSome?_eq_none_iff.1 first rule mem] at fails
        cases fails
      constructor
      · intro fails
        cases fails
      · rintro ⟨unnamed, _⟩
        exact absurd unnamed named

/--
The rules of any text have the forms in which rules are read, each with its own
block.  Their checks, and the writing of all of them, fail for the empty name
alone and always with the same failure.
-/
theorem shape_ofText (text : String) :
    List.Forall₂
        (fun block rule => rule.IsReadFrom block ∧
          ∀ failure, rule.check = .error failure ↔ rule.name = "" ∧ failure = .unnamed)
        (Block.ofText text.toList) (ofText text).set.rules ∧
      ∀ ending failure, ((ofText text).set.write ending).value = .error failure ↔
        (∃ rule ∈ (ofText text).set.rules, rule.name = "") ∧ failure = .unnamed := by
  refine ⟨(isReadFrom_ofText text).imp fun block rule read => ?_, fun ending failure => ?_⟩
  · exact ⟨read, fun failure => read.check_eq_error_iff⟩
  · exact write_ofText_eq_error_iff text ending

end Reading

end TrustRules
