import TrustRules.Proofs.Reading.Blocks
import TrustRules.Proofs.Rule.Below
import TrustRules.Proofs.Rule.Statement

/-!
# Stable rules

A stable rule is one block when it is written, and that block is read as the
same rule again, up to the header that a custom rule carries with its body.
Main statement: a set of stable rules is written, and its text is read without
diagnostics, rule by rule.
-/

namespace TrustRules

open Text

/-! ## What may stand below a name line -/

/--
The body proper of a custom rule of this name.  It is trimmed enough to be
found again, it has no blank line, and neither another name nor a template
other than the custom one is stated last in it.
-/
structure IsBodyOf (name : String) (s : List Char) : Prop where
  start : ∀ c ∈ s.head?, Header.isLineBreak c = false
  stop : ∀ c ∈ s.getLast?, isBlank c = false
  solid : Block.Solid s
  name : ∀ stated ∈ Block.statedName? s, stated = name
  template : (Block.statedTemplate? s).all Template.isCustom = true

instance (name : String) (s : List Char) : Decidable (IsBodyOf name s) :=
  decidable_of_iff
    ((∀ c ∈ s.head?, Header.isLineBreak c = false) ∧ (∀ c ∈ s.getLast?, isBlank c = false) ∧
      Block.Solid s ∧ (∀ stated ∈ Block.statedName? s, stated = name) ∧
      (Block.statedTemplate? s).all Template.isCustom = true)
    ⟨fun ⟨start, stop, solid, name, template⟩ => ⟨start, stop, solid, name, template⟩,
      fun ⟨start, stop, solid, name, template⟩ => ⟨start, stop, solid, name, template⟩⟩

theorem isLineBreak_eq_false {c : Char} (visible : isBlank c = false) :
    Header.isLineBreak c = false := by
  cases breaks : Header.isLineBreak c with
  | false => rfl
  | true =>
      simp only [Header.isLineBreak, Bool.or_eq_true, beq_iff_eq] at breaks
      rcases breaks with rfl | rfl
      · cases visible
      · cases visible

/-! ## Stability -/

namespace Rule

/-- The rule has a name that can be written. -/
structure Named (rule : Rule) : Prop where
  named : rule.name ≠ ""
  bare : Bare rule.name.toList

instance (rule : Rule) : Decidable rule.Named :=
  decidable_of_iff (rule.name ≠ "" ∧ Bare rule.name.toList)
    ⟨fun ⟨named, bare⟩ => ⟨named, bare⟩, fun ⟨named, bare⟩ => ⟨named, bare⟩⟩

/-- All parts of a templated rule can be written, and its action is read part by part. -/
structure SeparableTemplated (rule : Rule) : Prop where
  kind : rule.isCustom = false
  body : rule.body = none
  canonical : rule.template.Canonical
  identifier : Bare rule.template.identifier.toList
  condition : ∀ stated ∈ rule.condition, stated.WellFormed
  action : ∀ stated ∈ rule.action, stated.Separable

instance (rule : Rule) : Decidable rule.SeparableTemplated :=
  decidable_of_iff
    (rule.isCustom = false ∧ rule.body = none ∧ rule.template.Canonical ∧
      Bare rule.template.identifier.toList ∧
      (∀ stated ∈ rule.condition, stated.WellFormed) ∧
      ∀ stated ∈ rule.action, stated.Separable)
    ⟨fun ⟨kind, body, canonical, identifier, condition, action⟩ =>
        ⟨kind, body, canonical, identifier, condition, action⟩,
      fun ⟨kind, body, canonical, identifier, condition, action⟩ =>
        ⟨kind, body, canonical, identifier, condition, action⟩⟩

/-- A separable templated rule whose expression is written without blanks or quotes to unwrap. -/
structure StableTemplated (rule : Rule) : Prop extends rule.SeparableTemplated where
  firm : ∀ action ∈ rule.action, ∀ value ∈ action.param, Firm isWrapping value.toList

instance (rule : Rule) : Decidable rule.StableTemplated :=
  decidable_of_iff
    (rule.SeparableTemplated ∧
      ∀ action ∈ rule.action, ∀ value ∈ action.param, Firm isWrapping value.toList)
    ⟨fun ⟨separable, firm⟩ => ⟨separable, firm⟩,
      fun stable => ⟨stable.toSeparableTemplated, stable.firm⟩⟩

/-- The rule with the expression of its action unwrapped. -/
def unwrapped (rule : Rule) : Rule :=
  { rule with action := rule.action.map Action.unwrapped }

/-- Unwrapping keeps exactly the rules whose expression is firm. -/
theorem unwrapped_eq_self_iff {rule : Rule} :
    rule.unwrapped = rule ↔
      ∀ action ∈ rule.action, ∀ value ∈ action.param, Firm isWrapping value.toList := by
  obtain ⟨name, template, body, condition, action⟩ := rule
  cases action with
  | none => simp [unwrapped]
  | some action => simp [unwrapped, Action.unwrapped_eq_self_iff]

/-- A custom rule has nothing but its name and its body. -/
structure BodyOnly (rule : Rule) : Prop where
  kind : rule.isCustom = true
  condition : rule.condition = none
  action : rule.action = none

instance (rule : Rule) : Decidable rule.BodyOnly :=
  decidable_of_iff (rule.isCustom = true ∧ rule.condition = none ∧ rule.action = none)
    ⟨fun ⟨kind, condition, action⟩ => ⟨kind, condition, action⟩,
      fun ⟨kind, condition, action⟩ => ⟨kind, condition, action⟩⟩

/-- A custom rule is its name and its body proper. -/
structure StableCustom (rule : Rule) : Prop extends rule.BodyOnly where
  body : ∃ body ∈ rule.body, IsBodyOf rule.name (Header.drop body.toList)

/-- The rule has a name that can be written, and it is stable as what it is. -/
structure Stable (rule : Rule) : Prop extends rule.Named where
  parts : rule.StableTemplated ∨ rule.StableCustom

variable {rule : Rule}

theorem Named.isUnnamed_eq_false (named : rule.Named) : rule.isUnnamed = false := by
  have firm : trim rule.name.toList = rule.name.toList :=
    strip_eq_self named.bare.2.isBlank_of_isWrapping
  cases unnamed : rule.isUnnamed with
  | false => rfl
  | true =>
      have empty := trim_eq_nil_iff.2 unnamed
      rw [firm, String.toList_eq_nil_iff] at empty
      exact absurd empty named.named

/-- Without a body, a templated rule with such a name can be written. -/
theorem Named.wellShaped_of_templated (named : rule.Named) (kind : rule.isCustom = false)
    (body : rule.body = none) : rule.WellShaped := by
  refine ⟨named.isUnnamed_eq_false, ?_⟩
  rw [if_neg (by simp [kind]), body]
  rfl

/-- A stable rule can be written. -/
theorem Stable.wellShaped (stable : rule.Stable) : rule.WellShaped := by
  rcases stable.parts with templated | custom
  · exact stable.toNamed.wellShaped_of_templated templated.kind templated.body
  · refine ⟨stable.toNamed.isUnnamed_eq_false, ?_⟩
    obtain ⟨body, isBody, _⟩ := custom.body
    rw [if_pos custom.kind, custom.condition, custom.action, Option.mem_def.1 isBody]
    exact ⟨rfl, rfl, rfl⟩

/-! ## Templated rules -/

namespace SeparableTemplated

variable (separable : rule.SeparableTemplated)

include separable

theorem solid_statement : Block.Solid rule.statement := by
  -- the statement is one line that starts with a mark
  have single : '\n' ∉ rule.statement := by
    rw [statement, List.mem_append, not_or]
    constructor
    · cases stated : rule.condition with
      | none => exact List.not_mem_nil
      | some condition =>
          have free := Condition.not_mem_text (separable.condition condition stated)
          simp [free]
    · cases stated : rule.action with
      | none => exact List.not_mem_nil
      | some action => exact Action.not_mem_text (separable.action action stated)
  have visible : rule.statement = [] ∨ allBlank rule.statement = false := by
    rw [statement]
    cases rule.condition with
    | some condition => exact .inr rfl
    | none =>
        cases rule.action with
        | some action => exact .inr rfl
        | none => exact .inl rfl
  rcases visible with empty | visible
  · exact .inl empty
  · refine .inr fun l mem => ?_
    rw [lines_of_not_mem single, List.mem_singleton] at mem
    rw [mem]
    exact Block.isBlankLine_of_visible visible

theorem solid_below (ending : LineEnding) : Block.Solid (rule.below ending) := by
  rw [below_of_templated separable.kind]
  exact ending.solid_under (not_mem_templateText separable.identifier) rule.allBlank_templateText
    separable.solid_statement

theorem ofText_block_eq (bare : Bare rule.name.toList) (ending : LineEnding) :
    Clause.ofText (rule.block ending) =
      .name (' ' :: wrapped rule.name) ::
        .template (' ' :: wrapped rule.template.identifier) :: Clause.ofText rule.statement := by
  rw [ofText_block, ofText_nameText bare, below_of_templated separable.kind,
    LineEnding.ofText_under, ofText_templateText separable.identifier]
  rfl

/-- The template line states the template, and nothing below states a name. -/
theorem stated_below (ending : LineEnding) :
    Block.statedName? (rule.below ending) = none ∧
      Block.statedTemplate? (rule.below ending) = some rule.template := by
  obtain ⟨name, template⟩ := stated_templateText separable.identifier separable.canonical
  obtain ⟨noName, noTemplate, _, _⟩ :=
    Clause.filterMap_statement separable.condition separable.action
  rw [below_of_templated separable.kind, LineEnding.statedName?_under,
    LineEnding.statedTemplate?_under, name, template, Block.statedName?_eq,
    Block.statedTemplate?_eq, noName, noTemplate]
  exact ⟨rfl, rfl⟩

/-- The block states the condition and, but for its wrapping, the action of the rule. -/
theorem draft_block (bare : Bare rule.name.toList) (ending : LineEnding) :
    (Block.draft (rule.block ending)).condition = rule.condition ∧
      (Block.draft (rule.block ending)).action = rule.action.map Action.unwrapped := by
  obtain ⟨_, _, conditions, actions⟩ :=
    Clause.filterMap_statement separable.condition separable.action
  have condition : (Clause.ofText (rule.block ending)).filterMap Clause.condition? =
      (rule.condition.map Condition.text).toList :=
    (congrArg _ (separable.ofText_block_eq bare ending)).trans conditions
  have action : (Clause.ofText (rule.block ending)).filterMap Clause.action? =
      (rule.action.map Action.text).toList :=
    (congrArg _ (separable.ofText_block_eq bare ending)).trans actions
  rw [Block.draft_eq, Draft.condition_ofClauses, Draft.action_ofClauses, condition, action]
  constructor
  · cases stated : rule.condition with
    | none => rfl
    | some condition =>
        rw [Option.map_some, Option.toList_some, List.getLast?_singleton, Option.bind_some,
          Condition.ofText?_text (separable.condition condition stated)]
  · cases stated : rule.action with
    | none => rfl
    | some action =>
        rw [Option.map_some, Option.toList_some, List.getLast?_singleton, Option.map_some,
          Action.ofText_text (separable.action action stated), Option.map_some]

/-- A separable templated rule is read back from its block with its expression unwrapped. -/
theorem rule_block (bare : Bare rule.name.toList) (ending : LineEnding) :
    Block.rule (rule.block ending) = rule.unwrapped := by
  obtain ⟨noName, stated⟩ := separable.stated_below ending
  have name : Block.statedName? (rule.block ending) = some rule.name := by
    rw [statedName?_block bare, noName, Option.none_or]
  have template : Block.statedTemplate? (rule.block ending) = some rule.template := by
    rw [statedTemplate?_block bare, stated]
  obtain ⟨condition, action⟩ := separable.draft_block bare ending
  rw [Block.rule_eq_templated template separable.kind, name, condition, action]
  obtain ⟨ruleName, ruleTemplate, body, ruleCondition, ruleAction⟩ := rule
  have none : body = none := separable.body
  rw [none]
  rfl

/-- Every argument that was written is used when the block is read. -/
theorem diagnostics_block (bare : Bare rule.name.toList) (ending : LineEnding) (place : Nat) :
    Block.diagnostics place (rule.block ending) = [] := by
  refine Block.diagnostics_eq_nil ?_ place
  intro clause mem
  rw [separable.ofText_block_eq bare, List.mem_cons, List.mem_cons,
    Clause.ofText_statement separable.condition separable.action, List.mem_append,
    Option.mem_toList, Option.mem_toList, Option.map_eq_some_iff, Option.map_eq_some_iff] at mem
  rcases mem with rfl | rfl | ⟨condition, stated, rfl⟩ | ⟨action, stated, rfl⟩
  · rfl
  · rfl
  · exact Condition.unused_text (separable.condition condition stated)
  · exact Action.unused_text (separable.action action stated)

end SeparableTemplated

/-- A stable templated rule is read back from its block. -/
theorem StableTemplated.rule_block (stable : rule.StableTemplated) (bare : Bare rule.name.toList)
    (ending : LineEnding) : Block.rule (rule.block ending) = rule := by
  rw [stable.toSeparableTemplated.rule_block bare, unwrapped_eq_self_iff.2 stable.firm]

/-! ## Custom rules -/

/-- A body proper that ends firmly stands below the name line as it is. -/
theorem below_of_stop (kind : rule.isCustom = true) {body : String} (isBody : body ∈ rule.body)
    (stop : ∀ c ∈ (Header.drop body.toList).getLast?, isBlank c = false) (ending : LineEnding) :
    rule.below ending = Header.drop body.toList := by
  rw [below_of_custom kind, bodyText_of_some isBody]
  exact rdropWhile_eq_self fun c last => isLineBreak_eq_false (stop c last)

/--
A rule with a body below its name line is read back as a custom rule with its
whole text as the body, under the name that the body states last, if it does.
-/
theorem rule_block_of_isBodyOf (bare : Bare rule.name.toList) {ending : LineEnding}
    {name : String} (isBodyOf : IsBodyOf name (rule.below ending)) :
    Block.rule (rule.block ending) =
      .custom ((Block.statedName? (rule.below ending)).getD rule.name)
        (String.ofList (rule.content ending)) := by
  have stated : (Block.statedName? (rule.block ending)).getD "" =
      (Block.statedName? (rule.below ending)).getD rule.name := by
    rw [statedName?_block bare]
    cases Block.statedName? (rule.below ending) <;> rfl
  have custom : (Block.statedTemplate? (rule.block ending)).all Template.isCustom = true := by
    rw [statedTemplate?_block bare]
    exact isBodyOf.template
  rw [Block.rule_eq_custom custom, stated, block_eq_content isBodyOf.stop]

/-- Without its header, the body that is read back is what stands below the name line. -/
theorem bodyProper?_block_of_isBodyOf (bare : Bare rule.name.toList) {ending : LineEnding}
    {name : String} (isBodyOf : IsBodyOf name (rule.below ending)) :
    (Block.rule (rule.block ending)).bodyProper? =
      some (String.ofList (rule.below ending)) := by
  have start := dropWhile_eq_self isBodyOf.start
  rw [rule_block_of_isBodyOf bare isBodyOf, bodyProper?, custom, Option.map_some,
    String.toList_ofList, drop_content bare, start]

namespace StableCustom

variable (stable : rule.StableCustom)

include stable

/-- Below its name line a stable custom rule has its body without the header. -/
theorem exists_below (ending : LineEnding) :
    ∃ body ∈ rule.body, rule.below ending = Header.drop body.toList ∧
      IsBodyOf rule.name (rule.below ending) := by
  obtain ⟨body, isBody, isBodyOf⟩ := stable.body
  have below := below_of_stop stable.kind isBody isBodyOf.stop ending
  exact ⟨body, isBody, below, below ▸ isBodyOf⟩

theorem solid_below (ending : LineEnding) : Block.Solid (rule.below ending) := by
  obtain ⟨_, _, _, isBodyOf⟩ := stable.exists_below ending
  exact isBodyOf.solid

/-- A stable custom rule is read back with its whole text as its body. -/
theorem rule_block (bare : Bare rule.name.toList) (ending : LineEnding) :
    Block.rule (rule.block ending) =
      .custom rule.name (String.ofList (rule.content ending)) := by
  obtain ⟨_, _, _, isBodyOf⟩ := stable.exists_below ending
  have name : (Block.statedName? (rule.below ending)).getD rule.name = rule.name := by
    cases stated : Block.statedName? (rule.below ending) with
    | none => rfl
    | some other => exact isBodyOf.name other stated
  rw [rule_block_of_isBodyOf bare isBodyOf, name]

/-- Without its header, the body that is read back is the body without its header. -/
theorem bodyProper?_rule_block (bare : Bare rule.name.toList) (ending : LineEnding) :
    (Block.rule (rule.block ending)).bodyProper? = rule.bodyProper? := by
  obtain ⟨body, isBody, below, isBodyOf⟩ := stable.exists_below ending
  rw [bodyProper?_block_of_isBodyOf bare isBodyOf, bodyProper?, Option.mem_def.1 isBody,
    Option.map_some, below]

end StableCustom

/-! ## Sets of stable rules -/

/-- The rule that the block of a written rule is read as. -/
def reread (ending : LineEnding) (rule : Rule) : Rule :=
  Block.rule (rule.block ending)

theorem Stable.ofText_content (stable : rule.Stable) (ending : LineEnding) :
    Block.ofText (rule.content ending) = [rule.block ending] := by
  refine ofText_content_of_solid stable.bare ?_
  rcases stable.parts with templated | custom
  · exact templated.solid_below ending
  · exact custom.solid_below ending

theorem Stable.diagnostics_block (stable : rule.Stable) (ending : LineEnding) (place : Nat) :
    Block.diagnostics place (rule.block ending) = [] := by
  rcases stable.parts with templated | custom
  · exact templated.diagnostics_block stable.bare ending place
  · refine Block.diagnostics_eq_nil_of_custom ?_ place
    rw [custom.rule_block stable.bare]
    rfl

/-- Reading a stable rule again keeps all of it but the header of a custom body. -/
theorem Stable.reread_eq (stable : rule.Stable) (ending : LineEnding) :
    (rule.isCustom = false → rule.reread ending = rule) ∧
      (rule.isCustom = true →
        (rule.reread ending).isCustom = true ∧ (rule.reread ending).name = rule.name ∧
          (rule.reread ending).bodyProper? = rule.bodyProper?) := by
  rcases stable.parts with templated | custom
  · refine ⟨fun _ => templated.rule_block stable.bare ending, fun kind => ?_⟩
    rw [templated.kind] at kind
    cases kind
  · refine ⟨fun kind => ?_, fun _ => ?_⟩
    · rw [custom.kind] at kind
      cases kind
    · have read := custom.rule_block stable.bare ending
      refine ⟨?_, ?_, custom.bodyProper?_rule_block stable.bare ending⟩
      · rw [reread, read]
        rfl
      · rw [reread, read]
        rfl

end Rule

namespace RuleSet

/-- A set of rules that are one block each is written, and its text is read rule by rule. -/
theorem read_write_of_blocks {set : RuleSet} {ending : LineEnding}
    (shaped : ∀ rule ∈ set.rules, rule.WellShaped)
    (single : ∀ rule ∈ set.rules, Block.ofText (rule.content ending) = [rule.block ending])
    (used : ∀ rule ∈ set.rules, ∀ place, Block.diagnostics place (rule.block ending) = []) :
    (set.write ending).value = .ok (String.ofList (set.fullText ending)) ∧
      (Reading.ofText (String.ofList (set.fullText ending))).isClean = true ∧
      (Reading.ofText (String.ofList (set.fullText ending))).set.rules =
        set.rules.map (Rule.reread ending) := by
  have blocks : Block.ofText (set.fullText ending) = set.rules.map (Rule.block ending) := by
    rw [ofText_fullText, ← List.flatMap_singleton' (set.rules.map (Rule.block ending)),
      List.flatMap_map]
    exact List.flatMap_congr single
  refine ⟨value_write_eq_ok_iff.2 ⟨shaped, rfl⟩, ?_, ?_⟩
  · refine Reading.isClean_of_diagnostics fun block mem place => ?_
    rw [String.toList_ofList, blocks] at mem
    obtain ⟨rule, isRule, rfl⟩ := List.mem_map.1 mem
    exact used rule isRule place
  · rw [Reading.rules_ofText, String.toList_ofList, blocks, List.map_map]
    rfl

/-- A set of stable rules is written, and its text is read rule by rule. -/
theorem read_write_of_stable {set : RuleSet} (stable : ∀ rule ∈ set.rules, rule.Stable)
    (ending : LineEnding) :
    (set.write ending).value = .ok (String.ofList (set.fullText ending)) ∧
      (Reading.ofText (String.ofList (set.fullText ending))).isClean = true ∧
      (Reading.ofText (String.ofList (set.fullText ending))).set.rules =
        set.rules.map (Rule.reread ending) :=
  read_write_of_blocks (fun rule mem => (stable rule mem).wellShaped)
    (fun rule mem => (stable rule mem).ofText_content ending)
    (fun rule mem => (stable rule mem).diagnostics_block ending)

end RuleSet

end TrustRules
