import TrustRules.Proofs.Apart
import TrustRules.Proofs.Block.Bodies

/-!
# Renamed custom rules

A custom rule that was read is written under another name and read again.  It
stays one custom rule with the same body proper.  Its name line is not the last
word on its name, though: a name line further down in the body counts more.
Main statement: renaming takes effect exactly when no other name is stated last
in the body.
-/

namespace TrustRules

open Text

namespace Rule

variable {rule : Rule}

/-- The rule under another name. -/
def renamed (rule : Rule) (name : String) : Rule :=
  { rule with name }

/-- The name that the last name line of the body states, its header left out. -/
def innerName? (rule : Rule) : Option String :=
  rule.bodyProper?.bind fun body => Block.statedName? body.toList

/-! ## Custom rules that are written -/

/-- A custom rule with a body for below its name line is read as the block of its text. -/
theorem rules_ofText_write_of_isBodyOf (kind : rule.isCustom = true)
    (bare : Bare rule.name.toList) {body name : String} (isBody : body ∈ rule.body)
    (isBodyOf : IsBodyOf name (Header.drop body.toList)) (ending : LineEnding) :
    (Reading.ofText (rule.write ending).value).set.rules = [Block.rule (rule.block ending)] := by
  have solid : Block.Solid (rule.below ending) := by
    rw [below_of_stop kind isBody isBodyOf.stop]
    exact isBodyOf.solid
  rw [rules_ofText_write, ofText_content_of_solid bare solid, List.map_singleton]

/-- That block keeps the body proper, and its name is the one stated last. -/
theorem rule_block_of_isBodyOf_drop (kind : rule.isCustom = true)
    (bare : Bare rule.name.toList) {body name : String} (isBody : body ∈ rule.body)
    (isBodyOf : IsBodyOf name (Header.drop body.toList)) (ending : LineEnding) :
    (Block.rule (rule.block ending)).isCustom = true ∧
      (Block.rule (rule.block ending)).bodyProper? = rule.bodyProper? ∧
      (Block.rule (rule.block ending)).name = rule.innerName?.getD rule.name := by
  have below := below_of_stop kind isBody isBodyOf.stop ending
  have proper : rule.bodyProper? = some (String.ofList (Header.drop body.toList)) := by
    rw [bodyProper?, Option.mem_def.1 isBody, Option.map_some]
  rw [← below] at isBodyOf proper
  refine ⟨?_, ?_, ?_⟩
  · rw [rule_block_of_isBodyOf bare isBodyOf]
    rfl
  · rw [bodyProper?_block_of_isBodyOf bare isBodyOf, proper]
  · rw [rule_block_of_isBodyOf bare isBodyOf, innerName?, proper, Option.bind_some,
      String.toList_ofList]
    rfl

/-- The body of a custom rule that was read, without its header, is a body of some rule. -/
theorem exists_isBodyOf_of_read {text : String} (paired : ReturnsPaired text.toList)
    (mem : rule ∈ (Reading.ofText text).set.rules) (custom : rule.isCustom = true) :
    ∃ body ∈ rule.body, ∃ name, IsBodyOf name (Header.drop body.toList) := by
  rw [Reading.rules_ofText] at mem
  obtain ⟨block, isBlock, rfl⟩ := List.mem_map.1 mem
  rw [Block.isCustom_rule] at custom
  rw [Block.rule_eq_custom custom]
  refine ⟨String.ofList block, rfl, (Block.statedName? (Header.drop block)).getD "", ?_⟩
  rw [String.toList_ofList]
  refine (Block.isBlock_of_mem_ofText isBlock).isBodyOf_drop paired custom fun other stated => ?_
  rw [Option.mem_def.1 stated, Option.getD_some]

/-! ## Renaming -/

/--
A custom rule that was read from paired text and is written under another name
is read again as one custom rule with the same body proper.  Its name is the
new one exactly when its body states no other name last.
-/
theorem read_write_renamed (text : String) (paired : ReturnsPaired text.toList)
    (mem : rule ∈ (Reading.ofText text).set.rules) (custom : rule.isCustom = true)
    {name : String} (bare : Bare name.toList) (ending : LineEnding) :
    ∃ back,
      (Reading.ofText ((rule.renamed name).write ending).value).set.rules = [back] ∧
      back.isCustom = true ∧
      back.bodyProper? = rule.bodyProper? ∧
      back.name = rule.innerName?.getD name ∧
      (back.name = name ↔ ∀ stated ∈ rule.innerName?, stated = name) := by
  obtain ⟨body, isBody, former, isBodyOf⟩ := exists_isBodyOf_of_read paired mem custom
  have renamedKind : (rule.renamed name).isCustom = true := custom
  have renamedBare : Bare (rule.renamed name).name.toList := bare
  have renamedBody : body ∈ (rule.renamed name).body := isBody
  obtain ⟨kind, proper, stated⟩ :=
    rule_block_of_isBodyOf_drop renamedKind renamedBare renamedBody isBodyOf ending
  have single :=
    rules_ofText_write_of_isBodyOf renamedKind renamedBare renamedBody isBodyOf ending
  generalize Block.rule ((rule.renamed name).block ending) = back at kind proper stated single
  have counted : back.name = rule.innerName?.getD name := stated
  refine ⟨back, single, kind, proper, counted, ?_⟩
  rw [counted]
  cases rule.innerName? with
  | none => simp
  | some inner => simp

/-- A header, and below it a name line that states the new name already. -/
def renamedExample : String :=
  "  @RuleName = \"a\"\r\n\u00a0\r\n=> add();\n @RuleName = b\"\t\r\nc:[] \n"

theorem read_write_renamedExample :
    ReturnsPaired renamedExample.toList ∧
      ∃ rule ∈ (Reading.ofText renamedExample).set.rules, rule.isCustom = true ∧
        ∃ back, (Reading.ofText ((rule.renamed "b").write .crlf).value).set.rules = [back] ∧
          back.name = "b" := by
  have paired : ReturnsPaired renamedExample.toList := by decide +kernel
  have read : ∃ rule ∈ (Reading.ofText renamedExample).set.rules,
      rule.isCustom = true ∧ rule.innerName? = some "b" := by
    rw [Reading.rules_ofText, Block.ofText_eq_ofLines]
    decide +kernel
  obtain ⟨rule, mem, custom, inner⟩ := read
  have bare : Bare "b".toList := by decide +kernel
  obtain ⟨back, single, _, _, name, _⟩ :=
    read_write_renamed renamedExample paired mem custom bare .crlf
  rw [inner, Option.getD_some] at name
  exact ⟨paired, rule, mem, custom, back, single, name⟩

/-- A custom rule whose name line is not the first line of its block. -/
def keptNameExample : String :=
  "=> add();\n@RuleName = \"b\""

/-- The rule keeps its name, as its name line is written below the new one. -/
theorem keptNameExample_not_renamed :
    ReturnsPaired keptNameExample.toList ∧ Bare "c".toList ∧
      ∃ rule ∈ (Reading.ofText keptNameExample).set.rules, rule.isCustom = true ∧
        (Reading.ofText ((rule.renamed "c").write .lf).value).set.names = ["b"] := by
  have read : ∃ rule ∈ (Reading.ofText keptNameExample).set.rules,
      rule = .custom "b" keptNameExample := by
    rw [Reading.rules_ofText, Block.ofText_eq_ofLines]
    decide +kernel
  obtain ⟨rule, mem, rfl⟩ := read
  refine ⟨by decide +kernel, by decide +kernel, _, mem, rfl, ?_⟩
  rw [RuleSet.names, rules_ofText_write, Block.ofText_eq_ofLines]
  decide +kernel

end Rule

end TrustRules
