import Mathlib.Data.List.Forall2
import TrustRules.Proofs.Reading.Blocks
import TrustRules.Proofs.Rule.Below

/-!
# Rules that stay apart

A written rule never merges with its neighbours.  It may fall apart, and it may
turn into a rule of another name or kind, since bodies and values are written
as they are.  Main statement: neither happens exactly when every rule of the set
keeps together by itself.
-/

namespace TrustRules

open Text

/-! ## Lists of parts -/

theorem length_le_length_flatMap {Whole Part : Type} {parts : Whole → List Part}
    {wholes : List Whole} (nonempty : ∀ whole ∈ wholes, parts whole ≠ []) :
    wholes.length ≤ (wholes.flatMap parts).length := by
  induction wholes with
  | nil => exact Nat.zero_le _
  | cons whole rest ih =>
      have first := List.length_pos_iff.2 (nonempty whole List.mem_cons_self)
      have later := ih fun other mem => nonempty other (List.mem_cons_of_mem whole mem)
      rw [List.flatMap_cons, List.length_append, List.length_cons]
      omega

/-- If every whole has a part, all parts fit the wholes only one to one. -/
theorem forall₂_flatMap_iff {Whole Part : Type} {Fits : Whole → Part → Prop}
    {parts : Whole → List Part} {wholes : List Whole}
    (nonempty : ∀ whole ∈ wholes, parts whole ≠ []) :
    List.Forall₂ Fits wholes (wholes.flatMap parts) ↔
      ∀ whole ∈ wholes, ∃ part, parts whole = [part] ∧ Fits whole part := by
  induction wholes with
  | nil => simp
  | cons whole rest ih =>
      have restNonempty : ∀ other ∈ rest, parts other ≠ [] :=
        fun other mem => nonempty other (List.mem_cons_of_mem whole mem)
      rw [List.forall_mem_cons, ← ih restNonempty, List.flatMap_cons]
      obtain ⟨part, others, shape⟩ := List.exists_cons_of_ne_nil (nonempty whole List.mem_cons_self)
      rw [shape, List.cons_append, List.forall₂_cons]
      constructor
      · rintro ⟨fits, later⟩
        -- the other wholes need all that is left, so the first one has no second part
        have lengths := later.length_eq
        have enough := length_le_length_flatMap restNonempty
        rw [List.length_append] at lengths
        have noOthers : others = [] := by
          rw [← List.length_eq_zero_iff]
          omega
        subst noOthers
        exact ⟨⟨part, rfl, fits⟩, later⟩
      · rintro ⟨⟨only, single, fits⟩, later⟩
        rw [List.cons.injEq] at single
        obtain ⟨rfl, rfl⟩ := single
        exact ⟨fits, later⟩

/-! ## Rules that keep together -/

namespace Rule

/--
Below its name line the rule has no blank line before its last visible
character, states no other name last, and states last a template of its own
kind, or none if it is custom.
-/
structure KeepsTogether (ending : LineEnding) (rule : Rule) : Prop where
  solid : Block.Solid ((rule.below ending).rdropWhile isBlank)
  name : ∀ stated ∈ Block.statedName? (rule.below ending), stated = rule.name
  kind : (Block.statedTemplate? (rule.below ending)).all Template.isCustom = rule.isCustom

instance (ending : LineEnding) (rule : Rule) : Decidable (rule.KeepsTogether ending) :=
  decidable_of_iff
    (Block.Solid ((rule.below ending).rdropWhile isBlank) ∧
      (∀ stated ∈ Block.statedName? (rule.below ending), stated = rule.name) ∧
      (Block.statedTemplate? (rule.below ending)).all Template.isCustom = rule.isCustom)
    ⟨fun ⟨solid, name, kind⟩ => ⟨solid, name, kind⟩,
      fun ⟨solid, name, kind⟩ => ⟨solid, name, kind⟩⟩

variable {rule : Rule}

/-- The rules that the text of one rule alone is read as. -/
theorem rules_ofText_write (ending : LineEnding) (rule : Rule) :
    (Reading.ofText (rule.write ending).value).set.rules =
      (Block.ofText (rule.content ending)).map Block.rule := by
  have alone : (rule.write ending).value = String.ofList (rule.text ending) := rfl
  rw [alone, Reading.rules_ofText, String.toList_ofList, text_eq,
    Block.ofText_append_of_blank ending.isBlank_of_mem_text]

theorem ofText_content_ne_nil (ending : LineEnding) (rule : Rule) :
    Block.ofText (rule.content ending) ≠ [] := by
  rw [Ne, Block.ofText_eq_nil_iff, content,
    LineEnding.allBlank_under ending rule.allBlank_nameText]
  exact Bool.false_ne_true

/-- A rule keeps together exactly when its text alone is read as one rule like it. -/
theorem keepsTogether_iff (bare : Bare rule.name.toList) (ending : LineEnding) :
    rule.KeepsTogether ending ↔
      ∃ back, (Block.ofText (rule.content ending)).map Block.rule = [back] ∧
        back.name = rule.name ∧ back.isCustom = rule.isCustom := by
  have name : (Block.rule (rule.block ending)).name =
      (Block.statedName? (rule.below ending)).getD rule.name := by
    rw [Block.name_rule, statedName?_block bare]
    cases Block.statedName? (rule.below ending) <;> rfl
  have kind : (Block.rule (rule.block ending)).isCustom =
      (Block.statedTemplate? (rule.below ending)).all Template.isCustom := by
    rw [Block.isCustom_rule, statedTemplate?_block bare]
  constructor
  · intro together
    refine ⟨Block.rule (rule.block ending), ?_, ?_, kind.trans together.kind⟩
    · rw [ofText_content_of_solid_rdropWhile bare together.solid, List.map_singleton]
    · rw [name]
      cases stated : Block.statedName? (rule.below ending) with
      | none => rfl
      | some other => exact together.name other stated
  · rintro ⟨back, single, sameName, sameKind⟩
    have one : (Block.ofText (rule.content ending)).length = 1 := by
      rw [← List.length_map Block.rule, single, List.length_singleton]
    have solid := (length_ofText_content_eq_one_iff bare ending).1 one
    rw [ofText_content_of_solid_rdropWhile bare solid, List.map_singleton, List.cons.injEq]
      at single
    rw [← single.1, name] at sameName
    rw [← single.1, kind] at sameKind
    refine ⟨solid, fun other stated => ?_, sameKind⟩
    rw [Option.mem_def.1 stated] at sameName
    exact sameName

end Rule

namespace RuleSet

/--
A written set is read as what its rules are read as one by one, so no rule
merges with another; and it has the same names and kinds, one for one, exactly
when every rule keeps together.
-/
theorem apart_of_write {ending : LineEnding} {set : RuleSet} {text : String}
    (bare : ∀ rule ∈ set.rules, Bare rule.name.toList)
    (written : (set.write ending).value = .ok text) :
    (Reading.ofText text).set.rules = (set.rules.flatMap fun rule =>
        (Reading.ofText (rule.write ending).value).set.rules) ∧
      (∀ rule ∈ set.rules, (Reading.ofText (rule.write ending).value).set.rules ≠ []) ∧
      (List.Forall₂ (fun rule back => back.name = rule.name ∧ back.isCustom = rule.isCustom)
          set.rules (Reading.ofText text).set.rules ↔
        ∀ rule ∈ set.rules, rule.KeepsTogether ending) := by
  obtain ⟨_, rfl⟩ := value_write_eq_ok_iff.1 written
  have rules : (Reading.ofText (String.ofList (set.fullText ending))).set.rules =
      set.rules.flatMap fun rule => (Reading.ofText (rule.write ending).value).set.rules := by
    rw [Reading.rules_ofText, String.toList_ofList, ofText_fullText, List.map_flatMap]
    exact List.flatMap_congr fun rule _ => (Rule.rules_ofText_write ending rule).symm
  have nonempty :
      ∀ rule ∈ set.rules, (Reading.ofText (rule.write ending).value).set.rules ≠ [] := by
    intro rule _
    rw [Rule.rules_ofText_write]
    exact fun none => rule.ofText_content_ne_nil ending (List.map_eq_nil_iff.1 none)
  refine ⟨rules, nonempty, ?_⟩
  rw [rules, forall₂_flatMap_iff nonempty]
  refine forall₂_congr fun rule mem => ?_
  rw [Rule.rules_ofText_write, Rule.keepsTogether_iff (bare rule mem)]

/-- Values that break their lines, and a body that repeats its name and ends in blank lines. -/
def togetherExample : RuleSet where
  rules :=
    [Rule.custom "a" "@RuleName = \"b\"\n=> add();\n@RuleName = \"a\" \n\n \n",
      { name := "b", template := .mapClaims, condition := some ⟨"x\"]\ny", "\n@RuleName = b\n"⟩,
        action := some { param := some "),\n\"" } }]

theorem apart_togetherExample :
    (∀ rule ∈ togetherExample.rules, Bare rule.name.toList) ∧
      ∃ text, (togetherExample.write .crlf).value = .ok text ∧
        List.Forall₂ (fun rule back => back.name = rule.name ∧ back.isCustom = rule.isCustom)
          togetherExample.rules (Reading.ofText text).set.rules := by
  have bare : ∀ rule ∈ togetherExample.rules, Bare rule.name.toList := by decide +kernel
  have unflawed : togetherExample.rules.findSome? Rule.failure? = none := by decide +kernel
  have written : (togetherExample.write .crlf).value =
      .ok (String.ofList (togetherExample.fullText .crlf)) := by
    rw [value_write, unflawed]
  have together : ∀ rule ∈ togetherExample.rules, rule.KeepsTogether .crlf := by decide +kernel
  obtain ⟨_, _, fits⟩ := apart_of_write bare written
  exact ⟨bare, _, written, fits.2 together⟩

/-- A rule that passes all checks and whose body holds a blank line. -/
def fallingExample : RuleSet where
  rules := [Rule.custom "R" "a\n\nb"]

/-- Writing does not keep a rule from falling apart. -/
theorem fallingExample_not_apart :
    (∀ rule ∈ fallingExample.rules, rule.name ≠ "" ∧ Quotable rule.name.toList) ∧
      ∃ text, (fallingExample.write .lf).value = .ok text ∧
        (Reading.ofText text).set.size ≠ fallingExample.size := by
  have unflawed : fallingExample.rules.findSome? Rule.failure? = none := by decide +kernel
  have written : (fallingExample.write .lf).value =
      .ok (String.ofList (fallingExample.fullText .lf)) := by
    rw [value_write, unflawed]
  have two : (Reading.ofText (String.ofList (fallingExample.fullText .lf))).set.size ≠
      fallingExample.size := by
    rw [size, Reading.rules_ofText, String.toList_ofList, Block.ofText_eq_ofLines]
    decide +kernel
  exact ⟨by decide +kernel, _, written, two⟩

end RuleSet

end TrustRules
