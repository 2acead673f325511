import Mathlib.Data.List.Forall2
import TrustRules.Proofs.Block.Padding
import TrustRules.Proofs.Reading.Blocks

/-!
# Layout

Which line ends a text has, and how its lines are padded, has no influence on
what it says.  Main statement: of two paired texts that agree row by row up to
padding, the same rules and the same diagnostics are read, and the bodies of
their custom rules agree row by row up to padding as well.
-/

namespace TrustRules

open Text

/-- The rules agree, and their bodies do so row by row up to padding. -/
structure Rule.Alike (rule other : Rule) : Prop where
  name : rule.name = other.name
  template : rule.template = other.template
  condition : rule.condition = other.condition
  action : rule.action = other.action
  body : Option.Rel (fun body otherBody => Text.Alike body.toList otherBody.toList)
    rule.body other.body

/-- Blocks that are the same without padding state rules that are alike. -/
theorem Block.rule_alike {block other : List Char} (paired : ReturnsPaired block)
    (otherPaired : ReturnsPaired other) (same : unpadded block = unpadded other) :
    Rule.Alike (rule block) (rule other) := by
  have drafts : draft block = draft other := by
    rw [← draft_unpadded, same, draft_unpadded]
  rw [rule, rule, drafts, Draft.rule, Draft.rule]
  split
  · exact ⟨rfl, rfl, rfl, rfl, .none⟩
  · refine ⟨rfl, rfl, rfl, rfl, .some ?_⟩
    rw [String.toList_ofList, String.toList_ofList]
    exact (alike_iff paired otherPaired).2 same

namespace Reading

/-- What a text reports does not depend on the padding of its blocks. -/
theorem skipped_eq_of_unpadded (text : String) :
    (ofText text).skipped =
      ((Block.ofText text.toList).map unpadded).zipIdx.flatMap fun block =>
        Block.diagnostics block.2 block.1 := by
  rw [skipped_ofText, List.zipIdx_map, List.flatMap_map]
  exact List.flatMap_congr fun block _ =>
    (Block.diagnostics_unpadded block.2 block.1).symm

/--
Two paired texts whose rows agree up to spaces and tabs around them are read
alike, whatever line ends they have: as many rules, pairwise the same but for
the padding in their bodies, and the same diagnostics.
-/
theorem ofText_alike {text other : String} (paired : ReturnsPaired text.toList)
    (otherPaired : ReturnsPaired other.toList) (alike : Alike text.toList other.toList) :
    List.Forall₂ Rule.Alike (ofText text).set.rules (ofText other).set.rules ∧
      (ofText text).skipped = (ofText other).skipped := by
  have blocks : (Block.ofText text.toList).map unpadded =
      (Block.ofText other.toList).map unpadded := by
    rw [← Block.ofText_unpadded paired, (alike_iff paired otherPaired).1 alike,
      Block.ofText_unpadded otherPaired]
  refine ⟨?_, by rw [skipped_eq_of_unpadded, blocks, ← skipped_eq_of_unpadded]⟩
  rw [rules_ofText, rules_ofText, List.forall₂_map_left_iff, List.forall₂_map_right_iff]
  rw [← List.forall₂_eq_eq_eq, List.forall₂_map_left_iff, List.forall₂_map_right_iff,
    List.forall₂_iff_zip] at blocks
  refine List.forall₂_iff_zip.2 ⟨blocks.1, fun {block otherBlock} mem => ?_⟩
  have isBlock := Block.isBlock_of_mem_ofText (List.of_mem_zip mem).1
  have isOtherBlock := Block.isBlock_of_mem_ofText (List.of_mem_zip mem).2
  exact Block.rule_alike (isBlock.returnsPaired paired)
    (isOtherBlock.returnsPaired otherPaired) (blocks.2 mem)

/-- A templated rule, with a line that is not understood, and a custom rule. -/
def plainExample : String :=
  String.ofList (['\n'].intercalate
    ["@RuleTemplate = \"t\"".toList, "@RuleName = \"a\"".toList, "noise".toList,
      "c:[Type == \"t\", Issuer == \"i\"]".toList, "".toList, "".toList,
      "c:[]".toList, "=> add();".toList, "".toList])

/-- The same with other line ends and with padding, also on the lines between the rules. -/
def paddedExample : String :=
  String.ofList (['\n'].intercalate
    ["\t@RuleTemplate = \"t\" \r".toList, "@RuleName = \"a\"\t".toList, "  noise\r".toList,
      "c:[Type == \"t\", Issuer == \"i\"]".toList, " \t\r".toList, " ".toList,
      "c:[]\r".toList, "    => add(); ".toList, "\t".toList])

theorem ofText_alike_paddedExample :
    ReturnsPaired plainExample.toList ∧ ReturnsPaired paddedExample.toList ∧
      Alike plainExample.toList paddedExample.toList ∧
      List.Forall₂ Rule.Alike (ofText plainExample).set.rules (ofText paddedExample).set.rules ∧
      (ofText plainExample).skipped = (ofText paddedExample).skipped := by
  have paired : ReturnsPaired plainExample.toList := by
    rw [plainExample, String.toList_ofList]
    decide +kernel
  have otherPaired : ReturnsPaired paddedExample.toList := by
    rw [paddedExample, String.toList_ofList]
    decide +kernel
  have alike : Alike plainExample.toList paddedExample.toList := by
    rw [plainExample, paddedExample, String.toList_ofList, String.toList_ofList]
    decide +kernel
  exact ⟨paired, otherPaired, alike, ofText_alike paired otherPaired alike⟩

end Reading

end TrustRules
