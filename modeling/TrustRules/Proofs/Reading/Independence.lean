import TrustRules.Proofs.Reading.Blocks

/-!
# Independent blocks

A blank line between two texts keeps them apart.  Main statement: both together
are read as one after the other, and of the second only the places change under
which its diagnostics are reported.
-/

namespace TrustRules

open Text

/-- A block with more rules before it reports the same under a later place. -/
theorem Block.diagnostics_add (count place : Nat) (block : List Char) :
    diagnostics (count + place) block =
      (diagnostics place block).map fun diagnostic => diagnostic.later count := by
  unfold diagnostics
  split
  · rw [List.map_flatMap]
    refine List.flatMap_congr fun clause _ => ?_
    rw [List.map_map]
    rfl
  · rfl

namespace Reading

/-- The diagnostics of blocks that stand behind others, each under its own place. -/
theorem flatMap_diagnostics_zipIdx (count : Nat) (blocks : List (List Char)) :
    ((blocks.zipIdx count).flatMap fun block => Block.diagnostics block.2 block.1) =
      (blocks.zipIdx.flatMap fun block => Block.diagnostics block.2 block.1).map
        fun diagnostic => diagnostic.later count := by
  rw [List.zipIdx_eq_map_add, List.flatMap_map, List.map_flatMap]
  exact List.flatMap_congr fun block _ => Block.diagnostics_add count block.2 block.1

/-- A text whose blocks are those of two others is read as the one after the other. -/
theorem ofText_of_blocks {text first second : String}
    (blocks : Block.ofText text.toList =
      Block.ofText first.toList ++ Block.ofText second.toList) :
    ofText text =
      { set := (ofText first).set ++ (ofText second).set
        skipped := (ofText first).skipped ++
          (ofText second).skipped.map fun diagnostic =>
            diagnostic.later (ofText first).set.size } := by
  have size : (ofText first).set.size = (Block.ofText first.toList).length := by
    rw [RuleSet.size, rules_ofText, List.length_map]
  have rules : (ofText text).set.rules =
      ((ofText first).set ++ (ofText second).set).rules := by
    rw [RuleSet.rules_append, rules_ofText, rules_ofText, rules_ofText, blocks, List.map_append]
  have skipped : (ofText text).skipped = (ofText first).skipped ++
      (ofText second).skipped.map fun diagnostic =>
        diagnostic.later (ofText first).set.size := by
    rw [size, skipped_ofText, skipped_ofText, skipped_ofText, blocks, List.zipIdx_append,
      List.flatMap_append, Nat.zero_add,
      flatMap_diagnostics_zipIdx (Block.ofText first.toList).length]
  cases whole : ofText text with
  | mk set diagnostics =>
      rw [whole] at rules skipped
      exact congr (congrArg mk (congrArg RuleSet.mk rules)) skipped

/-- Any blank line, of spaces and tabs and a return, keeps two texts apart. -/
theorem ofText_append_gap {gap : List Char} (blank : Block.isBlankLine gap = true)
    (first second : String) :
    ofText (first ++ String.ofList ('\n' :: gap ++ ['\n']) ++ second) =
      { set := (ofText first).set ++ (ofText second).set
        skipped := (ofText first).skipped ++
          (ofText second).skipped.map fun diagnostic =>
            diagnostic.later (ofText first).set.size } := by
  refine ofText_of_blocks ?_
  rw [← Block.ofText_append_gap blank]
  simp

/--
Two texts with an empty line between them are read independently: the rules of
the second follow those of the first, and so do its diagnostics, whose lines,
texts and causes stay the same.
-/
theorem ofText_append_emptyLine (first second : String) :
    ofText (first ++ "\n\n" ++ second) =
      { set := (ofText first).set ++ (ofText second).set
        skipped := (ofText first).skipped ++
          (ofText second).skipped.map fun diagnostic =>
            diagnostic.later (ofText first).set.size } := by
  have blank : Block.isBlankLine [] = true := rfl
  exact ofText_append_gap blank first second

end Reading

end TrustRules
