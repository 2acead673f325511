import TrustRules.Proofs.Block.Clauses
import TrustRules.Reading

/-!
# Readings by blocks

What is read from a text is put together from its blocks: one rule for each
block, in order, and the diagnostics of each block under the place of its rule.
-/

namespace TrustRules

open Text

namespace Reading

theorem trimmed_cons_of_blank {piece : List Char} (blank : allBlank piece = true)
    (rest : List (List Char)) : Block.trimmed (piece :: rest) = Block.trimmed rest := by
  rw [Block.trimmed_cons, Block.trimmed_blank (allBlank_iff.1 blank), List.nil_append]

theorem trimmed_cons_of_not_blank {piece : List Char} (solid : allBlank piece = false)
    (rest : List (List Char)) :
    Block.trimmed (piece :: rest) = trim piece :: Block.trimmed rest := by
  simp [Block.trimmed, trim_ne_nil solid]

/-- The pieces of a text that are not blank are read one after the other. -/
theorem value_ofPieces (place : Nat) (pieces : List (List Char)) :
    (ofPieces place pieces).value =
      { set := ⟨(Block.trimmed pieces).map Block.rule⟩
        skipped := ((Block.trimmed pieces).zipIdx place).flatMap fun block =>
          Block.diagnostics block.2 block.1 } := by
  induction pieces generalizing place with
  | nil => rfl
  | cons piece rest ih =>
      cases blank : allBlank piece with
      | true =>
          rw [trimmed_cons_of_blank blank, ← ih place]
          simp only [ofPieces, blank, if_true]
      | false =>
          rw [trimmed_cons_of_not_blank blank, List.map_cons, List.zipIdx_cons,
            List.flatMap_cons]
          simp only [ofPieces, blank, Bool.false_eq_true, if_false, ih (place + 1), Block.read]

theorem rules_ofText (text : String) :
    (ofText text).set.rules = (Block.ofText text.toList).map Block.rule := by
  rw [ofText, logged, value_ofPieces]
  rfl

theorem getElem?_rules_ofText {text : String} {place : Nat} {block : List Char}
    (isBlock : (Block.ofText text.toList)[place]? = some block) :
    (ofText text).set.rules[place]? = some (Block.rule block) := by
  rw [rules_ofText, List.getElem?_map, isBlock]
  rfl

theorem skipped_ofText (text : String) :
    (ofText text).skipped =
      (Block.ofText text.toList).zipIdx.flatMap fun block =>
        Block.diagnostics block.2 block.1 := by
  rw [ofText, logged, value_ofPieces]
  rfl

theorem isClean_of_diagnostics {text : String}
    (none : ∀ block ∈ Block.ofText text.toList, ∀ place, Block.diagnostics place block = []) :
    (ofText text).isClean = true := by
  rw [isClean, List.isEmpty_iff, skipped_ofText, List.flatMap_eq_nil_iff]
  intro block mem
  exact none block.1 (List.fst_mem_of_mem_zipIdx mem) block.2

end Reading

end TrustRules
