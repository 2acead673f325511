import TrustRules.Proofs.Reading.Blocks

/-!
# Diagnostics of a text

A diagnostic names a block and a line.  Main statement: it was reported exactly
when that block has a templated rule and a clause of that line leaves a piece of
that text unused.
-/

namespace TrustRules

open Text

namespace Clause

/-- Only an unrecognized clause is reported as one, and as a whole. -/
theorem mem_unused_unrecognizedLine_iff {text : List Char} {clause : Clause} :
    (text, Cause.unrecognizedLine) ∈ clause.unused ↔ clause = .unrecognized text := by
  cases clause with
  | name value => simp [unused]
  | template value => simp [unused]
  | condition stated =>
      cases complete : Condition.ofText? stated <;> simp [unused, malformed, complete]
  | action stated => simp [unused, malformed]
  | unrecognized stated => simp [unused, eq_comm]

/-- Only a condition that lacks a value is reported as incomplete, and as a whole. -/
theorem mem_unused_incompleteCondition_iff {text : List Char} {clause : Clause} :
    (text, Cause.incompleteCondition) ∈ clause.unused ↔
      clause = .condition text ∧ Condition.ofText? text = none := by
  cases clause with
  | name value => simp [unused]
  | template value => simp [unused]
  | condition stated =>
      cases complete : Condition.ofText? stated with
      | none =>
          simp only [unused, malformed, complete, Option.isSome_none, Bool.false_eq_true, if_false,
            List.mem_append, List.mem_map, List.mem_singleton, Prod.mk.injEq, and_true,
            Clause.condition.injEq, reduceCtorEq, and_false, exists_false, false_or]
          constructor
          · rintro rfl
            exact ⟨rfl, complete⟩
          · rintro ⟨rfl, _⟩
            rfl
      | some condition =>
          simp only [unused, malformed, complete, Option.isSome_some, if_true, List.append_nil,
            List.mem_map, Prod.mk.injEq, reduceCtorEq, and_false, exists_false, false_iff,
            Clause.condition.injEq]
          rintro ⟨rfl, none⟩
          rw [complete] at none
          cases none
  | action stated => simp [unused, malformed]
  | unrecognized stated => simp [unused]

end Clause

namespace Block

variable {block : List Char}

/-- The clauses of a block under a number are those of the line with that number. -/
theorem mem_clauses_iff {number : Nat} {clause : Clause} :
    (number, clause) ∈ clauses block ↔
      ∃ place line, (lines block)[place]? = some line ∧ number = place + 1 ∧
        clause ∈ Clause.ofLine line := by
  rw [clauses, List.mem_flatMap]
  constructor
  · rintro ⟨⟨line, counted⟩, isLine, mem⟩
    obtain ⟨stated, isClause, same⟩ := List.mem_map.1 mem
    rw [Prod.mk.injEq] at same
    obtain ⟨rfl, rfl⟩ := same
    obtain ⟨atLeast, found⟩ := List.mk_mem_zipIdx_iff_le_and_getElem?_sub.1 isLine
    exact ⟨counted - 1, line, found, (Nat.sub_add_cancel atLeast).symm, isClause⟩
  · rintro ⟨place, line, isLine, rfl, mem⟩
    refine ⟨(line, place + 1), ?_, List.mem_map_of_mem mem⟩
    refine List.mk_mem_zipIdx_iff_le_and_getElem?_sub.2 ⟨Nat.le_add_left 1 place, ?_⟩
    rwa [Nat.add_sub_cancel]

theorem isSome_template?_draft (block : List Char) :
    (draft block).template?.isSome = !(rule block).isCustom := by
  rw [isCustom_rule, Draft.template?, template_draft]
  cases statedTemplate? block with
  | none => rfl
  | some template => cases kind : template.isCustom <;> simp [Option.filter, kind]

theorem exists_template?_draft (templated : (rule block).isCustom = false) :
    ∃ template, (draft block).template? = some template := by
  rw [← Option.isSome_iff_exists, isSome_template?_draft, templated]
  rfl

theorem condition_rule (templated : (rule block).isCustom = false) :
    (rule block).condition = (draft block).condition := by
  obtain ⟨template, found⟩ := exists_template?_draft templated
  rw [rule, Draft.rule, found]

/-- What is reported of a templated block are the unused pieces of its clauses. -/
theorem mem_diagnostics_iff {place : Nat} {diagnostic : Diagnostic} :
    diagnostic ∈ diagnostics place block ↔
      (rule block).isCustom = false ∧ diagnostic.block = place ∧
        ∃ clause, (diagnostic.line, clause) ∈ clauses block ∧
          ∃ text, (text, diagnostic.cause) ∈ clause.unused ∧
            diagnostic.text = String.ofList text := by
  rw [diagnostics, isSome_template?_draft]
  cases kind : (rule block).isCustom with
  | true => simp
  | false =>
      simp only [Bool.not_false, if_true, List.mem_flatMap, List.mem_map, Prod.exists, true_and]
      constructor
      · rintro ⟨number, clause, isClause, text, cause, isUnused, rfl⟩
        exact ⟨rfl, clause, isClause, text, isUnused, rfl⟩
      · rintro ⟨isPlace, clause, isClause, text, isUnused, isText⟩
        refine ⟨diagnostic.line, clause, isClause, text, diagnostic.cause, isUnused, ?_⟩
        rw [← isPlace, ← isText]

end Block

namespace Reading

/-- Every diagnostic of a text is one of the block that it names. -/
theorem mem_skipped_iff {text : String} {diagnostic : Diagnostic} :
    diagnostic ∈ (ofText text).skipped ↔
      ∃ block, (Block.ofText text.toList)[diagnostic.block]? = some block ∧
        (Block.rule block).isCustom = false ∧
        ∃ clause, (diagnostic.line, clause) ∈ Block.clauses block ∧
          ∃ piece, (piece, diagnostic.cause) ∈ clause.unused ∧
            diagnostic.text = String.ofList piece := by
  rw [skipped_ofText, List.mem_flatMap]
  constructor
  · rintro ⟨⟨block, place⟩, isBlock, mem⟩
    obtain ⟨templated, rfl, reported⟩ := Block.mem_diagnostics_iff.1 mem
    exact ⟨block, List.mk_mem_zipIdx_iff_getElem?.1 isBlock, templated, reported⟩
  · rintro ⟨block, isBlock, templated, reported⟩
    refine ⟨(block, diagnostic.block), List.mk_mem_zipIdx_iff_getElem?.2 isBlock, ?_⟩
    exact Block.mem_diagnostics_iff.2 ⟨templated, rfl, reported⟩

end Reading

end TrustRules
