import TrustRules.Proofs.Block.Values
import TrustRules.Proofs.Reading.Diagnostics

/-!
# Deleted lines

A line that is reported as a whole should state nothing, so that its block is
read as the same rule without it.  An incomplete condition is the exception: it
takes the place of the condition above it.  Main statement: deleting a reported
line changes at most the condition of the rule, and leaves the rule as it is
exactly when the line hides no complete condition above it.
-/

namespace TrustRules

open Text

/-! ## A line with a single clause -/

namespace Clause

/-- A clause that takes up its whole line is the only clause of the line. -/
theorem ofLine_eq_singleton {line : List Char} {clause : Clause} (mem : clause ∈ ofLine line)
    (whole : clause.source = trim line) : ofLine line = [clause] := by
  unfold ofLine at mem ⊢
  split at mem
  · cases mem
  · next visible =>
      rw [if_neg visible]
      generalize trim line = core at mem whole ⊢
      rcases ofTrimmed_cases core with ⟨only, single⟩ | ⟨front, rest, found, parts⟩
      · rw [single, List.mem_singleton] at mem
        rw [single, mem]
      · rw [parts, List.mem_cons] at mem
        rcases mem with rfl | behind
        · have empty : rest = [] := by
            have same : front ++ rest = front :=
              (append_of_throughUnquoted found).trans whole.symm
            simpa using same
          rw [parts, empty]
          rfl
        · -- what follows the condition is shorter than the line
          have shorter := length_lt_of_throughUnquoted found
          have kept : (trim rest).length ≤ rest.length := (strip_isInfix isBlank rest).length_le
          rw [← source_of_mem_ofTail behind, whole] at kept
          omega

/-- A clause that is reported as a whole is unrecognized, or it is an incomplete condition. -/
theorem eq_of_reported {text : List Char} {cause : Cause} {clause : Clause}
    (mem : (text, cause) ∈ clause.unused)
    (whole : cause = .unrecognizedLine ∨ cause = .incompleteCondition) :
    (cause = .unrecognizedLine ∧ clause = .unrecognized text) ∨
      (cause = .incompleteCondition ∧ clause = .condition text ∧
        Condition.ofText? text = none) := by
  rcases whole with rfl | rfl
  · exact .inl ⟨rfl, mem_unused_unrecognizedLine_iff.1 mem⟩
  · exact .inr ⟨rfl, mem_unused_incompleteCondition_iff.1 mem⟩

end Clause

/-! ## Drafts without a clause -/

namespace Draft

/-- Without a clause that states no name, template or action, at most the condition differs. -/
theorem ofClauses_delete {clause : Clause} (name : clause.name? = none)
    (template : clause.template? = none) (action : clause.action? = none)
    (above below : List Clause) :
    ofClauses (above ++ below) =
      { ofClauses (above ++ clause :: below) with
        condition := (ofClauses (above ++ below)).condition } := by
  have same {kind? : Clause → Option (List Char)} (none : kind? clause = none) :
      (above ++ clause :: below).filterMap kind? = (above ++ below).filterMap kind? := by
    rw [List.filterMap_append, List.filterMap_cons_none none, List.filterMap_append]
  have names : (ofClauses (above ++ clause :: below)).name = (ofClauses (above ++ below)).name := by
    rw [name_ofClauses, name_ofClauses, same name]
  have templates : (ofClauses (above ++ clause :: below)).template =
      (ofClauses (above ++ below)).template := by
    rw [template_ofClauses, template_ofClauses, same template]
  have actions : (ofClauses (above ++ clause :: below)).action =
      (ofClauses (above ++ below)).action := by
    rw [action_ofClauses, action_ofClauses, same action]
  dsimp only
  rw [names, templates, actions]

/-- Without an unrecognized clause the condition is the same. -/
theorem condition_delete_unrecognized (text : List Char) (above below : List Clause) :
    (ofClauses (above ++ below)).condition =
      (ofClauses (above ++ .unrecognized text :: below)).condition := by
  rw [condition_ofClauses, condition_ofClauses, List.filterMap_append, List.filterMap_append,
    List.filterMap_cons_none rfl]

/--
Without an incomplete condition the condition is the same, unless none follows
it and a complete one was stated above.
-/
theorem condition_delete_incomplete_iff {text : List Char}
    (incomplete : Condition.ofText? text = none) (above below : List Clause) :
    (ofClauses (above ++ below)).condition =
        (ofClauses (above ++ .condition text :: below)).condition ↔
      (below.filterMap Clause.condition? = [] → (ofClauses above).condition = none) := by
  have stated : (Clause.condition text).condition? = some text := rfl
  simp only [condition_ofClauses, List.filterMap_append, List.filterMap_cons_some stated]
  cases behind : below.filterMap Clause.condition? with
  | nil => simp [incomplete]
  | cons other others => simp [List.getLast?_append, List.getLast?_cons]

/-- The rule of a templated draft takes its condition from the draft alone. -/
theorem rule_with_condition {draft : Draft} {template : Template}
    (found : draft.template? = some template) (condition : Option Condition)
    (block other : List Char) :
    ({ draft with condition }).rule other = { draft.rule block with condition } := by
  have foundToo : ({ draft with condition } : Draft).template? = some template := found
  rw [rule, rule, foundToo, found]

end Draft

theorem Rule.with_condition_eq_self_iff {rule : Rule} {condition : Option Condition} :
    { rule with condition } = rule ↔ condition = rule.condition := by
  constructor
  · intro same
    exact congrArg Rule.condition same
  · rintro rfl
    rfl

/-! ## Blocks without a line -/

namespace Block

section Deletion

variable {block line : List Char} {above below : List (List Char)} {clause : Clause}
  (templated : (rule block).isCustom = false) (parts : lines block = above ++ line :: below)
  (only : Clause.ofLine line = [clause])

include parts

theorem mem_lines_of_parts : ∀ l ∈ above ++ below, l ∈ lines block := by
  intro l mem
  rw [parts]
  exact ((List.sublist_cons_self line below).append_left above).subset mem

theorem not_mem_of_parts : ∀ l ∈ above ++ below, '\n' ∉ l :=
  fun l mem => not_mem_of_mem_lines (mem_lines_of_parts parts l mem)

include only

theorem ofText_eq_of_parts :
    Clause.ofText block =
      above.flatMap Clause.ofLine ++ clause :: below.flatMap Clause.ofLine := by
  rw [Clause.ofText, parts, List.flatMap_append, List.flatMap_cons, only, List.singleton_append]

include templated

/-- The line that states the template is left, so what is left is not blank. -/
theorem not_blank_of_parts (template : clause.template? = none) :
    allBlank (['\n'].intercalate (above ++ below)) = false := by
  refine not_blank_of_templated ?_
  rw [isCustom_rule, statedTemplate?_eq] at templated ⊢
  rw [ofText_eq_of_parts parts only, List.filterMap_append,
    List.filterMap_cons_none template] at templated
  rw [Clause.ofText_intercalate (not_mem_of_parts parts), List.flatMap_append,
    List.filterMap_append, templated]

/-- What is left of a block without the line is one block. -/
theorem ofText_deleted {text : List Char} (isBlock : IsBlock text block)
    (template : clause.template? = none) :
    ofText (['\n'].intercalate (above ++ below)) =
      [trim (['\n'].intercalate (above ++ below))] := by
  have isText : Consecutive (above ++ below) := fun l mem =>
    isBlock.consecutive l (mem_lines_of_parts parts l mem)
  exact isText.ofText_intercalate (not_blank_of_parts templated parts only template)

/-- Without a line that states no name, template or action, at most the condition differs. -/
theorem rule_deleted (name : clause.name? = none) (template : clause.template? = none)
    (action : clause.action? = none) :
    rule (trim (['\n'].intercalate (above ++ below))) =
      { rule block with
        condition := (Draft.ofClauses
          (above.flatMap Clause.ofLine ++ below.flatMap Clause.ofLine)).condition } := by
  have whole : draft block = .ofClauses
      (above.flatMap Clause.ofLine ++ clause :: below.flatMap Clause.ofLine) := by
    rw [draft_eq, ofText_eq_of_parts parts only]
  have shorter : draft (trim (['\n'].intercalate (above ++ below))) =
      .ofClauses (above.flatMap Clause.ofLine ++ below.flatMap Clause.ofLine) := by
    rw [draft_eq, Clause.ofText_trim, Clause.ofText_intercalate (not_mem_of_parts parts),
      List.flatMap_append]
  obtain ⟨_, found⟩ := exists_template?_draft templated
  rw [rule, shorter, Draft.ofClauses_delete name template action, ← whole,
    Draft.rule_with_condition found _ block, rule]

theorem condition_rule_of_parts :
    (rule block).condition =
      (Draft.ofClauses
        (above.flatMap Clause.ofLine ++ clause :: below.flatMap Clause.ofLine)).condition := by
  rw [condition_rule templated, draft_eq, ofText_eq_of_parts parts only]

end Deletion

end Block

namespace Reading

/-- A line that is reported as a whole is one clause, the one that is reported. -/
theorem exists_ofLine_of_reported {text : String} {block line : List Char}
    {above below : List (List Char)} {diagnostic : Diagnostic}
    (blocks : Block.ofText text.toList = [block]) (parts : lines block = above ++ line :: below)
    (reported : diagnostic ∈ (ofText text).skipped) (place : diagnostic.line = above.length + 1)
    (whole : diagnostic.text = String.ofList (trim line))
    (cause : diagnostic.cause = .unrecognizedLine ∨ diagnostic.cause = .incompleteCondition) :
    ∃ clause, Clause.ofLine line = [clause] ∧
      ((diagnostic.cause = .unrecognizedLine ∧ clause = .unrecognized (trim line)) ∨
        (diagnostic.cause = .incompleteCondition ∧ clause = .condition (trim line) ∧
          Condition.ofText? (trim line) = none)) := by
  obtain ⟨found, atPlace, _, clause, isClause, piece, isUnused, isText⟩ :=
    mem_skipped_iff.1 reported
  have isFound : found = block := by
    rw [blocks] at atPlace
    exact List.mem_singleton.1 (List.mem_of_getElem? atPlace)
  have isWhole : piece = trim line := by
    rw [← String.toList_ofList (l := piece), ← isText, whole, String.toList_ofList]
  subst isFound isWhole
  obtain ⟨number, other, isLine, same, onLine⟩ := Block.mem_clauses_iff.1 isClause
  rw [place, Nat.add_right_cancel_iff] at same
  rw [parts, ← same, List.getElem?_append_right (Nat.le_refl _), Nat.sub_self] at isLine
  cases isLine
  have kinds := Clause.eq_of_reported isUnused cause
  refine ⟨clause, Clause.ofLine_eq_singleton onLine ?_, kinds⟩
  rcases kinds with ⟨_, rfl⟩ | ⟨_, rfl, _⟩
  · rfl
  · rfl

/--
A line of a single templated block that is reported as a whole can be deleted:
the block is read as the same rule, up to a condition that the line hid.  It hid
one exactly when it is an incomplete condition, no condition stands below it and
the condition stated last above it is complete.
-/
theorem ofText_deleteLine {text : String} {block line : List Char} {above below : List (List Char)}
    {diagnostic : Diagnostic} (blocks : Block.ofText text.toList = [block])
    (templated : (Block.rule block).isCustom = false)
    (parts : lines block = above ++ line :: below)
    (reported : diagnostic ∈ (ofText text).skipped) (place : diagnostic.line = above.length + 1)
    (whole : diagnostic.text = String.ofList (trim line))
    (cause : diagnostic.cause = .unrecognizedLine ∨ diagnostic.cause = .incompleteCondition) :
    ∃ rule back,
      (ofText text).set.rules = [rule] ∧
      (ofText (String.ofList (['\n'].intercalate (above ++ below)))).set.rules = [back] ∧
      back = { rule with condition := back.condition } ∧
      (back = rule ↔
        (diagnostic.cause = .incompleteCondition →
          (below.flatMap Clause.ofLine).filterMap Clause.condition? = [] →
          (Draft.ofClauses (above.flatMap Clause.ofLine)).condition = none)) := by
  obtain ⟨clause, only, kinds⟩ := exists_ofLine_of_reported blocks parts reported place whole cause
  have kind : clause.name? = none ∧ clause.template? = none ∧ clause.action? = none := by
    rcases kinds with ⟨_, rfl⟩ | ⟨_, rfl, _⟩
    · exact ⟨rfl, rfl, rfl⟩
    · exact ⟨rfl, rfl, rfl⟩
  have isBlock : Block.IsBlock text.toList block :=
    Block.isBlock_of_mem_ofText (blocks ▸ List.mem_singleton_self block)
  have read := Block.rule_deleted templated parts only kind.1 kind.2.1 kind.2.2
  have condition := Block.condition_rule_of_parts templated parts only
  refine ⟨Block.rule block, Block.rule (trim (['\n'].intercalate (above ++ below))), ?_, ?_, ?_, ?_⟩
  · rw [rules_ofText, blocks, List.map_singleton]
  · rw [rules_ofText, String.toList_ofList,
      Block.ofText_deleted templated parts only isBlock kind.2.1, List.map_singleton]
  · rw [read]
  · rw [read, Rule.with_condition_eq_self_iff, condition]
    rcases kinds with ⟨unrecognized, rfl⟩ | ⟨isIncomplete, rfl, incomplete⟩
    · rw [unrecognized]
      refine iff_of_true (Draft.condition_delete_unrecognized _ _ _) fun impossible => ?_
      cases impossible
    · rw [Draft.condition_delete_incomplete_iff incomplete, isIncomplete]
      exact ⟨fun kept _ => kept, fun kept => kept rfl⟩

/-- A template line, and two conditions of which the first lacks a claim type. -/
def supersededExample : List (List Char) :=
  ["@RuleTemplate = \"t\"".toList, "\tc:[Issuer == \"j\"] \r".toList,
    "c:[Type == \"u\", Issuer == \"i\"] => issue(param = c);".toList]

theorem ofText_deleteLine_supersededExample :
    ⟨0, 2, "c:[Issuer == \"j\"]", .incompleteCondition⟩ ∈
        (ofText (String.ofList (['\n'].intercalate supersededExample))).skipped ∧
      ∃ rule,
        (ofText (String.ofList (['\n'].intercalate supersededExample))).set.rules = [rule] ∧
        (ofText (String.ofList (['\n'].intercalate (supersededExample.eraseIdx 1)))).set.rules =
          [rule] := by
  have blocks : Block.ofText (String.ofList (['\n'].intercalate supersededExample)).toList =
      [['\n'].intercalate supersededExample] := by
    rw [String.toList_ofList, Block.ofText_eq_ofLines]
    decide +kernel
  have parts : lines (['\n'].intercalate supersededExample) =
      supersededExample.take 1 ++ supersededExample[1] :: supersededExample.drop 2 := by
    decide +kernel
  have reported : ⟨0, 2, "c:[Issuer == \"j\"]", .incompleteCondition⟩ ∈
      (ofText (String.ofList (['\n'].intercalate supersededExample))).skipped := by
    rw [skipped_ofText, blocks]
    decide +kernel
  obtain ⟨rule, back, rules, deleted, _, same⟩ :=
    ofText_deleteLine blocks (by decide +kernel) parts reported rfl (by decide +kernel) (.inr rfl)
  have isSame : back = rule := by
    refine same.2 fun _ none => ?_
    -- a condition stands below the deleted line
    exact absurd none (by decide +kernel)
  rw [isSame] at deleted
  exact ⟨reported, rule, rules, deleted⟩

/-- The same conditions the other way round. -/
def hidingExample : List (List Char) :=
  ["@RuleTemplate = \"t\"".toList, "c:[Type == \"u\", Issuer == \"i\"]".toList,
    "c:[Issuer == \"j\"]".toList]

/-- An incomplete condition that is reported takes the complete one above it away. -/
theorem hidingExample_not_same :
    Block.ofText (['\n'].intercalate hidingExample) = [['\n'].intercalate hidingExample] ∧
      ⟨0, 3, "c:[Issuer == \"j\"]", .incompleteCondition⟩ ∈
        (ofText (String.ofList (['\n'].intercalate hidingExample))).skipped ∧
      (ofText (String.ofList (['\n'].intercalate hidingExample))).set.rules =
        [.templated "" (.other "t")] ∧
      (ofText (String.ofList (['\n'].intercalate (hidingExample.eraseIdx 2)))).set.rules =
        [{ name := "", template := .other "t", condition := some ⟨"u", "i"⟩ }] := by
  have blocks : Block.ofText (['\n'].intercalate hidingExample) =
      [['\n'].intercalate hidingExample] := by
    rw [Block.ofText_eq_ofLines]
    decide +kernel
  refine ⟨blocks, ?_, ?_, ?_⟩
  · rw [skipped_ofText, String.toList_ofList, blocks]
    decide +kernel
  · rw [rules_ofText, String.toList_ofList, blocks]
    decide +kernel
  · rw [rules_ofText, String.toList_ofList, Block.ofText_eq_ofLines]
    decide +kernel

end Reading

end TrustRules
