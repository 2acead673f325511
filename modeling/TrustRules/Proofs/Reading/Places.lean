import TrustRules.Proofs.Block.Values
import TrustRules.Proofs.Reading.Diagnostics

/-!
# Places of diagnostics

A diagnostic counts blocks from zero and the lines of a trimmed block from one.
Main statement: it names the block of a templated rule and a line of it on which
its text stands, the diagnostics come in the order of these places, and a line is
reported as unrecognized or incomplete once at most.
-/

namespace TrustRules

open Text

namespace Clause

/-! ## What stands on a line -/

theorem visible_of_mem_ofTail {rest : List Char} {clause : Clause}
    (mem : clause ∈ ofTail (trim rest)) : allBlank clause.source = false := by
  have some : trim rest ≠ [] := by
    intro empty
    rw [empty] at mem
    cases mem
  rw [source_of_mem_ofTail mem]
  exact allBlank_eq_false_of_firm (firm_strip isBlank rest) some

theorem visible_of_mem_ofConditionLine {line : List Char} {clause : Clause}
    (visible : allBlank line = false) (mem : clause ∈ ofConditionLine line) :
    allBlank clause.source = false := by
  unfold ofConditionLine at mem
  split at mem
  · next front rest found =>
      rcases List.mem_cons.1 mem with rfl | behind
      · -- the bracket is not blank
        rw [← Bool.not_eq_true, allBlank_iff]
        intro blank
        exact absurd (blank ']' (mem_of_throughUnquoted found)) (by decide)
      · exact visible_of_mem_ofTail behind
  · rwa [List.mem_singleton.1 mem]

/-- A clause that is no name and no template was made from a text with something in it. -/
theorem visible_source {line : List Char} {clause : Clause} (mem : clause ∈ ofLine line)
    (unnamed : clause.name? = none) (untemplated : clause.template? = none) :
    allBlank clause.source = false := by
  unfold ofLine at mem
  split at mem
  · cases mem
  · next visible =>
      rw [← allBlank_trim, Bool.not_eq_true] at visible
      generalize trim line = core at mem visible
      unfold ofTrimmed at mem
      split at mem
      · rw [List.mem_singleton.1 mem] at unnamed
        cases unnamed
      · split at mem
        · rw [List.mem_singleton.1 mem] at untemplated
          cases untemplated
        · split at mem
          · exact visible_of_mem_ofConditionLine visible mem
          · split at mem
            · rwa [List.mem_singleton.1 mem]
            · rwa [List.mem_singleton.1 mem]

/-- An argument without a sign is a piece of its list, and has something in it. -/
theorem of_mem_malformed {opening closing sign text : List Char} {piece : List Char × Cause}
    (mem : piece ∈ malformed
      (Argument.ofList sign (dropClosing closing (dropOpening opening text)))) :
    piece.1 <:+: text ∧ allBlank piece.1 = false ∧ ¬ sign <:+: piece.1 := by
  obtain ⟨found, isMalformed, rfl⟩ := List.mem_map.1 mem
  obtain ⟨argument, isArgument, isText⟩ := List.mem_filterMap.1 isMalformed
  obtain ⟨part, isPart, rfl⟩ := List.mem_map.1 isArgument
  unfold Argument.ofPiece at isText
  split at isText
  · cases isText
  · next unbroken =>
      obtain rfl : part = found := Option.some.inj isText
      refine ⟨?_, ?_, breakOn_eq_none_iff.1 unbroken⟩
      · exact (Nesting.isInfix_of_mem_topLevel isPart).trans
          (dropClosing_dropOpening_isInfix opening closing text)
      · simpa using (List.mem_filter.1 isPart).2

/-- What a clause leaves unused stands on its line, and a malformed pair holds no sign. -/
theorem of_mem_unused {line : List Char} {clause : Clause} {piece : List Char × Cause}
    (mem : clause ∈ ofLine line) (isUnused : piece ∈ clause.unused) :
    piece.1 <:+: line ∧ allBlank piece.1 = false ∧
      (piece.2 = .malformedPair → ¬ Mark.equals <:+: piece.1) := by
  have onLine := source_isInfix_of_mem_ofLine mem
  cases clause with
  | name value => cases isUnused
  | template value => cases isUnused
  | condition text =>
      rcases List.mem_append.1 isUnused with inArguments | whole
      · obtain ⟨inside, visible, unsigned⟩ := of_mem_malformed inArguments
        exact ⟨inside.trans onLine, visible, fun _ => unsigned⟩
      · split at whole
        · cases whole
        · obtain rfl := List.mem_singleton.1 whole
          exact ⟨onLine, visible_source mem rfl rfl, fun cause => nomatch cause⟩
  | action text =>
      obtain ⟨inside, visible, unsigned⟩ := of_mem_malformed isUnused
      refine ⟨inside.trans onLine, visible, fun _ equals => unsigned ?_⟩
      exact List.IsInfix.trans (by decide) equals
  | unrecognized text =>
      obtain rfl := List.mem_singleton.1 isUnused
      exact ⟨onLine, visible_source mem rfl rfl, fun cause => nomatch cause⟩

theorem exists_condition_of_isPrefix {line : List Char} (starts : Mark.condition <+: trim line) :
    ∃ text, .condition text ∈ ofLine line := by
  rw [ofLine_of_condition starts, ofConditionLine]
  split
  · exact ⟨_, List.mem_cons_self⟩
  · exact ⟨_, List.mem_cons_self⟩

theorem eq_condition_of_condition? {clause : Clause} {text : List Char}
    (stated : clause.condition? = some text) : clause = .condition text := by
  cases clause with
  | condition found => exact congrArg Clause.condition (Option.some.inj stated)
  | _ => cases stated

/-! ## How often a line is reported -/

/-- Two pieces have different causes, unless both are malformed pairs. -/
def Differ (first second : List Char × Cause) : Prop :=
  first.2 = second.2 → first.2 = .malformedPair

theorem pairwise_malformed (arguments : List Argument) :
    (malformed arguments).Pairwise Differ :=
  List.pairwise_map.2 (List.pairwise_of_forall fun _ _ _ => rfl)

theorem pairwise_unused (clause : Clause) : clause.unused.Pairwise Differ := by
  cases clause with
  | name value => exact .nil
  | template value => exact .nil
  | condition text =>
      rw [unused, List.pairwise_append]
      refine ⟨pairwise_malformed _, ?_, ?_⟩
      · split
        · exact .nil
        · exact List.pairwise_singleton _ _
      · intro piece mem _ _ _
        obtain ⟨_, _, rfl⟩ := List.mem_map.1 mem
        rfl
  | action text => exact pairwise_malformed _
  | unrecognized text => exact List.pairwise_singleton _ _

/-- What follows a condition on its line is one clause, if anything, and no condition. -/
theorem ofTail_cases (rest : List Char) :
    ofTail rest = [] ∨ ∃ clause, ofTail rest = [clause] ∧ clause.condition? = none := by
  unfold ofTail
  split
  · exact .inl rfl
  · split
    · exact .inr ⟨_, rfl, rfl⟩
    · exact .inr ⟨_, rfl, rfl⟩

/-- A line is reported as unrecognized once at most, and once at most as incomplete. -/
theorem pairwise_unused_ofLine (line : List Char) :
    ((ofLine line).flatMap unused).Pairwise Differ := by
  unfold ofLine
  split
  · exact .nil
  · rcases ofTrimmed_cases (trim line) with ⟨only, single⟩ | ⟨front, rest, -, parts⟩
    · rw [single, List.flatMap_singleton]
      exact pairwise_unused only
    · rw [parts, List.flatMap_cons]
      rcases ofTail_cases (trim rest) with nothing | ⟨clause, single, other⟩
      · rw [nothing, List.flatMap_nil, List.append_nil]
        exact pairwise_unused _
      · rw [single, List.flatMap_singleton, List.pairwise_append]
        refine ⟨pairwise_unused _, pairwise_unused _, ?_⟩
        rintro ⟨text, cause⟩ inCondition ⟨behind, _⟩ inTail rfl
        cases cause with
        | malformedPair => rfl
        | unrecognizedLine => cases mem_unused_unrecognizedLine_iff.1 inCondition
        | incompleteCondition =>
            obtain ⟨rfl, -⟩ := mem_unused_incompleteCondition_iff.1 inTail
            cases other

end Clause

namespace Diagnostic

/--
The first diagnostic is about an earlier block, or about an earlier line of the
same block, or about the same line; then only malformed pairs are reported twice.
-/
def Precedes (first second : Diagnostic) : Prop :=
  first.block < second.block ∨
    first.block = second.block ∧
      (first.line < second.line ∨
        first.line = second.line ∧ (first.cause = second.cause → first.cause = .malformedPair))

/-- The diagnostic is about a line of a templated block, and its text stands there. -/
structure IsLocated (text : String) (diagnostic : Diagnostic) : Prop where
  templated : ∃ rule, (Reading.ofText text).set.rules[diagnostic.block]? = some rule ∧
    rule.isCustom = false
  shown : ∃ block line, (Block.ofText text.toList)[diagnostic.block]? = some block ∧
    1 ≤ diagnostic.line ∧ (lines block)[diagnostic.line - 1]? = some line ∧
    diagnostic.text.toList <:+: line
  visible : allBlank diagnostic.text.toList = false
  unsigned : diagnostic.cause = .malformedPair → ¬ Mark.equals <:+: diagnostic.text.toList

end Diagnostic

theorem countP_le_one_of_pairwise {α : Type} {related : α → α → Prop} {p : α → Bool} {xs : List α}
    (pairwise : xs.Pairwise related)
    (apart : ∀ first second, p first = true → p second = true → ¬ related first second) :
    xs.countP p ≤ 1 := by
  induction pairwise with
  | nil => exact Nat.zero_le 1
  | @cons first rest before _ ih =>
      by_cases here : p first = true
      · have none : rest.countP p = 0 := List.countP_eq_zero.2 fun second mem isHere =>
          apart first second here isHere (before second mem)
        exact Nat.le_of_eq (by rw [List.countP_cons_of_pos here, none])
      · rw [List.countP_cons_of_neg here]
        exact ih

theorem pairwise_zipIdx {α : Type} (xs : List α) (start : Nat) :
    (xs.zipIdx start).Pairwise fun first second => first.2 < second.2 := by
  have counted : ((xs.zipIdx start).map Prod.snd).Pairwise (· < ·) := by
    rw [List.zipIdx_map_snd]
    exact List.pairwise_lt_range'
  exact List.pairwise_map.1 counted

namespace Block

/-- The diagnostics of a templated block, line by line. -/
theorem diagnostics_eq_flatMap {block : List Char} (templated : (rule block).isCustom = false)
    (place : Nat) :
    diagnostics place block =
      ((lines block).zipIdx 1).flatMap fun line =>
        ((Clause.ofLine line.1).flatMap Clause.unused).map fun piece =>
          ⟨place, line.2, String.ofList piece.1, piece.2⟩ := by
  rw [diagnostics, isSome_template?_draft, templated, Bool.not_false, if_pos rfl, clauses,
    List.flatMap_assoc]
  refine List.flatMap_congr fun line _ => ?_
  rw [List.flatMap_map, List.map_flatMap]

theorem pairwise_diagnostics (place : Nat) (block : List Char) :
    (diagnostics place block).Pairwise Diagnostic.Precedes := by
  cases kind : (rule block).isCustom with
  | true =>
      rw [diagnostics_eq_nil_of_custom kind]
      exact .nil
  | false =>
      rw [diagnostics_eq_flatMap kind, List.pairwise_flatMap]
      constructor
      · intro line _
        exact (Clause.pairwise_unused_ofLine line.1).map _ fun _ _ differ =>
          .inr ⟨rfl, .inr ⟨rfl, differ⟩⟩
      · refine (pairwise_zipIdx _ _).imp fun earlier first inFirst second inSecond => ?_
        obtain ⟨_, _, rfl⟩ := List.mem_map.1 inFirst
        obtain ⟨_, _, rfl⟩ := List.mem_map.1 inSecond
        exact .inr ⟨rfl, .inl earlier⟩

end Block

namespace Reading

theorem pairwise_skipped (text : String) :
    (ofText text).skipped.Pairwise Diagnostic.Precedes := by
  rw [skipped_ofText, List.pairwise_flatMap]
  constructor
  · exact fun block _ => Block.pairwise_diagnostics block.2 block.1
  · refine (pairwise_zipIdx _ _).imp fun earlier first inFirst second inSecond => ?_
    refine .inl ?_
    rwa [(Block.mem_diagnostics_iff.1 inFirst).2.1, (Block.mem_diagnostics_iff.1 inSecond).2.1]

/-- Of a line the same is reported once at most, malformed pairs apart. -/
theorem countP_skipped_le_one (text : String) (block line : Nat) {cause : Cause}
    (whole : cause ≠ .malformedPair) :
    ((ofText text).skipped.countP fun diagnostic =>
      diagnostic.block = block ∧ diagnostic.line = line ∧ diagnostic.cause = cause) ≤ 1 := by
  refine countP_le_one_of_pairwise (pairwise_skipped text) fun first second isFirst isSecond => ?_
  obtain ⟨firstBlock, firstLine, firstCause⟩ := of_decide_eq_true isFirst
  obtain ⟨secondBlock, secondLine, secondCause⟩ := of_decide_eq_true isSecond
  rintro (before | ⟨-, before | ⟨-, only⟩⟩)
  · rw [firstBlock, secondBlock] at before
    exact Nat.lt_irrefl block before
  · rw [firstLine, secondLine] at before
    exact Nat.lt_irrefl line before
  · exact whole (firstCause.symm.trans (only (firstCause.trans secondCause.symm)))

/-- A diagnostic is about a line of a templated block on which its text stands. -/
theorem isLocated_of_mem_skipped {text : String} {diagnostic : Diagnostic}
    (mem : diagnostic ∈ (ofText text).skipped) : diagnostic.IsLocated text := by
  obtain ⟨block, isBlock, templated, clause, isClause, piece, isUnused, isText⟩ :=
    mem_skipped_iff.1 mem
  obtain ⟨place, line, isLine, number, onLine⟩ := Block.mem_clauses_iff.1 isClause
  obtain ⟨inside, visible, unsigned⟩ := Clause.of_mem_unused onLine isUnused
  have isPiece : diagnostic.text.toList = piece := by rw [isText, String.toList_ofList]
  exact
    { templated := ⟨Block.rule block, getElem?_rules_ofText isBlock, templated⟩
      shown := by
        refine ⟨block, line, isBlock, ?_, ?_, isPiece ▸ inside⟩
        · rw [number]
          exact Nat.le_add_left 1 place
        · rw [number, Nat.add_sub_cancel, isLine]
      visible := isPiece ▸ visible
      unsigned := fun cause => isPiece ▸ unsigned cause }

/-- A rule lacks the condition that its block starts only if one is reported as incomplete. -/
theorem exists_incomplete {text : String} {place : Nat} {block line : List Char}
    (isBlock : (Block.ofText text.toList)[place]? = some block)
    (templated : (Block.rule block).isCustom = false) (isLine : line ∈ lines block)
    (starts : Mark.condition <+: trim line) (none : (Block.rule block).condition = none) :
    ∃ diagnostic ∈ (ofText text).skipped,
      diagnostic.block = place ∧ diagnostic.cause = .incompleteCondition := by
  rw [Block.condition_rule templated, Block.draft_eq, Draft.condition_ofClauses] at none
  obtain ⟨stated, isStated⟩ := Clause.exists_condition_of_isPrefix starts
  have inText : stated ∈ (Clause.ofText block).filterMap Clause.condition? :=
    List.mem_filterMap.2 ⟨.condition stated, List.mem_flatMap.2 ⟨line, isLine, isStated⟩, rfl⟩
  -- the condition that is stated last gives the rule none
  obtain ⟨last, isLast⟩ := Option.ne_none_iff_exists'.1
    (mt List.getLast?_eq_none_iff.1 (List.ne_nil_of_mem inText))
  rw [isLast, Option.bind_some] at none
  obtain ⟨clause, mem, isCondition⟩ := List.mem_filterMap.1 (List.mem_of_getLast? isLast)
  obtain rfl := Clause.eq_condition_of_condition? isCondition
  rw [← Block.map_snd_clauses] at mem
  obtain ⟨⟨number, _⟩, isClause, rfl⟩ := List.mem_map.1 mem
  exact ⟨⟨place, number, String.ofList last, .incompleteCondition⟩,
    mem_skipped_iff.2 ⟨block, isBlock, templated, _, isClause, last,
      Clause.mem_unused_incompleteCondition_iff.2 ⟨rfl, none⟩, rfl⟩, rfl, rfl⟩

/--
Every diagnostic is located; diagnostics come in the order of their blocks and
lines, an unrecognized or incomplete one once at most for a line; and a
templated rule whose block starts a condition lacks one only if an incomplete
condition of the block is reported.
-/
theorem skipped_located (text : String) :
    (∀ diagnostic ∈ (ofText text).skipped, diagnostic.IsLocated text) ∧
      ((ofText text).skipped.Pairwise fun first second =>
        first.block < second.block ∨ first.block = second.block ∧ first.line ≤ second.line) ∧
      (∀ block line cause, cause ≠ Cause.malformedPair →
        ((ofText text).skipped.countP fun diagnostic =>
          diagnostic.block = block ∧ diagnostic.line = line ∧ diagnostic.cause = cause) ≤ 1) ∧
      ∀ (place : Nat) (block : List Char) (rule : Rule),
        (Block.ofText text.toList)[place]? = some block →
        (ofText text).set.rules[place]? = some rule → rule.isCustom = false →
        (∃ line ∈ lines block, Mark.condition <+: trim line) → rule.condition = none →
        ∃ diagnostic ∈ (ofText text).skipped,
          diagnostic.block = place ∧ diagnostic.cause = .incompleteCondition := by
  refine ⟨fun diagnostic mem => isLocated_of_mem_skipped mem, ?_,
    fun block line cause whole => countP_skipped_le_one text block line whole, ?_⟩
  · refine (pairwise_skipped text).imp fun precedes => precedes.imp_right fun ⟨same, ordered⟩ => ?_
    exact ⟨same, ordered.elim Nat.le_of_lt fun onLine => Nat.le_of_eq onLine.1⟩
  · rintro place block rule isBlock isRule templated ⟨line, isLine, starts⟩ none
    obtain rfl := Option.some.inj ((getElem?_rules_ofText isBlock).symm.trans isRule)
    exact exists_incomplete isBlock templated isLine starts none

/-- A template line, and two conditions that both lack an issuer. -/
def unissuedExample : List (List Char) :=
  ["@RuleTemplate = \"t\"".toList, "c:[Type == \"u\"]".toList, "c:[Type == \"v\", w]".toList]

theorem skipped_located_unissuedExample :
    (∃ rule, (ofText (String.ofList (['\n'].intercalate unissuedExample))).set.rules = [rule] ∧
        rule.isCustom = false ∧ rule.condition = none) ∧
      (∃ line ∈ lines (['\n'].intercalate unissuedExample), Mark.condition <+: trim line) ∧
      ∃ diagnostic ∈ (ofText (String.ofList (['\n'].intercalate unissuedExample))).skipped,
        diagnostic.block = 0 ∧ diagnostic.cause = .incompleteCondition ∧
          diagnostic.IsLocated (String.ofList (['\n'].intercalate unissuedExample)) := by
  have whole : Block.ofText (String.ofList (['\n'].intercalate unissuedExample)).toList =
      [['\n'].intercalate unissuedExample] := by
    rw [String.toList_ofList, Block.ofText_eq_ofLines]
    decide +kernel
  have rules : (ofText (String.ofList (['\n'].intercalate unissuedExample))).set.rules =
      [Block.rule (['\n'].intercalate unissuedExample)] := by
    rw [rules_ofText, whole, List.map_singleton]
  have templated : (Block.rule (['\n'].intercalate unissuedExample)).isCustom = false := by
    decide +kernel
  have none : (Block.rule (['\n'].intercalate unissuedExample)).condition = none := by
    decide +kernel
  have starts : ∃ line ∈ lines (['\n'].intercalate unissuedExample),
      Mark.condition <+: trim line := by
    decide +kernel
  obtain ⟨located, -, -, incomplete⟩ :=
    skipped_located (String.ofList (['\n'].intercalate unissuedExample))
  obtain ⟨diagnostic, mem, place, cause⟩ := incomplete 0 _ _ (by rw [whole]; rfl)
    (by rw [rules]; rfl) templated starts none
  exact ⟨⟨_, rules, templated, none⟩, starts, diagnostic, mem, place, cause,
    located diagnostic mem⟩

end Reading

end TrustRules
