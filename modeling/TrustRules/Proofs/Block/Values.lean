import TrustRules.Proofs.Block.Clauses
import TrustRules.Proofs.Rule.Values

/-!
# Values of read rules

Whatever a block holds, each name, identifier and value of its rule was cut out
of one line and unwrapped.  So it is within one line and starts and ends with
neither a blank nor a double quote.
-/

namespace TrustRules

open Text

namespace Text

theorem strip_subset (p : Char → Bool) (s : List Char) : strip p s ⊆ s :=
  (strip_isInfix p s).subset

/-- What is unwrapped from a text within one line is within one line. -/
theorem isBare_bare {s : List Char} (single : '\n' ∉ s) : Bare (bare s) :=
  ⟨fun mem => single (strip_subset isWrapping s mem), firm_strip isWrapping s⟩

theorem bare_toList_ofList {s : List Char} (single : '\n' ∉ s) :
    Bare (String.ofList (bare s)).toList := by
  rw [String.toList_ofList]
  exact isBare_bare single

/-- A value without double quotes that is within one line can stand in quotes. -/
theorem Bare.quotable {s : List Char} (isBare : Bare s) (unquoted : '"' ∉ s) : Quotable s :=
  ⟨unquoted, isBare.1, isBare.2.isBlank_of_isWrapping⟩

end Text

/-! ## Clauses stand within lines -/

namespace Clause

/-- The text that a clause was made from, without the mark of a name or a template. -/
def source : Clause → List Char
  | .name value => value
  | .template value => value
  | .condition text => text
  | .action text => text
  | .unrecognized text => text

/-- What follows a condition on its line is one clause, if anything. -/
theorem source_of_mem_ofTail {rest : List Char} {clause : Clause} (mem : clause ∈ ofTail rest) :
    clause.source = rest := by
  unfold ofTail at mem
  split at mem
  · cases mem
  · split at mem
    · rw [List.mem_singleton.1 mem]
      rfl
    · rw [List.mem_singleton.1 mem]
      rfl

/-- A line is one clause, or a condition up to its bracket and what follows it. -/
theorem ofTrimmed_cases (line : List Char) :
    (∃ clause, ofTrimmed line = [clause]) ∨
      ∃ front rest, throughUnquoted ']' false line = some (front, rest) ∧
        ofTrimmed line = .condition front :: ofTail (trim rest) := by
  unfold ofTrimmed
  split
  · exact .inl ⟨_, rfl⟩
  · split
    · exact .inl ⟨_, rfl⟩
    · split
      · unfold ofConditionLine
        split
        · next front rest found => exact .inr ⟨front, rest, found, rfl⟩
        · exact .inl ⟨_, rfl⟩
      · split
        · exact .inl ⟨_, rfl⟩
        · exact .inl ⟨_, rfl⟩

theorem source_isInfix_of_mem_ofConditionLine {line : List Char} {clause : Clause}
    (mem : clause ∈ ofConditionLine line) : clause.source <:+: line := by
  unfold ofConditionLine at mem
  split at mem
  · next front rest found =>
      rw [← append_of_throughUnquoted found]
      rcases List.mem_cons.1 mem with rfl | behind
      · exact (List.prefix_append front rest).isInfix
      · have inRest : clause.source <:+: rest :=
          source_of_mem_ofTail behind ▸ strip_isInfix isBlank rest
        exact inRest.trans (List.suffix_append front rest).isInfix
  · rw [List.mem_singleton.1 mem]
    exact List.infix_refl line

theorem source_isInfix_of_mem_ofTrimmed {line : List Char} {clause : Clause}
    (mem : clause ∈ ofTrimmed line) : clause.source <:+: line := by
  unfold ofTrimmed at mem
  split at mem
  · next value named =>
      rw [List.mem_singleton.1 mem]
      exact (isSuffix_of_isPrefixOf? named).isInfix
  · split at mem
    · next value templated =>
        rw [List.mem_singleton.1 mem]
        exact (isSuffix_of_isPrefixOf? templated).isInfix
    · split at mem
      · exact source_isInfix_of_mem_ofConditionLine mem
      · split at mem
        · rw [List.mem_singleton.1 mem]
          exact List.infix_refl line
        · rw [List.mem_singleton.1 mem]
          exact List.infix_refl line

/-- What a clause was made from stands on its line. -/
theorem source_isInfix_of_mem_ofLine {line : List Char} {clause : Clause}
    (mem : clause ∈ ofLine line) : clause.source <:+: line := by
  unfold ofLine at mem
  split at mem
  · cases mem
  · exact (source_isInfix_of_mem_ofTrimmed mem).trans (strip_isInfix isBlank line)

/-- A clause of a text stands within one of its lines. -/
theorem not_mem_source {s : List Char} {clause : Clause} (mem : clause ∈ ofText s) :
    '\n' ∉ clause.source := by
  obtain ⟨line, isLine, inLine⟩ := List.mem_flatMap.1 mem
  exact fun feed =>
    not_mem_of_mem_lines isLine ((source_isInfix_of_mem_ofLine inLine).subset feed)

/-- What the clauses of one kind in a text hold stands within one line. -/
theorem not_mem_of_getLast? {s value : List Char} {kind? : Clause → Option (List Char)}
    (isSource : ∀ clause text, kind? clause = some text → clause.source = text)
    (last : ((ofText s).filterMap kind?).getLast? = some value) : '\n' ∉ value := by
  obtain ⟨clause, mem, held⟩ := List.mem_filterMap.1 (List.mem_of_getLast? last)
  rw [← isSource clause value held]
  exact not_mem_source mem

end Clause

/-! ## Arguments stand within their lists -/

namespace Argument

/-- The value of an argument was cut out of its list. -/
theorem subset_of_lastValue? {sign content key value : List Char}
    (found : lastValue? key (ofList sign content) = some value) : value ⊆ content := by
  obtain ⟨argument, mem, isValue⟩ := List.mem_filterMap.1 (List.mem_of_getLast? found)
  obtain ⟨piece, isPiece, rfl⟩ := List.mem_map.1 mem
  unfold ofPiece at isValue
  split at isValue
  · next front back broken =>
      rw [value?] at isValue
      split at isValue
      · cases isValue
        exact List.Subset.trans (subset_of_breakOn broken).2
          (Nesting.isInfix_of_mem_topLevel isPiece).subset
      · cases isValue
  · cases isValue

/-- The same for the arguments between two marks. -/
theorem subset_of_lastValue?_between {opening closing sign text key value : List Char}
    (found : lastValue? key (ofList sign (dropClosing closing (dropOpening opening text))) =
      some value) : value ⊆ text :=
  List.Subset.trans (subset_of_lastValue? found)
    (dropClosing_dropOpening_isInfix opening closing text).subset

end Argument

namespace Condition

/-- Both values of a condition that was read within one line are bare. -/
theorem bare_of_ofText? {text : List Char} {condition : Condition} (single : '\n' ∉ text)
    (read : ofText? text = some condition) :
    Bare condition.claimType.toList ∧ Bare condition.issuer.toList := by
  unfold ofText? ofArguments? at read
  split at read
  · next claimType issuer first second =>
      cases read
      constructor
      · exact bare_toList_ofList fun feed =>
          single (Argument.subset_of_lastValue?_between first feed)
      · exact bare_toList_ofList fun feed =>
          single (Argument.subset_of_lastValue?_between second feed)
  · cases read

end Condition

namespace Action

theorem bare_of_mem_typesOf {value : List Char} (single : '\n' ∉ value) {type : String}
    (mem : type ∈ typesOf value) : Bare type.toList := by
  unfold typesOf at mem
  dsimp only at mem
  split at mem
  · cases mem
  · obtain ⟨piece, isPiece, rfl⟩ := List.mem_map.1 mem
    refine bare_toList_ofList fun feed => single ?_
    have inContent := (Nesting.isInfix_of_mem_topLevel isPiece).subset feed
    exact strip_subset isBlank value
      ((dropClosing_dropOpening_isInfix Mark.typesStart Mark.typesEnd _).subset inContent)

/-- An action all of whose values are within one line and without quotes at their ends. -/
structure AllBare (action : Action) : Prop extends action.Quoted Bare where
  param : ∀ value ∈ action.param, Bare value.toList

theorem allBare_ofText {text : List Char} (single : '\n' ∉ text) : (ofText text).AllBare := by
  have one {key : List Char} :
      ∀ value ∈ (Argument.lastValue? key (argumentsOf text)).map (String.ofList ∘ bare),
        Bare value.toList := by
    intro value mem
    obtain ⟨found, isFound, rfl⟩ := Option.map_eq_some_iff.1 mem
    exact bare_toList_ofList fun feed =>
      single (Argument.subset_of_lastValue?_between isFound feed)
  refine ⟨⟨one, ?_, one⟩, one⟩
  intro list mem type inList
  obtain ⟨found, isFound, rfl⟩ := Option.map_eq_some_iff.1 mem
  exact bare_of_mem_typesOf
    (fun feed => single (Argument.subset_of_lastValue?_between isFound feed)) inList

end Action

/-! ## The parts of a read rule -/

namespace Block

theorem bare_of_statedName? {s : List Char} {name : String} (stated : statedName? s = some name) :
    Bare name.toList := by
  rw [statedName?_eq] at stated
  obtain ⟨value, last, rfl⟩ := Option.map_eq_some_iff.1 stated
  refine bare_toList_ofList (Clause.not_mem_of_getLast? ?_ last)
  intro clause text held
  cases clause <;> cases held
  rfl

theorem bare_of_statedTemplate? {s : List Char} {template : Template}
    (stated : statedTemplate? s = some template) :
    template.Canonical ∧ Bare template.identifier.toList := by
  rw [statedTemplate?_eq] at stated
  obtain ⟨value, last, rfl⟩ := Option.map_eq_some_iff.1 stated
  refine ⟨Template.canonical_ofIdentifier _, ?_⟩
  rw [Function.comp_apply, Template.identifier_ofIdentifier]
  refine bare_toList_ofList (Clause.not_mem_of_getLast? ?_ last)
  intro clause text held
  cases clause <;> cases held
  rfl

theorem bare_of_mem_condition {block : List Char} {condition : Condition}
    (mem : condition ∈ (draft block).condition) :
    Bare condition.claimType.toList ∧ Bare condition.issuer.toList := by
  rw [draft_eq, Draft.condition_ofClauses] at mem
  obtain ⟨text, last, read⟩ := Option.bind_eq_some_iff.1 mem
  refine Condition.bare_of_ofText? (Clause.not_mem_of_getLast? ?_ last) read
  intro clause text held
  cases clause <;> cases held
  rfl

theorem allBare_of_mem_action {block : List Char} {action : Action}
    (mem : action ∈ (draft block).action) : action.AllBare := by
  rw [draft_eq, Draft.action_ofClauses] at mem
  obtain ⟨text, last, rfl⟩ := Option.map_eq_some_iff.1 mem
  refine Action.allBare_ofText (Clause.not_mem_of_getLast? ?_ last)
  intro clause text held
  cases clause <;> cases held
  rfl

end Block

end TrustRules
