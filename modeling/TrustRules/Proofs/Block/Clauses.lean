import Mathlib.Data.List.Induction
import TrustRules.Block.Draft
import TrustRules.LineEnding
import TrustRules.Proofs.Block.Runs

/-!
# Clauses of a text

The rule of a block depends on its clauses alone, and of the clauses of one
kind on the last one.  Name and template clauses are whole lines, so the last
name and the last template of a text can be read off its lines.
-/

namespace TrustRules

open Text

namespace Clause

/-! ## The clauses of one kind -/

/-- What a name clause states. -/
def name? : Clause → Option (List Char)
  | .name value => some value
  | _ => none

/-- What a template clause states. -/
def template? : Clause → Option (List Char)
  | .template value => some value
  | _ => none

/-- The text of a condition clause. -/
def condition? : Clause → Option (List Char)
  | .condition text => some text
  | _ => none

/-- The text of an action clause. -/
def action? : Clause → Option (List Char)
  | .action text => some text
  | _ => none

/-- The clauses of the lines of a text. -/
def ofText (s : List Char) : List Clause :=
  (lines s).flatMap ofLine

theorem ofText_append (s t : List Char) : ofText (s ++ '\n' :: t) = ofText s ++ ofText t := by
  rw [ofText, lines_append, List.flatMap_append, ofText, ofText]

theorem ofText_of_not_mem {s : List Char} (single : '\n' ∉ s) : ofText s = ofLine s := by
  rw [ofText, lines_of_not_mem single, List.flatMap_singleton]

theorem ofLine_of_firm {line : List Char} (firm : Firm isBlank line)
    (visible : allBlank line = false) : ofLine line = ofTrimmed line := by
  have core : trim line = line := strip_eq_self firm
  rw [ofLine, visible, if_neg Bool.false_ne_true, core]

/-- The clauses of a line depend on its core alone. -/
theorem ofLine_congr {line other : List Char} (core : trim line = trim other) :
    ofLine line = ofLine other := by
  have same : allBlank line = allBlank other := by
    rw [← allBlank_trim, core, allBlank_trim]
  rw [ofLine, ofLine, core, same]

theorem ofLine_of_trim {line core : List Char} (trimmed : trim line = core) (some : core ≠ []) :
    ofLine line = ofTrimmed core := by
  have visible : allBlank line = false := by
    cases blank : allBlank line with
    | false => rfl
    | true => exact absurd (trimmed.symm.trans (trim_eq_nil_iff.2 blank)) some
  rw [ofLine, visible, if_neg Bool.false_ne_true, trimmed]

theorem ofLine_of_condition {line : List Char} (starts : Mark.condition <+: trim line) :
    ofLine line = ofConditionLine (trim line) := by
  obtain ⟨content, whole⟩ := starts
  rw [ofLine_of_trim whole.symm (List.cons_ne_nil _ _), ← whole]
  rfl

theorem ofLine_of_action {line : List Char} (starts : Mark.action <+: trim line) :
    ofLine line = [.action (trim line)] := by
  obtain ⟨content, whole⟩ := starts
  rw [ofLine_of_trim whole.symm (List.cons_ne_nil _ _), ← whole]
  rfl

theorem ofTail_of_action {rest : List Char} (starts : Mark.action <+: rest) :
    ofTail rest = [.action rest] := by
  obtain ⟨content, rfl⟩ := starts
  rfl

/-- Blanks at the end of a line do not change its clauses. -/
theorem ofLine_append_of_blank {back : List Char} (blank : ∀ c ∈ back, isBlank c = true)
    (line : List Char) : ofLine (line ++ back) = ofLine line :=
  ofLine_congr (strip_append line blank)

theorem ofLine_trim (line : List Char) : ofLine (trim line) = ofLine line :=
  ofLine_congr (strip_eq_self (firm_strip isBlank line))

/-- Blanks behind a text change none of its clauses, also where they break lines. -/
theorem ofText_append_of_blank {back : List Char} (blank : ∀ c ∈ back, isBlank c = true)
    (s : List Char) : ofText (s ++ back) = ofText s :=
  flatMap_lines_append_of_blank ofLine_trim rfl blank s

/-- Nor do blanks in front of a text, also where they break lines. -/
theorem ofText_blank_append {front : List Char} (blank : ∀ c ∈ front, isBlank c = true)
    (s : List Char) : ofText (front ++ s) = ofText s :=
  flatMap_lines_blank_append ofLine_trim rfl blank s

/-- Trimming a text changes none of its clauses. -/
theorem ofText_trim (s : List Char) : ofText (trim s) = ofText s := by
  obtain ⟨front, back, whole, before, after, _⟩ := exists_append_strip_append isBlank s
  have same := ofText_append_of_blank after (front ++ strip isBlank s)
  rw [← whole, ofText_blank_append before] at same
  exact same.symm

/-- The clauses of a text are those of its lines, also when these come first. -/
theorem ofText_intercalate {ls : List (List Char)} (single : ∀ l ∈ ls, '\n' ∉ l) :
    ofText (['\n'].intercalate ls) = ls.flatMap ofLine := by
  by_cases empty : ls = []
  · rw [empty]
    rfl
  · rw [ofText, lines_intercalate single empty]

/-! ## Name and template lines -/

/-- The values of the lines of a text that start with a mark. -/
def marked (mark : List Char) (s : List Char) : List (List Char) :=
  (lines s).filterMap fun line => mark.isPrefixOf? (trim line)

/-- The value of the last name line of a text. -/
def lastName? (s : List Char) : Option (List Char) :=
  (marked Mark.name s).getLast?

/-- The value of the last template line of a text. -/
def lastTemplate? (s : List Char) : Option (List Char) :=
  (marked Mark.template s).getLast?

/-- Of two texts below one another, the lower one decides which marked line is the last. -/
theorem getLast?_marked_append (mark s t : List Char) :
    (marked mark (s ++ '\n' :: t)).getLast? =
      (marked mark t).getLast?.or (marked mark s).getLast? := by
  rw [marked, lines_append, List.filterMap_append, List.getLast?_append, marked, marked]

section Unmarked

variable {view : Clause → Option (List Char)}
  (condition : ∀ text, view (.condition text) = none) (action : ∀ text, view (.action text) = none)
  (unrecognized : ∀ text, view (.unrecognized text) = none)

include action unrecognized in
theorem filterMap_ofTail (rest : List Char) : (ofTail rest).filterMap view = [] := by
  unfold ofTail
  split
  · rfl
  · split
    · rw [List.filterMap_cons_none (action rest), List.filterMap_nil]
    · rw [List.filterMap_cons_none (unrecognized rest), List.filterMap_nil]

include condition action unrecognized

theorem filterMap_ofConditionLine (line : List Char) :
    (ofConditionLine line).filterMap view = [] := by
  unfold ofConditionLine
  split
  · next front rest _ =>
      rw [List.filterMap_cons_none (condition front), filterMap_ofTail action unrecognized]
  · rw [List.filterMap_cons_none (condition line), List.filterMap_nil]

/-- A line without the marks of names and templates states neither. -/
theorem filterMap_ofTrimmed_of_unmarked {line : List Char}
    (noName : Mark.name.isPrefixOf? line = none)
    (noTemplate : Mark.template.isPrefixOf? line = none) :
    (ofTrimmed line).filterMap view = [] := by
  rw [ofTrimmed, noName, noTemplate]
  dsimp only
  split
  · exact filterMap_ofConditionLine condition action unrecognized line
  · split
    · rw [List.filterMap_cons_none (action line), List.filterMap_nil]
    · rw [List.filterMap_cons_none (unrecognized line), List.filterMap_nil]

end Unmarked

/-- A line states a name exactly when it starts with the mark of names. -/
theorem name?_ofLine (line : List Char) :
    (ofLine line).filterMap name? = (Mark.name.isPrefixOf? (trim line)).toList := by
  unfold ofLine
  cases blank : allBlank line with
  | true => rw [trim_eq_nil_iff.2 blank]; rfl
  | false =>
      rw [if_neg Bool.false_ne_true]
      cases named : Mark.name.isPrefixOf? (trim line) with
      | some value => rw [ofTrimmed, named]; rfl
      | none =>
          cases templated : Mark.template.isPrefixOf? (trim line) with
          | some value => rw [ofTrimmed, named, templated]; rfl
          | none =>
              exact filterMap_ofTrimmed_of_unmarked (fun _ => rfl) (fun _ => rfl) (fun _ => rfl)
                named templated

/-- A line states a template exactly when it starts with the mark of templates. -/
theorem template?_ofLine (line : List Char) :
    (ofLine line).filterMap template? = (Mark.template.isPrefixOf? (trim line)).toList := by
  unfold ofLine
  cases blank : allBlank line with
  | true => rw [trim_eq_nil_iff.2 blank]; rfl
  | false =>
      rw [if_neg Bool.false_ne_true]
      cases named : Mark.name.isPrefixOf? (trim line) with
      | some value =>
          -- the two marks differ in their sixth character
          have shape := List.append_eq_of_isPrefixOf?_eq_some named
          rw [ofTrimmed, named, ← shape]
          rfl
      | none =>
          cases templated : Mark.template.isPrefixOf? (trim line) with
          | some value => rw [ofTrimmed, named, templated]; rfl
          | none =>
              exact filterMap_ofTrimmed_of_unmarked (fun _ => rfl) (fun _ => rfl) (fun _ => rfl)
                named templated

theorem filterMap_name?_ofText (s : List Char) :
    (ofText s).filterMap name? = marked Mark.name s := by
  rw [ofText, marked, List.filterMap_flatMap, List.filterMap_eq_flatMap_toList]
  exact List.flatMap_congr fun line _ => name?_ofLine line

theorem filterMap_template?_ofText (s : List Char) :
    (ofText s).filterMap template? = marked Mark.template s := by
  rw [ofText, marked, List.filterMap_flatMap, List.filterMap_eq_flatMap_toList]
  exact List.flatMap_congr fun line _ => template?_ofLine line

end Clause

namespace Draft

/-! ## The last clause of a kind stands -/

theorem ofClauses_append_singleton (clauses : List Clause) (clause : Clause) :
    ofClauses (clauses ++ [clause]) = (ofClauses clauses).add clause := by
  simp [ofClauses]

/-- A field that some clauses set and all others keep has the value set last. -/
theorem field_ofClauses {Value : Type} (field : Draft → Value) (set? : Clause → Option Value)
    (step : ∀ draft clause, field (add draft clause) = (set? clause).getD (field draft))
    (clauses : List Clause) :
    field (ofClauses clauses) = (clauses.filterMap set?).getLast?.getD (field {}) := by
  induction clauses using List.reverseRecOn with
  | nil => rfl
  | append_singleton clauses clause ih =>
      rw [ofClauses_append_singleton, step, List.filterMap_append, List.getLast?_append]
      cases stated : set? clause with
      | some value => simp [stated]
      | none => simp [stated, ih]

theorem name_ofClauses (clauses : List Clause) :
    (ofClauses clauses).name =
      (clauses.filterMap Clause.name?).getLast?.map (String.ofList ∘ bare) := by
  have last := field_ofClauses Draft.name
    (fun clause => clause.name?.map fun value => some (String.ofList (bare value)))
    (fun draft clause => by cases clause <;> rfl) clauses
  rw [last, ← List.map_filterMap, List.getLast?_map]
  cases (clauses.filterMap Clause.name?).getLast? <;> rfl

theorem template_ofClauses (clauses : List Clause) :
    (ofClauses clauses).template =
      (clauses.filterMap Clause.template?).getLast?.map
        (Template.ofIdentifier ∘ String.ofList ∘ bare) := by
  have last := field_ofClauses Draft.template
    (fun clause => clause.template?.map fun value =>
      some (Template.ofIdentifier (String.ofList (bare value))))
    (fun draft clause => by cases clause <;> rfl) clauses
  rw [last, ← List.map_filterMap, List.getLast?_map]
  cases (clauses.filterMap Clause.template?).getLast? <;> rfl

theorem condition_ofClauses (clauses : List Clause) :
    (ofClauses clauses).condition =
      (clauses.filterMap Clause.condition?).getLast?.bind Condition.ofText? := by
  have last := field_ofClauses Draft.condition
    (fun clause => clause.condition?.map Condition.ofText?)
    (fun draft clause => by cases clause <;> rfl) clauses
  rw [last, ← List.map_filterMap, List.getLast?_map]
  cases (clauses.filterMap Clause.condition?).getLast? <;> rfl

theorem action_ofClauses (clauses : List Clause) :
    (ofClauses clauses).action =
      (clauses.filterMap Clause.action?).getLast?.map Action.ofText := by
  have last := field_ofClauses Draft.action
    (fun clause => clause.action?.map fun text => some (Action.ofText text))
    (fun draft clause => by cases clause <;> rfl) clauses
  rw [last, ← List.map_filterMap, List.getLast?_map]
  cases (clauses.filterMap Clause.action?).getLast? <;> rfl

end Draft

namespace Block

theorem map_snd_clauses (block : List Char) :
    (clauses block).map Prod.snd = Clause.ofText block := by
  have numbered : ∀ (ls : List (List Char)) (first : Nat),
      ((ls.zipIdx first).flatMap fun line =>
        (Clause.ofLine line.1).map fun clause => (line.2, clause)).map Prod.snd =
      ls.flatMap Clause.ofLine := by
    intro ls
    induction ls with
    | nil => intro first; rfl
    | cons line rest ih =>
        intro first
        rw [List.zipIdx_cons, List.flatMap_cons, List.map_append, ih, List.flatMap_cons,
          List.map_map]
        exact congrArg (· ++ _) (List.map_id _)
  exact numbered (lines block) 1

theorem draft_eq (block : List Char) : draft block = .ofClauses (Clause.ofText block) := by
  rw [draft, map_snd_clauses]

/-! ## Name and kind of a block's rule -/

/-- The name that the last name line of a text states. -/
def statedName? (s : List Char) : Option String :=
  (Clause.lastName? s).map (String.ofList ∘ bare)

/-- The template that the last template line of a text states. -/
def statedTemplate? (s : List Char) : Option Template :=
  (Clause.lastTemplate? s).map (Template.ofIdentifier ∘ String.ofList ∘ bare)

theorem statedName?_append (s t : List Char) :
    statedName? (s ++ '\n' :: t) = (statedName? t).or (statedName? s) := by
  rw [statedName?, Clause.lastName?, Clause.getLast?_marked_append, Option.map_or]
  rfl

theorem statedTemplate?_append (s t : List Char) :
    statedTemplate? (s ++ '\n' :: t) = (statedTemplate? t).or (statedTemplate? s) := by
  rw [statedTemplate?, Clause.lastTemplate?, Clause.getLast?_marked_append, Option.map_or]
  rfl

theorem statedName?_eq (s : List Char) :
    statedName? s =
      ((Clause.ofText s).filterMap Clause.name?).getLast?.map (String.ofList ∘ bare) := by
  rw [statedName?, Clause.lastName?, Clause.filterMap_name?_ofText]

theorem statedTemplate?_eq (s : List Char) :
    statedTemplate? s =
      ((Clause.ofText s).filterMap Clause.template?).getLast?.map
        (Template.ofIdentifier ∘ String.ofList ∘ bare) := by
  rw [statedTemplate?, Clause.lastTemplate?, Clause.filterMap_template?_ofText]

theorem name_draft (block : List Char) : (draft block).name = statedName? block := by
  rw [draft_eq, Draft.name_ofClauses, statedName?_eq]

theorem template_draft (block : List Char) : (draft block).template = statedTemplate? block := by
  rw [draft_eq, Draft.template_ofClauses, statedTemplate?_eq]

/-- A custom rule is what a block without a template of its own is read as. -/
theorem rule_eq_custom {block : List Char}
    (custom : (statedTemplate? block).all Template.isCustom = true) :
    rule block = .custom ((statedName? block).getD "") (String.ofList block) := by
  have none : (draft block).template? = none := by
    rw [Draft.template?, template_draft]
    cases stated : statedTemplate? block with
    | none => rfl
    | some template =>
        rw [stated] at custom
        simpa [Option.filter] using custom
  rw [rule, Draft.rule, none, name_draft]

/-- A templated rule is what a block with a template of its own is read as. -/
theorem rule_eq_templated {block : List Char} {template : Template}
    (stated : statedTemplate? block = some template) (templated : template.isCustom = false) :
    rule block =
      { name := (statedName? block).getD ""
        template
        condition := (draft block).condition
        action := (draft block).action } := by
  have found : (draft block).template? = some template := by
    rw [Draft.template?, template_draft, stated]
    simp [Option.filter, templated]
  rw [rule, Draft.rule, found, name_draft]

theorem name_rule (block : List Char) : (rule block).name = (statedName? block).getD "" := by
  rw [rule, Draft.rule, name_draft]
  split <;> rfl

theorem isCustom_rule (block : List Char) :
    (rule block).isCustom = (statedTemplate? block).all Template.isCustom := by
  cases kind : (statedTemplate? block).all Template.isCustom with
  | true => rw [rule_eq_custom kind]; rfl
  | false =>
      cases stated : statedTemplate? block with
      | none => rw [stated] at kind; cases kind
      | some template =>
          rw [stated] at kind
          rw [rule_eq_templated stated kind]
          exact kind

/-- A text with a template is not blank. -/
theorem not_blank_of_templated {s : List Char} (templated : (rule s).isCustom = false) :
    allBlank s = false := by
  cases blank : allBlank s with
  | false => rfl
  | true =>
      have nothing : Clause.ofText s = [] := by
        rw [← Clause.ofText_trim, trim_eq_nil_iff.2 blank]
        rfl
      rw [isCustom_rule, statedTemplate?_eq, nothing] at templated
      cases templated

/-- A block whose clauses are all of use has no diagnostics. -/
theorem diagnostics_eq_nil {block : List Char}
    (used : ∀ clause ∈ Clause.ofText block, clause.unused = []) (place : Nat) :
    diagnostics place block = [] := by
  unfold diagnostics
  split
  · rw [List.flatMap_eq_nil_iff]
    intro clause mem
    have isClause : clause.2 ∈ Clause.ofText block := by
      rw [← map_snd_clauses]
      exact List.mem_map_of_mem mem
    rw [used clause.2 isClause, List.map_nil]
  · rfl

/-- Nothing of a custom rule's block is reported. -/
theorem diagnostics_eq_nil_of_custom {block : List Char}
    (custom : (rule block).isCustom = true) (place : Nat) : diagnostics place block = [] := by
  have none : (draft block).template?.isSome = false := by
    rw [isCustom_rule] at custom
    rw [Draft.template?, template_draft]
    cases stated : statedTemplate? block with
    | none => rfl
    | some template =>
        rw [stated] at custom
        simpa [Option.filter] using custom
  rw [diagnostics, none]
  rfl

end Block

end TrustRules
