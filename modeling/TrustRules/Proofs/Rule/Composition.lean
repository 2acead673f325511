import TrustRules.Proofs.Rule.Statement
import TrustRules.Proofs.Rule.Written
import TrustRules.Proofs.Text.Returns

/-!
# Composed rule sets

Main statement: two rule sets one behind the other are written as what each is
written as, with a line ending between the two, or fail as the first of them
that fails.  A set fails at its first rule of a wrong shape and nowhere else.
The line endings are the only difference between the two ways of writing a set
whose texts hold no carriage return.
-/

namespace TrustRules

open Text

/-! ## The texts of a rule set -/

namespace Rule

variable {rule : Rule} {c : Char}

/-- The texts that a rule holds. -/
def strings (rule : Rule) : List String :=
  [rule.name, rule.template.identifier] ++ rule.body.toList ++
    rule.condition.toList.flatMap Condition.strings ++
    rule.action.toList.flatMap Action.strings

theorem not_mem_nameText_of_strings (breaks : Header.isLineBreak c = true)
    (free : ∀ s ∈ rule.strings, c ∉ s.toList) : c ∉ rule.nameText :=
  not_mem_append_wrapped breaks rfl (free rule.name (by simp [strings]))

theorem not_mem_templateText_of_strings (breaks : Header.isLineBreak c = true)
    (free : ∀ s ∈ rule.strings, c ∉ s.toList) : c ∉ rule.templateText :=
  not_mem_append_wrapped breaks rfl (free rule.template.identifier (by simp [strings]))

theorem not_mem_bodyText_of_strings (free : ∀ s ∈ rule.strings, c ∉ s.toList) :
    c ∉ rule.bodyText := by
  cases isBody : rule.body with
  | none => simp [bodyText, isBody]
  | some body =>
      have inBody : c ∉ body.toList := free body (by simp [strings, isBody])
      rw [bodyText_of_some isBody]
      exact fun mem => inBody
        ((Header.drop_suffix _).subset ((List.rdropWhile_prefix _ _).subset mem))

theorem not_mem_statement_of_strings (breaks : Header.isLineBreak c = true)
    (free : ∀ s ∈ rule.strings, c ∉ s.toList) : c ∉ rule.statement := by
  have blank : c ∉ [' '] := not_mem_of_breaks breaks rfl
  refine List.not_mem_append ?_ ?_
  · cases isCondition : rule.condition with
    | none => exact List.not_mem_nil
    | some condition =>
        refine List.not_mem_append (Condition.not_mem_text_of_strings breaks fun s mem => ?_) blank
        exact free s (by simp [strings, isCondition, mem])
  · cases isAction : rule.action with
    | none => exact List.not_mem_nil
    | some action =>
        refine Action.not_mem_text_of_strings breaks fun s mem => ?_
        exact free s (by simp [strings, isAction, mem])

end Rule

/-- The texts that the rules of a set hold. -/
def RuleSet.strings (set : RuleSet) : List String :=
  set.rules.flatMap Rule.strings

/-! ## The two line endings -/

namespace LineEnding

theorem feedsOnly_line {s : List Char} (free : '\r' ∉ s) (t : List Char) :
    feedsOnly (crlf.line s ++ t) = lf.line s ++ feedsOnly t := by
  rw [line, List.append_assoc, feedsOnly_append free, line, List.append_assoc]
  rfl

theorem feedsOnly_lineUnlessEmpty {s : List Char} (free : '\r' ∉ s) (t : List Char) :
    feedsOnly (crlf.lineUnlessEmpty s ++ t) = lf.lineUnlessEmpty s ++ feedsOnly t := by
  cases s with
  | nil => rfl
  | cons c s => exact feedsOnly_line free t

end LineEnding

theorem Rule.feedsOnly_text {rule : Rule} (free : ∀ s ∈ rule.strings, '\r' ∉ s.toList)
    (t : List Char) :
    feedsOnly (rule.text .crlf ++ t) = rule.text .lf ++ feedsOnly t := by
  rw [text, List.append_assoc, LineEnding.feedsOnly_line (not_mem_nameText_of_strings rfl free),
    text, List.append_assoc]
  cases rule.isCustom with
  | true =>
      rw [if_pos rfl, LineEnding.feedsOnly_lineUnlessEmpty (not_mem_bodyText_of_strings free),
        if_pos rfl]
  | false =>
      rw [if_neg Bool.false_ne_true, List.append_assoc,
        LineEnding.feedsOnly_line (not_mem_templateText_of_strings rfl free),
        LineEnding.feedsOnly_lineUnlessEmpty (not_mem_statement_of_strings rfl free),
        if_neg Bool.false_ne_true, List.append_assoc]

namespace RuleSet

theorem feedsOnly_fullText {set : RuleSet} (free : ∀ s ∈ set.strings, '\r' ∉ s.toList) :
    feedsOnly (set.fullText .crlf) = set.fullText .lf := by
  obtain ⟨rules⟩ := set
  rw [fullText, fullText]
  dsimp only
  induction rules with
  | nil => rfl
  | cons rule rest ih =>
      have first : ∀ s ∈ rule.strings, '\r' ∉ s.toList := fun s mem =>
        free s (List.mem_flatMap.2 ⟨rule, List.mem_cons_self, mem⟩)
      have others : ∀ s ∈ RuleSet.strings ⟨rest⟩, '\r' ∉ s.toList := by
        intro s mem
        obtain ⟨other, isRule, inRule⟩ := List.mem_flatMap.1 mem
        exact free s (List.mem_flatMap.2 ⟨other, List.mem_cons_of_mem rule isRule, inRule⟩)
      cases rest with
      | nil =>
          have alone := Rule.feedsOnly_text first []
          rw [List.append_nil, show feedsOnly [] = [] from rfl, List.append_nil] at alone
          rw [List.map_singleton, List.intercalate_singleton, List.map_singleton,
            List.intercalate_singleton, alone]
      | cons next more =>
          rw [List.map_cons, List.map_cons, List.intercalate_cons_cons, List.append_assoc,
            Rule.feedsOnly_text first]
          have gap (t : List Char) : feedsOnly (LineEnding.crlf.text ++ t) =
              LineEnding.lf.text ++ feedsOnly t := rfl
          rw [gap, ← List.map_cons, ih others]
          simp

/-! ## Rule sets one behind the other -/

theorem fullText_append (ending : LineEnding) {first second : RuleSet}
    (some : first.rules ≠ []) (others : second.rules ≠ []) :
    (first ++ second).fullText ending =
      first.fullText ending ++ ending.text ++ second.fullText ending := by
  rw [fullText, rules_append, List.map_append]
  exact intercalate_append (fun none => some (List.map_eq_nil_iff.1 none))
    fun none => others (List.map_eq_nil_iff.1 none)

theorem value_write_append (ending : LineEnding) (first second : RuleSet) :
    ((first ++ second).write ending).value = do
      let text ← (first.write ending).value
      let other ← (second.write ending).value
      return if first.rules = [] then other
        else if second.rules = [] then text
        else text ++ String.ofList ending.text ++ other := by
  simp only [value_write, rules_append, List.findSome?_append]
  cases first.rules.findSome? Rule.failure? with
  | some failure => rfl
  | none =>
      cases second.rules.findSome? Rule.failure? with
      | some failure => rfl
      | none =>
          by_cases none : first.rules = []
          · have same : first ++ second = second := congrArg RuleSet.mk (by rw [none]; rfl)
            simp [none, same, bind, Except.bind, pure, Except.pure]
          · by_cases last : second.rules = []
            · have same : first ++ second = first :=
                congrArg RuleSet.mk (by rw [last, List.append_nil])
              simp [none, last, same, bind, Except.bind, pure, Except.pure]
            · simp [none, last, fullText_append ending none last, bind, Except.bind, pure,
                Except.pure, String.ofList_append, String.append_assoc]

/-! ## The first rule of a wrong shape -/

variable {ending : LineEnding} {set : RuleSet}

/-- A set fails as its first rule of a wrong shape does. -/
theorem value_write_eq_error_iff {failure : Failure} :
    (set.write ending).value = .error failure ↔
      ∃ before rule after, set.rules = before ++ rule :: after ∧
        (∀ earlier ∈ before, earlier.WellShaped) ∧ ¬rule.WellShaped ∧
        rule.check = .error failure := by
  have first : (set.write ending).value = .error failure ↔
      set.rules.findSome? Rule.failure? = some failure := by
    rw [value_write]
    cases set.rules.findSome? Rule.failure? <;> simp
  rw [first, List.findSome?_eq_some_iff]
  constructor
  · rintro ⟨before, rule, after, rules, fails, sound⟩
    refine ⟨before, rule, after, rules, fun earlier mem => ?_, ?_, Rule.check_eq_error_iff.2 fails⟩
    · exact (Rule.failure?_eq_none_iff earlier).1 (sound earlier mem)
    · rw [← Rule.failure?_eq_none_iff, fails]
      exact Option.some_ne_none failure
  · rintro ⟨before, rule, after, rules, sound, -, fails⟩
    refine ⟨before, rule, after, rules, Rule.check_eq_error_iff.1 fails, fun earlier mem => ?_⟩
    exact (Rule.failure?_eq_none_iff earlier).2 (sound earlier mem)

theorem exists_failure_iff :
    (∃ failure, (set.write ending).value = .error failure) ↔
      ∃ rule ∈ set.rules, ¬rule.WellShaped := by
  have written : (∃ failure, (set.write ending).value = .error failure) ↔
      ¬∃ text, (set.write ending).value = .ok text := by
    cases (set.write ending).value <;> simp
  have misshapen : (∃ rule ∈ set.rules, ¬rule.WellShaped) ↔
      ¬∀ rule ∈ set.rules, rule.WellShaped := by
    simp
  rw [written, misshapen, not_iff_not]
  constructor
  · rintro ⟨text, done⟩
    exact (value_write_eq_ok_iff.1 done).1
  · intro shaped
    exact ⟨_, value_write_eq_ok_iff.2 ⟨shaped, rfl⟩⟩

/-! ## Main statement -/

/--
Writing is all or nothing, and a set is written part by part.  Its failure is
that of its first rule of a wrong shape, and the line ending makes no further
difference.
-/
theorem write_composes :
    (∀ (ending : LineEnding) (first second : RuleSet),
      ((first ++ second).write ending).value = do
        let text ← (first.write ending).value
        let other ← (second.write ending).value
        return if first.rules = [] then other
          else if second.rules = [] then text
          else text ++ String.ofList ending.text ++ other) ∧
    (∀ (ending : LineEnding) (set : RuleSet),
      ((∃ failure, (set.write ending).value = .error failure) ↔
        ∃ rule ∈ set.rules, ¬rule.WellShaped) ∧
      ∀ failure, (set.write ending).value = .error failure ↔
        ∃ before rule after, set.rules = before ++ rule :: after ∧
          (∀ earlier ∈ before, earlier.WellShaped) ∧ ¬rule.WellShaped ∧
          rule.check = .error failure) ∧
    ∀ set : RuleSet, (∀ s ∈ set.strings, '\r' ∉ s.toList) →
      (set.write .crlf).value.map (fun text => String.ofList (feedsOnly text.toList)) =
        (set.write .lf).value := by
  refine ⟨value_write_append, fun ending set => ⟨exists_failure_iff, fun failure => ?_⟩, ?_⟩
  · exact value_write_eq_error_iff
  · intro set free
    rw [value_write, value_write]
    cases set.rules.findSome? Rule.failure? with
    | some failure => rfl
    | none =>
        dsimp only [Except.map]
        rw [String.toList_ofList, feedsOnly_fullText free]

/-- A rule with a condition alone and one with a body, neither of which holds a return. -/
def plainExample : RuleSet :=
  ⟨[{ name := "R", template := .passThroughClaims, condition := some ⟨"mail", "AD"⟩ },
    .custom "S" "=> issue();\n\n"]⟩

theorem write_composes_plainExample :
    (∀ s ∈ plainExample.strings, '\r' ∉ s.toList) ∧
      (plainExample.write .crlf).value.map (fun text => String.ofList (feedsOnly text.toList)) =
        (plainExample.write .lf).value ∧
      ((plainExample ++ ⟨[.templated " " .custom, .templated "T" .custom]⟩).write .lf).value =
        .error (.invalidRule "<unnamed>" "rule name is empty") := by
  have free : ∀ s ∈ plainExample.strings, '\r' ∉ s.toList := by decide
  refine ⟨free, write_composes.2.2 plainExample free, ?_⟩
  refine ((write_composes.2.1 .lf _).2 _).2 ⟨plainExample.rules, .templated " " .custom,
    [.templated "T" .custom], rfl, ?_, ?_, rfl⟩
  · simp only [← Rule.flaw?_eq_none_iff]
    decide
  · rw [← Rule.flaw?_eq_none_iff]
    decide

end RuleSet

end TrustRules
