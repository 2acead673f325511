import TrustRules.Proofs.Block.Runs
import TrustRules.Rule.Printer

/-!
# Written rule sets

A rule set is written as the texts of its rules with a line ending between
them, or not at all.  The blocks of a written rule set are the blocks of its
rules one after the other, so no block ever spans two rules.
-/

namespace TrustRules

open Text

/-! ## Lines below one another -/

namespace LineEnding

/-- What the line ending holds in front of its line feed. -/
def back : LineEnding → List Char
  | .lf => []
  | .crlf => ['\r']

theorem text_eq (ending : LineEnding) : ending.text = ending.back ++ ['\n'] := by
  cases ending <;> rfl

theorem isReturn_back (ending : LineEnding) : Block.IsReturn ending.back := by
  cases ending
  · exact .inl rfl
  · exact .inr rfl

theorem isBlankLine_back (ending : LineEnding) : Block.isBlankLine ending.back = true := by
  cases ending <;> rfl

theorem isBlank_of_mem_back (ending : LineEnding) : ∀ c ∈ ending.back, isBlank c = true :=
  Block.isBlank_of_isBlankLine ending.isBlankLine_back

theorem isBlank_of_mem_text (ending : LineEnding) : ∀ c ∈ ending.text, isBlank c = true := by
  cases ending <;> decide

/-- A text below a line; the line alone if the text is empty. -/
def under (ending : LineEnding) (first s : List Char) : List Char :=
  if s.isEmpty then first else first ++ ending.text ++ s

theorem under_nil (ending : LineEnding) (first : List Char) : ending.under first [] = first := rfl

theorem under_of_ne_nil (ending : LineEnding) (first : List Char) {s : List Char}
    (some : s ≠ []) : ending.under first s = first ++ ending.back ++ '\n' :: s := by
  rw [under, if_neg (by simp [some]), text_eq]
  simp

/-- A line and the lines behind it are one text with a line ending behind it. -/
theorem line_append_lineUnlessEmpty (ending : LineEnding) (first s : List Char) :
    ending.line first ++ ending.lineUnlessEmpty s = ending.under first s ++ ending.text := by
  cases s with
  | nil => rw [lineUnlessEmpty, under_nil, line]; exact List.append_nil _
  | cons c s => simp [lineUnlessEmpty, under, line]

end LineEnding

namespace Rule

/-- What stands below the name line of a written rule. -/
def below (ending : LineEnding) (rule : Rule) : List Char :=
  if rule.isCustom then rule.bodyText else ending.under rule.templateText rule.statement

/-- The text of a rule without the line ending behind it. -/
def content (ending : LineEnding) (rule : Rule) : List Char :=
  ending.under rule.nameText (rule.below ending)

theorem bodyText_of_some {rule : Rule} {body : String} (isBody : rule.body = some body) :
    rule.bodyText = (Header.drop body.toList).rdropWhile Header.isLineBreak := by
  rw [bodyText, isBody]
  rfl

theorem below_of_custom {rule : Rule} (custom : rule.isCustom = true) (ending : LineEnding) :
    rule.below ending = rule.bodyText := by
  rw [below, if_pos custom]

theorem below_of_templated {rule : Rule} (templated : rule.isCustom = false)
    (ending : LineEnding) :
    rule.below ending = ending.under rule.templateText rule.statement := by
  rw [below, if_neg (by simp [templated])]

theorem text_eq (ending : LineEnding) (rule : Rule) :
    rule.text ending = rule.content ending ++ ending.text := by
  rw [content, ← LineEnding.line_append_lineUnlessEmpty, text]
  cases kind : rule.isCustom with
  | true => rw [below_of_custom kind, if_pos rfl]
  | false =>
      have some : ending.under rule.templateText rule.statement ≠ [] := by
        unfold LineEnding.under
        split <;> exact List.cons_ne_nil _ _
      rw [below_of_templated kind, if_neg Bool.false_ne_true,
        LineEnding.line_append_lineUnlessEmpty, LineEnding.lineUnlessEmpty,
        if_neg (by simp [some])]
      rfl

/-! ## Failing at the first flaw -/

/-- The failure of a rule that cannot be written. -/
def failure? (rule : Rule) : Option Failure :=
  rule.flaw?.map fun flaw => .invalidRule rule.label flaw.reason

theorem check_eq (rule : Rule) :
    rule.check = match rule.failure? with
      | some failure => .error failure
      | none => .ok () := by
  rw [check, failure?]
  cases rule.flaw? <;> rfl

theorem check_eq_error_iff {rule : Rule} {failure : Failure} :
    rule.check = .error failure ↔ rule.failure? = some failure := by
  rw [check_eq]
  cases rule.failure? <;> simp

theorem failure?_eq_none_iff (rule : Rule) : rule.failure? = none ↔ rule.WellShaped := by
  rw [failure?, Option.map_eq_none_iff, flaw?_eq_none_iff]

theorem check_eq_ok_iff_failure? (rule : Rule) : rule.check = .ok () ↔ rule.failure? = none := by
  rw [check_eq_ok_iff, failure?_eq_none_iff]

end Rule

namespace RuleSet

/-- The rules of a set one below the other, whether or not they can be written. -/
def fullText (ending : LineEnding) (set : RuleSet) : List Char :=
  ending.text.intercalate (set.rules.map (Rule.text ending))

theorem value_writeRules (ending : LineEnding) (rules : List Rule) :
    (writeRules ending rules).value =
      match rules.findSome? Rule.failure? with
      | some failure => .error failure
      | none => .ok (ending.text.intercalate (rules.map (Rule.text ending))) := by
  induction rules with
  | nil => rfl
  | cons rule rest ih =>
      rw [writeRules, Rule.check_eq]
      cases flawed : rule.failure? with
      | some failure => simp [flawed]
      | none =>
          simp only [List.findSome?_cons, flawed, ih]
          cases rest.findSome? Rule.failure? with
          | some failure => rfl
          | none =>
              cases rest with
              | nil => simp [Except.map]
              | cons next others =>
                  have joined : rule.text ending ++ ending.text ++
                      ending.text.intercalate ((next :: others).map (Rule.text ending)) =
                      ending.text.intercalate ((rule :: next :: others).map (Rule.text ending)) :=
                    (List.intercalate_cons_cons).symm
                  exact congrArg Except.ok joined

/-- A rule set is written whole, or the first rule with a flaw is reported. -/
theorem value_write (ending : LineEnding) (set : RuleSet) :
    (set.write ending).value =
      match set.rules.findSome? Rule.failure? with
      | some failure => .error failure
      | none => .ok (String.ofList (set.fullText ending)) := by
  rw [write, value_writeRules]
  cases set.rules.findSome? Rule.failure? <;> rfl

/-- Writing succeeds exactly for rules of the right shape. -/
theorem value_write_eq_ok_iff {ending : LineEnding} {set : RuleSet} {text : String} :
    (set.write ending).value = .ok text ↔
      (∀ rule ∈ set.rules, rule.WellShaped) ∧ text = String.ofList (set.fullText ending) := by
  have shaped : (∀ rule ∈ set.rules, rule.WellShaped) ↔
      set.rules.findSome? Rule.failure? = none := by
    rw [List.findSome?_eq_none_iff]
    exact forall₂_congr fun rule _ => (Rule.failure?_eq_none_iff rule).symm
  rw [value_write, shaped]
  cases set.rules.findSome? Rule.failure? with
  | some failure => simp
  | none => simp [eq_comm]

/-- The blocks of a written rule set are those of its rules. -/
theorem ofText_fullText (ending : LineEnding) (set : RuleSet) :
    Block.ofText (set.fullText ending) =
      set.rules.flatMap fun rule => Block.ofText (rule.content ending) := by
  obtain ⟨rules⟩ := set
  rw [fullText]
  dsimp only
  have last : ∀ rule : Rule, Block.ofText (rule.text ending) =
      Block.ofText (rule.content ending) := by
    intro rule
    rw [Rule.text_eq]
    exact Block.ofText_append_of_blank ending.isBlank_of_mem_text _
  induction rules with
  | nil => simp [Block.ofText_eq_nil_iff, allBlank]
  | cons rule rest ih =>
      cases rest with
      | nil => rw [List.map_singleton, List.intercalate_singleton, List.flatMap_singleton, last]
      | cons next others =>
          -- the line ending of the rule and the one behind it make a blank line
          have apart (s : List Char) : rule.text ending ++ ending.text ++ s =
              (rule.content ending ++ ending.back) ++ '\n' :: (ending.back ++ '\n' :: s) := by
            rw [Rule.text_eq, LineEnding.text_eq]
            simp
          rw [List.flatMap_cons, ← ih, List.map_cons, List.map_cons,
            List.intercalate_cons_cons, apart, Block.ofText_append_gap ending.isBlankLine_back,
            Block.ofText_append_of_blank ending.isBlank_of_mem_back]

end RuleSet

end TrustRules
