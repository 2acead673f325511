import Mathlib.Data.List.Forall2
import TrustRules.Proofs.Rule.Stable

/-!
# Raw expressions

The expression of an action is written as it is and unwrapped like a value in
quotes when it is read.  Main statement: a templated rule comes back from its
text with nothing but its expression unwrapped, so the rule is the same exactly
when the expression has neither a blank nor a double quote at its ends.  A
string literal inside an expression is safe, and one at an end loses a quote.
-/

namespace TrustRules

open Text

namespace Rule

/-- A templated rule with a name that can be written and an expression within one argument. -/
structure Separable (rule : Rule) : Prop extends rule.Named, rule.SeparableTemplated

instance (rule : Rule) : Decidable rule.Separable :=
  decidable_of_iff (rule.Named ∧ rule.SeparableTemplated)
    ⟨fun ⟨named, parts⟩ => ⟨named, parts⟩,
      fun separable => ⟨separable.toNamed, separable.toSeparableTemplated⟩⟩

end Rule

namespace RuleSet

/-- Separable rules are written, and all that reading their text changes is unwrapped. -/
theorem rules_write_of_separable {set : RuleSet} (separable : ∀ rule ∈ set.rules, rule.Separable)
    (ending : LineEnding) :
    (set.write ending).value = .ok (String.ofList (set.fullText ending)) ∧
      (Reading.ofText (String.ofList (set.fullText ending))).isClean = true ∧
      (Reading.ofText (String.ofList (set.fullText ending))).set.rules =
        set.rules.map Rule.unwrapped := by
  have read : set.rules.map (Rule.reread ending) = set.rules.map Rule.unwrapped := by
    refine List.map_congr_left fun rule mem => ?_
    exact (separable rule mem).rule_block (separable rule mem).bare ending
  rw [← read]
  refine read_write_of_blocks (fun rule mem => ?_) (fun rule mem => ?_) fun rule mem => ?_
  · obtain ⟨named, parts⟩ := separable rule mem
    exact named.wellShaped_of_templated parts.kind parts.body
  · obtain ⟨named, parts⟩ := separable rule mem
    exact Rule.ofText_content_of_solid named.bare (parts.solid_below ending)
  · obtain ⟨named, parts⟩ := separable rule mem
    exact parts.diagnostics_block named.bare ending

/--
Writing templated rules and reading their text gives each rule back with its
expression unwrapped, which is the rule itself exactly when its expression has
neither a blank nor a double quote at its ends.  Nothing is reported.
-/
theorem read_write_of_separable (ending : LineEnding) (set : RuleSet)
    (separable : ∀ rule ∈ set.rules, rule.Separable) :
    ∃ text, (set.write ending).value = .ok text ∧
      (Reading.ofText text).isClean = true ∧
      List.Forall₂ (fun rule back =>
        back = rule.unwrapped ∧
          (back = rule ↔
            ∀ action ∈ rule.action, ∀ value ∈ action.param, Firm isWrapping value.toList))
        set.rules (Reading.ofText text).set.rules := by
  obtain ⟨written, clean, rules⟩ := rules_write_of_separable separable ending
  refine ⟨_, written, clean, ?_⟩
  rw [rules, List.forall₂_map_right_iff, List.forall₂_same]
  exact fun rule _ => ⟨rfl, Rule.unwrapped_eq_self_iff⟩

/-- An expression with separators inside its calls and literals. -/
def expressionExample : RuleSet where
  rules :=
    [{ name := "joined"
       template := .mapClaims
       condition := some ⟨"upn", "AD"⟩
       action := some
         { store := some "s", param := some "f(\"x, y)\", (c.Value, 1)) + \"@x, \" + c.Issuer" } }]

theorem read_write_of_separable_expressionExample :
    (∀ rule ∈ expressionExample.rules, rule.Separable) ∧
      ∃ text, (expressionExample.write .crlf).value = .ok text ∧
        (Reading.ofText text).set.rules = expressionExample.rules := by
  have separable : ∀ rule ∈ expressionExample.rules, rule.Separable := by decide +kernel
  have firm : ∀ rule ∈ expressionExample.rules, ∀ action ∈ rule.action,
      ∀ value ∈ action.param, Firm isWrapping value.toList := by
    intro rule mem action isAction value isParam
    rw [List.mem_singleton.1 mem] at isAction
    cases isAction
    cases isParam
    decide +kernel
  obtain ⟨text, written, _, rules⟩ := read_write_of_separable .crlf expressionExample separable
  refine ⟨separable, text, written, ?_⟩
  obtain ⟨back, others, ⟨_, same⟩, none, rules⟩ := List.forall₂_cons_left_iff.1 rules
  rw [List.forall₂_nil_left_iff.1 none, same.2 (firm _ List.mem_cons_self)] at rules
  exact rules

/-- An expression that ends with a string literal. -/
def literalExample : RuleSet where
  rules :=
    [{ name := "R"
       template := .other "T"
       action := some { param := some "c.Value + \"@x\"" } }]

/--
The expression is one line, is trimmed, pairs its quotes and has neither
parentheses nor separators, and it still loses the quote at its end.
-/
theorem literalExample_not_kept :
    (∀ rule ∈ literalExample.rules, rule.Separable ∧
        ∀ action ∈ rule.action, ∀ value ∈ action.param,
          Firm isBlank value.toList ∧ value.toList.count '"' = 2 ∧
            '(' ∉ value.toList ∧ ')' ∉ value.toList) ∧
      ∀ ending, ∃ text, (literalExample.write ending).value = .ok text ∧
        (Reading.ofText text).set.rules =
          [{ name := "R"
             template := .other "T"
             action := some { param := some "c.Value + \"@x" } }] := by
  have separable : ∀ rule ∈ literalExample.rules, rule.Separable := by decide +kernel
  refine ⟨fun rule mem => ⟨separable rule mem, ?_⟩, fun ending => ?_⟩
  · intro action isAction value isParam
    rw [List.mem_singleton.1 mem] at isAction
    cases isAction
    cases isParam
    decide +kernel
  · obtain ⟨written, _, rules⟩ := rules_write_of_separable separable ending
    refine ⟨_, written, rules.trans ?_⟩
    decide +kernel

end RuleSet

end TrustRules
