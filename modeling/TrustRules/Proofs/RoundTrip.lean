import Mathlib.Data.List.Forall2
import TrustRules.Proofs.Rule.Stable

/-!
# Round trips of rule sets

A set of well-formed rules is written to a text from which the same set is
read.  A custom rule gains its own name line as the header of its body, and
nothing else changes.
-/

namespace TrustRules

open Text

namespace Rule

/-- A custom rule whose body has no header and can stand below its name line. -/
structure WellFormedCustom (rule : Rule) : Prop extends rule.BodyOnly where
  body : ∃ body ∈ rule.body,
    Header.present body.toList = false ∧ IsBodyOf rule.name body.toList

instance (rule : Rule) : Decidable rule.WellFormedCustom :=
  decidable_of_iff
    (rule.BodyOnly ∧
      ∃ body ∈ rule.body, Header.present body.toList = false ∧ IsBodyOf rule.name body.toList)
    ⟨fun ⟨only, body⟩ => ⟨only, body⟩, fun custom => ⟨custom.toBodyOnly, custom.body⟩⟩

/-- A rule that is read back from its text as it is. -/
structure WellFormed (rule : Rule) : Prop extends rule.Named where
  parts : rule.StableTemplated ∨ rule.WellFormedCustom

instance (rule : Rule) : Decidable rule.WellFormed :=
  decidable_of_iff (rule.Named ∧ (rule.StableTemplated ∨ rule.WellFormedCustom))
    ⟨fun ⟨named, parts⟩ => ⟨named, parts⟩,
      fun wellFormed => ⟨wellFormed.toNamed, wellFormed.parts⟩⟩

variable {rule : Rule}

/-- The body of a well-formed rule is its own body proper. -/
theorem WellFormed.bodyProper?_eq (wellFormed : rule.WellFormed) :
    rule.bodyProper? = rule.body := by
  rcases wellFormed.parts with templated | custom
  · rw [bodyProper?, templated.body]
    rfl
  · obtain ⟨body, isBody, headless, _⟩ := custom.body
    rw [bodyProper?, Option.mem_def.1 isBody, Option.map_some, Header.drop_of_not_present headless,
      String.ofList_toList]

theorem WellFormed.stable (wellFormed : rule.WellFormed) : rule.Stable := by
  refine ⟨wellFormed.toNamed, ?_⟩
  rcases wellFormed.parts with templated | custom
  · exact .inl templated
  · obtain ⟨body, isBody, headless, isBodyOf⟩ := custom.body
    refine .inr ⟨custom.toBodyOnly, body, isBody, ?_⟩
    rwa [Header.drop_of_not_present headless]

end Rule

namespace RuleSet

/-- Writing a set of well-formed rules and reading its text gives the set back. -/
theorem read_write_of_wellFormed (ending : LineEnding) (set : RuleSet)
    (wellFormed : ∀ rule ∈ set.rules, rule.WellFormed) :
    ∃ text, (set.write ending).value = .ok text ∧
      (Reading.ofText text).isClean = true ∧
      (Reading.ofText text).set.size = set.size ∧
      List.Forall₂ (fun rule back =>
        (rule.isCustom = false → back = rule) ∧
        (rule.isCustom = true →
          back.isCustom = true ∧ back.name = rule.name ∧ back.bodyProper? = rule.body))
        set.rules (Reading.ofText text).set.rules := by
  obtain ⟨written, clean, rules⟩ :=
    read_write_of_stable (fun rule mem => (wellFormed rule mem).stable) ending
  refine ⟨_, written, clean, ?_, ?_⟩
  · rw [size, size, rules, List.length_map]
  · rw [rules, List.forall₂_map_right_iff, List.forall₂_same]
    intro rule mem
    obtain ⟨templated, custom⟩ := (wellFormed rule mem).stable.reread_eq ending
    refine ⟨templated, fun kind => ?_⟩
    rw [← (wellFormed rule mem).bodyProper?_eq]
    exact custom kind

/-- Values that look like rule text, and a custom body that repeats its own name line. -/
def roundTripExample : RuleSet where
  rules :=
    [{ name := "a \"quoted\" name = x"
       template := .other "My ]; => Template"
       condition := some ⟨"u ]==, c:[(", "=> issue(;"⟩
       action := some
         { store := some "s), (="
           types := some ["", "t, (u", "==]"]
           query := some ";{0};,("
           param := some "c.Value + f(\"x, y\", (1, 2))" } },
      Rule.templated "bare" .mapClaims,
      Rule.custom "own, words" "c:[]\n\u00a0\n@RuleName = \"own, words\"\n=> add();",
      Rule.custom "none" ""]

theorem read_write_roundTripExample :
    (∀ rule ∈ roundTripExample.rules, rule.WellFormed) ∧
      ∃ text, (roundTripExample.write .crlf).value = .ok text ∧
        (Reading.ofText text).set.size = 4 := by
  have wellFormed : ∀ rule ∈ roundTripExample.rules, rule.WellFormed := by decide +kernel
  obtain ⟨text, written, _, size, _⟩ :=
    read_write_of_wellFormed .crlf roundTripExample wellFormed
  exact ⟨wellFormed, text, written, size⟩

end RuleSet

end TrustRules
