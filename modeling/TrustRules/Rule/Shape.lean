import TrustRules.Failure
import TrustRules.Text.Blank
import TrustRules.Rule

/-!
# The shape of a rule

A rule can be written when it has a name and is one thing only: templated
without a body, or custom with a body and neither condition nor action.
-/

namespace TrustRules

open Text

/-- What keeps a rule from being written. -/
inductive Flaw where
  | unnamed
  | customWithoutBody
  | customWithCondition
  | customWithAction
  | templatedWithBody (template : Template)
  deriving DecidableEq, Repr

/-- The wording of a flaw. -/
def Flaw.reason : Flaw → String
  | .unnamed => "rule name is empty"
  | .customWithoutBody => "custom rule has no body"
  | .customWithCondition => "custom rule carries a condition"
  | .customWithAction => "custom rule carries an action"
  | .templatedWithBody template =>
      "templated rule (" ++ template.identifier ++ ") carries a custom body"

namespace Rule

/-- The name is empty or blank. -/
def isUnnamed (rule : Rule) : Bool :=
  allBlank rule.name.toList

/-- The first flaw of a rule: its name first, then its body, condition and action. -/
def flaw? (rule : Rule) : Option Flaw :=
  if rule.isUnnamed then some .unnamed
  else if rule.isCustom then
    if rule.body.isNone then some .customWithoutBody
    else if rule.condition.isSome then some .customWithCondition
    else if rule.action.isSome then some .customWithAction
    else none
  else if rule.body.isSome then some (.templatedWithBody rule.template)
  else none

/-- How a failure names the rule. -/
def label (rule : Rule) : String :=
  if rule.isUnnamed then "<unnamed>" else rule.name

/-- The failure of a rule that has a flaw. -/
def check (rule : Rule) : Except Failure Unit :=
  match rule.flaw? with
  | some flaw => .error (.invalidRule rule.label flaw.reason)
  | none => .ok ()

/-- The rule is named and is one thing only. -/
def WellShaped (rule : Rule) : Prop :=
  rule.isUnnamed = false ∧
    (if rule.isCustom then
      rule.body.isSome ∧ rule.condition.isNone ∧ rule.action.isNone
    else rule.body.isNone)

/-- A rule of the right shape is exactly one without a flaw. -/
theorem flaw?_eq_none_iff (rule : Rule) : rule.flaw? = none ↔ rule.WellShaped := by
  unfold flaw? WellShaped
  cases rule.isUnnamed <;> cases rule.isCustom <;> cases rule.body <;>
    cases rule.condition <;> cases rule.action <;> simp

theorem check_eq_ok_iff (rule : Rule) : rule.check = .ok () ↔ rule.WellShaped := by
  rw [← flaw?_eq_none_iff, check]
  cases rule.flaw? <;> simp

end Rule

end TrustRules
