/-!
# Claim rules

A rule is templated, with a condition on the incoming claim and an action that
issues claims, or custom, with a body in the rule language that is kept as it
is.  A rule set is the ordered list of a trust's rules.
-/

namespace TrustRules

/-! ## Templates -/

/-- The template that a rule was made from. -/
inductive Template where
  /-- Sends attributes of a directory as claims. -/
  | ldapClaims
  /-- Passes an incoming claim through. -/
  | passThroughClaims
  /-- Transforms an incoming claim. -/
  | mapClaims
  /-- Sends group membership as a claim. -/
  | emitGroupClaims
  /-- No template: the rule is written in the rule language itself. -/
  | custom
  /-- A template known by its identifier only. -/
  | other (identifier : String)
  deriving DecidableEq, Repr

namespace Template

/-- The identifier that stands in rule text. -/
def identifier : Template → String
  | .ldapClaims => "LdapClaims"
  | .passThroughClaims => "PassThroughClaims"
  | .mapClaims => "MapClaims"
  | .emitGroupClaims => "EmitGroupClaims"
  | .custom => "CustomRule"
  | .other identifier => identifier

/-- The template of an identifier; identifiers differ in every character. -/
def ofIdentifier (identifier : String) : Template :=
  if identifier = "LdapClaims" then .ldapClaims
  else if identifier = "PassThroughClaims" then .passThroughClaims
  else if identifier = "MapClaims" then .mapClaims
  else if identifier = "EmitGroupClaims" then .emitGroupClaims
  else if identifier = "CustomRule" then .custom
  else .other identifier

/-- The template marks a rule that carries its own body. -/
def isCustom : Template → Bool
  | .custom => true
  | _ => false

/-- The template has a constructor of its own. -/
def isKnown : Template → Bool
  | .other _ => false
  | _ => true

/--
The template is the one that its identifier names.  Only `other` with the
identifier of a known template is not.
-/
def Canonical (template : Template) : Prop :=
  ofIdentifier template.identifier = template

instance (template : Template) : Decidable template.Canonical :=
  inferInstanceAs (Decidable (_ = _))

theorem identifier_ofIdentifier (identifier : String) :
    (ofIdentifier identifier).identifier = identifier := by
  unfold ofIdentifier
  repeat' split
  all_goals simp_all [Template.identifier]

theorem canonical_ofIdentifier (identifier : String) :
    (ofIdentifier identifier).Canonical := by
  rw [Canonical, identifier_ofIdentifier]

theorem isCustom_iff {template : Template} :
    template.isCustom = true ↔ template = .custom := by
  cases template <;> simp [isCustom]

end Template

/-! ## Rules -/

/-- Which incoming claims a rule looks at. -/
structure Condition where
  claimType : String
  issuer : String
  deriving DecidableEq, Repr

/-- What a rule issues; every part may be absent. -/
structure Action where
  /-- The attribute store to query. -/
  store : Option String := none
  /-- The claim types to issue, in order. -/
  types : Option (List String) := none
  query : Option String := none
  /-- An expression of the rule language, written without quotes. -/
  param : Option String := none
  deriving DecidableEq, Repr

/-- No part of the action is present. -/
def Action.isEmpty (action : Action) : Bool :=
  action.store.isNone && action.types.isNone && action.query.isNone && action.param.isNone

/-- One claim rule. -/
structure Rule where
  name : String
  template : Template
  body : Option String := none
  condition : Option Condition := none
  action : Option Action := none
  deriving DecidableEq, Repr

namespace Rule

/-- A templated rule without condition and action. -/
def templated (name : String) (template : Template) : Rule :=
  { name, template }

/-- A custom rule with its body. -/
def custom (name body : String) : Rule :=
  { name, template := .custom, body := some body }

/-- The rule carries its own body. -/
def isCustom (rule : Rule) : Bool :=
  rule.template.isCustom

end Rule

/-! ## Rule sets -/

/-- The rules of a trust, in the order in which the engine applies them. -/
structure RuleSet where
  rules : List Rule := []
  deriving DecidableEq, Repr

namespace RuleSet

instance : Append RuleSet where
  append first second := ⟨first.rules ++ second.rules⟩

@[simp]
theorem rules_append (first second : RuleSet) :
    (first ++ second).rules = first.rules ++ second.rules := rfl

/-- The number of rules. -/
def size (set : RuleSet) : Nat :=
  set.rules.length

/-- The set with one more rule at its end. -/
def push (set : RuleSet) (rule : Rule) : RuleSet :=
  ⟨set.rules ++ [rule]⟩

/-- The first rule of exactly this name. -/
def find? (set : RuleSet) (name : String) : Option Rule :=
  set.rules.find? fun rule => rule.name == name

/-- The names of the rules, in order. -/
def names (set : RuleSet) : List String :=
  set.rules.map Rule.name

/-- The set with the rule at this place replaced. -/
def replace (set : RuleSet) (place : Nat) (rule : Rule) : RuleSet :=
  ⟨set.rules.set place rule⟩

end RuleSet

end TrustRules
