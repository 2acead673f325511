/-!
# Marks of rule text

The fixed wording by which the lines of a rule are told apart.  Reading and
writing use the same marks.
-/

namespace TrustRules.Mark

/-- Starts the line with the name of a rule. -/
def name : List Char := "@RuleName =".toList

/-- Starts the line with the template of a rule. -/
def template : List Char := "@RuleTemplate =".toList

/-- Starts a condition. -/
def condition : List Char := "c:[".toList

/-- Ends a condition. -/
def conditionEnd : List Char := "]".toList

/-- Starts an action. -/
def action : List Char := "=> issue(".toList

/-- Ends an action. -/
def actionEnd : List Char := ");".toList

/-- Stands between the key and the value of a condition's argument. -/
def equals : List Char := "==".toList

/-- Stands between the key and the value of an action's argument. -/
def assigns : List Char := "=".toList

/-- Stands between two arguments. -/
def separator : List Char := ", ".toList

/-- Starts a list of types. -/
def typesStart : List Char := "(".toList

/-- Ends a list of types. -/
def typesEnd : List Char := ")".toList

end TrustRules.Mark
