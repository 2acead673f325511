import TrustRules.Text.Quoted

/-!
# Commands

The two commands that a trust's rules are read and replaced with.  Names and
rule texts enter a command only as quoted literals.
-/

namespace TrustRules

open Text

namespace Command

/-- The key under which the reading command prints a trust's rules. -/
def rulesKey : String := "issuance_transform_rules"

/-- A text as an argument of a command. -/
def argument (text : String) : List Char :=
  Quoted.encode text.toList

/-- What stands before the name in the command that reads. -/
def readOpening : List Char :=
  "$trust = Get-AdfsRelyingPartyTrust -Name ".toList

/-- What stands between the two places of the name in the command that reads. -/
def readMiddle : List Char :=
  ("; if ($trust) \x7b return @\x7b 'name' = $trust.Name; '" ++ rulesKey ++
    "' = $trust.IssuanceTransformRules \x7d \x7d else \x7b throw (" ++
    "'Relying party trust not found: ' + ").toList

/-- What stands after the second place of the name in the command that reads. -/
def readClosing : List Char :=
  ") \x7d".toList

/-- What stands before the name in the command that applies. -/
def applyOpening : List Char :=
  "Set-AdfsRelyingPartyTrust -TargetName ".toList

/-- What stands between the name and the rules in the command that applies. -/
def applyMiddle : List Char :=
  " -IssuanceTransformRules ".toList

/-- The command that prints a trust's name and rules. -/
def read (trust : String) : String :=
  String.ofList
    (readOpening ++ argument trust ++ readMiddle ++ argument trust ++ readClosing)

/-- The command that replaces a trust's rules by a rule text. -/
def apply (trust rules : String) : String :=
  String.ofList (applyOpening ++ argument trust ++ applyMiddle ++ argument rules)

end Command

end TrustRules
