/-!
# Failures

What can go wrong when rules are written, configured, read or applied.  A
failure carries its cause; the wording is in one function.
-/

namespace TrustRules

/-- Why an operation gave no result. -/
inductive Failure where
  /-- A rule of the set cannot be written. -/
  | invalidRule (rule reason : String)
  /-- A configured value has no meaning. -/
  | invalidFormat (detail : String)
  /-- The shell refused or failed to run a command. -/
  | command (detail : String)
  /-- A command ran but did not print the pair that was asked for. -/
  | missingKey (key : String)
  deriving DecidableEq, Repr

/-- The text of a failure. -/
def Failure.message : Failure → String
  | .invalidRule rule reason => "invalid rule " ++ rule ++ ": " ++ reason
  | .invalidFormat detail => "Invalid format: " ++ detail
  | .command detail => "command failed: " ++ detail
  | .missingKey key => "command output is missing key '" ++ key ++ "'"

end TrustRules
