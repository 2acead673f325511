import TrustRules.Rule
import TrustRules.Rule.Mark
import TrustRules.Text.Break
import TrustRules.Text.Nesting

/-!
# Arguments

A condition and an action hold a list of arguments, each a key and a value
with a sign between them.  The order of the arguments does not matter, and of
several arguments with one key the last one counts.
-/

namespace TrustRules

open Text

/-- One argument of a condition or an action. -/
inductive Argument where
  /-- A trimmed key, and everything behind the first sign. -/
  | pair (key value : List Char)
  /-- A piece without a sign. -/
  | malformed (text : List Char)
  deriving DecidableEq, Repr

namespace Argument

/-- Read a piece between two separators. -/
def ofPiece (sign piece : List Char) : Argument :=
  match breakOn sign piece with
  | some (key, value) => .pair (trim key) value
  | none => .malformed piece

/-- The arguments of a list. -/
def ofList (sign content : List Char) : List Argument :=
  (Nesting.topLevel content).map (ofPiece sign)

/-- The value of an argument, if this is its key. -/
def value? (key : List Char) : Argument → Option (List Char)
  | .pair found value => if found = key then some value else none
  | .malformed _ => none

/-- The value of the last argument with this key. -/
def lastValue? (key : List Char) (arguments : List Argument) : Option (List Char) :=
  (arguments.filterMap (value? key)).getLast?

/-- The key of an argument whose key is none of those that are known. -/
def unknownKey? (known : List (List Char)) : Argument → Option (List Char)
  | .pair key _ => if key ∈ known then none else some key
  | .malformed _ => none

/-- The text of an argument without a sign. -/
def malformed? : Argument → Option (List Char)
  | .pair _ _ => none
  | .malformed text => some text

end Argument

/-! ## Conditions -/

namespace Condition

/-- The keys that a condition knows. -/
def keys : List (List Char) :=
  ["Type".toList, "Issuer".toList]

/-- The arguments between the marks of a condition. -/
def argumentsOf (text : List Char) : List Argument :=
  Argument.ofList Mark.equals
    (dropClosing Mark.conditionEnd (dropOpening Mark.condition text))

/-- A condition needs both a claim type and an issuer. -/
def ofArguments? (arguments : List Argument) : Option Condition :=
  match Argument.lastValue? "Type".toList arguments,
      Argument.lastValue? "Issuer".toList arguments with
  | some claimType, some issuer =>
      some ⟨String.ofList (bare claimType), String.ofList (bare issuer)⟩
  | _, _ => none

/-- The condition that a text states. -/
def ofText? (text : List Char) : Option Condition :=
  ofArguments? (argumentsOf text)

end Condition

/-! ## Actions -/

namespace Action

/-- The keys that an action knows. -/
def keys : List (List Char) :=
  ["store".toList, "types".toList, "query".toList, "param".toList]

/-- The arguments between the marks of an action. -/
def argumentsOf (text : List Char) : List Argument :=
  Argument.ofList Mark.assigns
    (dropClosing Mark.actionEnd (dropOpening Mark.action text))

/-- The types of a list in parentheses; a blank list has none. -/
def typesOf (value : List Char) : List String :=
  let content := dropClosing Mark.typesEnd (dropOpening Mark.typesStart (trim value))
  if allBlank content then []
  else (Nesting.topLevel content).map fun piece => String.ofList (bare piece)

/-- An action has the parts that its arguments give. -/
def ofArguments (arguments : List Argument) : Action where
  store := (Argument.lastValue? "store".toList arguments).map (String.ofList ∘ bare)
  types := (Argument.lastValue? "types".toList arguments).map typesOf
  query := (Argument.lastValue? "query".toList arguments).map (String.ofList ∘ bare)
  param := (Argument.lastValue? "param".toList arguments).map (String.ofList ∘ bare)

/-- The action that a text states. -/
def ofText (text : List Char) : Action :=
  ofArguments (argumentsOf text)

end Action

end TrustRules
