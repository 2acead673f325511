import TrustRules.Failure

/-!
# Line endings

Rule text is written with line feeds alone or with carriage returns before
them.  Reading accepts both; a layout says which one writing uses.
-/

namespace TrustRules

/-- What ends a written line. -/
inductive LineEnding where
  | lf
  | crlf
  deriving DecidableEq, Repr

namespace LineEnding

/-- The characters of the line ending. -/
def text : LineEnding → List Char
  | .lf => ['\n']
  | .crlf => ['\r', '\n']

/-- The name under which the line ending is configured. -/
def name : LineEnding → String
  | .lf => "lf"
  | .crlf => "crlf"

/-- The line ending of exactly this name. -/
def ofName? (name : String) : Option LineEnding :=
  if name = "lf" then some .lf
  else if name = "crlf" then some .crlf
  else none

/--
The line ending that a user configured.  The case of ASCII letters does not
matter, but blanks around the name do.
-/
def configured (name : String) : Except Failure LineEnding :=
  match ofName? (String.ofList (name.toList.map Char.toLower)) with
  | some ending => .ok ending
  | none =>
      .error (.invalidFormat
        ("unknown line ending '" ++ name ++ "' (expected 'lf' or 'crlf')"))

theorem ofName?_name (ending : LineEnding) : ofName? ending.name = some ending := by
  cases ending <;> rfl

/-- Every line ending can be configured by its own name. -/
theorem configured_name (ending : LineEnding) : configured ending.name = .ok ending := by
  cases ending <;> rfl

end LineEnding

/-- How rule text is laid out when it is written. -/
structure Layout where
  lineEnding : LineEnding := .lf
  deriving DecidableEq, Repr

namespace Layout

/-- The layout of the texts that the claim engine stores. -/
def engine : Layout := ⟨.crlf⟩

/-- The last of several choices stands; without one, the default does. -/
def ofChoices (choices : List LineEnding) : Layout :=
  match choices.getLast? with
  | some ending => ⟨ending⟩
  | none => {}

/-- A further choice overrides all earlier ones. -/
theorem ofChoices_append_singleton (choices : List LineEnding) (ending : LineEnding) :
    ofChoices (choices ++ [ending]) = ⟨ending⟩ := by
  simp [ofChoices]

end Layout

end TrustRules
