/-!
# JSON values

JSON values as they are exchanged, apart from how they are spelled.  A number
that is no plain natural number is kept by its spelling, since no value here
has one.
-/

namespace TrustRules

/-- A JSON value. -/
inductive Json where
  | null
  | bool (value : Bool)
  /-- A number written with digits alone. -/
  | natural (value : Nat)
  /-- A number written with a sign, a fraction or an exponent. -/
  | decimal (spelling : String)
  | string (value : String)
  | array (items : List Json)
  | object (members : List (String × Json))
  deriving Inhabited

namespace Json

/-- The member of this name; the last one, if there are several. -/
def member? (members : List (String × Json)) (name : String) : Option Json :=
  members.reverse.lookup name

/-- The member of this name, if the value is an object that has it. -/
def get? (json : Json) (name : String) : Option Json :=
  match json with
  | .object members => member? members name
  | _ => none

/--
The fields of a record, in the order of their names.  A record is an object,
whose further members do not matter, or an array of its fields in order, whose
last ones may be missing.
-/
def fields? (names : List String) : Json → Option (List (Option Json))
  | .object members => some (names.map (member? members))
  | .array items =>
      if items.length ≤ names.length then
        some (items.map some ++ List.replicate (names.length - items.length) none)
      else none
  | _ => none

/--
The name of a constant: a string, or an object with this one name, under which
nothing stands.
-/
def constant? : Json → Option String
  | .string name => some name
  | .object [(name, .null)] => some name
  | _ => none

end Json

/-- Values that have a JSON form. -/
class JsonForm (α : Type) where
  /-- The form in which a value is written. -/
  encode : α → Json
  /-- The value of a form in which it may be given. -/
  decode? : Json → Option α

namespace JsonForm

/-- A field that must be there. -/
def required? {α : Type} [JsonForm α] (field : Option Json) : Option α :=
  field.bind decode?

/-- A field that may be missing or empty. -/
def optional? {α : Type} [JsonForm α] : Option Json → Option (Option α)
  | none => some none
  | some .null => some none
  | some json => (decode? json).map some

/-- An optional field as it is written: not at all if it is absent. -/
def member {α : Type} [JsonForm α] (name : String) (value : Option α) :
    List (String × Json) :=
  match value with
  | some value => [(name, encode value)]
  | none => []

instance : JsonForm String where
  encode := .string
  decode?
    | .string value => some value
    | _ => none

/-- Counts are written with 64 bits at most. -/
instance : JsonForm Nat where
  encode := .natural
  decode?
    | .natural value => if value < UInt64.size then some value else none
    | _ => none

instance {α : Type} [JsonForm α] : JsonForm (List α) where
  encode values := .array (values.map encode)
  decode?
    | .array items => items.mapM decode?
    | _ => none

end JsonForm

end TrustRules
