import TrustRules.Json

/-!
# Faithful forms

A JSON form is faithful to the values of a property if these values are read
back from what they are written as, and if no other value is ever read,
whatever spelling it was given in.  Faithfulness of strings and counts carries
over to lists and to the fields of a record.
-/

namespace TrustRules

namespace Json

theorem member?_nil (name : String) : member? [] name = none := rfl

/-- Of two lists of members, the second one goes first. -/
theorem member?_append (first second : List (String × Json)) (name : String) :
    member? (first ++ second) name = (member? second name).or (member? first name) := by
  rw [member?, List.reverse_append, List.lookup_append]
  rfl

theorem member?_singleton (name key : String) (json : Json) :
    member? [(key, json)] name = if name = key then some json else none := by
  rw [member?, List.reverse_singleton, List.lookup_eq_findSome?]
  simp

theorem member?_cons (name key : String) (json : Json) (members : List (String × Json)) :
    member? ((key, json) :: members) name =
      (member? members name).or (if name = key then some json else none) := by
  rw [← List.singleton_append, member?_append, member?_singleton]

end Json

namespace JsonForm

variable {α : Type} [JsonForm α]

/-- An optional field as it is written stands under its own name. -/
theorem member?_member (name key : String) (value : Option α) :
    Json.member? (member key value) name = if name = key then value.map encode else none := by
  cases value with
  | none => exact (ite_self _).symm
  | some value => exact Json.member?_singleton name key (encode value)

theorem optional?_of_ne_null {json : Json} (some : json ≠ .null) :
    (optional? (Option.some json) : Option (Option α)) = (decode? json).map Option.some := by
  cases json with
  | null => exact absurd rfl some
  | _ => rfl

/--
Exactly the values of a property are read back from what they are written as,
and none of them is written as an empty field.
-/
structure Faithful (α : Type) [JsonForm α] (Exact : α → Prop) : Prop where
  present : ∀ value : α, encode value ≠ .null
  decode?_encode : ∀ value : α, Exact value → decode? (encode value) = some value
  exact_of_decode? : ∀ (json : Json) (value : α), decode? json = some value → Exact value

/--
The values of a property are read back from what they are written as.  What is
read from JSON of any spelling has that property, and is written as JSON that is
read as the same value and written as itself.
-/
def RoundTrips (α : Type) [JsonForm α] (Exact : α → Prop) : Prop :=
  (∀ value : α, Exact value → decode? (encode value) = some value) ∧
    ∀ (json : Json) (value : α), decode? json = some value →
      Exact value ∧ decode? (encode value) = some value ∧
        (decode? (encode value) : Option α).map encode = some (encode value)

namespace Faithful

variable {Exact : α → Prop}

theorem roundTrips (faithful : Faithful α Exact) : RoundTrips α Exact := by
  refine ⟨faithful.decode?_encode, fun json value read => ?_⟩
  have exact := faithful.exact_of_decode? json value read
  have back := faithful.decode?_encode value exact
  exact ⟨exact, back, by rw [back]; rfl⟩

/-! ## Fields -/

theorem required?_encode (faithful : Faithful α Exact) {value : α} (exact : Exact value) :
    required? (some (encode value)) = some value :=
  faithful.decode?_encode value exact

theorem optional?_encode (faithful : Faithful α Exact) {value : Option α}
    (exact : ∀ given ∈ value, Exact given) : optional? (value.map encode) = some value := by
  cases value with
  | none => rfl
  | some given =>
      rw [Option.map_some, optional?_of_ne_null (faithful.present given),
        faithful.decode?_encode given (exact given rfl)]
      rfl

theorem exact_of_required? (faithful : Faithful α Exact) {field : Option Json} {value : α}
    (read : required? field = some value) : Exact value := by
  obtain ⟨json, -, decoded⟩ := Option.bind_eq_some_iff.1 read
  exact faithful.exact_of_decode? json value decoded

/-! ## Lists -/

theorem mapM_encode (faithful : Faithful α Exact) {values : List α}
    (exact : ∀ value ∈ values, Exact value) :
    (values.map encode).mapM decode? = some values := by
  induction values with
  | nil => rfl
  | cons value rest ih =>
      have first := faithful.decode?_encode value (exact value List.mem_cons_self)
      have others := ih fun other mem => exact other (List.mem_cons_of_mem value mem)
      rw [List.map_cons, List.mapM_cons, first, others]
      rfl

theorem exact_of_mapM (faithful : Faithful α Exact) {items : List Json} {values : List α}
    (read : items.mapM decode? = some values) : ∀ value ∈ values, Exact value := by
  induction items generalizing values with
  | nil =>
      obtain rfl : [] = values := Option.some.inj read
      exact fun value mem => nomatch mem
  | cons item rest ih =>
      rw [List.mapM_cons] at read
      obtain ⟨first, isFirst, read⟩ := Option.bind_eq_some_iff.1 read
      obtain ⟨others, areOthers, read⟩ := Option.bind_eq_some_iff.1 read
      obtain rfl : first :: others = values := Option.some.inj read
      exact List.forall_mem_cons.2
        ⟨faithful.exact_of_decode? item first isFirst, ih areOthers⟩

/-- A list is faithful to the lists of exact values. -/
theorem list (faithful : Faithful α Exact) :
    Faithful (List α) fun values => ∀ value ∈ values, Exact value where
  present _ := Json.noConfusion
  decode?_encode _ exact := faithful.mapM_encode exact
  exact_of_decode? json _ read := by
    cases json with
    | array items => exact faithful.exact_of_mapM read
    | _ => cases read

end Faithful

/-! ## Strings and counts -/

theorem faithful_string : Faithful String fun _ => True where
  present _ := Json.noConfusion
  decode?_encode _ _ := rfl
  exact_of_decode? _ _ _ := trivial

/-- Counts of 64 bits are kept exactly, and no other count is read. -/
theorem faithful_count : Faithful Nat fun count => count < UInt64.size where
  present _ := Json.noConfusion
  decode?_encode _ small := if_pos small
  exact_of_decode? json count read := by
    cases json with
    | natural value =>
        obtain ⟨small, same⟩ := Option.ite_none_right_eq_some.1 read
        obtain rfl := Option.some.inj same
        exact small
    | _ => cases read

end JsonForm

end TrustRules
