/-!
# Carriage returns

Where every carriage return stands directly before a line feed, the two
together end a line, and no return stands anywhere else.  Such a text says the
same with its line feeds alone.
-/

namespace TrustRules.Text

/-- Every carriage return stands directly before a line feed. -/
def ReturnsPaired (s : List Char) : Prop :=
  ∀ place < s.length, s[place]? = some '\r' → s[place + 1]? = some '\n'

instance (s : List Char) : Decidable (ReturnsPaired s) :=
  inferInstanceAs (Decidable (∀ place < s.length, _))

theorem ReturnsPaired.behind {front rest : List Char}
    (paired : ReturnsPaired (front ++ '\r' :: rest)) : rest.head? = some '\n' := by
  have next := paired front.length (by simp) (by simp)
  have inRest : (front ++ '\r' :: rest)[front.length + 1]? = rest[0]? := by
    rw [List.getElem?_append_right (Nat.le_add_right _ 1), Nat.add_sub_cancel_left]
    rfl
  rw [List.head?_eq_getElem?, ← inRest, next]

theorem returnsPaired_iff {s : List Char} :
    ReturnsPaired s ↔ ∀ front rest, s = front ++ '\r' :: rest → rest.head? = some '\n' := by
  constructor
  · rintro paired front rest rfl
    exact paired.behind
  · intro behind place inside here
    have cut := List.take_append_drop place s
    rw [List.drop_eq_getElem_cons inside, (List.getElem?_eq_some_iff.1 here).2] at cut
    have next := behind _ _ cut.symm
    rwa [List.head?_drop] at next

/-- The end of a paired text is paired. -/
theorem ReturnsPaired.of_append {s t : List Char} (paired : ReturnsPaired (s ++ t)) :
    ReturnsPaired t := by
  rw [returnsPaired_iff] at paired ⊢
  rintro front rest rfl
  exact paired (s ++ front) rest (by rw [List.append_assoc])

/-- Within one line of a paired text, a return can stand at the end only. -/
theorem ReturnsPaired.line {l rest : List Char} (paired : ReturnsPaired (l ++ rest))
    (single : '\n' ∉ l) :
    '\r' ∉ l ∨ ∃ front, '\r' ∉ front ∧ l = front ++ ['\r'] ∧ rest.head? = some '\n' := by
  by_cases returns : '\r' ∈ l
  · obtain ⟨front, back, rfl, first⟩ := List.eq_append_cons_of_mem returns
    rw [List.append_assoc, List.cons_append] at paired
    have next := paired.behind
    cases back with
    | nil => exact .inr ⟨front, first, rfl, next⟩
    | cons c back =>
        rw [List.cons_append, List.head?_cons, Option.some.injEq] at next
        exact absurd (by simp [next]) single
  · exact .inl returns

/-- The text with a line feed alone for each return in front of a line feed. -/
def feedsOnly : List Char → List Char
  | [] => []
  | '\r' :: '\n' :: rest => '\n' :: feedsOnly rest
  | c :: rest => c :: feedsOnly rest

theorem feedsOnly_append {s : List Char} (free : '\r' ∉ s) (t : List Char) :
    feedsOnly (s ++ t) = s ++ feedsOnly t := by
  induction s with
  | nil => rfl
  | cons c s ih =>
      have other : c ≠ '\r' := fun same => free (same ▸ List.mem_cons_self)
      have rest : '\r' ∉ s := fun mem => free (List.mem_cons_of_mem c mem)
      have step : feedsOnly (c :: (s ++ t)) = c :: feedsOnly (s ++ t) :=
        feedsOnly.eq_3 c (s ++ t) fun _ same => absurd same other
      rw [List.cons_append, step, ih rest, List.cons_append]

end TrustRules.Text
