import TrustRules.Proofs.Text.Pieces

/-!
# Decompositions of lists

A list of arguments is divided wherever a separator stands outside of all quotes
and parentheses.  Main statement: every text consists, in one way only, of
pieces with separators between them such that no piece is divided and each but
the last closes what it opens.  The arguments of a list are the pieces of this
decomposition that are not blank.
-/

namespace TrustRules.Text

namespace Nesting

/-! ## Undivided texts -/

/-- Every separator of the text stands inside of quotes or parentheses. -/
def Undivided (nesting : Nesting) (s : List Char) : Prop :=
  ∀ front rest, s = front ++ (Mark.separator ++ rest) → nesting.after front ≠ outer

/-- Whether a text is undivided is seen by one scan. -/
theorem joined_iff_undivided {nesting : Nesting} {s : List Char} :
    nesting.Joined s ↔ nesting.Undivided s := by
  induction s generalizing nesting with
  | nil => exact iff_of_true trivial fun front _ parts => by simp [Mark.separator] at parts
  | cons c s ih =>
      rw [Joined, ih]
      constructor
      · rintro ⟨here, later⟩ front rest parts
        cases front with
        | nil =>
            obtain ⟨rfl, rfl⟩ := List.cons.inj parts
            exact fun isOuter => here ⟨isOuter, rfl, rfl⟩
        | cons d front =>
            obtain ⟨rfl, behind⟩ := List.cons.inj parts
            exact later front rest behind
      · intro undivided
        refine ⟨?_, fun front rest parts => undivided (c :: front) rest (congrArg (c :: ·) parts)⟩
        rintro ⟨isOuter, rfl, space⟩
        obtain ⟨rest, rfl⟩ := List.head?_eq_some_iff.1 space
        exact undivided [] rest rfl isOuter

/-! ## Decompositions -/

/-- The text is these pieces with separators between them, and is divided nowhere else. -/
structure Decomposes (s : List Char) (pieces : List (List Char)) : Prop where
  nonempty : pieces ≠ []
  whole : Mark.separator.intercalate pieces = s
  undivided : ∀ piece ∈ pieces, outer.Undivided piece
  /-- Behind a piece that is followed by another one, all that was opened is closed. -/
  closed : ∀ piece ∈ pieces.dropLast, outer.after piece = outer

theorem forall_mem_dropLast_cons {p : List Char → Prop} {first : List Char}
    {others : List (List Char)} :
    (∀ piece ∈ (first :: others).dropLast, p piece) ↔
      (others ≠ [] → p first) ∧ ∀ piece ∈ others.dropLast, p piece := by
  cases others with
  | nil => simp
  | cons next more =>
      rw [List.dropLast_cons_cons, List.forall_mem_cons]
      exact and_congr_left fun _ => ⟨fun here _ => here, fun here => here (List.cons_ne_nil _ _)⟩

/--
The pieces of a cut are undivided, the first one from where the cut starts, and
a piece in front of another one ends outside of all quotes and parentheses.
-/
theorem exists_cut_eq (nesting : Nesting) (s : List Char) :
    ∃ first others, nesting.cut s = first :: others ∧
      nesting.Joined first ∧ (∀ piece ∈ others, outer.Joined piece) ∧
      (others ≠ [] → nesting.after first = outer) ∧
      ∀ piece ∈ others.dropLast, outer.after piece = outer := by
  fun_induction cut nesting s with
  | case1 => exact ⟨[], [], rfl, trivial, by simp, fun more => absurd rfl more, by simp⟩
  | case2 nesting c =>
      refine ⟨[c], [], rfl, ⟨?_, trivial⟩, by simp, fun more => absurd rfl more, by simp⟩
      rintro ⟨-, -, space⟩
      cases space
  | case3 nesting c d rest here ih =>
      obtain ⟨first, others, parts, joined, joinedOthers, closed, closedOthers⟩ := ih
      exact ⟨[], first :: others, by rw [parts], trivial,
        List.forall_mem_cons.2 ⟨joined, joinedOthers⟩, fun _ => here.1,
        forall_mem_dropLast_cons.2 ⟨closed, closedOthers⟩⟩
  | case4 nesting c d rest inside ih =>
      obtain ⟨first, others, parts, joined, joinedOthers, closed, closedOthers⟩ := ih
      refine ⟨c :: first, others, by rw [parts, List.modifyHead_cons], ⟨?_, joined⟩,
        joinedOthers, closed, closedOthers⟩
      rintro ⟨isOuter, comma, space⟩
      -- what the first piece starts with is what the text goes on with
      have whole := intercalate_cut (nesting.step c) (d :: rest)
      obtain ⟨inner, rfl⟩ := List.head?_eq_some_iff.1 space
      rw [parts] at whole
      refine inside ⟨isOuter, comma, ?_⟩
      cases others with
      | nil =>
          rw [List.intercalate_singleton] at whole
          exact (List.cons.inj whole).1.symm
      | cons next more =>
          rw [List.intercalate_cons_cons] at whole
          exact (List.cons.inj whole).1.symm

theorem decomposes_cut (s : List Char) : Decomposes s (outer.cut s) := by
  obtain ⟨first, others, parts, joined, joinedOthers, closed, closedOthers⟩ :=
    exists_cut_eq outer s
  refine ⟨cut_ne_nil _ _, intercalate_cut _ _, ?_, ?_⟩
  · rw [parts]
    exact List.forall_mem_cons.2 ⟨joined_iff_undivided.1 joined,
      fun piece mem => joined_iff_undivided.1 (joinedOthers piece mem)⟩
  · rw [parts]
    exact forall_mem_dropLast_cons.2 ⟨closed, closedOthers⟩

/-- There is no other decomposition than the one that is found by cutting. -/
theorem Decomposes.eq_cut {s : List Char} {pieces : List (List Char)}
    (decomposes : Decomposes s pieces) : pieces = outer.cut s := by
  have joined : ∀ piece ∈ pieces, outer.Joined piece := fun piece mem =>
    joined_iff_undivided.2 (decomposes.undivided piece mem)
  rw [← decomposes.whole, cut_intercalate decomposes.nonempty joined decomposes.closed]

/-! ## Main statement -/

/--
A text has exactly one decomposition, and its arguments are the pieces of that
one which are not blank.  So pieces that make up a decomposition and are not
blank are the arguments of the list that they are put together to.
-/
theorem topLevel_decomposition :
    (∀ s, ∃ pieces, Decomposes s pieces ∧
      topLevel s = pieces.filter (fun piece => !allBlank piece) ∧
      ∀ others, Decomposes s others → others = pieces) ∧
    ∀ pieces : List (List Char), pieces ≠ [] →
      (∀ piece ∈ pieces, allBlank piece = false ∧ outer.Undivided piece) →
      (∀ piece ∈ pieces.dropLast, outer.after piece = outer) →
      topLevel (Mark.separator.intercalate pieces) = pieces := by
  constructor
  · exact fun s => ⟨outer.cut s, decomposes_cut s, rfl, fun _ decomposes => decomposes.eq_cut⟩
  · intro pieces some each closed
    have decomposes : Decomposes (Mark.separator.intercalate pieces) pieces :=
      ⟨some, rfl, fun piece mem => (each piece mem).2, closed⟩
    rw [topLevel, ← decomposes.eq_cut, List.filter_eq_self]
    intro piece mem
    rw [(each piece mem).1, Bool.not_false]

/--
Separators in quotes and in parentheses, a parenthesis that is closed without
having been opened, and a quote that is never closed.
-/
def unpairedExample : List (List Char) :=
  ["a == \"x, (y\"".toList, "b)) = ((c, d), \", \")".toList, "e(\"f, ".toList]

theorem topLevel_decomposition_unpairedExample :
    unpairedExample ≠ [] ∧
      (∀ piece ∈ unpairedExample, allBlank piece = false ∧ outer.Undivided piece) ∧
      (∀ piece ∈ unpairedExample.dropLast, outer.after piece = outer) ∧
      topLevel (Mark.separator.intercalate unpairedExample) = unpairedExample := by
  have each : ∀ piece ∈ unpairedExample, allBlank piece = false ∧ outer.Undivided piece := by
    simp only [← joined_iff_undivided]
    decide
  have closed : ∀ piece ∈ unpairedExample.dropLast, outer.after piece = outer := by decide
  exact ⟨by decide, each, closed,
    topLevel_decomposition.2 unpairedExample (by decide) each closed⟩

/-- Separators at both ends and in a row cut off pieces that are blank. -/
example : outer.cut ", a, , b, ".toList = [[], ['a'], [], ['b'], []] ∧
    topLevel ", a, , b, ".toList = [['a'], ['b']] := by
  decide

end Nesting

end TrustRules.Text
