import TrustRules.Block.Argument
import TrustRules.Proofs.Text.Lines
import TrustRules.Proofs.Text.Marks
import TrustRules.Proofs.Text.Pieces
import TrustRules.Rule.Printer

/-!
# Written values

Values are written in double quotes or as they are, behind a key and a sign.
A value without quotes in it, once in quotes, hides all it holds from the cut
into arguments, and it is itself again when it is unwrapped.
-/

namespace TrustRules

open Text

/-! ## Values -/

namespace Text

/-- A text within one line that starts and ends with neither a blank nor a quote. -/
def Bare (s : List Char) : Prop :=
  '\n' ∉ s ∧ Firm isWrapping s

/-- A text within one line that can stand between double quotes. -/
def Quotable (s : List Char) : Prop :=
  '"' ∉ s ∧ '\n' ∉ s ∧ Firm isBlank s

instance (s : List Char) : Decidable (Bare s) :=
  inferInstanceAs (Decidable (_ ∧ _))

instance (s : List Char) : Decidable (Quotable s) :=
  inferInstanceAs (Decidable (_ ∧ _))

theorem Quotable.bare {s : List Char} (quotable : Quotable s) : Bare s :=
  ⟨quotable.2.1, quotable.2.2.isWrapping_of_isBlank quotable.1⟩

end Text

/-- All values of the action that stand in quotes have a property. -/
structure Action.Quoted (p : List Char → Prop) (action : Action) : Prop where
  store : ∀ value ∈ action.store, p value.toList
  types : ∀ list ∈ action.types, ∀ type ∈ list, p type.toList
  query : ∀ value ∈ action.query, p value.toList

instance (p : List Char → Prop) [DecidablePred p] (action : Action) :
    Decidable (action.Quoted p) :=
  decidable_of_iff
    ((∀ value ∈ action.store, p value.toList) ∧
      (∀ list ∈ action.types, ∀ type ∈ list, p type.toList) ∧
      ∀ value ∈ action.query, p value.toList)
    ⟨fun ⟨store, types, query⟩ => ⟨store, types, query⟩,
      fun ⟨store, types, query⟩ => ⟨store, types, query⟩⟩

/-- A value in quotes is itself again when it is unwrapped. -/
theorem bare_append_wrapped (front : List Char) (wrapping : ∀ c ∈ front, isWrapping c = true)
    {value : String} (firm : Firm isWrapping value.toList) :
    String.ofList (bare (front ++ wrapped value)) = value := by
  have opened : ∀ c ∈ front ++ ['"'], isWrapping c = true := by
    intro c mem
    rcases List.mem_append.1 mem with early | late
    · exact wrapping c early
    · rw [List.mem_singleton.1 late]
      decide
  have closed : ∀ c ∈ ['"'], isWrapping c = true := by decide
  have shape : front ++ wrapped value = front ++ ['"'] ++ value.toList ++ ['"'] := by
    simp [wrapped]
  rw [bare, shape, strip_append_append opened firm closed, String.ofList_toList]

/-- The same behind a blank, as values stand behind their marks and signs. -/
theorem bare_blank_cons_wrapped {value : String} (firm : Firm isWrapping value.toList) :
    String.ofList (bare (' ' :: wrapped value)) = value :=
  bare_append_wrapped [' '] (by decide) firm

/-- A value behind a blank is unwrapped to the same as without it. -/
theorem bare_blank_cons (s : List Char) : bare (' ' :: s) = bare s := by
  simpa [bare] using @strip_around isWrapping [' '] [] s (by decide) (by simp)

/-- Unwrapping keeps exactly the values that start and end with neither a blank nor a quote. -/
theorem ofList_bare_eq_iff {value : String} :
    String.ofList (bare value.toList) = value ↔ Firm isWrapping value.toList := by
  constructor
  · intro same
    rw [← same, String.toList_ofList]
    exact firm_strip isWrapping value.toList
  · intro firm
    rw [bare, strip_eq_self firm, String.ofList_toList]

/-- Fixed wording within one line holds no character that breaks lines. -/
theorem not_mem_of_breaks {c : Char} (breaks : Header.isLineBreak c = true) {wording : List Char}
    (single : wording.any Header.isLineBreak = false) : c ∉ wording := by
  intro mem
  rw [List.any_eq_false] at single
  exact single c mem breaks

theorem not_mem_wrapped {c : Char} (breaks : Header.isLineBreak c = true) {value : String}
    (free : c ∉ value.toList) : c ∉ wrapped value := by
  have quote : c ∉ ['"'] := not_mem_of_breaks breaks rfl
  exact List.not_mem_append (List.not_mem_append quote free) quote

/-- A mark with a value in quotes behind it breaks no line if neither does. -/
theorem not_mem_append_wrapped {c : Char} (breaks : Header.isLineBreak c = true)
    {mark : List Char} (single : mark.any Header.isLineBreak = false) {value : String}
    (free : c ∉ value.toList) : c ∉ mark ++ ' ' :: wrapped value := by
  rw [List.mem_append, List.mem_cons, not_or, not_or]
  have blank : c ∉ [' '] := not_mem_of_breaks breaks rfl
  exact ⟨not_mem_of_breaks breaks single, List.ne_of_not_mem_cons blank,
    not_mem_wrapped breaks free⟩

theorem mem_intercalate {sep : List Char} {ls : List (List Char)} {c : Char}
    (mem : c ∈ sep.intercalate ls) : c ∈ sep ∨ ∃ l ∈ ls, c ∈ l := by
  induction ls with
  | nil => cases mem
  | cons l ls ih =>
      by_cases last : ls = []
      · rw [last, List.intercalate_singleton] at mem
        exact .inr ⟨l, List.mem_cons_self, mem⟩
      · rw [List.intercalate_cons_of_ne_nil last, List.mem_append, List.mem_append] at mem
        rcases mem with (inFirst | inSep) | later
        · exact .inr ⟨l, List.mem_cons_self, inFirst⟩
        · exact .inl inSep
        · rcases ih later with inSep | ⟨other, isLine, inLine⟩
          · exact .inl inSep
          · exact .inr ⟨other, List.mem_cons_of_mem l isLine, inLine⟩

/-- A list of pieces between two marks breaks no line if none of its pieces does. -/
theorem not_mem_between {c : Char} (breaks : Header.isLineBreak c = true)
    {opening closing : List Char} {pieces : List (List Char)} (start : c ∉ opening)
    (stop : c ∉ closing) (free : ∀ piece ∈ pieces, c ∉ piece) :
    c ∉ opening ++ Mark.separator.intercalate pieces ++ closing := by
  intro mem
  rw [List.mem_append, List.mem_append] at mem
  rcases mem with (inOpening | inside) | inClosing
  · exact start inOpening
  · rcases mem_intercalate inside with inSep | ⟨piece, isPiece, inPiece⟩
    · exact not_mem_of_breaks breaks rfl inSep
    · exact free piece isPiece inPiece
  · exact stop inClosing

/-! ## Arguments -/

namespace Text.Nesting

/-- A text without a separator at its top level that closes all it opens. -/
structure Complete (s : List Char) : Prop where
  joined : outer.Joined s
  closed : outer.after s = outer

/-- Complete texts that are put together are cut apart again. -/
theorem topLevel_of_complete {pieces : List (List Char)}
    (complete : ∀ piece ∈ pieces, Complete piece)
    (solid : ∀ piece ∈ pieces, allBlank piece = false) :
    topLevel (Mark.separator.intercalate pieces) = pieces :=
  topLevel_intercalate (fun piece mem => (complete piece mem).joined)
    (fun piece mem => (complete piece (List.dropLast_subset _ mem)).closed) solid

/-- A plain key in front of a complete text makes a complete argument. -/
theorem Complete.plain_append {key s : List Char} (complete : Complete s)
    (plain : ∀ c ∈ key, isPlain c = true) : Complete (key ++ s) := by
  obtain ⟨same, joined⟩ := scan_plain outer plain s
  exact ⟨joined.2 complete.joined, same.trans complete.closed⟩

theorem complete_wrapped {value : String} (unquoted : '"' ∉ value.toList) :
    Complete (wrapped value) := by
  obtain ⟨same, joined⟩ := scan_wrapped 0 unquoted []
  exact ⟨joined.2 trivial, same⟩

/-- Below a parenthesis a list of values in quotes is passed over whole. -/
theorem scan_types {depth : Nat} (below : depth ≠ 0) {types : List String}
    (unquoted : ∀ type ∈ types, '"' ∉ type.toList) (t : List Char) :
    (Nesting.mk false depth).after (Mark.separator.intercalate (types.map wrapped) ++ t) =
        (Nesting.mk false depth).after t ∧
      ((Nesting.mk false depth).Joined (Mark.separator.intercalate (types.map wrapped) ++ t) ↔
        (Nesting.mk false depth).Joined t) := by
  have one : ∀ type ∈ types, ∀ t : List Char,
      (Nesting.mk false depth).after (wrapped type ++ t) = (Nesting.mk false depth).after t ∧
        ((Nesting.mk false depth).Joined (wrapped type ++ t) ↔
          (Nesting.mk false depth).Joined t) := by
    intro type mem t
    have scanned := scan_wrapped depth (unquoted type mem) t
    rwa [show '"' :: type.toList ++ '"' :: t = wrapped type ++ t by simp [wrapped]] at scanned
  induction types with
  | nil => exact ⟨rfl, Iff.rfl⟩
  | cons type rest ih =>
      by_cases last : rest = []
      · rw [last, List.map_singleton, List.intercalate_singleton]
        exact one type List.mem_cons_self t
      · have more : rest.map wrapped ≠ [] := fun empty => last (List.map_eq_nil_iff.1 empty)
        rw [List.map_cons, List.intercalate_cons_of_ne_nil more, List.append_assoc,
          List.append_assoc]
        obtain ⟨first, firstJoined⟩ := one type List.mem_cons_self
          (Mark.separator ++ (Mark.separator.intercalate (rest.map wrapped) ++ t))
        obtain ⟨second, secondJoined⟩ := scan_separator below
          (Mark.separator.intercalate (rest.map wrapped) ++ t)
        obtain ⟨third, thirdJoined⟩ := ih
          (fun other mem => unquoted other (List.mem_cons_of_mem type mem))
          (fun other mem => one other (List.mem_cons_of_mem type mem))
        exact ⟨(first.trans second).trans third,
          (firstJoined.trans secondJoined).trans thirdJoined⟩

theorem complete_typesText {types : List String}
    (unquoted : ∀ type ∈ types, '"' ∉ type.toList) : Complete (Action.typesText types) := by
  obtain ⟨same, joined⟩ := scan_types (show 1 ≠ 0 by decide) unquoted [')']
  have shape : Action.typesText types =
      '(' :: (Mark.separator.intercalate (types.map wrapped) ++ [')']) := by
    simp [Action.typesText, Mark.typesStart, Mark.typesEnd]
  rw [shape]
  constructor
  · refine ⟨fun comma => absurd comma.2.1 (by decide), joined.2 ?_⟩
    exact ⟨fun comma => absurd comma.2.1 (by decide), trivial⟩
  · exact same

end Text.Nesting

namespace Argument

/-- An argument whose key does not hold the sign is cut at its sign. -/
theorem ofPiece_append {m : Char} (mark : List Char) {key : List Char} (free : m ∉ key)
    (value : List Char) :
    ofPiece (m :: mark) (key ++ (m :: mark ++ value)) = .pair (trim key) value := by
  rw [ofPiece, breakOn_append free]

/-- The values under a key in a list with at most one argument. -/
theorem filterMap_value?_toList (key other : List Char) (value : Option (List Char)) :
    ((value.map (pair other)).toList).filterMap (value? key) =
      if other = key then value.toList else [] := by
  cases value with
  | none => simp
  | some value => by_cases same : other = key <;> simp [value?, same]

end Argument

end TrustRules
