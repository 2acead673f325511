import TrustRules.Proofs.Rule.Statement

/-!
# Arguments in any order

The arguments of a statement may come in any order, and arguments under unknown
keys may stand among them.  Main statements: a well-formed condition and a
well-formed action are read back from every such text, and no argument of it is
malformed.
-/

namespace TrustRules

open Text

/-! ## Arguments of a list -/

namespace Argument

/-- The key of an argument. -/
def key? : Argument → Option (List Char)
  | .pair key _ => some key
  | .malformed _ => none

theorem length_filterMap_value? (key : List Char) (arguments : List Argument) :
    (arguments.filterMap (value? key)).length = (arguments.filterMap key?).count key := by
  induction arguments with
  | nil => rfl
  | cons argument rest ih =>
      cases argument with
      | malformed text => exact ih
      | pair found value => by_cases same : found = key <;> simp [value?, key?, same, ih]

/-- Neither the order of arguments nor arguments under other keys change what a key finds. -/
theorem lastValue?_of_perm {key : List Char} {arguments own others : List Argument}
    (perm : arguments.Perm (own ++ others)) (distinct : (own.filterMap key?).Nodup)
    (other : key ∉ others.filterMap key?) :
    lastValue? key arguments = lastValue? key own := by
  -- with distinct keys there is at most one value, so its place does not matter
  have none : others.filterMap (value? key) = [] := by
    rw [← List.length_eq_zero_iff, length_filterMap_value?, List.count_eq_zero_of_not_mem other]
  have values := perm.filterMap (value? key)
  rw [List.filterMap_append, none, List.append_nil] at values
  have single := length_filterMap_value? key own
  rw [lastValue?, lastValue?]
  cases given : own.filterMap (value? key) with
  | nil =>
      rw [given, List.perm_nil] at values
      rw [values]
  | cons value more =>
      have atMostOne := List.nodup_iff_count.1 distinct key
      rw [given, List.length_cons] at single
      obtain rfl : more = [] := List.length_eq_zero_iff.1 (by omega)
      rw [given, List.perm_singleton] at values
      rw [values]

/-! ## Foreign arguments -/

/--
A complete argument whose key is none of those that are known.  The sign stands
nowhere before the end of the key.
-/
structure Foreign (sign : List Char) (known : List (List Char)) (piece : List Char) : Prop where
  complete : Nesting.Complete piece
  stated : ∃ key value, piece = key ++ (sign ++ value) ∧ ¬ sign <:+: key ++ sign.dropLast ∧
    trim key ∉ known

variable {sign : List Char} {known : List (List Char)} {piece : List Char}

theorem Foreign.ofPiece_eq (foreign : Foreign sign known piece) (some : sign ≠ []) :
    ∃ key value, ofPiece sign piece = .pair key value ∧ key ∉ known := by
  obtain ⟨key, value, rfl, first, unknown⟩ := foreign.stated
  refine ⟨trim key, value, ?_, unknown⟩
  rw [ofPiece, breakOn_append_of_first some first]

theorem Foreign.solid (foreign : Foreign sign known piece) (visible : allBlank sign = false) :
    allBlank piece = false := by
  obtain ⟨key, value, rfl, -⟩ := foreign.stated
  rw [allBlank_append, allBlank_append, visible, Bool.false_and, Bool.and_false]

/-- A foreign argument with blanks around its sign, which its key does not hold. -/
theorem foreign_spaced {key value : List Char} (some : sign ≠ []) (compact : ' ' ∉ sign)
    (complete : Nesting.Complete (key ++ ' ' :: (sign ++ ' ' :: value)))
    (free : ¬ sign <:+: key) (unknown : trim key ∉ known) :
    Foreign sign known (key ++ ' ' :: (sign ++ ' ' :: value)) := by
  refine ⟨complete, key ++ [' '], ' ' :: value, by simp, fun inside => ?_, ?_⟩
  · rw [List.append_assoc, List.singleton_append] at inside
    rcases isInfix_of_append_cons compact inside with inKey | inSign
    · exact free inKey
    · have shorter := inSign.length_le
      have positive := List.length_pos_iff.2 some
      rw [List.length_dropLast] at shorter
      omega
  · have core : trim (key ++ [' ']) = trim key := strip_append key (by decide)
    rwa [core]

/-- Some written arguments and foreign ones, in any order. -/
def Arranged (isExtra : List Char → Prop) (written pieces : List (List Char)) : Prop :=
  ∃ extras, pieces.Perm (written ++ extras) ∧ ∀ extra ∈ extras, isExtra extra

theorem Arranged.mono {isExtra isOther : List Char → Prop} {written pieces : List (List Char)}
    (arranged : Arranged isExtra written pieces) (also : ∀ extra, isExtra extra → isOther extra) :
    Arranged isOther written pieces := by
  obtain ⟨extras, perm, extra⟩ := arranged
  exact ⟨extras, perm, fun piece mem => also piece (extra piece mem)⟩

/-- What holds of all written arguments and of all extra ones holds of every piece. -/
theorem Arranged.forall_mem {isExtra holds : List Char → Prop} {written pieces : List (List Char)}
    (arranged : Arranged isExtra written pieces) (own : ∀ piece ∈ written, holds piece)
    (other : ∀ piece, isExtra piece → holds piece) : ∀ piece ∈ pieces, holds piece := by
  obtain ⟨extras, perm, extra⟩ := arranged
  intro piece mem
  rcases List.mem_append.1 (perm.mem_iff.1 mem) with isOwn | isOther
  · exact own piece isOwn
  · exact other piece (extra piece isOther)

/-- Arguments with different keys that are cut apart again, whatever order they come in. -/
structure Sound (sign : List Char) (written : List (List Char)) : Prop where
  complete : ∀ piece ∈ written, Nesting.Complete piece
  solid : ∀ piece ∈ written, allBlank piece = false
  paired : (written.map (ofPiece sign)).filterMap malformed? = []
  distinct : ((written.map (ofPiece sign)).filterMap key?).Nodup

variable {written pieces : List (List Char)}

theorem Sound.topLevel_arranged (sound : Sound sign written) (visible : allBlank sign = false)
    (arranged : Arranged (Foreign sign known) written pieces) :
    Nesting.topLevel (Mark.separator.intercalate pieces) = pieces :=
  Nesting.topLevel_of_complete
    (arranged.forall_mem sound.complete fun _ foreign => foreign.complete)
    (arranged.forall_mem sound.solid fun _ foreign => foreign.solid visible)

theorem Sound.lastValue?_arranged (sound : Sound sign written) (some : sign ≠ [])
    (arranged : Arranged (Foreign sign known) written pieces) {key : List Char}
    (mem : key ∈ known) :
    lastValue? key (pieces.map (ofPiece sign)) = lastValue? key (written.map (ofPiece sign)) := by
  obtain ⟨extras, perm, foreign⟩ := arranged
  have apart := perm.map (ofPiece sign)
  rw [List.map_append] at apart
  refine lastValue?_of_perm apart sound.distinct fun stated => ?_
  obtain ⟨argument, isExtra, isKey⟩ := List.mem_filterMap.1 stated
  obtain ⟨extra, among, rfl⟩ := List.mem_map.1 isExtra
  obtain ⟨found, value, read, unknown⟩ := (foreign extra among).ofPiece_eq some
  rw [read] at isKey
  obtain rfl : found = key := Option.some.inj isKey
  exact unknown mem

theorem Sound.malformed_arranged (sound : Sound sign written) (some : sign ≠ [])
    (arranged : Arranged (Foreign sign known) written pieces) :
    Clause.malformed (pieces.map (ofPiece sign)) = [] := by
  rw [Clause.malformed, List.map_eq_nil_iff, List.filterMap_eq_nil_iff, List.forall_mem_map]
  refine arranged.forall_mem (fun piece own => ?_) fun piece foreign => ?_
  · exact List.filterMap_eq_nil_iff.1 sound.paired _ (List.mem_map_of_mem own)
  · obtain ⟨key, value, read, _⟩ := foreign.ofPiece_eq some
    rw [read]
    rfl

end Argument

/-! ## Conditions -/

namespace Condition

/-- An argument that a condition does not know, without a bracket outside its quotes. -/
structure IsExtra (piece : List Char) : Prop where
  foreign : Argument.Foreign Mark.equals keys piece
  unbracketed : throughUnquoted ']' false piece = none

/-- The arguments of the condition and any that it does not know, in any order. -/
def Arranged (condition : Condition) (pieces : List (List Char)) : Prop :=
  Argument.Arranged IsExtra condition.arguments pieces

variable {condition : Condition} {pieces : List (List Char)}

theorem sound_arguments (wellFormed : condition.WellFormed) :
    Argument.Sound Mark.equals condition.arguments where
  complete _ mem := complete_of_mem_arguments wellFormed mem
  solid _ mem := solid_of_mem_arguments mem
  paired := by
    rw [map_ofPiece_arguments]
    rfl
  distinct := by
    rw [map_ofPiece_arguments]
    exact (by decide : keys.Nodup)

theorem Arranged.foreign (arranged : condition.Arranged pieces) :
    Argument.Arranged (Argument.Foreign Mark.equals keys) condition.arguments pieces :=
  arranged.mono fun _ extra => extra.foreign

theorem Arranged.argumentsOf_textOf (arranged : condition.Arranged pieces)
    (wellFormed : condition.WellFormed) :
    argumentsOf (textOf pieces) = pieces.map (Argument.ofPiece Mark.equals) :=
  Condition.argumentsOf_textOf
    ((sound_arguments wellFormed).topLevel_arranged (by decide) arranged.foreign)

/-- A condition is read back whatever order its arguments come in. -/
theorem Arranged.ofText?_textOf (arranged : condition.Arranged pieces)
    (wellFormed : condition.WellFormed) : ofText? (textOf pieces) = some condition := by
  have last {key : List Char} (mem : key ∈ keys) :
      Argument.lastValue? key (argumentsOf (textOf pieces)) =
        Argument.lastValue? key (argumentsOf condition.text) := by
    rw [arranged.argumentsOf_textOf wellFormed, argumentsOf_text wellFormed,
      ← map_ofPiece_arguments]
    exact (sound_arguments wellFormed).lastValue?_arranged (by decide) arranged.foreign mem
  rw [← ofText?_text wellFormed, ofText?, ofText?, ofArguments?, ofArguments?,
    last (by decide), last (by decide)]

theorem Arranged.unused_textOf (arranged : condition.Arranged pieces)
    (wellFormed : condition.WellFormed) : (Clause.condition (textOf pieces)).unused = [] := by
  rw [Clause.unused, arranged.argumentsOf_textOf wellFormed, arranged.ofText?_textOf wellFormed,
    (sound_arguments wellFormed).malformed_arranged (by decide) arranged.foreign]
  rfl

theorem Arranged.throughUnquoted_textOf (arranged : condition.Arranged pieces)
    (wellFormed : condition.WellFormed) (rest : List Char) :
    throughUnquoted ']' false (textOf pieces ++ rest) = some (textOf pieces, rest) := by
  refine Condition.throughUnquoted_textOf (arranged.forall_mem (fun piece own => ?_) ?_)
    (arranged.forall_mem (fun piece own => ?_) ?_) rest
  · exact (complete_of_mem_arguments wellFormed own).closed
  · exact fun piece extra => extra.foreign.complete.closed
  · exact throughUnquoted_of_mem_arguments wellFormed own
  · exact fun piece extra => extra.unbracketed

end Condition

/-! ## Actions -/

namespace Action

/-- The arguments of the action and any that it does not know, in any order. -/
def Arranged (action : Action) (pieces : List (List Char)) : Prop :=
  Argument.Arranged (Argument.Foreign Mark.assigns keys) action.arguments pieces

/-- The expression closes its quotes and parentheses, so that anything may follow it. -/
def Closed (action : Action) : Prop :=
  ∀ value ∈ action.param, Nesting.outer.after value.toList = .outer

instance (action : Action) : Decidable action.Closed :=
  inferInstanceAs (Decidable (∀ value ∈ action.param, Nesting.outer.after value.toList = .outer))

variable {action : Action} {pieces : List (List Char)}

theorem complete_of_mem_arguments (separable : action.Separable) (closed : action.Closed)
    {piece : List Char} (mem : piece ∈ action.arguments) : Nesting.Complete piece := by
  rw [arguments_eq, List.mem_append] at mem
  rcases mem with quoted | last
  · exact complete_of_mem_quotedArguments separable.toQuoted quoted
  · rw [Option.mem_toList, Option.map_eq_some_iff] at last
    obtain ⟨param, isParam, rfl⟩ := last
    have complete : Nesting.Complete param.toList :=
      ⟨(separable.param param isParam).2, closed param isParam⟩
    exact complete.plain_append (by decide)

/-- The arguments of an action stand under different keys. -/
theorem keys_pairs_sublist (action : Action) :
    (action.pairs.filterMap Argument.key?).Sublist keys := by
  have field (key : List Char) (value : Option (List Char)) :
      ((value.map (Argument.pair key)).toList.filterMap Argument.key?).Sublist [key] := by
    cases value with
    | none => exact List.nil_sublist _
    | some value => exact .refl _
  rw [pairs, List.filterMap_append, List.filterMap_append, List.filterMap_append]
  exact (((field _ _).append (field _ _)).append (field _ _)).append (field _ _)

theorem sound_arguments (separable : action.Separable) (closed : action.Closed) :
    Argument.Sound Mark.assigns action.arguments where
  complete _ mem := complete_of_mem_arguments separable closed mem
  solid _ mem := solid_of_mem_arguments mem
  paired := by
    rw [map_ofPiece_arguments, pairs]
    cases action.store <;> cases action.types <;> cases action.query <;> cases action.param <;> rfl
  distinct := by
    rw [map_ofPiece_arguments]
    exact (keys_pairs_sublist action).nodup (by decide)

theorem Arranged.argumentsOf_textOf (arranged : action.Arranged pieces)
    (separable : action.Separable) (closed : action.Closed) :
    argumentsOf (textOf pieces) = pieces.map (Argument.ofPiece Mark.assigns) :=
  Action.argumentsOf_textOf
    ((sound_arguments separable closed).topLevel_arranged (by decide) arranged)

/-- An action is read back whatever order its arguments come in. -/
theorem Arranged.ofText_textOf (arranged : action.Arranged pieces)
    (wellFormed : action.WellFormed) (closed : action.Closed) :
    ofText (textOf pieces) = action := by
  have separable := wellFormed.toSeparable
  have last {key : List Char} (mem : key ∈ keys) :
      Argument.lastValue? key (argumentsOf (textOf pieces)) =
        Argument.lastValue? key (argumentsOf action.text) := by
    rw [arranged.argumentsOf_textOf separable closed, argumentsOf_text separable,
      ← map_ofPiece_arguments]
    exact (sound_arguments separable closed).lastValue?_arranged (by decide) arranged mem
  have kept : action.unwrapped = action := unwrapped_eq_self_iff.2 wellFormed.firm
  calc ofText (textOf pieces)
      = ofText action.text := by
        rw [ofText, ofText, ofArguments, ofArguments, last (by decide), last (by decide),
          last (by decide), last (by decide)]
    _ = action := by rw [ofText_text separable, kept]

theorem Arranged.unused_textOf (arranged : action.Arranged pieces)
    (separable : action.Separable) (closed : action.Closed) :
    (Clause.action (textOf pieces)).unused = [] := by
  rw [Clause.unused, arranged.argumentsOf_textOf separable closed,
    (sound_arguments separable closed).malformed_arranged (by decide) arranged]

end Action

end TrustRules
