import TrustRules.Proofs.Printout.Entries

/-!
# Where entries stand

An output may be any text, with noise, open literals and pairs inside other
values.  Main statement: whatever is read from an output is printed there, with
its quotes doubled and an end behind it, and no two entries share a character.
So nothing is made up, and no quote gets lost on the way.
-/

namespace TrustRules

open Text

namespace Printout

/-! ## Occurrences -/

/-- A key and a value that are printed at a place of an output. -/
structure Occurrence where
  /-- The number of characters in front. -/
  place : Nat
  key : String
  value : String
  deriving DecidableEq, Repr

/-- Blanks lead to a character that ends a pair, or to the end of the output. -/
def Ended (s : List Char) : Prop :=
  ∃ blanks behind, s = blanks ++ behind ∧ (∀ b ∈ blanks, isBlank b = true) ∧
    ∀ c ∈ behind.head?, c ∈ [';', '\r', '\n', '\x7d']

theorem ended_of_terminates {s : List Char} (stops : terminates s = true) : Ended s := by
  rw [terminates_eq, Bool.or_eq_true] at stops
  rcases stops with separated | blank
  · obtain ⟨blanks, c, rest, rfl, allBlank, stops⟩ := separates_iff.1 separated
    refine ⟨blanks, c :: rest, rfl, allBlank, fun d first => ?_⟩
    obtain rfl : c = d := Option.some.inj first
    simpa [isStop, isBreak, or_comm, or_left_comm, or_assoc] using stops
  · exact ⟨s, [], (List.append_nil s).symm, allBlank_iff.1 blank, by simp⟩

namespace Occurrence

/-- What is read from the occurrence. -/
def entry (occurrence : Occurrence) : String × String :=
  (occurrence.key, occurrence.value)

/-- What is printed there. -/
def text (occurrence : Occurrence) : List Char :=
  Trust.printedPair occurrence.key occurrence.value

/-- The first occurrence ends where the second one starts, or earlier. -/
def Before (first second : Occurrence) : Prop :=
  first.place + first.text.length ≤ second.place

/-- The same occurrence behind more text. -/
def later (count : Nat) (occurrence : Occurrence) : Occurrence :=
  { occurrence with place := count + occurrence.place }

/-- The output shows the occurrence, whose key is a word, with an end behind it. -/
structure IsIn (output : List Char) (occurrence : Occurrence) : Prop where
  nonempty : occurrence.key.toList ≠ []
  word : ∀ c ∈ occurrence.key.toList, isWord c = true
  shown : ∃ front rest, output = front ++ occurrence.text ++ rest ∧
    front.length = occurrence.place ∧ Ended rest

theorem IsIn.later {output : List Char} {occurrence : Occurrence} (isIn : occurrence.IsIn output)
    (more : List Char) : (occurrence.later more.length).IsIn (more ++ output) := by
  obtain ⟨front, rest, rfl, place, ended⟩ := isIn.shown
  refine ⟨isIn.nonempty, isIn.word, more ++ front, rest, ?_, ?_, ended⟩
  · simp only [List.append_assoc]
    rfl
  · rw [List.length_append, place]
    rfl

theorem Before.later {first second : Occurrence} (before : first.Before second) (count : Nat) :
    (first.later count).Before (second.later count) := by
  have behind := Nat.add_le_add_left before count
  rwa [← Nat.add_assoc] at behind

end Occurrence

/-- The occurrences of some entries in an output, from left to right and without overlaps. -/
structure Locates (output : List Char) (occurrences : List Occurrence) : Prop where
  isIn : ∀ occurrence ∈ occurrences, occurrence.IsIn output
  apart : occurrences.Pairwise Occurrence.Before

theorem Locates.later {output : List Char} {occurrences : List Occurrence}
    (locates : Locates output occurrences) (more : List Char) :
    Locates (more ++ output) (occurrences.map (Occurrence.later more.length)) := by
  constructor
  · rw [List.forall_mem_map]
    exact fun occurrence mem => (locates.isIn occurrence mem).later more
  · exact locates.apart.map _ fun _ _ before => before.later more.length

theorem Locates.cons {output : List Char} {occurrences : List Occurrence} {key value : String}
    (locates : Locates output occurrences)
    (first : (Occurrence.mk 0 key value).IsIn (Trust.printedPair key value ++ output)) :
    Locates (Trust.printedPair key value ++ output)
      (⟨0, key, value⟩ :: occurrences.map
        (Occurrence.later (Trust.printedPair key value).length)) := by
  have behind := locates.later (Trust.printedPair key value)
  refine ⟨List.forall_mem_cons.2 ⟨first, behind.isIn⟩,
    List.pairwise_cons.2 ⟨?_, behind.apart⟩⟩
  rw [List.forall_mem_map]
  intro occurrence _
  rw [Occurrence.Before, Nat.zero_add]
  exact Nat.le_add_right _ _

/-- A pair at the front of a text is an occurrence at its start. -/
theorem exists_occurrence_of_pairAt? {s key value rest : List Char}
    (found : pairAt? s = some ((key, value), rest)) :
    s = Trust.printedPair (String.ofList key) (String.ofList value) ++ rest ∧
      (Occurrence.mk 0 (String.ofList key) (String.ofList value)).IsIn s := by
  obtain ⟨rfl, some, word, -, stops⟩ := eq_of_pairAt? found
  have shape : '\'' :: key ++ between ++ Quoted.double value ++ '\'' :: rest =
      Trust.printedPair (String.ofList key) (String.ofList value) ++ rest := by
    rw [Trust.printedPair_append, String.toList_ofList, String.toList_ofList]
    simp only [List.cons_append, List.append_assoc]
  refine ⟨shape, ?_, ?_, [], rest, shape, rfl, ended_of_terminates stops⟩
  · rwa [String.toList_ofList]
  · rwa [String.toList_ofList]

/-- The pairs that are found in a text have occurrences in it. -/
theorem exists_occurrences (s : List Char) :
    ∃ occurrences, occurrences.map Occurrence.entry = (pairs s).map itemOf ∧
      Locates s occurrences := by
  fun_induction pairs s with
  | case1 => exact ⟨[], rfl, by simp, .nil⟩
  | case2 c rest pair following found ih =>
      obtain ⟨occurrences, entries, locates⟩ := ih
      obtain ⟨key, value⟩ := pair
      obtain ⟨shape, first⟩ := exists_occurrence_of_pairAt? found
      rw [shape] at first ⊢
      refine ⟨_, ?_, locates.cons first⟩
      rw [List.map_cons, List.map_cons, ← entries, List.map_map]
      rfl
  | case3 c rest _ ih =>
      obtain ⟨occurrences, entries, locates⟩ := ih
      refine ⟨_, ?_, locates.later [c]⟩
      rw [← entries, List.map_map]
      rfl

/-! ## The entries of a printout -/

/-- Of the entries that are put into a printout, some stay, in their order. -/
theorem entries_storing_sublist (items : List (String × String)) :
    (storing items).entries.Sublist items := by
  induction items using List.reverseRecOn with
  | nil => exact .slnil
  | append_singleton items item ih =>
      rw [storing_append_singleton]
      exact (List.filter_sublist.trans ih).append (.refl [item])

theorem keys_insert (printout : Printout) (key value : String) :
    (printout.insert key value).keys = printout.keys.filter (· != key) ++ [key] := by
  rw [keys, insert, List.map_append, keys, List.filter_map]
  rfl

theorem nodup_keys_storing (items : List (String × String)) : (storing items).keys.Nodup := by
  induction items using List.reverseRecOn with
  | nil => exact .nil
  | append_singleton items item ih =>
      rw [storing_append_singleton, keys_insert, List.nodup_append]
      refine ⟨ih.filter _, List.nodup_singleton _, fun old kept new isNew => ?_⟩
      rw [List.mem_singleton] at isNew
      rw [isNew]
      simpa using (List.mem_filter.1 kept).2

/--
The entries that are read from an output have different keys and stand in the
output from left to right, each behind the end of the one before it.
-/
theorem entries_ofText_located (output : String) :
    (ofText output).keys.Nodup ∧
      ∃ occurrences : List Occurrence,
        occurrences.map Occurrence.entry = (ofText output).entries ∧
          (∀ occurrence ∈ occurrences, occurrence.IsIn output.toList) ∧
          occurrences.Pairwise Occurrence.Before := by
  obtain ⟨occurrences, entries, locates⟩ := exists_occurrences output.toList
  have read : ofText output = storing (occurrences.map Occurrence.entry) := by
    rw [ofText_eq_storing, entries]
  have kept := entries_storing_sublist (occurrences.map Occurrence.entry)
  rw [← read] at kept
  obtain ⟨chosen, among, same⟩ := List.sublist_map_iff.1 kept
  refine ⟨?_, chosen, same.symm, fun occurrence mem => ?_, locates.apart.sublist among⟩
  · rw [read]
    exact nodup_keys_storing _
  · exact locates.isIn occurrence (among.subset mem)

end Printout

end TrustRules
