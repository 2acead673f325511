import Mathlib.Data.List.Basic
import TrustRules.Text.Break

/-!
# Marks that are found again

A mark that was put between, before or behind texts is found where it was put,
as far as the text in front of it does not hold its first character.
-/

namespace TrustRules.Text

theorem isPrefixOf?_eq_none_iff {mark s : List Char} :
    mark.isPrefixOf? s = none ↔ ¬ mark <+: s := by
  rw [← Option.not_isSome_iff_eq_none, List.isSome_isPrefixOf?_eq_isPrefixOf,
    List.isPrefixOf_iff_prefix]

/-- A text that starts with a mark is broken there. -/
theorem breakOn_append_self {mark : List Char} (some : mark ≠ []) (rest : List Char) :
    breakOn mark (mark ++ rest) = Option.some ([], rest) := by
  obtain ⟨m, others, rfl⟩ := List.exists_cons_of_ne_nil some
  have found : (m :: others).isPrefixOf? (m :: (others ++ rest)) = Option.some rest :=
    List.isPrefixOf?_eq_some_iff_append_eq.2 rfl
  rw [List.cons_append, breakOn, found]

/-- A text is broken at a mark whose first character does not stand before it. -/
theorem breakOn_append {m : Char} {mark key : List Char} (free : m ∉ key) (rest : List Char) :
    breakOn (m :: mark) (key ++ (m :: mark ++ rest)) = some (key, rest) := by
  induction key with
  | nil => exact breakOn_append_self (List.cons_ne_nil m mark) rest
  | cons c key ih =>
      rw [List.mem_cons, not_or] at free
      have notHere : (m :: mark).isPrefixOf? (c :: (key ++ (m :: mark ++ rest))) = none :=
        isPrefixOf?_eq_none_iff.2 fun starts => free.1 (List.cons_prefix_cons.1 starts).1
      rw [List.cons_append, breakOn, notHere, ih free.2]
      rfl

/-- A text is broken at a mark if the text in front neither holds nor starts an earlier one. -/
theorem breakOn_append_of_first {mark key : List Char} (some : mark ≠ [])
    (first : ¬ mark <:+: key ++ mark.dropLast) (rest : List Char) :
    breakOn mark (key ++ (mark ++ rest)) = Option.some (key, rest) := by
  induction key with
  | nil => exact breakOn_append_self some rest
  | cons c key ih =>
      have later : ¬ mark <:+: key ++ mark.dropLast := fun inside =>
        first (inside.trans (List.suffix_cons c _).isInfix)
      have notHere : mark.isPrefixOf? (c :: (key ++ (mark ++ rest))) = none := by
        refine isPrefixOf?_eq_none_iff.2 fun starts => ?_
        have inFront : c :: key ++ mark.dropLast <+: c :: key ++ (mark ++ rest) :=
          (List.prefix_append_right_inj _).2
            ((List.dropLast_prefix mark).trans (List.prefix_append mark rest))
        have shorter : mark.length ≤ (c :: key ++ mark.dropLast).length := by
          rw [List.length_append, List.length_dropLast, List.length_cons]
          omega
        exact first (List.prefix_of_prefix_length_le starts inFront shorter).isInfix
      rw [List.cons_append, breakOn, notHere, ih later]
      rfl

theorem dropOpening_append (mark s : List Char) : dropOpening mark (mark ++ s) = s := by
  rw [dropOpening, List.isPrefixOf?_eq_some_iff_append_eq.2 rfl]
  rfl

theorem dropClosing_append (s mark : List Char) : dropClosing mark (s ++ mark) = s := by
  rw [dropClosing, List.isSuffixOf?_eq_some_iff_append_eq.2 rfl]
  rfl

/-- What stands between two marks is left when both are dropped. -/
theorem dropClosing_dropOpening_append (opening s closing : List Char) :
    dropClosing closing (dropOpening opening (opening ++ s ++ closing)) = s := by
  rw [List.append_assoc, dropOpening_append, dropClosing_append]

/-! ## Marks inside a text -/

theorem isPrefix_of_append_cons {mark front rest : List Char} {c : Char} (other : c ∉ mark)
    (starts : mark <+: front ++ c :: rest) : mark <+: front := by
  by_cases long : (front ++ [c]).length ≤ mark.length
  · have whole : front ++ [c] <+: front ++ c :: rest := ⟨rest, by simp⟩
    have held := (List.prefix_of_prefix_length_le whole starts long).subset
    exact absurd (held (by simp)) other
  · refine List.prefix_of_prefix_length_le starts (List.prefix_append front _) ?_
    rw [List.length_append, List.length_singleton] at long
    omega

/-- A mark does not stand across a character that it does not hold. -/
theorem isInfix_of_append_cons {mark front rest : List Char} {c : Char} (other : c ∉ mark)
    (inside : mark <:+: front ++ c :: rest) : mark <:+: front ∨ mark <:+: rest := by
  induction front with
  | nil =>
      rcases List.infix_cons_iff.1 inside with starts | later
      · exact .inl (@isPrefix_of_append_cons mark [] rest c other starts).isInfix
      · exact .inr later
  | cons d front ih =>
      rcases List.infix_cons_iff.1 inside with starts | later
      · exact .inl (@isPrefix_of_append_cons mark (d :: front) rest c other starts).isInfix
      · exact (ih later).imp_left fun found => found.trans (List.suffix_cons d front).isInfix

/-! ## Nothing is added -/

theorem isSuffix_of_isPrefixOf? {mark s rest : List Char}
    (found : mark.isPrefixOf? s = some rest) : rest <:+ s :=
  ⟨mark, List.append_eq_of_isPrefixOf?_eq_some found⟩

/-- The two parts, with the mark between them, are the text. -/
theorem append_of_breakOn {mark s before after : List Char}
    (found : breakOn mark s = some (before, after)) : before ++ mark ++ after = s := by
  induction s generalizing before after with
  | nil =>
      cases mark with
      | nil => simp_all [breakOn]
      | cons m mark => simp [breakOn] at found
  | cons c rest ih =>
      rw [breakOn] at found
      cases starts : mark.isPrefixOf? (c :: rest) with
      | some tail =>
          simp only [starts, Option.some.injEq, Prod.mk.injEq] at found
          obtain ⟨rfl, rfl⟩ := found
          simpa using List.append_eq_of_isPrefixOf?_eq_some starts
      | none =>
          simp only [starts, Option.map_eq_some_iff, Prod.mk.injEq, Prod.exists] at found
          obtain ⟨front, tail, later, rfl, rfl⟩ := found
          simpa using ih later

theorem subset_of_breakOn {mark s before after : List Char}
    (found : breakOn mark s = some (before, after)) : before ⊆ s ∧ after ⊆ s := by
  rw [← append_of_breakOn found, List.append_assoc]
  exact ⟨List.subset_append_left _ _,
    fun c mem => List.mem_append_right _ (List.mem_append_right _ mem)⟩

theorem dropOpening_isSuffix (mark s : List Char) : dropOpening mark s <:+ s := by
  unfold dropOpening
  cases found : mark.isPrefixOf? s with
  | none => exact List.suffix_refl s
  | some rest => exact isSuffix_of_isPrefixOf? found

theorem dropClosing_isPrefix (mark s : List Char) : dropClosing mark s <+: s := by
  unfold dropClosing
  cases found : mark.isSuffixOf? s with
  | none => exact List.prefix_refl s
  | some rest => exact ⟨mark, List.append_eq_of_isSuffixOf?_eq_some found⟩

/-- What stands between two marks stands in the text. -/
theorem dropClosing_dropOpening_isInfix (opening closing s : List Char) :
    dropClosing closing (dropOpening opening s) <:+: s :=
  (dropClosing_isPrefix closing _).isInfix.trans (dropOpening_isSuffix opening s).isInfix

/-! ## Texts without a mark -/

/-- A text that does not break at a mark does not hold it. -/
theorem breakOn_eq_none_iff {mark s : List Char} : breakOn mark s = none ↔ ¬ mark <:+: s := by
  induction s with
  | nil => cases mark <;> simp [breakOn]
  | cons c rest ih =>
      rw [breakOn, List.infix_cons_iff, not_or, ← isPrefixOf?_eq_none_iff, ← ih]
      cases mark.isPrefixOf? (c :: rest) <;> simp

end TrustRules.Text
