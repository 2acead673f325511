import TrustRules.Proofs.Block.Clauses
import TrustRules.Proofs.Text.Padding

/-!
# Padded blocks

The blocks of a paired text without padding are its blocks without padding.
A block states the same clauses with and without padding, so neither its draft
nor its diagnostics depend on it.
-/

namespace TrustRules

open Text

/-- Lists whose elements are replaced by such of the same kind are split alike. -/
theorem splitOnP_map {α β : Type} {f : α → β} {p : β → Bool} {q : α → Bool} {xs : List α}
    (same : ∀ x ∈ xs, p (f x) = q x) :
    (xs.map f).splitOnP p = (xs.splitOnP q).map (List.map f) := by
  induction xs with
  | nil => rfl
  | cons x xs ih =>
      have later := ih fun y mem => same y (List.mem_cons_of_mem x mem)
      rw [List.map_cons, List.splitOnP_cons_eq_if_modifyHead, List.splitOnP_cons_eq_if_modifyHead,
        same x List.mem_cons_self, later]
      split
      · rfl
      · cases xs.splitOnP q <;> rfl

namespace Block

/-! ## Blank lines -/

theorem isPadding_of_isBlankLine {l : List Char} (blank : isBlankLine l = true) :
    ∀ c ∈ l, isPadding c = true := by
  obtain ⟨spaces, back, rfl, spacing, isReturn⟩ := isBlankLine_iff.1 blank
  intro c mem
  rcases List.mem_append.1 mem with early | late
  · rw [isPadding, spacing c early]
    rfl
  · rcases isReturn with rfl | rfl
    · cases late
    · rw [List.mem_singleton.1 late]
      rfl

/-- A line with no return but at its end is blank if it is all padding. -/
theorem isBlankLine_of_isPadding {l : List Char}
    (returns : '\r' ∉ l ∨ ∃ front, '\r' ∉ front ∧ l = front ++ ['\r'])
    (padding : ∀ c ∈ l, isPadding c = true) : isBlankLine l = true := by
  have spacing : ∀ front : List Char, '\r' ∉ front → (∀ c ∈ front, isPadding c = true) →
      ∀ c ∈ front, isSpacing c = true := by
    intro front noReturn isPad c mem
    have here := isPad c mem
    rw [isPadding, Bool.or_eq_true, beq_iff_eq] at here
    rcases here with spacing | rfl
    · exact spacing
    · exact absurd mem noReturn
  refine isBlankLine_iff.2 ?_
  rcases returns with noReturn | ⟨front, noReturn, rfl⟩
  · exact ⟨l, [], (List.append_nil l).symm, spacing l noReturn padding, .inl rfl⟩
  · exact ⟨front, ['\r'], rfl,
      spacing front noReturn fun c mem => padding c (List.mem_append_left _ mem), .inr rfl⟩

/-- Whether a line of a paired text is blank does not depend on its padding. -/
theorem isBlankLine_unpadded {s l : List Char} (paired : ReturnsPaired s) (mem : l ∈ lines s) :
    isBlankLine (unpadded l) = isBlankLine l := by
  have single := not_mem_of_mem_lines mem
  have returns : '\r' ∉ l ∨ ∃ front, '\r' ∉ front ∧ l = front ++ ['\r'] := by
    obtain ⟨before, after, rfl, _⟩ := exists_append_of_mem_lines mem
    rw [List.append_assoc] at paired
    rcases paired.of_append.line single with none | ⟨front, noReturn, isEnd, _⟩
    · exact .inl none
    · exact .inr ⟨front, noReturn, isEnd⟩
  rw [unpadded_of_not_mem single, Bool.eq_iff_iff]
  constructor
  · intro blank
    have nothing : strip isPadding l = [] := by
      rw [← strip_eq_self (firm_strip isPadding l)]
      exact strip_eq_nil_iff.2 (isPadding_of_isBlankLine blank)
    exact isBlankLine_of_isPadding returns (strip_eq_nil_iff.1 nothing)
  · intro blank
    rw [strip_eq_nil_iff.2 (isPadding_of_isBlankLine blank)]
    rfl

/-! ## Blocks -/

theorem trimmed_map_unpadded (pieces : List (List Char)) :
    trimmed (pieces.map unpadded) = (trimmed pieces).map unpadded := by
  induction pieces with
  | nil => rfl
  | cons piece rest ih =>
      have first : trimmed [unpadded piece] = (trimmed [piece]).map unpadded := by
        cases blank : allBlank piece with
        | true =>
            have blankToo : allBlank (unpadded piece) = true := by rw [allBlank_unpadded, blank]
            rw [trimmed_blank (allBlank_iff.1 blank), trimmed_blank (allBlank_iff.1 blankToo)]
            rfl
        | false =>
            have visible : allBlank (unpadded piece) = false := by rw [allBlank_unpadded, blank]
            rw [trimmed_of_not_blank blank, trimmed_of_not_blank visible, trim_unpadded]
            rfl
      rw [List.map_cons, trimmed_cons, first, ih, trimmed_cons piece rest, List.map_append]

/-- The blocks of a paired text lose their padding with the text. -/
theorem ofText_unpadded {s : List Char} (paired : ReturnsPaired s) :
    ofText (unpadded s) = (ofText s).map unpadded := by
  have groups : ((lines s).map unpadded).splitOnP isBlankLine =
      ((lines s).splitOnP isBlankLine).map (List.map unpadded) :=
    splitOnP_map fun l mem => isBlankLine_unpadded paired mem
  have joined (groups : List (List (List Char))) :
      (groups.map (List.map unpadded)).map ['\n'].intercalate =
        (groups.map ['\n'].intercalate).map unpadded := by
    rw [List.map_map, List.map_map]
    exact List.map_congr_left fun group _ => intercalate_map_unpadded group
  rw [ofText_eq_ofLines, lines_unpadded_eq_map, ofLines, groups, joined, trimmed_map_unpadded,
    ofText_eq_ofLines, ofLines]

/-- A block of a paired text is paired. -/
theorem IsBlock.returnsPaired {text block : List Char} (isBlock : IsBlock text block)
    (paired : ReturnsPaired text) : ReturnsPaired block := by
  obtain ⟨before, after, whole⟩ := isBlock.inside
  refine returnsPaired_iff.2 ?_
  rintro front rest rfl
  rw [← whole] at paired
  have shape : before ++ (front ++ '\r' :: rest) ++ after =
      (before ++ front) ++ '\r' :: (rest ++ after) := by simp
  rw [shape] at paired
  have next := paired.behind
  cases rest with
  | nil => exact absurd (isBlock.firm.2 '\r' (by simp)) (by decide)
  | cons c rest => exact next

/-! ## Clauses -/

theorem clauses_unpadded (block : List Char) : clauses (unpadded block) = clauses block := by
  rw [clauses, lines_unpadded, List.zipIdx_map, List.flatMap_map, clauses]
  refine List.flatMap_congr fun line _ => ?_
  rw [Prod.map_fst, Prod.map_snd, id, Clause.ofLine_congr (trim_strip line.1)]

theorem draft_unpadded (block : List Char) : draft (unpadded block) = draft block := by
  rw [draft, clauses_unpadded, draft]

theorem diagnostics_unpadded (place : Nat) (block : List Char) :
    diagnostics place (unpadded block) = diagnostics place block := by
  rw [diagnostics, draft_unpadded, clauses_unpadded, diagnostics]

end Block

end TrustRules
