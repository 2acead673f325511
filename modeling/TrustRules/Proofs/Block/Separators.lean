import TrustRules.Proofs.Block.Runs
import TrustRules.Proofs.Text.Pattern

/-!
# Separators by search

A text is cut at what a search for blank lines finds.  The pattern has one way
to match at most, so preferences have no influence on where that is.  Main
statement: a text has one piece more than the search finds separators.
-/

namespace TrustRules

open Text
open scoped Computability

namespace Block

/-! ## The pattern -/

/-- A line feed, with or without a carriage return before it. -/
def breakPattern : Pattern :=
  .both (.either (.one fun c => c == '\r') .nothing) (.one fun c => c == '\n')

/-- A line break, spaces and tabs, and a second line break. -/
def separatorPattern : Pattern :=
  .both breakPattern (.both (.many (.one isSpacing)) breakPattern)

/-- The texts that break a line. -/
def breaks : Language Char :=
  (Pattern.singles (fun c => c == '\r') + 1) * Pattern.singles fun c => c == '\n'

theorem spells_breakPattern : breakPattern.Spells breaks :=
  ((Pattern.spells_one _).either Pattern.spells_nothing).both (Pattern.spells_one _)

theorem mem_breaks {word : List Char} :
    word ∈ breaks ↔ ∃ back, IsReturn back ∧ word = back ++ ['\n'] := by
  constructor
  · rintro ⟨back, isReturn, _, ⟨d, feed, rfl⟩, rfl⟩
    rw [beq_iff_eq.1 feed]
    refine ⟨back, ?_, rfl⟩
    rcases isReturn with ⟨c, same, rfl⟩ | rfl
    · exact .inr (by rw [beq_iff_eq.1 same])
    · exact .inl rfl
  · rintro ⟨back, isReturn, rfl⟩
    refine Language.append_mem_mul ?_ ⟨'\n', rfl, rfl⟩
    rcases isReturn with rfl | rfl
    · exact .inr rfl
    · exact .inl ⟨'\r', rfl, rfl⟩

/-- The pattern matches where a separator starts, and leaves what follows it. -/
theorem mem_ways_separatorPattern {s : List Char} {way : Pattern.Way} :
    way ∈ separatorPattern.ways s ↔ way.parts = [] ∧ separator? s = some way.rest := by
  have spacing := (Pattern.spells_one isSpacing).many
  rw [separatorPattern, spells_breakPattern.mem_ways_both, separator?_eq_some_iff]
  simp only [spacing.mem_ways_both, spells_breakPattern _ way, mem_breaks,
    Pattern.mem_singles_kstar]
  constructor
  · rintro ⟨_, ⟨back, isReturn, rfl⟩, _, rfl, spaces, spaced, _, rfl, none, _,
      ⟨inner, innerReturn, rfl⟩, rfl⟩
    refine ⟨none, back, spaces ++ inner, isReturn, ?_, by simp⟩
    exact isBlankLine_iff.2 ⟨spaces, inner, rfl, spaced, innerReturn⟩
  · rintro ⟨none, back, gap, isReturn, blank, rfl⟩
    obtain ⟨spaces, inner, rfl, spaced, innerReturn⟩ := isBlankLine_iff.1 blank
    exact ⟨_, ⟨back, isReturn, rfl⟩, spaces ++ inner ++ '\n' :: way.rest, by simp, spaces, spaced,
      inner ++ '\n' :: way.rest, by simp, none, _, ⟨inner, innerReturn, rfl⟩, by simp⟩

/-! ## The search -/

/-- A text is cut into one piece more than the search finds separators in it. -/
theorem length_pieces (s : List Char) :
    (pieces s).length = (separatorPattern.search s).length + 1 := by
  fun_induction pieces s with
  | case1 => rw [Pattern.search]; rfl
  | case2 c rest after found ih =>
      have start : ∃ way, way ∈ separatorPattern.ways (c :: rest) :=
        ⟨⟨[], after⟩, mem_ways_separatorPattern.2 ⟨rfl, found⟩⟩
      have shorter : ∀ way ∈ separatorPattern.ways (c :: rest), way.rest.length ≤ rest.length := by
        intro way mem
        have matched := (mem_ways_separatorPattern.1 mem).2
        exact Nat.le_of_lt_succ (length_lt_of_separator? matched)
      obtain ⟨way, mem, first⟩ := Pattern.exists_search_cons start shorter
      obtain rfl : after = way.rest :=
        Option.some.inj (found.symm.trans (mem_ways_separatorPattern.1 mem).2)
      rw [first, List.length_cons, ih, List.length_cons]
  | case3 c rest none ih =>
      have noWay : ∀ way, way ∉ separatorPattern.ways (c :: rest) := by
        intro way mem
        have matched := (mem_ways_separatorPattern.1 mem).2
        rw [none] at matched
        cases matched
      rw [Pattern.search_cons_of_forall_not_mem noWay, List.length_modifyHead, ih]

end Block

end TrustRules
