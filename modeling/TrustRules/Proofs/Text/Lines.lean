import TrustRules.Proofs.Text.Trimming

/-!
# Lines of a text

The lines of a text are what stands between its line feeds.  A text without a
line feed is its only line, and a line feed separates the lines before it from
the lines behind it; everything else follows by induction on these two.
-/

namespace TrustRules.Text

theorem lines_of_not_mem {s : List Char} (single : '\n' ∉ s) : lines s = [s] :=
  List.splitOn_eq_singleton single

theorem lines_append (s t : List Char) : lines (s ++ '\n' :: t) = lines s ++ lines t :=
  List.splitOn_append_cons_self s t

theorem lines_line_append {l : List Char} (single : '\n' ∉ l) (t : List Char) :
    lines (l ++ '\n' :: t) = l :: lines t := by
  rw [lines_append, lines_of_not_mem single, List.singleton_append]

theorem intercalate_append {sep : List Char} {xs ys : List (List Char)}
    (left : xs ≠ []) (right : ys ≠ []) :
    sep.intercalate (xs ++ ys) = sep.intercalate xs ++ sep ++ sep.intercalate ys := by
  induction xs with
  | nil => exact absurd rfl left
  | cons x xs ih =>
      by_cases last : xs = []
      · subst last
        rw [List.singleton_append, List.intercalate_cons_of_ne_nil right,
          List.intercalate_singleton]
      · have more : xs ++ ys ≠ [] := List.append_ne_nil_of_left_ne_nil last ys
        rw [List.cons_append, List.intercalate_cons_of_ne_nil more, ih last,
          List.intercalate_cons_of_ne_nil last]
        simp only [List.append_assoc]

/-- Each of the texts that are put together stands in the whole. -/
theorem isInfix_intercalate {sep l : List Char} {ls : List (List Char)} (mem : l ∈ ls) :
    l <:+: sep.intercalate ls := by
  induction ls with
  | nil => cases mem
  | cons first rest ih =>
      by_cases last : rest = []
      · subst last
        exact ⟨[], [], by simp [List.mem_singleton.1 mem]⟩
      · rw [List.intercalate_cons_of_ne_nil last]
        rcases List.mem_cons.1 mem with rfl | later
        · rw [List.append_assoc]
          exact (List.prefix_append _ _).isInfix
        · exact (ih later).trans (List.suffix_append _ _).isInfix

/-- Put line by line together, a text is itself again. -/
theorem intercalate_lines (s : List Char) : ['\n'].intercalate (lines s) = s :=
  List.intercalate_splitOn '\n'

/-- Induction on the lines of a text. -/
@[elab_as_elim]
theorem lines_induction {motive : List Char → Prop}
    (single : ∀ l, '\n' ∉ l → motive l)
    (line : ∀ l t, '\n' ∉ l → motive t → motive (l ++ '\n' :: t))
    (s : List Char) : motive s := by
  induction length : s.length using Nat.strongRecOn generalizing s with
  | ind n ih =>
      by_cases breaks : '\n' ∈ s
      · obtain ⟨l, t, whole, first⟩ := List.eq_append_cons_of_mem breaks
        subst whole
        have shorter : t.length < n := by
          rw [← length, List.length_append, List.length_cons]
          omega
        exact line l t first (ih t.length shorter t rfl)
      · exact single s breaks

theorem not_mem_of_mem_lines {s l : List Char} (mem : l ∈ lines s) : '\n' ∉ l := by
  induction s using lines_induction with
  | single s none =>
      rw [lines_of_not_mem none, List.mem_singleton] at mem
      rwa [mem]
  | line first t none ih =>
      rw [lines_line_append none, List.mem_cons] at mem
      rcases mem with rfl | later
      · exact none
      · exact ih later

/-- A line stands in its text, with nothing or a line feed on either side. -/
theorem exists_append_of_mem_lines {s l : List Char} (mem : l ∈ lines s) :
    ∃ front back, s = front ++ l ++ back ∧
      (front = [] ∨ ∃ before, front = before ++ ['\n']) ∧
      (back = [] ∨ ∃ after, back = '\n' :: after) := by
  induction s using lines_induction with
  | single s none =>
      rw [lines_of_not_mem none, List.mem_singleton] at mem
      exact ⟨[], [], by simp [mem], .inl rfl, .inl rfl⟩
  | line first t none ih =>
      rw [lines_line_append none, List.mem_cons] at mem
      rcases mem with rfl | later
      · exact ⟨[], '\n' :: t, by simp, .inl rfl, .inr ⟨t, rfl⟩⟩
      · obtain ⟨front, back, rfl, start, stop⟩ := ih later
        refine ⟨first ++ '\n' :: front, back, by simp, .inr ?_, stop⟩
        rcases start with rfl | ⟨before, rfl⟩
        · exact ⟨first, rfl⟩
        · exact ⟨first ++ '\n' :: before, by simp⟩

theorem flatten_lines_sublist (s : List Char) : (lines s).flatten.Sublist s := by
  induction s using lines_induction with
  | single l none => simp [lines_of_not_mem none]
  | line l t none ih =>
      rw [lines_line_append none, List.flatten_cons]
      exact (List.Sublist.refl l).append (ih.cons '\n')

/-- A text is at least as long as the number of its parts with something in them. -/
theorem length_le_of_flatten_sublist {ls : List (List Char)} {s : List Char}
    (some : ∀ l ∈ ls, l ≠ []) (within : ls.flatten.Sublist s) : ls.length ≤ s.length := by
  refine Nat.le_trans ?_ within.length_le
  clear within
  induction ls with
  | nil => exact Nat.zero_le _
  | cons l ls ih =>
      have here := List.length_pos_iff.2 (some l List.mem_cons_self)
      have later := ih fun other mem => some other (List.mem_cons_of_mem l mem)
      rw [List.length_cons, List.flatten_cons, List.length_append]
      omega

/-- A character other than a line feed goes to the first line. -/
theorem exists_lines_cons {c : Char} (other : c ≠ '\n') (s : List Char) :
    ∃ first rest, lines s = first :: rest ∧ lines (c :: s) = (c :: first) :: rest := by
  induction s using lines_induction with
  | single s none =>
      have noneAfter : '\n' ∉ c :: s := List.not_mem_cons_of_ne_of_not_mem other.symm none
      exact ⟨s, [], lines_of_not_mem none, lines_of_not_mem noneAfter⟩
  | line first t none _ =>
      have noneAfter : '\n' ∉ c :: first := List.not_mem_cons_of_ne_of_not_mem other.symm none
      refine ⟨first, lines t, lines_line_append none t, ?_⟩
      rw [← List.cons_append, lines_line_append noneAfter]

/-- A character other than a line feed goes to the last line. -/
theorem exists_lines_append_singleton (s : List Char) {c : Char} (other : c ≠ '\n') :
    ∃ front last, lines s = front ++ [last] ∧ lines (s ++ [c]) = front ++ [last ++ [c]] := by
  induction s using lines_induction with
  | single s none =>
      have noneAfter : '\n' ∉ s ++ [c] := by
        intro mem
        rcases List.mem_append.1 mem with early | late
        · exact none early
        · exact other (List.mem_singleton.1 late).symm
      exact ⟨[], s, lines_of_not_mem none, lines_of_not_mem noneAfter⟩
  | line first t none ih =>
      obtain ⟨front, last, parts, extended⟩ := ih
      refine ⟨first :: front, last, ?_, ?_⟩
      · rw [lines_line_append none, parts, List.cons_append]
      · rw [List.append_assoc, List.cons_append, lines_line_append none, extended,
          List.cons_append]

/-- Lines without line feeds are read back from the text that they make. -/
theorem lines_intercalate {ls : List (List Char)} (single : ∀ l ∈ ls, '\n' ∉ l) (some : ls ≠ []) :
    lines (['\n'].intercalate ls) = ls :=
  List.splitOn_intercalate '\n' single some

/-! ## What is read of trimmed lines -/

section Read

variable {α : Type} {read : List Char → List α}

/-- What is read of trimmed lines stays the same with blanks behind them, and line feeds too. -/
theorem flatMap_lines_append_of_blank (core : ∀ l, read (trim l) = read l) (nothing : read [] = [])
    {back : List Char} (blank : ∀ c ∈ back, isBlank c = true) (s : List Char) :
    (lines (s ++ back)).flatMap read = (lines s).flatMap read := by
  induction back generalizing s with
  | nil => rw [List.append_nil]
  | cons c back ih =>
      have last : ∀ d ∈ [c], isBlank d = true := by
        intro d mem
        rw [List.mem_singleton.1 mem]
        exact blank c List.mem_cons_self
      have one : (lines (s ++ [c])).flatMap read = (lines s).flatMap read := by
        by_cases feed : c = '\n'
        · rw [feed, lines_append, List.flatMap_append]
          exact (congrArg (_ ++ ·) (List.append_eq_nil_iff.2 ⟨nothing, rfl⟩)).trans
            (List.append_nil _)
        · obtain ⟨front, l, parts, extended⟩ := exists_lines_append_singleton s feed
          have same : read (l ++ [c]) = read l := by
            rw [← core (l ++ [c]), trim, strip_append l last, ← trim, core]
          rw [extended, parts, List.flatMap_append, List.flatMap_append,
            List.flatMap_singleton, List.flatMap_singleton, same]
      have rest := ih (fun d mem => blank d (List.mem_cons_of_mem c mem)) (s ++ [c])
      rw [List.append_assoc, List.singleton_append] at rest
      rw [rest, one]

/-- So it does with blanks and line feeds in front of them. -/
theorem flatMap_lines_blank_append (core : ∀ l, read (trim l) = read l) (nothing : read [] = [])
    {front : List Char} (blank : ∀ c ∈ front, isBlank c = true) (s : List Char) :
    (lines (front ++ s)).flatMap read = (lines s).flatMap read := by
  induction front with
  | nil => rfl
  | cons c front ih =>
      have later := ih fun d mem => blank d (List.mem_cons_of_mem c mem)
      rw [List.cons_append, ← later]
      by_cases feed : c = '\n'
      · have apart := lines_append [] (front ++ s)
        rw [List.nil_append] at apart
        rw [feed, apart, List.flatMap_append]
        exact congrArg (· ++ _) (List.append_eq_nil_iff.2 ⟨nothing, rfl⟩)
      · obtain ⟨l, rest, parts, extended⟩ := exists_lines_cons feed (front ++ s)
        have first : ∀ d ∈ [c], isBlank d = true := by
          intro d mem
          rw [List.mem_singleton.1 mem]
          exact blank c List.mem_cons_self
        have same : read (c :: l) = read l := by
          have around := @strip_around isBlank [c] [] l first (by simp)
          rw [List.append_nil, List.singleton_append] at around
          rw [← core (c :: l), trim, around, ← trim, core]
        rw [extended, parts, List.flatMap_cons, List.flatMap_cons, same]

end Read

end TrustRules.Text
