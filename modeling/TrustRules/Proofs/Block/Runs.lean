import Mathlib.Data.List.Basic
import Mathlib.Data.List.Flatten
import TrustRules.Block
import TrustRules.Proofs.Text.Lines

/-!
# Blocks as runs of lines

The separators of a text are found from left to right in its characters.  Seen
in lines, a block is a run of lines that are not blank: this module proves that
both views give the same blocks, for every text.
-/

namespace TrustRules

open Text

namespace Block

/-! ## Blank lines and separators -/

/-- Spaces and tabs, and at most one carriage return behind them. -/
def isBlankLine (line : List Char) : Bool :=
  match line.dropWhile isSpacing with
  | [] => true
  | [c] => c == '\r'
  | _ => false

/-- What a line break may hold in front of its line feed. -/
def IsReturn (s : List Char) : Prop :=
  s = [] ∨ s = ['\r']

theorem IsReturn.not_mem {s : List Char} (isReturn : IsReturn s) : '\n' ∉ s := by
  rcases isReturn with rfl | rfl <;> decide

theorem IsReturn.isBlank {s : List Char} (isReturn : IsReturn s) :
    ∀ c ∈ s, isBlank c = true := by
  rcases isReturn with rfl | rfl <;> decide

theorem isBlankLine_iff {line : List Char} :
    isBlankLine line = true ↔
      ∃ spaces back, line = spaces ++ back ∧ (∀ c ∈ spaces, isSpacing c = true) ∧
        IsReturn back := by
  constructor
  · intro blank
    refine ⟨line.takeWhile isSpacing, line.dropWhile isSpacing, ?_, ?_, ?_⟩
    · rw [List.takeWhile_append_dropWhile]
    · exact fun c mem => List.all_eq_true.1 List.all_takeWhile c mem
    · unfold isBlankLine at blank
      split at blank
      · next empty => exact .inl empty
      · next c single =>
          rw [beq_iff_eq] at blank
          exact .inr (by rw [single, blank])
      · cases blank
  · rintro ⟨spaces, back, rfl, spacing, rfl | rfl⟩
    · unfold isBlankLine
      rw [List.dropWhile_append_of_pos spacing]
      rfl
    · unfold isBlankLine
      rw [List.dropWhile_append_of_pos spacing]
      rfl

theorem isBlank_of_isSpacing {c : Char} (spacing : isSpacing c = true) : isBlank c = true := by
  simp only [isSpacing, Bool.or_eq_true, beq_iff_eq] at spacing
  rcases spacing with rfl | rfl <;> decide

/-- A blank line consists of blanks; not every line of blanks is a blank line. -/
theorem isBlank_of_isBlankLine {line : List Char} (blank : isBlankLine line = true) :
    ∀ c ∈ line, isBlank c = true := by
  obtain ⟨spaces, back, rfl, spacing, isReturn⟩ := isBlankLine_iff.1 blank
  intro c mem
  rcases List.mem_append.1 mem with early | late
  · exact isBlank_of_isSpacing (spacing c early)
  · exact isReturn.isBlank c late

theorem isBlankLine_of_visible {line : List Char} (visible : allBlank line = false) :
    isBlankLine line = false := by
  cases blank : isBlankLine line with
  | false => rfl
  | true =>
      rw [allBlank_iff.2 (isBlank_of_isBlankLine blank)] at visible
      cases visible

theorem not_mem_of_isBlankLine {line : List Char} (blank : isBlankLine line = true) :
    '\n' ∉ line := by
  obtain ⟨spaces, back, rfl, spacing, isReturn⟩ := isBlankLine_iff.1 blank
  intro mem
  rcases List.mem_append.1 mem with early | late
  · exact absurd (spacing '\n' early) (by decide)
  · exact isReturn.not_mem late

theorem lineBreak?_eq_some_iff {s rest : List Char} :
    lineBreak? s = some rest ↔ ∃ back, IsReturn back ∧ s = back ++ '\n' :: rest := by
  constructor
  · intro found
    unfold lineBreak? at found
    split at found
    · cases found
      exact ⟨[], .inl rfl, rfl⟩
    · cases found
      exact ⟨['\r'], .inr rfl, rfl⟩
    · cases found
  · rintro ⟨back, rfl | rfl, rfl⟩ <;> rfl

/-- A separator is a blank line between two line feeds, with an earlier return. -/
theorem separator?_eq_some_iff {s rest : List Char} :
    separator? s = some rest ↔
      ∃ back gap, IsReturn back ∧ isBlankLine gap = true ∧
        s = back ++ '\n' :: (gap ++ '\n' :: rest) := by
  constructor
  · intro found
    obtain ⟨middle, first, second⟩ := Option.bind_eq_some_iff.1 found
    obtain ⟨back, isReturn, rfl⟩ := lineBreak?_eq_some_iff.1 first
    obtain ⟨inner, innerReturn, tail⟩ := lineBreak?_eq_some_iff.1 second
    refine ⟨back, middle.takeWhile isSpacing ++ inner, isReturn, ?_, ?_⟩
    · exact isBlankLine_iff.2 ⟨_, _, rfl,
        fun c mem => List.all_eq_true.1 List.all_takeWhile c mem, innerReturn⟩
    · rw [List.append_assoc, ← tail, List.takeWhile_append_dropWhile]
  · rintro ⟨back, gap, isReturn, blank, rfl⟩
    obtain ⟨spaces, inner, rfl, spacing, innerReturn⟩ := isBlankLine_iff.1 blank
    have stop : (inner ++ '\n' :: rest).dropWhile isSpacing = inner ++ '\n' :: rest := by
      rcases innerReturn with rfl | rfl <;> rfl
    refine Option.bind_eq_some_iff.2 ⟨_, lineBreak?_eq_some_iff.2 ⟨back, isReturn, rfl⟩, ?_⟩
    rw [List.append_assoc, List.dropWhile_append_of_pos spacing, stop]
    exact lineBreak?_eq_some_iff.2 ⟨inner, innerReturn, rfl⟩

/-! ## Texts without a separator -/

/-- No blank line stands between two line feeds of the text. -/
def Unbroken (s : List Char) : Prop :=
  ∀ front gap rest, isBlankLine gap = true → s ≠ front ++ '\n' :: (gap ++ '\n' :: rest)

theorem Unbroken.of_isInfix {s t : List Char} (unbroken : Unbroken t) (inside : s <:+: t) :
    Unbroken s := by
  obtain ⟨before, after, rfl⟩ := inside
  rintro front gap rest blank rfl
  exact unbroken (before ++ front) gap (rest ++ after) blank (by simp)

theorem IsReturn.unbroken {s : List Char} (isReturn : IsReturn s) : Unbroken s := by
  rintro front gap rest _ rfl
  exact isReturn.not_mem (by simp)

/-- One more character in front breaks a text only where a separator starts. -/
theorem Unbroken.cons {c : Char} {s : List Char} (unbroken : Unbroken s)
    (start : ∀ gap rest, isBlankLine gap = true → c :: s ≠ '\n' :: (gap ++ '\n' :: rest)) :
    Unbroken (c :: s) := by
  intro front gap rest blank whole
  cases front with
  | nil => exact start gap rest blank whole
  | cons d front =>
      rw [List.cons_append, List.cons.injEq] at whole
      exact unbroken front gap rest blank whole.2

/--
A text is its only piece, or its first piece ends at its first separator.  The
return that belongs to that separator starts none by itself.
-/
theorem pieces_first (s : List Char) :
    (Unbroken s ∧ pieces s = [s]) ∨
      ∃ piece back gap rest, IsReturn back ∧ isBlankLine gap = true ∧
        s = piece ++ back ++ '\n' :: (gap ++ '\n' :: rest) ∧
        Unbroken (piece ++ back) ∧ pieces s = piece :: pieces rest := by
  induction s with
  | nil =>
      refine .inl ⟨?_, pieces_nil⟩
      intro front gap rest _ whole
      simp at whole
  | cons c s ih =>
      cases found : separator? (c :: s) with
      | some rest =>
          obtain ⟨back, gap, isReturn, blank, whole⟩ := separator?_eq_some_iff.1 found
          exact .inr ⟨[], back, gap, rest, isReturn, blank, whole, isReturn.unbroken,
            pieces_of_separator found⟩
      | none =>
          have start : ∀ gap rest, isBlankLine gap = true →
              c :: s ≠ '\n' :: (gap ++ '\n' :: rest) := by
            intro gap rest blank whole
            have here := separator?_eq_some_iff.2 ⟨[], gap, .inl rfl, blank, whole⟩
            rw [found] at here
            cases here
          rcases ih with ⟨unbroken, single⟩ |
            ⟨piece, back, gap, rest, isReturn, blank, rfl, unbroken, parts⟩
          · refine .inl ⟨unbroken.cons start, ?_⟩
            rw [pieces_cons found, single, List.modifyHead_cons]
          · refine .inr ⟨c :: piece, back, gap, rest, isReturn, blank, rfl, ?_, ?_⟩
            · refine unbroken.cons fun inner after innerBlank whole => ?_
              have extended := congrArg (· ++ '\n' :: (gap ++ '\n' :: rest)) whole
              exact start inner (after ++ '\n' :: (gap ++ '\n' :: rest)) innerBlank
                (by simpa using extended)
            · rw [pieces_cons found, parts, List.modifyHead_cons]

/-- Induction on the separators of a text, from left to right. -/
@[elab_as_elim]
theorem pieces_induction {motive : List Char → Prop}
    (single : ∀ s, Unbroken s → pieces s = [s] → motive s)
    (separated : ∀ piece back gap rest, IsReturn back → isBlankLine gap = true →
      Unbroken (piece ++ back) →
      pieces (piece ++ back ++ '\n' :: (gap ++ '\n' :: rest)) = piece :: pieces rest →
      motive rest → motive (piece ++ back ++ '\n' :: (gap ++ '\n' :: rest)))
    (s : List Char) : motive s := by
  induction length : s.length using Nat.strongRecOn generalizing s with
  | ind n ih =>
      rcases pieces_first s with ⟨unbroken, parts⟩ |
        ⟨piece, back, gap, rest, isReturn, blank, rfl, unbroken, parts⟩
      · exact single s unbroken parts
      · have shorter : rest.length < n := by
          rw [← length]
          simp only [List.length_append, List.length_cons]
          omega
        exact separated piece back gap rest isReturn blank unbroken parts
          (ih rest.length shorter rest rfl)

/-- No piece of a text holds a separator, and each stands in the text. -/
theorem unbroken_of_mem_pieces {s piece : List Char} (mem : piece ∈ pieces s) :
    Unbroken piece ∧ piece <:+: s := by
  induction s using pieces_induction with
  | single s unbroken parts =>
      rw [parts, List.mem_singleton] at mem
      rw [mem]
      exact ⟨unbroken, List.infix_rfl⟩
  | separated first back gap rest _ _ unbroken parts ih =>
      rw [parts, List.mem_cons] at mem
      rcases mem with rfl | later
      · refine ⟨unbroken.of_isInfix (List.prefix_append _ _).isInfix, ?_⟩
        exact ⟨[], back ++ '\n' :: (gap ++ '\n' :: rest), by simp⟩
      · refine ⟨(ih later).1, (ih later).2.trans ?_⟩
        exact ⟨first ++ back ++ '\n' :: (gap ++ ['\n']), [], by simp⟩

/-! ## Blocks of lines -/

/-- The pieces trimmed, without those that leave nothing. -/
def trimmed (pieces : List (List Char)) : List (List Char) :=
  (pieces.map trim).filter fun block => !block.isEmpty

/-- The blocks of a list of lines: its runs of lines that are not blank. -/
def ofLines (ls : List (List Char)) : List (List Char) :=
  trimmed ((ls.splitOnP isBlankLine).map ['\n'].intercalate)

theorem ofText_eq_trimmed (s : List Char) : ofText s = trimmed (pieces s) := rfl

theorem trimmed_append (first second : List (List Char)) :
    trimmed (first ++ second) = trimmed first ++ trimmed second := by
  simp [trimmed]

theorem trimmed_cons (piece : List Char) (rest : List (List Char)) :
    trimmed (piece :: rest) = trimmed [piece] ++ trimmed rest :=
  trimmed_append [piece] rest

theorem trimmed_blank {piece : List Char} (blank : ∀ c ∈ piece, isBlank c = true) :
    trimmed [piece] = [] := by
  have empty : trim piece = [] := trim_eq_nil_iff.2 (allBlank_iff.2 blank)
  simp [trimmed, empty]

/-- Two pieces with the same core give the same blocks. -/
theorem trimmed_congr {first second : List Char} (same : trim first = trim second) :
    trimmed [first] = trimmed [second] := by
  simp [trimmed, same]

theorem ofLines_append_blank {gap : List Char} (blank : isBlankLine gap = true)
    (before after : List (List Char)) :
    ofLines (before ++ gap :: after) = ofLines before ++ ofLines after := by
  rw [ofLines, List.splitOnP_append_cons before after blank, List.map_append, trimmed_append,
    ofLines, ofLines]

theorem ofLines_nil : ofLines [] = [] := rfl

theorem ofLines_of_solid {ls : List (List Char)} (solid : ∀ l ∈ ls, isBlankLine l = false) :
    ofLines ls = trimmed [['\n'].intercalate ls] := by
  rw [ofLines, List.splitOnP_eq_singleton solid, List.map_singleton]

/-- A text without a separator has no blank line between two of its lines. -/
theorem Unbroken.solid_between {s gap : List Char} (unbroken : Unbroken s)
    {before after : List (List Char)} (parts : lines s = before ++ gap :: after)
    (some : before ≠ []) (more : after ≠ []) : isBlankLine gap = false := by
  cases blank : isBlankLine gap with
  | false => rfl
  | true =>
      refine absurd ?_ (unbroken (['\n'].intercalate before) gap (['\n'].intercalate after) blank)
      rw [← intercalate_lines s, parts, intercalate_append some (List.cons_ne_nil _ _),
        List.intercalate_cons_of_ne_nil more]
      simp

theorem trim_intercalate_blank_cons {l : List Char} (blank : ∀ c ∈ l, isBlank c = true)
    (ls : List (List Char)) :
    trim (['\n'].intercalate (l :: ls)) = trim (['\n'].intercalate ls) := by
  by_cases last : ls = []
  · subst last
    rw [List.intercalate_singleton, List.intercalate_nil]
    exact trim_eq_nil_iff.2 (allBlank_iff.2 blank)
  · rw [List.intercalate_cons_of_ne_nil last]
    have before : ∀ c ∈ l ++ ['\n'], isBlank c = true := by
      intro c mem
      rcases List.mem_append.1 mem with early | late
      · exact blank c early
      · rw [List.mem_singleton.1 late]
        decide
    have after : ∀ c ∈ ([] : List Char), isBlank c = true := by simp
    simpa [trim] using strip_around (['\n'].intercalate ls) before after

theorem trim_intercalate_append_blank {l : List Char} (blank : ∀ c ∈ l, isBlank c = true)
    (ls : List (List Char)) :
    trim (['\n'].intercalate (ls ++ [l])) = trim (['\n'].intercalate ls) := by
  by_cases first : ls = []
  · subst first
    rw [List.nil_append, List.intercalate_singleton, List.intercalate_nil]
    exact trim_eq_nil_iff.2 (allBlank_iff.2 blank)
  · rw [intercalate_append first (List.cons_ne_nil _ _), List.intercalate_singleton,
      List.append_assoc]
    refine strip_append _ fun c mem => ?_
    rcases List.mem_append.1 mem with early | late
    · rw [List.mem_singleton.1 early]
      decide
    · exact blank c late

/-- Blank lines at the ends of a list of lines belong to no block. -/
theorem ofLines_of_solid_between {ls : List (List Char)}
    (solid : ∀ before gap after, ls = before ++ gap :: after → before ≠ [] → after ≠ [] →
      isBlankLine gap = false) :
    ofLines ls = trimmed [['\n'].intercalate ls] := by
  -- first the case in which only the last line may be blank
  have solidFront : ∀ ls : List (List Char),
      (∀ before gap after, ls = before ++ gap :: after → after ≠ [] →
        isBlankLine gap = false) →
      ofLines ls = trimmed [['\n'].intercalate ls] := by
    intro ls solid
    rcases List.eq_nil_or_concat' ls with rfl | ⟨front, last, rfl⟩
    · rfl
    · have frontSolid : ∀ l ∈ front, isBlankLine l = false := by
        intro l mem
        obtain ⟨before, after, rfl⟩ := List.append_of_mem mem
        exact solid before l (after ++ [last]) (by simp) (by simp)
      cases blank : isBlankLine last with
      | true =>
          rw [ofLines_append_blank blank, ofLines_nil, List.append_nil,
            ofLines_of_solid frontSolid]
          exact trimmed_congr
            (trim_intercalate_append_blank (isBlank_of_isBlankLine blank) front).symm
      | false =>
          refine ofLines_of_solid fun l mem => ?_
          rcases List.mem_append.1 mem with early | late
          · exact frontSolid l early
          · rwa [List.mem_singleton.1 late]
  cases ls with
  | nil => rfl
  | cons first rest =>
      cases blank : isBlankLine first with
      | true =>
          have dropped := ofLines_append_blank blank [] rest
          rw [List.nil_append, ofLines_nil, List.nil_append] at dropped
          rw [dropped, solidFront rest]
          · exact trimmed_congr
              (trim_intercalate_blank_cons (isBlank_of_isBlankLine blank) rest).symm
          · intro before gap after parts more
            exact solid (first :: before) gap after (by rw [parts]; rfl) (by simp) more
      | false =>
          refine solidFront _ fun before gap after parts more => ?_
          cases before with
          | nil =>
              rw [List.nil_append, List.cons.injEq] at parts
              rwa [← parts.1]
          | cons _ before => exact solid _ gap after parts (by simp) more

/-- The blocks of a text are the runs of its lines that are not blank. -/
theorem ofText_eq_ofLines (s : List Char) : ofText s = ofLines (lines s) := by
  have single : ∀ t, Unbroken t → ofLines (lines t) = trimmed [t] := by
    intro t unbroken
    rw [ofLines_of_solid_between fun _ _ _ parts => unbroken.solid_between parts,
      intercalate_lines]
  induction s using pieces_induction with
  | single s unbroken parts => rw [ofText_eq_trimmed, parts, single s unbroken]
  | separated piece back gap rest isReturn blank unbroken parts ih =>
      have core : trim (piece ++ back) = trim piece := strip_append piece isReturn.isBlank
      calc ofText (piece ++ back ++ '\n' :: (gap ++ '\n' :: rest))
          = trimmed [piece] ++ ofText rest := by
            rw [ofText_eq_trimmed, parts, trimmed_cons, ← ofText_eq_trimmed]
        _ = ofLines (lines (piece ++ back)) ++ ofLines (lines rest) := by
            rw [single _ unbroken, trimmed_congr core, ih]
        _ = ofLines (lines (piece ++ back ++ '\n' :: (gap ++ '\n' :: rest))) := by
            rw [lines_append, lines_line_append (not_mem_of_isBlankLine blank),
              ofLines_append_blank blank]

/-! ## Blocks of texts that are put together -/

/-- A blank line between two texts keeps their blocks apart. -/
theorem ofText_append_gap {gap : List Char} (blank : isBlankLine gap = true)
    (s t : List Char) :
    ofText (s ++ '\n' :: (gap ++ '\n' :: t)) = ofText s ++ ofText t := by
  rw [ofText_eq_ofLines, lines_append, lines_line_append (not_mem_of_isBlankLine blank),
    ofLines_append_blank blank, ofText_eq_ofLines, ofText_eq_ofLines]

/-- Lines that are not blank go to the last run of the lines before them. -/
theorem exists_ofLines_append_solid (ls : List (List Char)) :
    ∃ blocks run, ∀ tail, (∀ l ∈ tail, isBlankLine l = false) →
      ofLines (ls ++ tail) = blocks ++ trimmed [['\n'].intercalate (run ++ tail)] := by
  induction ls using List.reverseRecOn with
  | nil => exact ⟨[], [], fun tail solid => ofLines_of_solid solid⟩
  | append_singleton ls last ih =>
      cases blank : isBlankLine last with
      | true =>
          refine ⟨ofLines ls, [], fun tail solid => ?_⟩
          rw [List.append_assoc, List.singleton_append, ofLines_append_blank blank,
            ofLines_of_solid solid, List.nil_append]
      | false =>
          obtain ⟨blocks, run, parts⟩ := ih
          refine ⟨blocks, run ++ [last], fun tail solid => ?_⟩
          have solidLast : ∀ l ∈ last :: tail, isBlankLine l = false := by
            intro l mem
            rcases List.mem_cons.1 mem with rfl | later
            · exact blank
            · exact solid l later
          rw [List.append_assoc, List.singleton_append, parts _ solidLast,
            List.append_assoc, List.singleton_append]

/-- A line to whose end a character was added was blank if it is blank now. -/
theorem isBlankLine_of_append_singleton {l : List Char} {c : Char}
    (blank : isBlankLine (l ++ [c]) = true) : isBlankLine l = true := by
  obtain ⟨spaces, back, whole, spacing, isReturn⟩ := isBlankLine_iff.1 blank
  rcases isReturn with rfl | rfl
  · rw [List.append_nil] at whole
    subst whole
    exact isBlankLine_iff.2 ⟨l, [], by simp, fun d mem => spacing d (by simp [mem]), .inl rfl⟩
  · obtain ⟨rfl, _⟩ := List.append_inj' whole rfl
    exact isBlankLine_iff.2 ⟨l, [], by simp, spacing, .inl rfl⟩

/-- A blank at the end of the last line changes no block. -/
theorem ofLines_append_singleton_blank (front : List (List Char)) (last : List Char) {c : Char}
    (blank : isBlank c = true) :
    ofLines (front ++ [last ++ [c]]) = ofLines (front ++ [last]) := by
  obtain ⟨blocks, run, parts⟩ := exists_ofLines_append_solid front
  have alone : ∀ l : List Char, isBlankLine l = false → ∀ d ∈ [l], isBlankLine d = false := by
    intro l solid d mem
    rwa [List.mem_singleton.1 mem]
  cases before : isBlankLine last with
  | true =>
      rw [ofLines_append_blank before, ofLines_nil, List.append_nil]
      cases now : isBlankLine (last ++ [c]) with
      | true => rw [ofLines_append_blank now, ofLines_nil, List.append_nil]
      | false =>
          have blanks : ∀ d ∈ last ++ [c], isBlank d = true := by
            intro d mem
            rcases List.mem_append.1 mem with early | late
            · exact isBlank_of_isBlankLine before d early
            · rwa [List.mem_singleton.1 late]
          have without := parts [] (fun d mem => absurd mem List.not_mem_nil)
          rw [List.append_nil, List.append_nil] at without
          rw [parts _ (alone _ now), without,
            trimmed_congr (trim_intercalate_append_blank blanks run)]
  | false =>
      have now : isBlankLine (last ++ [c]) = false := by
        cases same : isBlankLine (last ++ [c]) with
        | false => rfl
        | true => rw [isBlankLine_of_append_singleton same] at before; cases before
      have joined : ['\n'].intercalate (run ++ [last ++ [c]]) =
          ['\n'].intercalate (run ++ [last]) ++ [c] := by
        by_cases first : run = []
        · simp [first]
        · rw [intercalate_append first (List.cons_ne_nil _ _),
            intercalate_append first (List.cons_ne_nil _ _)]
          simp
      have core : trim (['\n'].intercalate (run ++ [last]) ++ [c]) =
          trim (['\n'].intercalate (run ++ [last])) := by
        refine strip_append _ fun d mem => ?_
        rwa [List.mem_singleton.1 mem]
      rw [parts _ (alone _ now), parts _ (alone _ before), joined, trimmed_congr core]

/-- Blanks behind a text change none of its blocks. -/
theorem ofText_append_of_blank {back : List Char} (blank : ∀ c ∈ back, isBlank c = true)
    (s : List Char) : ofText (s ++ back) = ofText s := by
  induction back generalizing s with
  | nil => rw [List.append_nil]
  | cons c back ih =>
      have later := ih (fun d mem => blank d (List.mem_cons_of_mem c mem)) (s ++ [c])
      rw [List.append_assoc, List.singleton_append] at later
      rw [later, ofText_eq_ofLines, ofText_eq_ofLines]
      by_cases feed : c = '\n'
      · rw [feed, lines_append]
        exact (ofLines_append_blank rfl (lines s) []).trans (List.append_nil _)
      · obtain ⟨front, last, parts, extended⟩ := exists_lines_append_singleton s feed
        rw [extended, parts]
        exact ofLines_append_singleton_blank front last (blank c List.mem_cons_self)

/-! ## What a block is -/

/-- Only a text of blanks has no block. -/
theorem ofText_eq_nil_iff (s : List Char) : ofText s = [] ↔ allBlank s = true := by
  have single : ∀ t, trimmed [t] = [] ↔ allBlank t = true := by
    intro t
    rw [← trim_eq_nil_iff]
    simp [trimmed]
  induction s using pieces_induction with
  | single s _ parts => rw [ofText_eq_trimmed, parts, single]
  | separated piece back gap rest isReturn blank _ parts ih =>
      have noBack : allBlank back = true := allBlank_iff.2 isReturn.isBlank
      have noGap : allBlank gap = true := allBlank_iff.2 (isBlank_of_isBlankLine blank)
      have feed : isBlank '\n' = true := by decide
      have spread : allBlank (piece ++ back ++ '\n' :: (gap ++ '\n' :: rest)) =
          (allBlank piece && allBlank rest) := by
        rw [allBlank] at noBack noGap
        simp [allBlank, feed, noBack, noGap]
      have later : ofText rest = [] ↔ allBlank rest = true := ih
      rw [ofText_eq_trimmed, parts, trimmed_cons, ← ofText_eq_trimmed,
        List.append_eq_nil_iff, single, later, spread, Bool.and_eq_true]

/-- No line of the text is blank, unless there is no text at all. -/
def Solid (s : List Char) : Prop :=
  s = [] ∨ ∀ l ∈ lines s, isBlankLine l = false

instance (s : List Char) : Decidable (Solid s) :=
  inferInstanceAs (Decidable (_ ∨ _))

/-- A text without blank lines is one block, as far as it is not blank itself. -/
theorem Solid.ofText_eq {s : List Char} (solid : Solid s) : ofText s = trimmed [s] := by
  rcases solid with rfl | solid
  · rw [(ofText_eq_nil_iff []).2 rfl, trimmed_blank (by simp)]
  · rw [ofText_eq_ofLines, ofLines_of_solid solid, intercalate_lines]

theorem trimmed_of_not_blank {piece : List Char} (visible : allBlank piece = false) :
    trimmed [piece] = [trim piece] := by
  simp [trimmed, trim_ne_nil visible]

/-- A line that ends a text which ends firmly is not blank. -/
theorem not_blank_of_last {front l : List Char} (some : front ++ l ≠ [])
    (start : front = [] ∨ ∃ before, front = before ++ ['\n'])
    (stop : ∀ c ∈ (front ++ l).getLast?, isBlank c = false) : isBlankLine l = false := by
  cases last : l.getLast? with
  | some c =>
      cases blank : isBlankLine l with
      | false => rfl
      | true =>
          have firm := stop c (by rw [List.getLast?_append, last, Option.some_or]; rfl)
          rw [isBlank_of_isBlankLine blank c (List.mem_of_getLast? last)] at firm
          cases firm
  | none =>
      rw [List.getLast?_eq_none_iff] at last
      subst last
      rcases start with rfl | ⟨before, rfl⟩
      · exact absurd rfl some
      · exact absurd (stop '\n' (by simp)) (by decide)

/-- Behind a line feed, a text without separators that ends firmly has no blank line. -/
theorem Unbroken.solid {s : List Char} (unbroken : Unbroken ('\n' :: s))
    (stop : ∀ c ∈ s.getLast?, isBlank c = false) : Solid s := by
  by_cases empty : s = []
  · exact .inl empty
  · refine .inr fun l mem => ?_
    obtain ⟨front, back, rfl, start, finish⟩ := exists_append_of_mem_lines mem
    rcases finish with rfl | ⟨after, rfl⟩
    · rw [List.append_nil] at stop empty
      exact not_blank_of_last empty start stop
    · cases blank : isBlankLine l with
      | false => rfl
      | true =>
          exfalso
          rcases start with rfl | ⟨before, rfl⟩
          · exact unbroken [] l after blank (by simp)
          · exact unbroken ('\n' :: before) l after blank (by simp)

/-- A text that starts firmly is without separators even behind a line feed. -/
theorem Unbroken.behind_feed {s : List Char} (unbroken : Unbroken s)
    (start : ∀ c ∈ s.head?, isBlank c = false) : Unbroken ('\n' :: s) := by
  refine unbroken.cons fun gap rest blank whole => ?_
  rw [List.cons.injEq] at whole
  obtain ⟨_, rfl⟩ := whole
  cases gap with
  | nil => exact absurd (start '\n' (by simp)) (by decide)
  | cons c gap =>
      have firm := start c (by simp)
      rw [isBlank_of_isBlankLine blank c List.mem_cons_self] at firm
      cases firm

/-- A block is a firm part of the text without separators. -/
structure IsBlock (text block : List Char) : Prop where
  nonempty : block ≠ []
  firm : Firm isBlank block
  unbroken : Unbroken block
  inside : block <:+: text

theorem isBlock_of_mem_ofText {s block : List Char} (mem : block ∈ ofText s) :
    IsBlock s block := by
  obtain ⟨inPieces, kept⟩ := List.mem_filter.1 mem
  obtain ⟨piece, isPiece, rfl⟩ := List.mem_map.1 inPieces
  obtain ⟨unbroken, inText⟩ := unbroken_of_mem_pieces isPiece
  have inPiece : trim piece <:+: piece := strip_isInfix isBlank piece
  exact
    { nonempty := by simpa using kept
      firm := firm_strip isBlank piece
      unbroken := unbroken.of_isInfix inPiece
      inside := inPiece.trans inText }

/-- No line of a block is blank. -/
theorem IsBlock.solid {text block : List Char} (isBlock : IsBlock text block) : Solid block :=
  (isBlock.unbroken.behind_feed isBlock.firm.1).solid isBlock.firm.2

/-- The blocks stand in the text one after the other. -/
theorem flatten_ofText_sublist (s : List Char) : (ofText s).flatten.Sublist s := by
  have parts : (pieces s).flatten.Sublist s := by
    induction s using pieces_induction with
    | single s _ alone => simp [alone]
    | separated piece back gap rest _ _ _ cut ih =>
        have behind : rest <:+ back ++ '\n' :: (gap ++ '\n' :: rest) :=
          ⟨back ++ '\n' :: (gap ++ ['\n']), by simp⟩
        rw [cut, List.flatten_cons, List.append_assoc]
        exact (List.Sublist.refl piece).append (ih.trans behind.sublist)
  have trimming (ps : List (List Char)) : (ps.map trim).flatten.Sublist ps.flatten := by
    induction ps with
    | nil => exact List.Sublist.refl []
    | cons p ps ih => exact (strip_isInfix isBlank p).sublist.append ih
  have kept : (ofText s).Sublist ((pieces s).map trim) := List.filter_sublist
  exact (kept.flatten.trans (trimming (pieces s))).trans parts

theorem length_ofText_le (s : List Char) : (ofText s).length ≤ s.length :=
  length_le_of_flatten_sublist (fun _ mem => (isBlock_of_mem_ofText mem).nonempty)
    (flatten_ofText_sublist s)

/-- Lines that no blank line parts. -/
def Consecutive (ls : List (List Char)) : Prop :=
  ∀ l ∈ ls, '\n' ∉ l ∧ isBlankLine l = false

theorem IsBlock.consecutive {text block : List Char} (isBlock : IsBlock text block) :
    Consecutive (lines block) := by
  rcases isBlock.solid with empty | solid
  · exact absurd empty isBlock.nonempty
  · exact fun l mem => ⟨not_mem_of_mem_lines mem, solid l mem⟩

theorem IsBlock.length_lines_le {text block : List Char} (isBlock : IsBlock text block) :
    (lines block).length ≤ text.length := by
  refine Nat.le_trans ?_ isBlock.inside.length_le
  refine length_le_of_flatten_sublist (fun l mem => ?_) (flatten_lines_sublist block)
  rintro rfl
  exact absurd (isBlock.consecutive [] mem).2 (by decide)

/-- Lines that no blank line parts are one block, unless all of them are blank. -/
theorem Consecutive.ofText_intercalate {ls : List (List Char)} (isText : Consecutive ls)
    (visible : allBlank (['\n'].intercalate ls) = false) :
    ofText (['\n'].intercalate ls) = [trim (['\n'].intercalate ls)] := by
  have some : ls ≠ [] := by
    rintro rfl
    cases visible
  have solid : Solid (['\n'].intercalate ls) := by
    rw [Solid, lines_intercalate (fun l mem => (isText l mem).1) some]
    exact .inr fun l mem => (isText l mem).2
  rw [solid.ofText_eq, trimmed_of_not_blank visible]

end Block

end TrustRules
