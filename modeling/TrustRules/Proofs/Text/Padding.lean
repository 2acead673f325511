import Mathlib.Data.List.TakeWhile
import TrustRules.Block
import TrustRules.Proofs.Text.Lines
import TrustRules.Proofs.Text.Returns

/-!
# Padding

A text is cut into rows at its line ends, with or without a return, and spaces
and tabs around a row are padding.  Main statements: two paired texts agree row
by row up to padding exactly when they are the same text without it, and it
makes no difference whether a text loses its padding before or after it is
trimmed.
-/

namespace TrustRules.Text

/-! ## Rows -/

/-- The pieces of a text between its line ends, each with or without a return. -/
def rows : List Char → List (List Char)
  | [] => [[]]
  | '\n' :: rest => [] :: rows rest
  | '\r' :: '\n' :: rest => [] :: rows rest
  | c :: rest => (rows rest).modifyHead (c :: ·)

/-- The rows of the two texts are as many, and agree up to spaces and tabs around them. -/
def Alike (s t : List Char) : Prop :=
  (rows s).map (strip Block.isSpacing) = (rows t).map (strip Block.isSpacing)

instance (s t : List Char) : Decidable (Alike s t) :=
  inferInstanceAs (Decidable (_ = _))

theorem rows_cons {c : Char} (noFeed : c ≠ '\n') (noReturn : c ≠ '\r') (rest : List Char) :
    rows (c :: rest) = (rows rest).modifyHead (c :: ·) := by
  rw [rows]
  · exact noFeed
  · intro _ isReturn
    exact absurd isReturn noReturn

/-- Without line feeds and returns, a text goes to the first row of what follows. -/
theorem rows_append {l : List Char} (single : '\n' ∉ l) (noReturn : '\r' ∉ l) (rest : List Char) :
    rows (l ++ rest) = (rows rest).modifyHead (l ++ ·) := by
  induction l with
  | nil =>
      rw [List.nil_append]
      cases rows rest <;> rfl
  | cons c l ih =>
      rw [List.mem_cons, not_or] at single noReturn
      rw [List.cons_append, rows_cons (Ne.symm single.1) (Ne.symm noReturn.1),
        ih single.2 noReturn.2]
      cases rows rest <;> rfl

/-! ## Without padding -/

/-- A character that does not count at the ends of a line. -/
def isPadding (c : Char) : Bool :=
  Block.isSpacing c || c == '\r'

/-- The text with line feeds between its lines and without padding around them. -/
def unpadded (s : List Char) : List Char :=
  ['\n'].intercalate ((lines s).map (strip isPadding))

theorem isBlank_of_isPadding {c : Char} (padding : isPadding c = true) : isBlank c = true := by
  simp only [isPadding, Block.isSpacing, Bool.or_eq_true, beq_iff_eq] at padding
  rcases padding with (rfl | rfl) | rfl <;> decide

theorem isPadding_eq_false {c : Char} (visible : isBlank c = false) : isPadding c = false := by
  cases padding : isPadding c with
  | false => rfl
  | true => rw [isBlank_of_isPadding padding] at visible; cases visible

theorem unpadded_of_not_mem {l : List Char} (single : '\n' ∉ l) :
    unpadded l = strip isPadding l := by
  rw [unpadded, lines_of_not_mem single, List.map_singleton, List.intercalate_singleton]

theorem unpadded_append (s t : List Char) :
    unpadded (s ++ '\n' :: t) = unpadded s ++ '\n' :: unpadded t := by
  have some (u : List Char) : (lines u).map (strip isPadding) ≠ [] := by
    simp [lines, List.splitOn_ne_nil]
  rw [unpadded, lines_append, List.map_append, intercalate_append (some s) (some t),
    List.append_assoc]
  rfl

theorem not_mem_strip {p : Char → Bool} {l : List Char} (single : '\n' ∉ l) :
    '\n' ∉ strip p l :=
  fun mem => single ((strip_isInfix p l).subset mem)

/-- The lines of a text without padding are those of the text, stripped. -/
theorem lines_unpadded (s : List Char) : lines (unpadded s) = (lines s).map (strip isPadding) := by
  induction s using lines_induction with
  | single l single =>
      rw [unpadded_of_not_mem single, lines_of_not_mem single,
        lines_of_not_mem (not_mem_strip single), List.map_singleton]
  | line l t single ih =>
      rw [unpadded_append, unpadded_of_not_mem single, lines_line_append (not_mem_strip single),
        lines_line_append single, ih, List.map_cons]

/-- Stripping spaces and tabs is enough where there are no returns. -/
theorem strip_isSpacing_eq {l t : List Char} (noReturn : '\r' ∉ l)
    (returns : ∀ c ∈ t, c = '\r') : strip Block.isSpacing l = strip isPadding (l ++ t) := by
  have padding : ∀ c ∈ t, isPadding c = true := by
    intro c mem
    rw [returns c mem]
    rfl
  obtain ⟨front, after, whole, frontSpacing, afterSpacing, firm⟩ :=
    exists_append_strip_append Block.isSpacing l
  have stillFirm : Firm isPadding (strip Block.isSpacing l) := by
    refine firm.mono fun c mem isPad => ?_
    have inText := (strip_isInfix Block.isSpacing l).subset mem
    rw [isPadding, Bool.or_eq_true, beq_iff_eq] at isPad
    rcases isPad with spacing | rfl
    · exact spacing
    · exact absurd inText noReturn
  have core := strip_append_append (p := isPadding)
    (fun c mem => by rw [isPadding, frontSpacing c mem]; rfl) stillFirm
    (fun c mem => by rw [isPadding, afterSpacing c mem]; rfl)
  rw [← whole] at core
  rw [strip_append l padding, core]

theorem strip_isSpacing {l : List Char} (noReturn : '\r' ∉ l) :
    strip Block.isSpacing l = strip isPadding l := by
  have core := strip_isSpacing_eq (t := []) noReturn (by simp)
  rwa [List.append_nil] at core

/-- In paired text, the rows without spaces and tabs are the lines without padding. -/
theorem map_strip_rows {s : List Char} (paired : ReturnsPaired s) :
    (rows s).map (strip Block.isSpacing) = (lines s).map (strip isPadding) := by
  induction s using lines_induction with
  | single l single =>
      have noReturn : '\r' ∉ l := by
        rw [← List.append_nil l] at paired
        rcases paired.line single with none | ⟨_, _, _, next⟩
        · exact none
        · cases next
      have only : rows l = [l] := by
        have split := rows_append single noReturn []
        rwa [List.append_nil, rows, List.modifyHead_cons, List.append_nil] at split
      rw [only, lines_of_not_mem single, List.map_singleton, List.map_singleton,
        strip_isSpacing noReturn]
  | line l t single ih =>
      have later := ih (ReturnsPaired.of_append (s := l ++ ['\n']) (by simpa using paired))
      rw [lines_line_append single, List.map_cons, ← later]
      rcases paired.line single with noReturn | ⟨front, noReturn, rfl, _⟩
      · rw [rows_append single noReturn, rows, List.modifyHead_cons, List.append_nil,
          List.map_cons, strip_isSpacing noReturn]
      · have frontSingle : '\n' ∉ front := fun mem => single (List.mem_append_left _ mem)
        rw [List.append_assoc, List.singleton_append, rows_append frontSingle noReturn, rows,
          List.modifyHead_cons, List.append_nil, List.map_cons,
          strip_isSpacing_eq (t := ['\r']) noReturn (by simp)]

/-- Paired texts that are alike are the same without padding. -/
theorem alike_iff {s t : List Char} (paired : ReturnsPaired s) (otherPaired : ReturnsPaired t) :
    Alike s t ↔ unpadded s = unpadded t := by
  rw [Alike, map_strip_rows paired, map_strip_rows otherPaired]
  constructor
  · intro same
    rw [unpadded, unpadded, same]
  · intro same
    rw [← lines_unpadded, ← lines_unpadded, same]

theorem lines_unpadded_eq_map (s : List Char) :
    lines (unpadded s) = (lines s).map unpadded := by
  rw [lines_unpadded]
  exact List.map_congr_left fun l mem => (unpadded_of_not_mem (not_mem_of_mem_lines mem)).symm

/-- Lines that lose their padding are put together to the text without padding. -/
theorem intercalate_map_unpadded (ls : List (List Char)) :
    ['\n'].intercalate (ls.map unpadded) = unpadded (['\n'].intercalate ls) := by
  induction ls with
  | nil => rfl
  | cons l ls ih =>
      cases ls with
      | nil => rw [List.map_singleton, List.intercalate_singleton, List.intercalate_singleton]
      | cons next others =>
          rw [List.map_cons] at ih
          rw [List.map_cons, List.map_cons, List.intercalate_cons_cons, ih,
            List.intercalate_cons_cons, List.append_assoc, List.append_assoc,
            List.singleton_append, List.singleton_append, unpadded_append]

/-! ## Without padding and trimmed -/

theorem trim_strip (l : List Char) : trim (strip isPadding l) = trim l := by
  obtain ⟨front, back, whole, before, after, _⟩ := exists_append_strip_append isPadding l
  have core := strip_around (strip isPadding l)
    (fun c mem => isBlank_of_isPadding (before c mem))
    (fun c mem => isBlank_of_isPadding (after c mem))
  rw [← whole] at core
  exact core.symm

theorem Firm.trimStart {s : List Char} (firm : Firm isPadding s) :
    Firm isPadding (trimStart s) := by
  refine ⟨fun c first => isPadding_eq_false (not_of_mem_head?_dropWhile c first),
    fun c last => firm.2 c ?_⟩
  have ends := congrArg List.getLast? (List.takeWhile_append_dropWhile (p := isBlank) (l := s))
  rw [List.getLast?_append, ← Text.trimStart, Option.mem_def.1 last, Option.some_or] at ends
  exact ends.symm

/-- The blanks in front of a line may be dropped before or after its padding. -/
theorem trimStart_strip (l : List Char) :
    trimStart (strip isPadding l) = strip isPadding (trimStart l) := by
  obtain ⟨front, back, whole, before, after, firm⟩ := exists_append_strip_append isPadding l
  generalize strip isPadding l = core at whole firm ⊢
  subst whole
  rw [trimStart, trimStart, List.append_assoc,
    List.dropWhile_append_of_pos fun c mem => isBlank_of_isPadding (before c mem),
    List.dropWhile_append]
  cases kept : core.dropWhile isBlank with
  | nil =>
      have none : back.dropWhile isBlank = [] :=
        List.dropWhile_eq_nil_iff.2 fun c mem => isBlank_of_isPadding (after c mem)
      rw [none]
      rfl
  | cons d rest =>
      have stillFirm : Firm isPadding (d :: rest) := kept ▸ firm.trimStart
      rw [List.isEmpty_cons, if_neg Bool.false_ne_true, strip_append _ after,
        strip_eq_self stillFirm]

theorem trimStart_unpadded (s : List Char) : trimStart (unpadded s) = unpadded (trimStart s) := by
  induction s using lines_induction with
  | single l single =>
      have shorter : '\n' ∉ trimStart l :=
        fun mem => single ((List.dropWhile_suffix isBlank).subset mem)
      rw [unpadded_of_not_mem single, unpadded_of_not_mem shorter, trimStart_strip]
  | line l t single ih =>
      have core := trimStart_strip l
      rw [trimStart, trimStart] at ih core ⊢
      rw [unpadded_append, unpadded_of_not_mem single, List.dropWhile_append, core,
        List.dropWhile_append]
      cases kept : l.dropWhile isBlank with
      | nil =>
          -- the line is blank, so trimming goes on behind it
          exact ih
      | cons c rest =>
          have visible : isBlank c = false := by
            refine not_of_mem_head?_dropWhile c (s := l) ?_
            rw [kept]
            rfl
          have stays : strip isPadding (c :: rest) ≠ [] := by
            intro none
            have padding := strip_eq_nil_iff.1 none c List.mem_cons_self
            rw [isPadding_eq_false visible] at padding
            cases padding
          have shorter : '\n' ∉ c :: rest :=
            fun mem => single ((List.dropWhile_suffix isBlank).subset (kept ▸ mem))
          rw [if_neg (by simpa using stays), List.isEmpty_cons, if_neg Bool.false_ne_true,
            unpadded_append, unpadded_of_not_mem shorter]

/-! ## Mirrored texts -/

theorem Firm.reverse {p : Char → Bool} {s : List Char} (firm : Firm p s) : Firm p s.reverse := by
  refine ⟨?_, ?_⟩
  · rw [List.head?_reverse]
    exact firm.2
  · rw [List.getLast?_reverse]
    exact firm.1

theorem strip_reverse (p : Char → Bool) (s : List Char) :
    strip p s.reverse = (strip p s).reverse := by
  obtain ⟨front, back, whole, before, after, firm⟩ := exists_append_strip_append p s
  have mirrored := strip_append_append (fun c mem => after c (List.mem_reverse.1 mem))
    firm.reverse (fun c mem => before c (List.mem_reverse.1 mem))
  rwa [List.append_assoc, ← List.reverse_append, ← List.reverse_append, ← whole] at mirrored

theorem unpadded_reverse (s : List Char) : unpadded s.reverse = (unpadded s).reverse := by
  induction s using lines_induction with
  | single l single =>
      have mirrored : '\n' ∉ l.reverse := fun mem => single (List.mem_reverse.1 mem)
      rw [unpadded_of_not_mem single, unpadded_of_not_mem mirrored, strip_reverse]
  | line l t single ih =>
      have mirrored : '\n' ∉ l.reverse := fun mem => single (List.mem_reverse.1 mem)
      rw [unpadded_append, unpadded_of_not_mem single, List.reverse_append, List.reverse_cons,
        List.append_assoc, List.singleton_append, unpadded_append, ih,
        unpadded_of_not_mem mirrored, strip_reverse]
      simp

/-- Trimming a text and removing its padding may be done in either order. -/
theorem trim_unpadded (s : List Char) : trim (unpadded s) = unpadded (trim s) := by
  have ends (t : List Char) :
      (unpadded t).rdropWhile isBlank = unpadded (t.rdropWhile isBlank) := by
    have mirrored := trimStart_unpadded t.reverse
    rw [trimStart, trimStart] at mirrored
    rw [List.rdropWhile, ← unpadded_reverse, mirrored, ← unpadded_reverse, List.rdropWhile]
  have start := trimStart_unpadded s
  rw [trimStart, trimStart] at start
  rw [trim, strip_eq, start, ends, trim, strip_eq]

theorem allBlank_unpadded (s : List Char) : allBlank (unpadded s) = allBlank s := by
  induction s using lines_induction with
  | single l single => rw [unpadded_of_not_mem single, ← allBlank_trim, trim_strip, allBlank_trim]
  | line l t single ih =>
      have core : allBlank (strip isPadding l) = allBlank l := by
        rw [← allBlank_trim, trim_strip, allBlank_trim]
      have feed (u : List Char) : allBlank ('\n' :: u) = allBlank u := rfl
      rw [unpadded_append, unpadded_of_not_mem single, allBlank_append, core, feed, ih,
        allBlank_append, feed]

end TrustRules.Text
