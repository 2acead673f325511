import TrustRules.Text.Blank
import TrustRules.Text.Break
import TrustRules.Text.Quoted
import TrustRules.Text.Word

/-!
# Printouts

A command prints values as pairs of a quoted key and a quoted literal with an
equals sign between them.  A pair counts only where blanks and then a
semicolon, a brace, a line break or the end of the output follow it; the rest
of the output is noise.
-/

namespace TrustRules

open Text

namespace Printout

/-- A character other than a line break that may follow a pair. -/
def isStop (c : Char) : Bool :=
  c == ';' || c == '\x7d'

/-- A character that breaks a line. -/
def isBreak (c : Char) : Bool :=
  c == '\r' || c == '\n'

/-- The text may follow a pair. -/
def terminates (s : List Char) : Bool :=
  (s.takeWhile isBlank).any isBreak ||
    match s.dropWhile isBlank with
    | [] => true
    | c :: _ => isStop c

/-- What stands between the key and the value of a pair, their quotes included. -/
def between : List Char := "' = '".toList

/-- The key and the value of the pair at the front of a text, and what follows it. -/
def pairAt? : List Char → Option ((List Char × List Char) × List Char)
  | [] => none
  | c :: rest =>
      let key := rest.takeWhile isWord
      if c = '\'' ∧ key ≠ [] then
        match between.isPrefixOf? (rest.dropWhile isWord) with
        | some opened =>
            match Quoted.close? opened with
            | some (value, following) =>
                if terminates following then some ((key, value), following) else none
            | none => none
        | none => none
      else none

/-- A pair is found by its opening quote, its key, the sign between and its literal. -/
theorem parts_of_pairAt? {s key value rest : List Char}
    (found : pairAt? s = some ((key, value), rest)) :
    ∃ behind opened, s = '\'' :: behind ∧ key = behind.takeWhile isWord ∧ key ≠ [] ∧
      between.isPrefixOf? (behind.dropWhile isWord) = some opened ∧
      Quoted.close? opened = some (value, rest) ∧ terminates rest = true := by
  cases s with
  | nil => cases found
  | cons c s =>
      simp only [pairAt?] at found
      split at found
      · next keyed =>
          split at found
          · next opened starts =>
              split at found
              · next literal following closed =>
                  split at found
                  · next terminated =>
                      simp only [Option.some.injEq, Prod.mk.injEq] at found
                      obtain ⟨⟨rfl, rfl⟩, rfl⟩ := found
                      obtain ⟨rfl, some⟩ := keyed
                      exact ⟨s, opened, rfl, rfl, some, starts, closed, terminated⟩
                  · cases found
              · cases found
          · cases found
      · cases found

theorem length_lt_of_pairAt? {s rest : List Char} {pair : List Char × List Char}
    (found : pairAt? s = some (pair, rest)) : rest.length < s.length := by
  obtain ⟨behind, opened, rfl, -, -, starts, closed, -⟩ :=
    @parts_of_pairAt? s pair.1 pair.2 rest found
  have behindKey : (behind.dropWhile isWord).length ≤ behind.length :=
    (List.dropWhile_suffix isWord).length_le
  have behindSign := length_le_of_isPrefixOf? starts
  have behindValue := Quoted.length_lt_of_close? closed
  rw [List.length_cons]
  omega

/-- The pairs of an output, from left to right and without overlaps. -/
def pairs : List Char → List (List Char × List Char)
  | [] => []
  | c :: rest =>
      match _ : pairAt? (c :: rest) with
      | some (pair, following) => pair :: pairs following
      | none => pairs rest
termination_by s => s.length
decreasing_by
  · exact length_lt_of_pairAt? ‹_›
  · exact Nat.lt_succ_self _

theorem pairs_nil : pairs [] = [] := by
  rw [pairs]

/-- A pair at the front is the first of the output. -/
theorem pairs_of_pairAt? {s following : List Char} {pair : List Char × List Char}
    (found : pairAt? s = some (pair, following)) : pairs s = pair :: pairs following := by
  cases s with
  | nil => cases found
  | cons c rest =>
      rw [pairs]
      split
      · next same =>
          rw [found] at same
          cases same
          rfl
      · next none =>
          rw [found] at none
          cases none

/-- A character at which no pair starts is passed over. -/
theorem pairs_cons {c : Char} {rest : List Char} (none : pairAt? (c :: rest) = none) :
    pairs (c :: rest) = pairs rest := by
  rw [pairs]
  split
  · next found =>
      rw [none] at found
      cases found
  · rfl

end Printout

/-! ## Values by key -/

/-- The values that a command printed, one for each key. -/
structure Printout where
  entries : List (String × String) := []
  deriving DecidableEq, Repr

namespace Printout

/-- The value printed under a key. -/
def get? (printout : Printout) (key : String) : Option String :=
  printout.entries.lookup key

/-- Put a value under a key, in place of an earlier one. -/
def insert (printout : Printout) (key value : String) : Printout :=
  ⟨printout.entries.filter (fun entry => entry.1 != key) ++ [(key, value)]⟩

/-- The printout of an output; of several pairs with one key the last one stands. -/
def ofText (output : String) : Printout :=
  (pairs output.toList).foldl
    (fun printout pair => printout.insert (String.ofList pair.1) (String.ofList pair.2)) {}

/-- A value that was put under a key is found there, and other keys keep theirs. -/
theorem get?_insert (printout : Printout) (key value sought : String) :
    (printout.insert key value).get? sought =
      if sought = key then some value else printout.get? sought := by
  obtain ⟨entries⟩ := printout
  simp only [get?, insert]
  induction entries with
  | nil =>
      by_cases same : sought = key
      · simp [same]
      · have other : (sought == key) = false := by simpa using same
        simp [List.lookup_cons, same, other]
  | cons entry rest ih =>
      obtain ⟨found, stored⟩ := entry
      by_cases replaced : found = key
      · subst replaced
        rw [List.filter_cons_of_neg (by simp), ih]
        by_cases same : sought = found
        · simp [same]
        · have other : (sought == found) = false := by simpa using same
          simp [List.lookup_cons, same, other]
      · rw [List.filter_cons_of_pos (by simpa using replaced), List.cons_append]
        by_cases here : sought = found
        · subst here
          simp [replaced]
        · have other : (sought == found) = false := by simpa using here
          simp only [List.lookup_cons, other]
          exact ih

end Printout

end TrustRules
