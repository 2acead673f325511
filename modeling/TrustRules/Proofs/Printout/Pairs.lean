import TrustRules.Command
import TrustRules.Printout
import TrustRules.Proofs.Text.Trimming

/-!
# Printed pairs

A key in quotes and a literal are found as a pair if something ends them: a
separator, or blanks up to the end of the output.  Text without quotes holds no
pair and is passed over.
-/

namespace TrustRules

open Text

namespace Printout

/-! ## What follows a pair -/

/-- The text starts with blanks and a character that ends a pair. -/
def separates : List Char → Bool
  | [] => false
  | c :: rest => isStop c || isBreak c || isBlank c && separates rest

theorem separates_iff {s : List Char} :
    separates s = true ↔
      ∃ blanks c rest, s = blanks ++ c :: rest ∧ (∀ b ∈ blanks, isBlank b = true) ∧
        (isStop c || isBreak c) = true := by
  constructor
  · intro separated
    induction s with
    | nil => cases separated
    | cons c rest ih =>
        rw [separates, Bool.or_eq_true, Bool.and_eq_true] at separated
        rcases separated with stops | ⟨blank, later⟩
        · exact ⟨[], c, rest, rfl, by simp, stops⟩
        · obtain ⟨blanks, d, others, rfl, allBlank, stops⟩ := ih later
          exact ⟨c :: blanks, d, others, rfl, List.forall_mem_cons.2 ⟨blank, allBlank⟩, stops⟩
  · rintro ⟨blanks, c, rest, rfl, allBlank, stops⟩
    induction blanks with
    | nil => rw [List.nil_append, separates, stops, Bool.true_or]
    | cons b blanks ih =>
        obtain ⟨blank, others⟩ := List.forall_mem_cons.1 allBlank
        rw [List.cons_append, separates, blank, ih others, Bool.true_and, Bool.or_true]

theorem isBlank_of_isBreak {c : Char} (breaks : isBreak c = true) : isBlank c = true := by
  rw [isBreak, Bool.or_eq_true, beq_iff_eq, beq_iff_eq] at breaks
  rcases breaks with rfl | rfl <;> decide

theorem isBlank_of_isStop {c : Char} (stops : isStop c = true) : isBlank c = false := by
  rw [isStop, Bool.or_eq_true, beq_iff_eq, beq_iff_eq] at stops
  rcases stops with rfl | rfl <;> decide

/-- A pair counts before a separator and before blanks that end the output. -/
theorem terminates_eq (s : List Char) : terminates s = (separates s || allBlank s) := by
  induction s with
  | nil => rfl
  | cons c rest ih =>
      cases blank : isBlank c with
      | true =>
          have noStop : isStop c = false := by
            cases stops : isStop c with
            | false => rfl
            | true => rw [isBlank_of_isStop stops] at blank; cases blank
          have split : terminates (c :: rest) = (isBreak c || terminates rest) := by
            rw [terminates, List.takeWhile_cons_of_pos blank, List.dropWhile_cons_of_pos blank,
              List.any_cons, Bool.or_assoc]
            rfl
          have blanks : allBlank (c :: rest) = allBlank rest := by
            rw [allBlank, List.all_cons, blank, Bool.true_and, allBlank]
          rw [split, ih, separates, noStop, blank, blanks, Bool.false_or, Bool.true_and,
            Bool.or_assoc]
      | false =>
          have noBreak : isBreak c = false := by
            cases breaks : isBreak c with
            | false => rfl
            | true => rw [isBlank_of_isBreak breaks] at blank; cases blank
          have notBlank : ¬isBlank c = true := by rw [blank]; exact Bool.false_ne_true
          have visible : allBlank (c :: rest) = false := by
            rw [allBlank, List.all_cons, blank, Bool.false_and]
          rw [terminates, List.takeWhile_cons_of_neg notBlank, List.dropWhile_cons_of_neg notBlank,
            separates, noBreak, blank, visible, Bool.false_and, Bool.or_false, Bool.or_false,
            Bool.or_false]
          rfl

theorem separates_append {s : List Char} (separated : separates s = true) (t : List Char) :
    separates (s ++ t) = true := by
  obtain ⟨blanks, c, rest, rfl, stops⟩ := separates_iff.1 separated
  exact separates_iff.2 ⟨blanks, c, rest ++ t, by simp, stops⟩

/-- No quote follows a pair that counts. -/
theorem head?_ne_quote {s : List Char} (stops : terminates s = true) : s.head? ≠ some '\'' := by
  rintro quote
  cases s with
  | nil => cases quote
  | cons c rest =>
      obtain rfl : c = '\'' := Option.some.inj quote
      cases stops

/-! ## Pairs -/

/-- A pair that is followed by what may follow one is found. -/
theorem pairAt?_append {key value rest : List Char} (some : key ≠ [])
    (word : ∀ c ∈ key, isWord c = true) (stops : terminates rest = true) :
    pairAt? ('\'' :: (key ++ (between ++ (Quoted.double value ++ '\'' :: rest)))) =
      Option.some ((key, value), rest) := by
  have quote : isWord '\'' ≠ true := by simp [isWord_quote]
  have keyEnd : (key ++ (between ++ (Quoted.double value ++ '\'' :: rest))).takeWhile isWord =
      key := by
    have behind : (between ++ (Quoted.double value ++ '\'' :: rest)).takeWhile isWord = [] :=
      List.takeWhile_cons_of_neg quote
    rw [List.takeWhile_append_of_pos word, behind, List.append_nil]
  have opened : (key ++ (between ++ (Quoted.double value ++ '\'' :: rest))).dropWhile isWord =
      between ++ (Quoted.double value ++ '\'' :: rest) := by
    rw [List.dropWhile_append_of_pos word]
    exact List.dropWhile_cons_of_neg quote
  simp only [pairAt?, keyEnd, opened, List.isPrefixOf?_eq_some_iff_append_eq.2 rfl,
    Quoted.close?_double_append (head?_ne_quote stops), stops, if_pos, ne_eq, some,
    not_false_eq_true, and_self]

/-- A pair at the front has a key of word characters and a literal as its value. -/
theorem eq_of_pairAt? {s key value rest : List Char}
    (found : pairAt? s = some ((key, value), rest)) :
    s = '\'' :: key ++ between ++ Quoted.double value ++ '\'' :: rest ∧
      key ≠ [] ∧ (∀ c ∈ key, isWord c = true) ∧
      rest.head? ≠ some '\'' ∧ terminates rest = true := by
  obtain ⟨behind, opened, rfl, rfl, some, starts, closed, terminated⟩ := parts_of_pairAt? found
  obtain ⟨rfl, unquoted⟩ := Quoted.eq_of_close? closed
  have shape := List.append_eq_of_isPrefixOf?_eq_some starts
  have parts := List.takeWhile_append_dropWhile (p := isWord) (l := behind)
  rw [← shape] at parts
  refine ⟨?_, some, fun c mem => List.mem_takeWhile_imp mem, unquoted, terminated⟩
  simpa using congrArg ('\'' :: ·) parts.symm

/-- A character other than a quote starts no pair. -/
theorem pairs_cons_of_ne {c : Char} (other : c ≠ '\'') (rest : List Char) :
    pairs (c :: rest) = pairs rest := by
  refine pairs_cons ?_
  simp only [pairAt?, other, false_and, if_false]

theorem pairs_append_of_not_mem {front : List Char} (unquoted : '\'' ∉ front) (rest : List Char) :
    pairs (front ++ rest) = pairs rest := by
  induction front with
  | nil => rfl
  | cons c front ih =>
      rw [List.mem_cons, not_or] at unquoted
      rw [List.cons_append, pairs_cons_of_ne (Ne.symm unquoted.1), ih unquoted.2]

end Printout

namespace Trust

/-- A key in quotes, and a text as its value. -/
def printedPair (key value : String) : List Char :=
  '\'' :: key.toList ++ "' = ".toList ++ Command.argument value

theorem printedPair_append (key value : String) (rest : List Char) :
    printedPair key value ++ rest = '\'' :: (key.toList ++ (Printout.between ++
      (Quoted.double value.toList ++ '\'' :: rest))) := by
  have sign : ("' = ".toList ++ ['\'']) = Printout.between := by decide
  rw [← sign]
  simp only [printedPair, Command.argument, Quoted.encode, List.cons_append,
    List.append_assoc, List.nil_append]

theorem pairAt?_printedPair {key : String} (some : key.toList ≠ [])
    (word : ∀ c ∈ key.toList, isWord c = true) (value : String) {rest : List Char}
    (stops : Printout.terminates rest = true) :
    Printout.pairAt? (printedPair key value ++ rest) =
      Option.some ((key.toList, value.toList), rest) := by
  rw [printedPair_append]
  exact Printout.pairAt?_append some word stops

end Trust

end TrustRules
