import Mathlib.Computability.Language

/-!
# Patterns

A pattern can match the front of a text in several ways.  They are listed by
preference: an earlier alternative stands before a later one, and more
repetitions before fewer.  A search takes the most preferred way at the
leftmost place and goes on behind it.  Main statement: a pattern that keeps
nothing and spells a language takes the words of this language, and the
operations on patterns are those on languages.
-/

namespace TrustRules.Text

open scoped Computability

/-- A pattern over the characters of a text. -/
inductive Pattern where
  /-- One character of a kind. -/
  | one (allowed : Char → Bool)
  /-- The end of the text. -/
  | finish
  /-- The empty text. -/
  | nothing
  /-- One pattern after the other. -/
  | both (first second : Pattern)
  /-- The first pattern or else the second. -/
  | either (first second : Pattern)
  /-- The pattern any number of times, as often as possible. -/
  | many (repeated : Pattern)
  /-- The pattern, whose text is kept. -/
  | kept (pattern : Pattern)

namespace Pattern

/-- The characters of a text in their order. -/
def literal : List Char → Pattern
  | [] => nothing
  | c :: rest => both (one fun d => d == c) (literal rest)

/-- A way to match the front of a text. -/
structure Way where
  /-- The kept parts, from left to right. -/
  parts : List (List Char)
  /-- What stands behind the match. -/
  rest : List Char

/-- One way and then another. -/
def Way.before (first second : Way) : Way :=
  ⟨first.parts ++ second.parts, second.rest⟩

/--
The ways to match any number of times, more before fewer.  A repetition that
takes no character does not count.
-/
def repeats (step : List Char → List Way) (s : List Char) : List Way :=
  ((step s).flatMap fun first =>
    if _ : first.rest.length < s.length then
      (repeats step first.rest).map first.before
    else []) ++ [⟨[], s⟩]
termination_by s.length
decreasing_by assumption

/-- The ways of a pattern to match the front of a text, by preference. -/
def ways : Pattern → List Char → List Way
  | .one _, [] => []
  | .one allowed, c :: rest => if allowed c then [⟨[], rest⟩] else []
  | .finish, s => if s.isEmpty then [⟨[], s⟩] else []
  | .nothing, s => [⟨[], s⟩]
  | .both first second, s =>
      (ways first s).flatMap fun way => (ways second way.rest).map way.before
  | .either first second, s => ways first s ++ ways second s
  | .many repeated, s => repeats (ways repeated) s
  | .kept pattern, s =>
      (ways pattern s).map fun way =>
        ⟨s.take (s.length - way.rest.length) :: way.parts, way.rest⟩

/--
The kept parts of the matches in a text, which are found from left to right
without overlaps.  A match of no character does not count.
-/
def search (pattern : Pattern) : List Char → List (List (List Char))
  | [] => []
  | c :: s =>
      match (pattern.ways (c :: s)).head? with
      | some way =>
          if way.rest.length ≤ s.length then way.parts :: search pattern way.rest
          else search pattern s
      | none => search pattern s
termination_by s => s.length

/-! ## Ways of a pattern -/

theorem mem_ways_both {first second : Pattern} {s : List Char} {way : Way} :
    way ∈ (both first second).ways s ↔
      ∃ front ∈ first.ways s, ∃ back ∈ second.ways front.rest, front.before back = way := by
  simp only [ways, List.mem_flatMap, List.mem_map]

theorem mem_ways_either {first second : Pattern} {s : List Char} {way : Way} :
    way ∈ (either first second).ways s ↔ way ∈ first.ways s ∨ way ∈ second.ways s := by
  rw [ways, List.mem_append]

theorem mem_ways_finish {s : List Char} {way : Way} :
    way ∈ finish.ways s ↔ s = [] ∧ way = ⟨[], []⟩ := by
  cases s <;> simp [ways]

theorem mem_ways_many {repeated : Pattern} {s : List Char} {way : Way} :
    way ∈ (many repeated).ways s ↔
      (∃ first ∈ repeated.ways s, first.rest.length < s.length ∧
        ∃ others ∈ (many repeated).ways first.rest, first.before others = way) ∨
      way = ⟨[], s⟩ := by
  rw [ways, repeats, List.mem_append, List.mem_singleton, List.mem_flatMap]
  refine or_congr (exists_congr fun first => and_congr_right fun _ => ?_) Iff.rfl
  split
  · next shorter => simp only [shorter, true_and, List.mem_map, ways]
  · next notShorter => simp only [notShorter, false_and, List.not_mem_nil]

/-! ## Search -/

theorem search_cons_of_forall_not_mem {pattern : Pattern} {c : Char} {s : List Char}
    (none : ∀ way, way ∉ pattern.ways (c :: s)) :
    pattern.search (c :: s) = pattern.search s := by
  rw [search, List.eq_nil_iff_forall_not_mem.2 none]
  rfl

/-- At a place where a pattern matches, one of its ways is taken. -/
theorem exists_search_cons {pattern : Pattern} {c : Char} {s : List Char}
    (some : ∃ way, way ∈ pattern.ways (c :: s))
    (shorter : ∀ way ∈ pattern.ways (c :: s), way.rest.length ≤ s.length) :
    ∃ way ∈ pattern.ways (c :: s),
      pattern.search (c :: s) = way.parts :: pattern.search way.rest := by
  rw [search]
  cases ways : pattern.ways (c :: s) with
  | nil =>
      obtain ⟨way, mem⟩ := some
      rw [ways] at mem
      cases mem
  | cons way others =>
      rw [ways] at shorter
      have mem : way ∈ way :: others := List.mem_cons_self
      refine ⟨way, mem, ?_⟩
      simp only [List.head?_cons, shorter way mem, if_true]

/-! ## Languages -/

/-- The texts of one character of a kind. -/
def singles (allowed : Char → Bool) : Language Char :=
  {word | ∃ c, allowed c = true ∧ word = [c]}

theorem append_mem_kstar {words : Language Char} {word other : List Char} (isWord : word ∈ words)
    (isOther : other ∈ words∗) : word ++ other ∈ words∗ := by
  rw [← Language.one_add_self_mul_kstar_eq_kstar]
  exact .inr (Language.append_mem_mul isWord isOther)

theorem mem_singles_kstar {allowed : Char → Bool} {text : List Char} :
    text ∈ (singles allowed)∗ ↔ ∀ c ∈ text, allowed c = true := by
  constructor
  · rintro ⟨pieces, rfl, each⟩ c mem
    obtain ⟨piece, isPiece, inPiece⟩ := List.mem_flatten.1 mem
    obtain ⟨d, isAllowed, rfl⟩ := each piece isPiece
    rwa [List.mem_singleton.1 inPiece]
  · intro each
    induction text with
    | nil => exact Language.nil_mem_kstar _
    | cons c text ih =>
        have first : [c] ∈ singles allowed := ⟨c, each c List.mem_cons_self, rfl⟩
        exact append_mem_kstar first (ih fun d mem => each d (List.mem_cons_of_mem c mem))

/-- The pattern keeps nothing and takes just the words of a language. -/
def Spells (pattern : Pattern) (words : Language Char) : Prop :=
  ∀ s way, way ∈ pattern.ways s ↔ way.parts = [] ∧ ∃ word ∈ words, s = word ++ way.rest

theorem spells_one (allowed : Char → Bool) : Spells (one allowed) (singles allowed) := by
  rintro s ⟨parts, rest⟩
  constructor
  · intro mem
    cases s with
    | nil => cases mem
    | cons c s =>
        rw [ways] at mem
        split at mem
        · next isAllowed =>
            cases List.mem_singleton.1 mem
            exact ⟨rfl, [c], ⟨c, isAllowed, rfl⟩, rfl⟩
        · cases mem
  · rintro ⟨rfl, word, ⟨c, isAllowed, rfl⟩, rfl⟩
    rw [List.singleton_append, ways, if_pos isAllowed]
    exact List.mem_singleton_self _

theorem spells_nothing : Spells nothing 1 := by
  rintro s ⟨parts, rest⟩
  simp [ways, Language.mem_one, eq_comm]

theorem Spells.both {first second : Pattern} {words others : Language Char}
    (spells : Spells first words) (spellsOthers : Spells second others) :
    Spells (both first second) (words * others) := by
  rintro s way
  rw [mem_ways_both]
  constructor
  · rintro ⟨front, mem, back, backMem, rfl⟩
    obtain ⟨none, word, isWord, rfl⟩ := (spells s front).1 mem
    obtain ⟨noneLater, other, isOther, shape⟩ := (spellsOthers _ back).1 backMem
    refine ⟨?_, word ++ other, Language.append_mem_mul isWord isOther, ?_⟩
    · rw [Way.before, none, noneLater, List.append_nil]
    · rw [shape, Way.before, List.append_assoc]
  · rintro ⟨none, _, ⟨word, isWord, other, isOther, rfl⟩, rfl⟩
    refine ⟨⟨[], other ++ way.rest⟩, (spells _ _).2 ⟨rfl, word, isWord, ?_⟩,
      ⟨[], way.rest⟩, (spellsOthers _ _).2 ⟨rfl, other, isOther, rfl⟩, ?_⟩
    · rw [List.append_assoc]
    · rw [Way.before, List.append_nil, ← none]

theorem Spells.either {first second : Pattern} {words others : Language Char}
    (spells : Spells first words) (spellsOthers : Spells second others) :
    Spells (either first second) (words + others) := by
  rintro s way
  rw [mem_ways_either, spells s way, spellsOthers s way, ← and_or_left]
  refine and_congr_right fun _ => ?_
  simp only [Language.mem_add, or_and_right, exists_or]

theorem Spells.many {repeated : Pattern} {words : Language Char} (spells : Spells repeated words) :
    Spells (many repeated) words∗ := by
  intro s way
  constructor
  · intro mem
    induction size : s.length using Nat.strong_induction_on generalizing s way with
    | _ count ih =>
      rcases mem_ways_many.1 mem with ⟨first, firstMem, shorter, others, othersMem, rfl⟩ | rfl
      · obtain ⟨none, word, isWord, rfl⟩ := (spells s first).1 firstMem
        obtain ⟨noneLater, later, isLater, shape⟩ :=
          ih _ (size ▸ shorter) first.rest others othersMem rfl
        refine ⟨?_, word ++ later, ?_, ?_⟩
        · rw [Way.before, none, noneLater, List.append_nil]
        · exact append_mem_kstar isWord isLater
        · rw [shape, Way.before, List.append_assoc]
      · exact ⟨rfl, [], Language.nil_mem_kstar words, rfl⟩
  · rintro ⟨none, _, isWord, rfl⟩
    obtain ⟨pieces, rfl, each⟩ := Language.mem_kstar_iff_exists_nonempty.1 isWord
    obtain ⟨parts, rest⟩ := way
    obtain rfl : parts = [] := none
    clear isWord
    induction pieces with
    | nil => exact mem_ways_many.2 (.inr rfl)
    | cons piece pieces ih =>
        obtain ⟨isWord, some⟩ := each piece List.mem_cons_self
        have front : (⟨[], pieces.flatten ++ rest⟩ : Way) ∈
            repeated.ways ((piece :: pieces).flatten ++ rest) := by
          refine (spells _ _).2 ⟨rfl, piece, isWord, ?_⟩
          rw [List.flatten_cons, List.append_assoc]
        have shorter : (pieces.flatten ++ rest).length <
            ((piece :: pieces).flatten ++ rest).length := by
          have positive := List.length_pos_iff.2 some
          simp only [List.flatten_cons, List.append_assoc, List.length_append]
          omega
        exact mem_ways_many.2 (.inl ⟨_, front, shorter, ⟨[], rest⟩,
          ih fun other mem => each other (List.mem_cons_of_mem piece mem), rfl⟩)

theorem spells_literal (text : List Char) : Spells (literal text) {text} := by
  induction text with
  | nil => exact spells_nothing
  | cons c text ih =>
      have words : singles (fun d => d == c) * {text} = {c :: text} := by
        ext word
        constructor
        · rintro ⟨_, ⟨d, same, rfl⟩, _, rfl, rfl⟩
          rw [beq_iff_eq.1 same]
          rfl
        · rintro rfl
          exact ⟨[c], ⟨c, beq_self_eq_true c, rfl⟩, text, rfl, rfl⟩
      rw [literal, ← words]
      exact (spells_one _).both ih

/-! ## A word and what follows -/

theorem Spells.mem_ways_both {first second : Pattern} {words : Language Char}
    (spells : Spells first words) {s : List Char} {way : Way} :
    way ∈ (first.both second).ways s ↔
      ∃ word ∈ words, ∃ rest, s = word ++ rest ∧ way ∈ second.ways rest := by
  rw [Pattern.mem_ways_both]
  constructor
  · rintro ⟨front, mem, back, backMem, rfl⟩
    obtain ⟨none, word, isWord, shape⟩ := (spells s front).1 mem
    refine ⟨word, isWord, front.rest, shape, ?_⟩
    rwa [Way.before, none, List.nil_append]
  · rintro ⟨word, isWord, rest, shape, mem⟩
    exact ⟨⟨[], rest⟩, (spells _ _).2 ⟨rfl, word, isWord, shape⟩, way, mem, rfl⟩

/-- Of a kept pattern, just the word that it takes is kept. -/
theorem Spells.mem_ways_kept_both {first second : Pattern} {words : Language Char}
    (spells : Spells first words) {s : List Char} {way : Way} :
    way ∈ ((kept first).both second).ways s ↔
      ∃ word ∈ words, ∃ rest, s = word ++ rest ∧
        ∃ back ∈ second.ways rest, way = ⟨word :: back.parts, back.rest⟩ := by
  have taken (word rest : List Char) :
      (word ++ rest).take ((word ++ rest).length - rest.length) = word := by
    rw [List.length_append, Nat.add_sub_cancel, List.take_left]
  rw [Pattern.mem_ways_both, ways]
  constructor
  · rintro ⟨front, mem, back, backMem, rfl⟩
    obtain ⟨inner, innerMem, rfl⟩ := List.mem_map.1 mem
    obtain ⟨none, word, isWord, rfl⟩ := (spells s inner).1 innerMem
    refine ⟨word, isWord, inner.rest, rfl, back, backMem, ?_⟩
    rw [Way.before, taken, none]
    rfl
  · rintro ⟨word, isWord, rest, rfl, back, backMem, rfl⟩
    refine ⟨⟨[word], rest⟩, List.mem_map.2 ⟨⟨[], rest⟩, ?_, ?_⟩, back, backMem, rfl⟩
    · exact (spells _ _).2 ⟨rfl, word, isWord, rfl⟩
    · rw [taken]

end Pattern

end TrustRules.Text
