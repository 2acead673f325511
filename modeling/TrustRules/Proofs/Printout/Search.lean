import TrustRules.Proofs.Printout.Pairs
import TrustRules.Proofs.Text.Pattern

/-!
# Pairs by search

The pairs of an output are what a search for a pattern of a key, a literal and
an end finds.  A literal ends at the first quote that no other follows, so the
pattern keeps the same key and the same literal in whatever way it matches; the
order of preference has no influence on what is found.
-/

namespace TrustRules

open Text
open scoped Computability

namespace Text.Quoted

/-- Two quotes in a row become one. -/
def single : List Char → List Char
  | [] => []
  | '\'' :: '\'' :: rest => '\'' :: single rest
  | c :: rest => c :: single rest

theorem single_double (s : List Char) : single (double s) = s := by
  induction s with
  | nil => rfl
  | cons c rest ih =>
      by_cases quote : c = '\''
      · rw [double, if_pos quote, single, ih, quote]
      · rw [double, if_neg quote, single, ih]
        exact fun _ same => absurd same quote

/-- Texts with their quotes doubled consist of other characters and of two quotes in a row. -/
theorem mem_doubled {text : List Char} :
    text ∈ (Pattern.singles (fun c => c != '\'') + {['\'', '\'']})∗ ↔
      ∃ value, text = double value := by
  constructor
  · rintro ⟨pieces, rfl, each⟩
    induction pieces with
    | nil => exact ⟨[], rfl⟩
    | cons piece pieces ih =>
        obtain ⟨value, later⟩ := ih fun other mem => each other (List.mem_cons_of_mem piece mem)
        rw [List.flatten_cons, later]
        rcases each piece List.mem_cons_self with ⟨c, other, rfl⟩ | rfl
        · refine ⟨c :: value, ?_⟩
          rw [double, if_neg (bne_iff_ne.1 other)]
          rfl
        · exact ⟨'\'' :: value, rfl⟩
  · rintro ⟨value, rfl⟩
    induction value with
    | nil => exact Language.nil_mem_kstar _
    | cons c value ih =>
        by_cases quote : c = '\''
        · rw [double, if_pos quote]
          exact Pattern.append_mem_kstar (.inr rfl) ih
        · rw [double, if_neg quote]
          exact Pattern.append_mem_kstar (.inl ⟨c, bne_iff_ne.2 quote, rfl⟩) ih

end Text.Quoted

namespace Printout

/-! ## The pattern -/

/-- A word, of one character at least. -/
def keyPattern : Pattern :=
  .both (.one isWord) (.many (.one isWord))

/-- The inside of a literal. -/
def literalPattern : Pattern :=
  .many (.either (.one fun c => c != '\'') (.literal ['\'', '\'']))

/-- Blanks and a character that ends a pair, or blanks and the end of the output. -/
def endPattern : Pattern :=
  .either (.both (.many (.one isBlank)) (.one fun c => isStop c || isBreak c))
    (.both (.many (.one isBlank)) .finish)

/-- A pair in quotes and what ends it. -/
def pairPattern : Pattern :=
  .both (.literal ['\'']) <| .both (.kept keyPattern) <| .both (.literal between) <|
    .both (.kept literalPattern) <| .both (.literal ['\'']) endPattern

/-- The printout of the pairs that the search finds, with their quotes made single. -/
def searched (output : String) : Printout :=
  (pairPattern.search output.toList).foldl (fun printout parts =>
    match parts with
    | [key, literal] =>
        printout.insert (String.ofList key) (String.ofList (Quoted.single literal))
    | _ => printout) {}

theorem spells_keyPattern :
    keyPattern.Spells (Pattern.singles isWord * (Pattern.singles isWord)∗) :=
  (Pattern.spells_one isWord).both (Pattern.spells_one isWord).many

theorem spells_literalPattern :
    literalPattern.Spells (Pattern.singles (fun c => c != '\'') + {['\'', '\'']})∗ :=
  ((Pattern.spells_one _).either (Pattern.spells_literal _)).many

theorem mem_keys {key : List Char} :
    key ∈ Pattern.singles isWord * (Pattern.singles isWord)∗ ↔
      key ≠ [] ∧ ∀ c ∈ key, isWord c = true := by
  constructor
  · rintro ⟨_, ⟨c, word, rfl⟩, rest, words, rfl⟩
    refine ⟨by simp, fun d mem => ?_⟩
    rcases List.mem_cons.1 mem with rfl | later
    · exact word
    · exact Pattern.mem_singles_kstar.1 words d later
  · rintro ⟨some, words⟩
    cases key with
    | nil => exact absurd rfl some
    | cons c rest =>
        exact ⟨[c], ⟨c, words c List.mem_cons_self, rfl⟩, rest,
          Pattern.mem_singles_kstar.2 fun d mem => words d (List.mem_cons_of_mem c mem), rfl⟩

/-! ## What follows a pair -/

/-- The ways of the end leave the rest behind the separator, or nothing. -/
theorem mem_ways_endPattern {s : List Char} {way : Pattern.Way} :
    way ∈ endPattern.ways s ↔
      (way.parts = [] ∧ ∃ blanks c, s = blanks ++ c :: way.rest ∧
        (∀ b ∈ blanks, isBlank b = true) ∧ (isStop c || isBreak c) = true) ∨
      (way = ⟨[], []⟩ ∧ ∀ b ∈ s, isBlank b = true) := by
  have blanks := (Pattern.spells_one isBlank).many
  rw [endPattern, Pattern.mem_ways_either, blanks.mem_ways_both, blanks.mem_ways_both]
  refine or_congr ?_ ?_
  · simp only [Pattern.spells_one _ _ way, Pattern.mem_singles_kstar]
    constructor
    · rintro ⟨front, allBlank, _, rfl, none, _, ⟨c, stops, rfl⟩, rfl⟩
      exact ⟨none, front, c, rfl, allBlank, stops⟩
    · rintro ⟨none, front, c, rfl, allBlank, stops⟩
      exact ⟨front, allBlank, c :: way.rest, rfl, none, [c], ⟨c, stops, rfl⟩, rfl⟩
  · simp only [Pattern.mem_ways_finish, Pattern.mem_singles_kstar]
    constructor
    · rintro ⟨front, allBlank, _, rfl, rfl, rfl⟩
      exact ⟨rfl, by rwa [List.append_nil]⟩
    · rintro ⟨rfl, allBlank⟩
      exact ⟨s, allBlank, [], (List.append_nil s).symm, rfl, rfl⟩

theorem parts_of_mem_ways_endPattern {s : List Char} {way : Pattern.Way}
    (mem : way ∈ endPattern.ways s) : way.parts = [] := by
  rcases mem_ways_endPattern.1 mem with ⟨none, -⟩ | ⟨rfl, -⟩
  · exact none
  · rfl

theorem exists_mem_ways_endPattern {s : List Char} :
    (∃ way, way ∈ endPattern.ways s) ↔ terminates s = true := by
  rw [terminates_eq, Bool.or_eq_true, separates_iff, allBlank_iff]
  constructor
  · rintro ⟨way, mem⟩
    rcases mem_ways_endPattern.1 mem with ⟨-, blanks, c, shape, stops⟩ | ⟨-, allBlank⟩
    · exact .inl ⟨blanks, c, way.rest, shape, stops⟩
    · exact .inr allBlank
  · rintro (⟨blanks, c, rest, shape, stops⟩ | allBlank)
    · exact ⟨⟨[], rest⟩, mem_ways_endPattern.2 (.inl ⟨rfl, blanks, c, shape, stops⟩)⟩
    · exact ⟨⟨[], []⟩, mem_ways_endPattern.2 (.inr ⟨rfl, allBlank⟩)⟩

/-! ## The search -/

/-- In every way, the pattern keeps the key and the literal of the pair at the front. -/
theorem mem_ways_pairPattern {s : List Char} {way : Pattern.Way} :
    way ∈ pairPattern.ways s ↔
      ∃ key value following, pairAt? s = some ((key, value), following) ∧
        ∃ ending ∈ endPattern.ways following,
          way = ⟨[key, Quoted.double value], ending.rest⟩ := by
  have quote := Pattern.spells_literal ['\'']
  constructor
  · intro mem
    obtain ⟨_, rfl, _, rfl, keyed⟩ := quote.mem_ways_both.1 mem
    obtain ⟨key, isKey, _, rfl, _, signed, rfl⟩ := spells_keyPattern.mem_ways_kept_both.1 keyed
    obtain ⟨_, rfl, _, rfl, opened⟩ := (Pattern.spells_literal between).mem_ways_both.1 signed
    obtain ⟨_, isLiteral, _, rfl, ending, closed, rfl⟩ :=
      spells_literalPattern.mem_ways_kept_both.1 opened
    obtain ⟨_, rfl, following, rfl, ended⟩ := quote.mem_ways_both.1 closed
    obtain ⟨value, rfl⟩ := Quoted.mem_doubled.1 isLiteral
    obtain ⟨some, word⟩ := mem_keys.1 isKey
    have stops := exists_mem_ways_endPattern.1 ⟨ending, ended⟩
    refine ⟨key, value, following, ?_, ending, ended, ?_⟩
    · exact pairAt?_append some word stops
    · rw [parts_of_mem_ways_endPattern ended]
  · rintro ⟨key, value, following, found, ending, ended, rfl⟩
    obtain ⟨rfl, some, word, -, -⟩ := eq_of_pairAt? found
    have none := parts_of_mem_ways_endPattern ended
    have closed := quote.mem_ways_both.2 ⟨_, rfl, following, rfl, ended⟩
    have opened := spells_literalPattern.mem_ways_kept_both.2
      ⟨Quoted.double value, Quoted.mem_doubled.2 ⟨value, rfl⟩, _, rfl, ending, closed, rfl⟩
    have signed := (Pattern.spells_literal between).mem_ways_both.2 ⟨_, rfl, _, rfl, opened⟩
    have keyed := spells_keyPattern.mem_ways_kept_both.2
      ⟨key, mem_keys.2 ⟨some, word⟩, _, rfl, _, signed, rfl⟩
    have whole := quote.mem_ways_both.2 ⟨_, rfl, _, rfl, keyed⟩
    rw [none] at whole
    have shape : '\'' :: key ++ between ++ Quoted.double value ++ '\'' :: following =
        ['\''] ++ (key ++ (between ++ (Quoted.double value ++ (['\''] ++ following)))) := by simp
    rw [shape]
    exact whole

/-- What the end takes holds no quote. -/
theorem exists_unquoted_append_rest {s : List Char} {ending : Pattern.Way}
    (mem : ending ∈ endPattern.ways s) : ∃ taken, '\'' ∉ taken ∧ s = taken ++ ending.rest := by
  have blankQuote : isBlank '\'' = false := by decide
  have endQuote : (isStop '\'' || isBreak '\'') = false := by decide
  rcases mem_ways_endPattern.1 mem with ⟨-, blanks, c, rfl, allBlank, stops⟩ | ⟨rfl, allBlank⟩
  · refine ⟨blanks ++ [c], fun quote => ?_, by simp⟩
    rcases List.mem_append.1 quote with inBlanks | isEnd
    · rw [allBlank _ inBlanks] at blankQuote
      cases blankQuote
    · rw [List.mem_singleton.1 isEnd, stops] at endQuote
      cases endQuote
  · refine ⟨s, fun quote => ?_, (List.append_nil s).symm⟩
    rw [allBlank _ quote] at blankQuote
    cases blankQuote

/-- Every way keeps the pair at the front and leaves the pairs behind it to be found. -/
theorem way_of_pairAt? {s key value following : List Char}
    (found : pairAt? s = some ((key, value), following)) {way : Pattern.Way}
    (mem : way ∈ pairPattern.ways s) :
    way.parts = [key, Quoted.double value] ∧ way.rest.length < s.length ∧
      pairs way.rest = pairs following := by
  have shorter := length_lt_of_pairAt? found
  obtain ⟨_, _, _, same, ending, ended, rfl⟩ := mem_ways_pairPattern.1 mem
  rw [found] at same
  cases same
  obtain ⟨taken, unquoted, rfl⟩ := exists_unquoted_append_rest ended
  rw [List.length_append] at shorter
  exact ⟨rfl, Nat.lt_of_le_of_lt (Nat.le_add_left _ _) shorter,
    (pairs_append_of_not_mem unquoted _).symm⟩

/-- The search finds the pairs of an output. -/
theorem search_pairPattern (s : List Char) :
    pairPattern.search s = (pairs s).map fun pair => [pair.1, Quoted.double pair.2] := by
  induction size : s.length using Nat.strong_induction_on generalizing s with
  | _ count ih =>
    cases s with
    | nil => rw [Pattern.search, pairs_nil, List.map_nil]
    | cons c s =>
        cases found : pairAt? (c :: s) with
        | none =>
            have noWay : ∀ way, way ∉ pairPattern.ways (c :: s) := by
              intro way mem
              obtain ⟨key, value, following, here, -⟩ := mem_ways_pairPattern.1 mem
              rw [found] at here
              cases here
            have shorter : s.length < count := by rw [← size, List.length_cons]; omega
            rw [Pattern.search_cons_of_forall_not_mem noWay, pairs_cons found]
            exact ih s.length shorter s rfl
        | some here =>
            obtain ⟨⟨key, value⟩, following⟩ := here
            obtain ⟨-, -, -, -, stops⟩ := eq_of_pairAt? found
            obtain ⟨ending, ended⟩ := exists_mem_ways_endPattern.2 stops
            have start : ∃ way, way ∈ pairPattern.ways (c :: s) :=
              ⟨_, mem_ways_pairPattern.2 ⟨key, value, following, found, ending, ended, rfl⟩⟩
            obtain ⟨way, mem, first⟩ := Pattern.exists_search_cons start fun way mem =>
              Nat.le_of_lt_succ (way_of_pairAt? found mem).2.1
            obtain ⟨parts, shorter, same⟩ := way_of_pairAt? found mem
            rw [first, parts, ih way.rest.length (size ▸ shorter) way.rest rfl, same,
              pairs_of_pairAt? found, List.map_cons]

/-- An output is read by search for pairs. -/
theorem ofText_eq_searched (output : String) : ofText output = searched output := by
  rw [ofText, searched, search_pairPattern, List.foldl_map]
  simp only [Quoted.single_double]

end Printout

end TrustRules
