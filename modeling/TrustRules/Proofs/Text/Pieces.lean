import TrustRules.Proofs.Text.Lines
import TrustRules.Rule.Mark
import TrustRules.Text.Nesting

/-!
# Pieces that are found again

Texts that are put together with separators are cut into the same texts again,
when no text holds a separator at its top level and every text but the last
closes its quotes and parentheses.
-/

namespace TrustRules.Text

namespace Nesting

/-- No separator stands outside of all quotes and parentheses. -/
def Joined (nesting : Nesting) : List Char → Prop
  | [] => True
  | c :: rest =>
      ¬ (nesting = outer ∧ c = ',' ∧ rest.head? = some ' ') ∧ (nesting.step c).Joined rest

instance decidableJoined : (nesting : Nesting) → (s : List Char) → Decidable (nesting.Joined s)
  | _, [] => isTrue trivial
  | nesting, c :: rest =>
      have := decidableJoined (nesting.step c) rest
      inferInstanceAs (Decidable (_ ∧ _))

/-! ## Cutting at separators -/

theorem cut_cons {nesting : Nesting} {c : Char} {s : List Char}
    (inside : ¬ (nesting = outer ∧ c = ',' ∧ s.head? = some ' ')) :
    nesting.cut (c :: s) = ((nesting.step c).cut s).modifyHead (c :: ·) := by
  cases s with
  | nil => rfl
  | cons d rest =>
      rw [List.head?_cons, Option.some.injEq] at inside
      rw [cut, if_neg inside]

theorem cut_separator (rest : List Char) :
    outer.cut (Mark.separator ++ rest) = [] :: outer.cut rest := by
  simp [Mark.separator, cut]

theorem cut_of_joined {nesting : Nesting} {s : List Char} (joined : nesting.Joined s) :
    nesting.cut s = [s] := by
  induction s generalizing nesting with
  | nil => rfl
  | cons c s ih =>
      obtain ⟨inside, later⟩ := joined
      rw [cut_cons inside, ih later, List.modifyHead_cons]

/-- A text that closes what it opens is cut off by the separator behind it. -/
theorem cut_append_separator {nesting : Nesting} {s : List Char} (joined : nesting.Joined s)
    (closed : nesting.after s = outer) (rest : List Char) :
    nesting.cut (s ++ (Mark.separator ++ rest)) = s :: outer.cut rest := by
  induction s generalizing nesting with
  | nil =>
      rw [after_nil] at closed
      rw [List.nil_append, closed, cut_separator]
  | cons c s ih =>
      obtain ⟨inside, later⟩ := joined
      have stillInside : ¬ (nesting = outer ∧ c = ',' ∧
          (s ++ (Mark.separator ++ rest)).head? = some ' ') := by
        cases s with
        | nil => rintro ⟨_, _, comma⟩; cases comma
        | cons d s => exact inside
      rw [List.cons_append, cut_cons stillInside, ih later closed, List.modifyHead_cons]

theorem cut_intercalate {pieces : List (List Char)} (some : pieces ≠ [])
    (joined : ∀ piece ∈ pieces, outer.Joined piece)
    (closed : ∀ piece ∈ pieces.dropLast, outer.after piece = outer) :
    outer.cut (Mark.separator.intercalate pieces) = pieces := by
  induction pieces with
  | nil => exact absurd rfl some
  | cons piece rest ih =>
      have first := joined piece List.mem_cons_self
      cases rest with
      | nil => rw [List.intercalate_singleton, cut_of_joined first]
      | cons next others =>
          rw [List.dropLast_cons_cons] at closed
          rw [List.intercalate_cons_cons, List.append_assoc,
            cut_append_separator first (closed piece List.mem_cons_self),
            ih (List.cons_ne_nil _ _) (fun p mem => joined p (List.mem_cons_of_mem _ mem))
              (fun p mem => closed p (List.mem_cons_of_mem _ mem))]

/-- Arguments that are put together are the arguments of their list. -/
theorem topLevel_intercalate {pieces : List (List Char)}
    (joined : ∀ piece ∈ pieces, outer.Joined piece)
    (closed : ∀ piece ∈ pieces.dropLast, outer.after piece = outer)
    (solid : ∀ piece ∈ pieces, allBlank piece = false) :
    topLevel (Mark.separator.intercalate pieces) = pieces := by
  by_cases some : pieces = []
  · subst some
    rfl
  · rw [topLevel, cut_intercalate some joined closed, List.filter_eq_self]
    intro piece mem
    simp [solid piece mem]

/-- Put together with separators, the pieces of a text are the text itself. -/
theorem intercalate_cut (nesting : Nesting) (s : List Char) :
    Mark.separator.intercalate (nesting.cut s) = s := by
  fun_induction cut nesting s with
  | case1 => rfl
  | case2 c => rfl
  | case3 nesting c d rest here ih =>
      obtain ⟨-, rfl, rfl⟩ := here
      rw [List.intercalate_cons_of_ne_nil (cut_ne_nil _ _), ih]
      rfl
  | case4 nesting c d rest _ ih =>
      cases parts : (nesting.step c).cut (d :: rest) with
      | nil => exact absurd parts (cut_ne_nil _ _)
      | cons first others =>
          rw [parts] at ih
          rw [List.modifyHead_cons, ← ih]
          cases others with
          | nil => rfl
          | cons next more => rw [List.intercalate_cons_cons, List.intercalate_cons_cons]; rfl

theorem isInfix_of_mem_topLevel {s piece : List Char} (mem : piece ∈ topLevel s) :
    piece <:+: s := by
  have inside : piece <:+: Mark.separator.intercalate (outer.cut s) :=
    isInfix_intercalate (List.mem_filter.1 mem).1
  rwa [intercalate_cut] at inside

/-! ## Scanning what leaves the nesting alone -/

/-- A character that neither opens nor closes anything and starts no separator. -/
def isPlain (c : Char) : Bool :=
  c != '"' && c != '(' && c != ')' && c != ','

theorem step_of_isPlain (nesting : Nesting) {c : Char} (plain : isPlain c = true) :
    nesting.step c = nesting := by
  simp only [isPlain, Bool.and_eq_true, bne_iff_ne, ne_eq] at plain
  simp [step, plain]

/-- Plain characters in front of a text do not change how it is scanned. -/
theorem scan_plain (nesting : Nesting) {s : List Char} (plain : ∀ c ∈ s, isPlain c = true)
    (t : List Char) :
    nesting.after (s ++ t) = nesting.after t ∧ (nesting.Joined (s ++ t) ↔ nesting.Joined t) := by
  induction s with
  | nil => exact ⟨rfl, Iff.rfl⟩
  | cons c s ih =>
      have first := plain c List.mem_cons_self
      obtain ⟨same, joined⟩ := ih fun d mem => plain d (List.mem_cons_of_mem c mem)
      have noComma : c ≠ ',' := by
        rintro rfl
        cases first
      rw [List.cons_append, after_cons, Joined, step_of_isPlain nesting first]
      refine ⟨same, ?_⟩
      rw [joined]
      exact ⟨And.right, fun later => ⟨fun comma => noComma comma.2.1, later⟩⟩

/-- Inside quotes only the next quote counts. -/
theorem scan_quoted (depth : Nat) {s : List Char} (unquoted : '"' ∉ s) (t : List Char) :
    (Nesting.mk true depth).after (s ++ t) = (Nesting.mk true depth).after t ∧
      ((Nesting.mk true depth).Joined (s ++ t) ↔ (Nesting.mk true depth).Joined t) := by
  induction s with
  | nil => exact ⟨rfl, Iff.rfl⟩
  | cons c s ih =>
      rw [List.mem_cons, not_or] at unquoted
      obtain ⟨same, joined⟩ := ih unquoted.2
      have kept : (Nesting.mk true depth).step c = ⟨true, depth⟩ := by
        simp [step, Ne.symm unquoted.1]
      rw [List.cons_append, after_cons, Joined, kept]
      refine ⟨same, ?_⟩
      rw [joined]
      refine ⟨And.right, fun later => ⟨fun outside => ?_, later⟩⟩
      exact Bool.noConfusion (congrArg Nesting.quoted outside.1)

/-- A value in quotes leaves the nesting as it was and holds no separator. -/
theorem scan_wrapped (depth : Nat) {s : List Char} (unquoted : '"' ∉ s) (t : List Char) :
    (Nesting.mk false depth).after ('"' :: s ++ '"' :: t) = (Nesting.mk false depth).after t ∧
      ((Nesting.mk false depth).Joined ('"' :: s ++ '"' :: t) ↔
        (Nesting.mk false depth).Joined t) := by
  obtain ⟨same, joined⟩ := scan_quoted depth unquoted ('"' :: t)
  constructor
  · exact same
  · rw [List.cons_append, Joined]
    constructor
    · intro whole
      exact (joined.1 whole.2).2
    · intro rest
      refine ⟨fun quote => ?_, joined.2 ⟨fun quote => ?_, rest⟩⟩
      · exact absurd quote.2.1 (by decide)
      · exact absurd quote.2.1 (by decide)

/-- Below a parenthesis a separator does not count. -/
theorem scan_separator {depth : Nat} (below : depth ≠ 0) (t : List Char) :
    (Nesting.mk false depth).after (Mark.separator ++ t) = (Nesting.mk false depth).after t ∧
      ((Nesting.mk false depth).Joined (Mark.separator ++ t) ↔
        (Nesting.mk false depth).Joined t) := by
  refine ⟨rfl, ?_⟩
  constructor
  · exact fun whole => whole.2.2
  · intro rest
    refine ⟨fun outside => below ?_, fun outside => ?_, rest⟩
    · exact congrArg Nesting.depth outside.1
    · exact absurd outside.2.1 (by decide)

end Nesting

/-! ## The first unquoted character -/

/-- What stands behind the character is shorter than the whole. -/
theorem length_lt_of_throughUnquoted {needle : Char} {quoted : Bool} {s front rest : List Char}
    (found : throughUnquoted needle quoted s = some (front, rest)) : rest.length < s.length := by
  have some : front ≠ [] := by
    cases s with
    | nil => cases found
    | cons c s =>
        rw [throughUnquoted] at found
        split at found
        · cases found
          exact List.cons_ne_nil _ _
        · obtain ⟨_, _, same⟩ := Option.map_eq_some_iff.1 found
          cases same
          exact List.cons_ne_nil _ _
  have whole := congrArg List.length (append_of_throughUnquoted found)
  have positive := List.length_pos_iff.2 some
  rw [List.length_append] at whole
  omega

/-- The text up to the character ends with its first one outside double quotes. -/
theorem throughUnquoted_front {needle : Char} {quoted : Bool} {s front rest : List Char}
    (found : throughUnquoted needle quoted s = some (front, rest)) :
    throughUnquoted needle quoted front = some (front, []) := by
  induction s generalizing quoted front with
  | nil => cases found
  | cons c s ih =>
      rw [throughUnquoted] at found
      split at found
      · next here =>
          cases found
          rw [throughUnquoted, if_pos here]
      · next passed =>
          obtain ⟨⟨inner, behind⟩, later, same⟩ := Option.map_eq_some_iff.1 found
          cases same
          rw [throughUnquoted, if_neg passed, ih later]
          rfl

theorem mem_of_throughUnquoted {needle : Char} {quoted : Bool} {s front rest : List Char}
    (found : throughUnquoted needle quoted s = some (front, rest)) : needle ∈ front := by
  induction s generalizing quoted front with
  | nil => cases found
  | cons c s ih =>
      rw [throughUnquoted] at found
      split at found
      · next here =>
          cases found
          exact List.mem_singleton.2 here.1.symm
      · obtain ⟨parts, later, same⟩ := Option.map_eq_some_iff.1 found
        cases same
        exact List.mem_cons_of_mem c (ih later)

/-- The first unquoted character of two texts stands in the second one if none is in the first. -/
theorem throughUnquoted_append {needle : Char} (nesting : Nesting) {s : List Char}
    (free : throughUnquoted needle nesting.quoted s = none) (t : List Char) :
    throughUnquoted needle nesting.quoted (s ++ t) =
      (throughUnquoted needle (nesting.after s).quoted t).map
        fun parts => (s ++ parts.1, parts.2) := by
  induction s generalizing nesting with
  | nil => simp
  | cons c s ih =>
      have quoted : (if c = '"' then !nesting.quoted else nesting.quoted) =
          (nesting.step c).quoted := by
        unfold Nesting.step
        split_ifs <;> rfl
      rw [throughUnquoted] at free
      split at free
      · cases free
      · next passed =>
          rw [quoted, Option.map_eq_none_iff] at free
          rw [List.cons_append, throughUnquoted, if_neg passed, quoted, ih _ free,
            Nesting.after_cons, Option.map_map]
          rfl

/-- What holds neither the character nor a quote is passed over. -/
theorem throughUnquoted_append_of_free {needle : Char} {quoted : Bool} {s : List Char}
    (free : needle ∉ s) (unquoted : '"' ∉ s) (t : List Char) :
    throughUnquoted needle quoted (s ++ t) =
      (throughUnquoted needle quoted t).map fun parts => (s ++ parts.1, parts.2) := by
  induction s with
  | nil => simp
  | cons c s ih =>
      rw [List.mem_cons, not_or] at free unquoted
      have passed : ¬ (c = needle ∧ quoted = false) := fun here => free.1 here.1.symm
      have kept : (if c = '"' then !quoted else quoted) = quoted :=
        if_neg (Ne.symm unquoted.1)
      rw [List.cons_append, throughUnquoted, if_neg passed, kept, ih free.2 unquoted.2,
        Option.map_map]
      rfl

/-- No needle stands unquoted in a list of closed texts if none does in any of them. -/
theorem throughUnquoted_intercalate {needle : Char} (other : needle ∉ Mark.separator)
    {pieces : List (List Char)} (closed : ∀ piece ∈ pieces, Nesting.outer.after piece = .outer)
    (free : ∀ piece ∈ pieces, throughUnquoted needle false piece = none) (t : List Char) :
    throughUnquoted needle false (Mark.separator.intercalate pieces ++ t) =
      (throughUnquoted needle false t).map
        fun parts => (Mark.separator.intercalate pieces ++ parts.1, parts.2) := by
  induction pieces with
  | nil => simp
  | cons piece rest ih =>
      have first (t : List Char) : throughUnquoted needle false (piece ++ t) =
          (throughUnquoted needle false t).map fun parts => (piece ++ parts.1, parts.2) := by
        have passed := throughUnquoted_append Nesting.outer (free piece List.mem_cons_self) t
        rwa [closed piece List.mem_cons_self] at passed
      have later := ih (fun p mem => closed p (List.mem_cons_of_mem _ mem))
        fun p mem => free p (List.mem_cons_of_mem _ mem)
      by_cases last : rest = []
      · rw [last, List.intercalate_singleton]
        exact first t
      · rw [List.intercalate_cons_of_ne_nil last, List.append_assoc, List.append_assoc, first,
          throughUnquoted_append_of_free other (by decide), later, Option.map_map, Option.map_map]
        simp only [Function.comp_def, List.append_assoc]

/-- A value in quotes is passed over whatever it holds. -/
theorem throughUnquoted_wrapped_append {needle : Char} (other : needle ≠ '"') {s : List Char}
    (unquoted : '"' ∉ s) (t : List Char) :
    throughUnquoted needle false ('"' :: s ++ '"' :: t) =
      (throughUnquoted needle false t).map fun parts =>
        ('"' :: s ++ '"' :: parts.1, parts.2) := by
  have inside : ∀ s : List Char, '"' ∉ s →
      throughUnquoted needle true (s ++ '"' :: t) =
        (throughUnquoted needle false t).map fun parts => (s ++ '"' :: parts.1, parts.2) := by
    intro s unquoted
    induction s with
    | nil => simp [throughUnquoted]
    | cons c s ih =>
        rw [List.mem_cons, not_or] at unquoted
        rw [List.cons_append, throughUnquoted, if_neg (by simp), if_neg (Ne.symm unquoted.1),
          ih unquoted.2, Option.map_map]
        rfl
  have opened : ¬ ('"' = needle ∧ false = false) := fun here => other here.1.symm
  rw [List.cons_append, throughUnquoted, if_neg opened, if_pos rfl, Bool.not_false,
    inside s unquoted, Option.map_map]
  rfl

end TrustRules.Text
