import TrustRules.Proofs.Rule.Stable
import TrustRules.Proofs.Text.Returns

/-!
# Bodies of read custom rules

The body of a custom rule that was read is its block.  Without the header of
the block it is a body that can stand below a name line again, as far as the
returns of the text are paired.
-/

namespace TrustRules

open Text

namespace Block

variable {text block : List Char}

/-- In paired text no line break follows the first line of a block directly. -/
theorem IsBlock.head?_behind_feed {l rest : List Char}
    (isBlock : IsBlock text (l ++ '\n' :: rest)) (paired : ReturnsPaired text) :
    ∀ c ∈ rest.head?, Header.isLineBreak c = false := by
  intro c first
  cases rest with
  | nil => cases first
  | cons d rest =>
      rw [List.head?_cons, Option.mem_some_iff] at first
      subst first
      have noFeed : d ≠ '\n' := by
        rintro rfl
        exact isBlock.unbroken l [] rest rfl (by simp)
      have noReturn : d ≠ '\r' := by
        rintro rfl
        -- the return is followed by a line feed, in the block or behind it
        obtain ⟨before, after, whole⟩ := isBlock.inside
        have shape : text = (before ++ l ++ ['\n']) ++ '\r' :: (rest ++ after) := by
          rw [← whole]
          simp
        rw [shape] at paired
        have next := paired.behind
        cases rest with
        | nil => exact absurd (isBlock.firm.2 '\r' (by simp)) (by decide)
        | cons e rest =>
            rw [List.cons_append, List.head?_cons, Option.some.injEq] at next
            subst next
            exact isBlock.unbroken l ['\r'] rest rfl (by simp)
      simp [Header.isLineBreak, noFeed, noReturn]

/-- Without its header a block is itself, nothing, or what stands below its first line. -/
theorem IsBlock.drop_cases (isBlock : IsBlock text block) (paired : ReturnsPaired text) :
    Header.drop block = block ∨ Header.drop block = [] ∨
      ∃ l, block = l ++ '\n' :: Header.drop block := by
  have firm : trimStart block = block := dropWhile_eq_self isBlock.firm.1
  cases present : Header.present block with
  | false => exact .inl (Header.drop_of_not_present present)
  | true =>
      rw [Header.drop, if_pos present, firm]
      by_cases feed : '\n' ∈ block
      · obtain ⟨l, rest, whole, single⟩ := List.eq_append_cons_of_mem feed
        subst whole
        have kept : rest.dropWhile Header.isLineBreak = rest :=
          dropWhile_eq_self (isBlock.head?_behind_feed paired)
        rw [Header.afterLine_append single, kept]
        exact .inr (.inr ⟨l, rfl⟩)
      · rw [Header.afterLine_of_not_mem feed]
        exact .inr (.inl rfl)

/-- A name that is stated last behind the header is stated last in the whole block. -/
theorem IsBlock.statedName?_of_drop (isBlock : IsBlock text block) (paired : ReturnsPaired text)
    {name : String} (stated : statedName? (Header.drop block) = some name) :
    statedName? block = some name := by
  rcases isBlock.drop_cases paired with same | none | ⟨l, below⟩
  · rwa [same] at stated
  · rw [none] at stated
    cases stated
  · rw [below, statedName?_append, stated, Option.some_or]

/--
The block of a custom rule, without its header, is a body of every rule with
the name that it states last, and of any rule if it states none.
-/
theorem IsBlock.isBodyOf_drop (isBlock : IsBlock text block) (paired : ReturnsPaired text)
    (custom : (statedTemplate? block).all Template.isCustom = true) {name : String}
    (stated : ∀ other ∈ statedName? (Header.drop block), other = name) :
    IsBodyOf name (Header.drop block) := by
  rcases isBlock.drop_cases paired with same | none | ⟨l, whole⟩
  · rw [same] at stated ⊢
    refine ⟨fun c first => ?_, isBlock.firm.2, isBlock.solid, stated, custom⟩
    exact isLineBreak_eq_false (isBlock.firm.1 c first)
  · rw [none]
    exact ⟨by simp, by simp, .inl rfl, fun _ impossible => (by cases impossible), rfl⟩
  · generalize Header.drop block = rest at stated whole ⊢
    subst whole
    have stop : ∀ c ∈ rest.getLast?, isBlank c = false := by
      intro c last
      refine isBlock.firm.2 c ?_
      rw [List.getLast?_append, List.getLast?_cons, Option.mem_def.1 last]
      rfl
    have unbroken : Unbroken ('\n' :: rest) :=
      isBlock.unbroken.of_isInfix (List.suffix_append l _).isInfix
    rw [statedTemplate?_append] at custom
    refine ⟨isBlock.head?_behind_feed paired, stop, unbroken.solid stop, stated, ?_⟩
    cases below : statedTemplate? rest with
    | none => rfl
    | some template =>
        rw [below, Option.some_or] at custom
        exact custom

/-- The block of a custom rule with a name, without its header, is a body of that rule. -/
theorem IsBlock.isBodyOf (isBlock : IsBlock text block) (paired : ReturnsPaired text)
    {name : String} (stated : statedName? block = some name)
    (custom : (statedTemplate? block).all Template.isCustom = true) :
    IsBodyOf name (Header.drop block) := by
  refine isBlock.isBodyOf_drop paired custom fun other inner => ?_
  rw [isBlock.statedName?_of_drop paired inner] at stated
  exact Option.some.inj stated

end Block

end TrustRules
