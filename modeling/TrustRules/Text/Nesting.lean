import TrustRules.Text.Blank

/-!
# Quotes and parentheses

A list of arguments is cut at its separators, but a separator inside double
quotes or parentheses belongs to an argument.  One pass over the text keeps
whether a quote is open and how many parentheses are; quotes do not nest, and
parentheses inside quotes do not count.
-/

namespace TrustRules.Text

/-- Where a scan stands: inside quotes or not, and below how many parentheses. -/
structure Nesting where
  quoted : Bool
  depth : Nat
  deriving DecidableEq, Repr

namespace Nesting

/-- Outside of all quotes and parentheses. -/
def outer : Nesting := ⟨false, 0⟩

/--
The nesting after one more character.  A closing parenthesis without a partner
changes nothing.
-/
def step (nesting : Nesting) (c : Char) : Nesting :=
  if c = '"' then { nesting with quoted := !nesting.quoted }
  else if nesting.quoted then nesting
  else if c = '(' then { nesting with depth := nesting.depth + 1 }
  else if c = ')' then { nesting with depth := nesting.depth - 1 }
  else nesting

/-- The nesting after a whole text. -/
def after (nesting : Nesting) (s : List Char) : Nesting :=
  s.foldl step nesting

/--
The pieces of a text between its separators, a comma and a space met outside
of all quotes and parentheses.  A text without one is a single piece, and the
pieces keep the blanks around them.
-/
def cut (nesting : Nesting) : List Char → List (List Char)
  | [] => [[]]
  | [c] => [[c]]
  | c :: d :: rest =>
      if nesting = outer ∧ c = ',' ∧ d = ' ' then
        [] :: cut outer rest
      else
        (cut (nesting.step c) (d :: rest)).modifyHead (c :: ·)

/-- The arguments of a list: its pieces, without the blank ones. -/
def topLevel (s : List Char) : List (List Char) :=
  (outer.cut s).filter fun piece => !allBlank piece

@[simp]
theorem after_nil (nesting : Nesting) : nesting.after [] = nesting := rfl

@[simp]
theorem after_cons (nesting : Nesting) (c : Char) (s : List Char) :
    nesting.after (c :: s) = (nesting.step c).after s := rfl

/-- A cut leaves at least one piece. -/
theorem cut_ne_nil (nesting : Nesting) (s : List Char) : nesting.cut s ≠ [] := by
  fun_induction cut nesting s with
  | case1 => simp
  | case2 => simp
  | case3 => simp
  | case4 nesting c d rest _ ih =>
      cases pieces : cut (nesting.step c) (d :: rest) with
      | nil => exact absurd pieces ih
      | cons piece others => simp

end Nesting

/-! ## The first unquoted character -/

/--
The text up to and with the first `needle` outside double quotes, and the text
after it.
-/
def throughUnquoted (needle : Char) (quoted : Bool) :
    List Char → Option (List Char × List Char)
  | [] => none
  | c :: rest =>
      if c = needle ∧ quoted = false then some ([c], rest)
      else
        (throughUnquoted needle (if c = '"' then !quoted else quoted) rest).map
          fun parts => (c :: parts.1, parts.2)

/-- The two parts are the text. -/
theorem append_of_throughUnquoted {needle : Char} {quoted : Bool}
    {s front rest : List Char}
    (found : throughUnquoted needle quoted s = some (front, rest)) :
    front ++ rest = s := by
  induction s generalizing quoted front with
  | nil => simp [throughUnquoted] at found
  | cons c s ih =>
      rw [throughUnquoted] at found
      split at found
      · simp only [Option.some.injEq, Prod.mk.injEq] at found
        obtain ⟨rfl, rfl⟩ := found
        rfl
      · simp only [Option.map_eq_some_iff, Prod.mk.injEq, Prod.exists] at found
        obtain ⟨tail, others, later, rfl, rfl⟩ := found
        simp [ih later]

end TrustRules.Text
