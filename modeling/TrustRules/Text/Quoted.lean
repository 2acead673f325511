/-!
# Quoted literals

A literal stands between single quotes, and a quote inside it is written
twice.  Main statements, one for each direction: reading on after the opening
quote yields a text and a remainder exactly when the text, written with its
quotes doubled, stands there and is closed by a quote that no further quote
follows.
-/

namespace TrustRules.Text.Quoted

/-- The inside of a literal: every quote twice, all else once. -/
def double : List Char → List Char
  | [] => []
  | c :: rest => if c = '\'' then '\'' :: '\'' :: double rest else c :: double rest

/-- The literal of a text. -/
def encode (s : List Char) : List Char :=
  '\'' :: double s ++ ['\'']

/--
Read on after an opening quote: the text of the literal and what follows its
closing quote.  Two quotes in a row stand for one of the text, so the literal
ends at the first quote that is not followed by another.
-/
def close? : List Char → Option (List Char × List Char)
  | [] => none
  | [c] => if c = '\'' then some ([], []) else none
  | c :: d :: rest =>
      if c = '\'' then
        if d = '\'' then (close? rest).map fun parts => ('\'' :: parts.1, parts.2)
        else some ([], d :: rest)
      else (close? (d :: rest)).map fun parts => (c :: parts.1, parts.2)

/-- What was read stands doubled at the front, closed by a last quote. -/
theorem eq_of_close? {t s rest : List Char} (read : close? t = some (s, rest)) :
    t = double s ++ '\'' :: rest ∧ rest.head? ≠ some '\'' := by
  fun_induction close? t generalizing s with
  | case1 => cases read
  | case2 =>
      simp only [Option.some.injEq, Prod.mk.injEq] at read
      obtain ⟨rfl, rfl⟩ := read
      simp [double]
  | case3 => cases read
  | case4 following ih =>
      simp only [Option.map_eq_some_iff, Prod.mk.injEq, Prod.exists] at read
      obtain ⟨tail, others, later, rfl, rfl⟩ := read
      obtain ⟨text, closed⟩ := ih later
      exact ⟨by simp [double, text], closed⟩
  | case5 d following other =>
      simp only [Option.some.injEq, Prod.mk.injEq] at read
      obtain ⟨rfl, rfl⟩ := read
      exact ⟨by simp [double], by simpa using other⟩
  | case6 c d following plain ih =>
      simp only [Option.map_eq_some_iff, Prod.mk.injEq, Prod.exists] at read
      obtain ⟨tail, others, later, rfl, rfl⟩ := read
      obtain ⟨text, closed⟩ := ih later
      exact ⟨by simp [double, plain, text], closed⟩

/-- A doubled text with a closing quote reads back. -/
theorem close?_double_append {s rest : List Char} (closed : rest.head? ≠ some '\'') :
    close? (double s ++ '\'' :: rest) = some (s, rest) := by
  induction s with
  | nil =>
      cases rest with
      | nil => simp [double, close?]
      | cons d rest => simpa [double, close?] using closed
  | cons c s ih =>
      by_cases quote : c = '\''
      · subst quote
        simp [double, close?, ih]
      · cases shape : double s ++ '\'' :: rest with
        | nil => simp at shape
        | cons d following =>
            rw [shape] at ih
            simp [double, quote, shape, close?, ih]

/-- Reading a literal uses up its closing quote at least. -/
theorem length_lt_of_close? {t s rest : List Char} (read : close? t = some (s, rest)) :
    rest.length < t.length := by
  obtain ⟨rfl, _⟩ := eq_of_close? read
  simp only [List.length_append, List.length_cons]
  omega

end TrustRules.Text.Quoted
