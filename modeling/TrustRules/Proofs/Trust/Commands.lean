import Mathlib.Data.List.Basic
import TrustRules.Command

/-!
# Commands that can be understood

Whatever quotes and line breaks a name or a rule text holds, it can be read off
its command again.  So two commands are the same only for the same name and the
same text, and no command that applies is one that reads.
-/

namespace TrustRules

open Text

namespace Command

/-- Read a literal with both its quotes, and what follows it. -/
def literal? : List Char → Option (List Char × List Char)
  | '\'' :: rest => Quoted.close? rest
  | _ => none

/-- The name and the rules of a command that applies rules. -/
def applied? (command : String) : Option (String × String) :=
  (applyOpening.isPrefixOf? command.toList).bind fun behindOpening =>
    (literal? behindOpening).bind fun name =>
      (applyMiddle.isPrefixOf? name.2).bind fun behindMiddle =>
        (literal? behindMiddle).map fun rules => (String.ofList name.1, String.ofList rules.1)

/-- The name of a command that reads rules. -/
def requested? (command : String) : Option String :=
  (readOpening.isPrefixOf? command.toList).bind fun behindOpening =>
    (literal? behindOpening).map fun name => String.ofList name.1

theorem literal?_argument_append (text : String) {rest : List Char}
    (closed : rest.head? ≠ some '\'') :
    literal? (argument text ++ rest) = some (text.toList, rest) := by
  have shape : argument text ++ rest =
      '\'' :: (Quoted.double text.toList ++ '\'' :: rest) := by
    simp [argument, Quoted.encode]
  rw [shape]
  exact Quoted.close?_double_append closed

theorem applied?_apply (trust rules : String) :
    applied? (apply trust rules) = some (trust, rules) := by
  have shape : (apply trust rules).toList =
      applyOpening ++ (argument trust ++ (applyMiddle ++ (argument rules ++ []))) := by
    rw [apply, String.toList_ofList]
    simp only [List.append_assoc, List.append_nil]
  have free : (applyMiddle ++ (argument rules ++ [])).head? ≠ some '\'' := by
    have first : applyMiddle.head? = some ' ' := by decide +kernel
    rw [List.head?_append, first, Option.some_or]
    decide
  rw [applied?, shape, List.isPrefixOf?_eq_some_iff_append_eq.2 rfl, Option.bind_some,
    literal?_argument_append trust free, Option.bind_some,
    List.isPrefixOf?_eq_some_iff_append_eq.2 rfl, Option.bind_some,
    literal?_argument_append rules (by simp), Option.map_some, String.ofList_toList,
    String.ofList_toList]

theorem requested?_read (trust : String) : requested? (read trust) = some trust := by
  have shape : (read trust).toList =
      readOpening ++ (argument trust ++ (readMiddle ++ (argument trust ++ readClosing))) := by
    rw [read, String.toList_ofList]
    simp only [List.append_assoc]
  have free : (readMiddle ++ (argument trust ++ readClosing)).head? ≠ some '\'' := by
    have first : readMiddle.head? = some ';' := by decide +kernel
    rw [List.head?_append, first, Option.some_or]
    decide
  rw [requested?, shape, List.isPrefixOf?_eq_some_iff_append_eq.2 rfl, Option.bind_some,
    literal?_argument_append trust free, Option.map_some, String.ofList_toList]

/-- A command that reads is none that applies: they differ in their first character. -/
theorem applied?_read (trust : String) : applied? (read trust) = none := by
  have shape : (read trust).toList = readOpening ++ argument trust ++ readMiddle ++
      argument trust ++ readClosing := String.toList_ofList
  rw [applied?, shape]
  rfl

theorem apply_inj {trust rules otherTrust otherRules : String}
    (same : apply trust rules = apply otherTrust otherRules) :
    trust = otherTrust ∧ rules = otherRules := by
  have read := applied?_apply trust rules
  rw [same, applied?_apply, Option.some.injEq, Prod.mk.injEq] at read
  exact ⟨read.1.symm, read.2.symm⟩

theorem read_inj {trust other : String} (same : read trust = read other) : trust = other := by
  have name := requested?_read trust
  rw [same, requested?_read, Option.some.injEq] at name
  exact name.symm

theorem apply_ne_read (trust rules other : String) : apply trust rules ≠ read other := by
  intro same
  have none := applied?_read other
  rw [← same, applied?_apply] at none
  cases none

end Command

end TrustRules
