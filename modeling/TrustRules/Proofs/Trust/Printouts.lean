import TrustRules.Proofs.Printout.Entries

/-!
# Printed rules

A shell prints the name and the rules of a trust as two entries.  The rules are
found under their key whatever the name and the rules hold, as both stand in
quotes with their own quotes doubled.
-/

namespace TrustRules

open Text

namespace Trust

/-- What a shell prints for a trust with these rules. -/
def printed (trust rules : String) : String :=
  String.ofList
    (printedPair "name" trust ++ ['\r', '\n'] ++ printedPair Command.rulesKey rules)

/-- The entries that a shell prints for a trust with these rules. -/
def entries (trust rules : String) : List Printout.Entry :=
  [{ key := "name", value := trust, gap := "\r\n" },
    { key := Command.rulesKey, value := rules, gap := "" }]

theorem shown_entries (trust rules : String) :
    Printout.shown (entries trust rules) = printed trust rules := by
  simp [Printout.shown, entries, Printout.Entry.text, printed]

theorem legible_entries (trust rules : String) : Printout.Legible (entries trust rules) := by
  have nameWord : "name".toList ≠ [] ∧ ∀ c ∈ "name".toList, isWord c = true := by
    decide +kernel
  have rulesWord : Command.rulesKey.toList ≠ [] ∧
      ∀ c ∈ Command.rulesKey.toList, isWord c = true := by
    decide +kernel
  have lineEnd : '\'' ∉ "\r\n".toList ∧ Printout.separates "\r\n".toList = true := by decide
  have nothing : '\'' ∉ "".toList := by decide
  refine ⟨List.forall_mem_cons.2 ⟨nameWord, List.forall_mem_singleton.2 rulesWord⟩,
    List.forall_mem_cons.2 ⟨lineEnd.1, List.forall_mem_singleton.2 nothing⟩,
    List.forall_mem_singleton.2 lineEnd.2, ?_⟩
  rintro entry ⟨⟩
  exact .inr rfl

/-- The rules that a shell prints are found under their key. -/
theorem get?_printed (trust rules : String) :
    (Printout.ofText (printed trust rules)).get? Command.rulesKey = some rules := by
  have unquoted : '\'' ∉ "".toList := by decide
  have read := Printout.ofText_eq_storing_items unquoted (legible_entries trust rules)
  rw [shown_entries, String.empty_append] at read
  rw [read, Printout.get?_storing]
  rfl

end Trust

end TrustRules
