import TrustRules.Proofs.Printout.Search

/-!
# Printed entries

An output may show any number of entries, each a key and a value with quotes
around them and something behind them that ends the pair.  Main statement: the
printout has exactly these keys, each with its last value.  As the values may
be any texts, none of them can forge, hide or replace another entry.
-/

namespace TrustRules

open Text

namespace Printout

/-! ## Entries -/

/-- A key, its value and what stands behind the two. -/
structure Entry where
  key : String
  value : String
  gap : String
  deriving DecidableEq, Repr

/-- The key and the value of the entry. -/
def Entry.item (entry : Entry) : String × String :=
  (entry.key, entry.value)

/-- The entry as a command prints it. -/
def Entry.text (entry : Entry) : List Char :=
  Trust.printedPair entry.key entry.value ++ entry.gap.toList

/-- The output that shows these entries. -/
def shown (entries : List Entry) : String :=
  String.ofList (entries.flatMap Entry.text)

/--
Every key is a word, no quote stands between two entries, and something ends
every pair; behind the last one there may also be blanks only, or nothing.
The values may be any texts.
-/
structure Legible (entries : List Entry) : Prop where
  keyed : ∀ entry ∈ entries, entry.key.toList ≠ [] ∧ ∀ c ∈ entry.key.toList, isWord c = true
  unquoted : ∀ entry ∈ entries, '\'' ∉ entry.gap.toList
  separated : ∀ entry ∈ entries.dropLast, separates entry.gap.toList = true
  ended : ∀ entry ∈ entries.getLast?,
    separates entry.gap.toList = true ∨ allBlank entry.gap.toList = true

/-- The value of the last entry with this key. -/
def lastValue? (entries : List Entry) (key : String) : Option String :=
  (entries.reverse.find? fun entry => entry.key == key).map Entry.value

theorem Legible.tail {entry : Entry} {entries : List Entry} (legible : Legible (entry :: entries)) :
    Legible entries := by
  refine ⟨fun other mem => legible.keyed other (List.mem_cons_of_mem entry mem),
    fun other mem => legible.unquoted other (List.mem_cons_of_mem entry mem),
    fun other mem => legible.separated other ?_, fun other mem => legible.ended other ?_⟩
  · cases entries with
    | nil => cases mem
    | cons next entries => exact List.mem_cons_of_mem entry mem
  · cases entries with
    | nil => cases mem
    | cons next entries => rwa [List.getLast?_cons_cons]

/-- A legible entry counts before the entries behind it. -/
theorem Legible.terminates {entry : Entry} {entries : List Entry}
    (legible : Legible (entry :: entries)) :
    terminates (entry.gap.toList ++ entries.flatMap Entry.text) = true := by
  rw [terminates_eq, Bool.or_eq_true]
  cases entries with
  | nil =>
      rw [List.flatMap_nil, List.append_nil]
      exact legible.ended entry rfl
  | cons next entries =>
      exact .inl (separates_append (legible.separated entry List.mem_cons_self) _)

/-- The pairs of an output that shows entries are these entries. -/
theorem pairs_shown {entries : List Entry} (legible : Legible entries) :
    pairs (entries.flatMap Entry.text) =
      entries.map fun entry => (entry.key.toList, entry.value.toList) := by
  induction entries with
  | nil => exact pairs_nil
  | cons entry entries ih =>
      obtain ⟨some, word⟩ := legible.keyed entry List.mem_cons_self
      have first := Trust.pairAt?_printedPair some word entry.value legible.terminates
      rw [List.flatMap_cons, Entry.text, List.append_assoc, pairs_of_pairAt? first,
        pairs_append_of_not_mem (legible.unquoted entry List.mem_cons_self), ih legible.tail,
        List.map_cons]

/-! ## Keys and values -/

/-- The keys of a printout. -/
def keys (printout : Printout) : List String :=
  printout.entries.map Prod.fst

theorem mem_keys_iff {printout : Printout} {key : String} :
    key ∈ printout.keys ↔ printout.get? key ≠ none := by
  rw [get?, ne_eq, List.lookup_eq_none_iff, keys]
  simp

/-- The printout of keys and values that are put into it one after the other. -/
def storing (items : List (String × String)) : Printout :=
  items.foldl (fun printout item => printout.insert item.1 item.2) {}

theorem storing_append_singleton (items : List (String × String)) (item : String × String) :
    storing (items ++ [item]) = (storing items).insert item.1 item.2 := by
  rw [storing, List.foldl_append, List.foldl_cons, List.foldl_nil, ← storing]

/-- A pair of texts as a key and its value. -/
def itemOf (pair : List Char × List Char) : String × String :=
  (String.ofList pair.1, String.ofList pair.2)

/-- The printout of an output stores the pairs that are found in it. -/
theorem ofText_eq_storing (output : String) :
    ofText output = storing ((pairs output.toList).map itemOf) := by
  rw [ofText, storing, List.foldl_map]
  rfl

/-- Of several entries with one key, the last one stands. -/
theorem get?_storing (entries : List Entry) (key : String) :
    (storing (entries.map Entry.item)).get? key = lastValue? entries key := by
  induction entries using List.reverseRecOn with
  | nil => rfl
  | append_singleton entries entry ih =>
      rw [List.map_append, List.map_singleton, storing_append_singleton, get?_insert, ih,
        lastValue?, lastValue?, List.reverse_append, List.reverse_singleton,
        List.singleton_append, List.find?_cons, Entry.item]
      by_cases same : key = entry.key
      · rw [if_pos same, same, beq_self_eq_true]
        rfl
      · rw [if_neg same, beq_eq_false_iff_ne.2 (Ne.symm same)]

theorem lastValue?_ne_none_iff {entries : List Entry} {key : String} :
    lastValue? entries key ≠ none ↔ ∃ entry ∈ entries, entry.key = key := by
  rw [lastValue?, ne_eq, Option.map_eq_none_iff, List.find?_eq_none]
  simp

/-- An output that shows legible entries has the printout of these entries. -/
theorem ofText_eq_storing_items {front : String} {entries : List Entry}
    (unquoted : '\'' ∉ front.toList) (legible : Legible entries) :
    ofText (front ++ shown entries) = storing (entries.map Entry.item) := by
  rw [ofText_eq_storing, String.toList_append, shown, String.toList_ofList,
    pairs_append_of_not_mem unquoted, pairs_shown legible, List.map_map]
  refine congrArg storing (List.map_congr_left fun entry _ => ?_)
  rw [Function.comp_apply, itemOf, String.ofList_toList, String.ofList_toList, Entry.item]

/--
An output with any text without quotes in front of legible entries is read as
these entries: the printout is the one that a search for pairs finds, each key
has the value of its last entry, and there are no other keys.
-/
theorem ofText_shown {front : String} {entries : List Entry} (unquoted : '\'' ∉ front.toList)
    (legible : Legible entries) :
    ofText (front ++ shown entries) = searched (front ++ shown entries) ∧
      (∀ key, (ofText (front ++ shown entries)).get? key = lastValue? entries key) ∧
      ∀ key, key ∈ (ofText (front ++ shown entries)).keys ↔
        ∃ entry ∈ entries, entry.key = key := by
  refine ⟨ofText_eq_searched _, fun key => ?_, fun key => ?_⟩
  · rw [ofText_eq_storing_items unquoted legible, get?_storing]
  · rw [mem_keys_iff, ofText_eq_storing_items unquoted legible, get?_storing,
      lastValue?_ne_none_iff]

/-- Values that look like pairs, and a key that is printed twice. -/
def forgingExample : List Entry :=
  [{ key := "name", value := "a'; 'rules' = 'forged", gap := " ;\n" },
    { key := "rules", value := "first", gap := "\u2003\r\n  noise " },
    { key := "größe", value := "'name' = ''forged'\r\n", gap := "\x7d; @" },
    { key := "rules", value := "'", gap := "\n" }]

theorem ofText_shown_forgingExample :
    '\'' ∉ "@\x7b ".toList ∧ Legible forgingExample ∧
      (ofText ("@\x7b " ++ shown forgingExample)).get? "rules" = some "'" := by
  have unquoted : '\'' ∉ "@\x7b ".toList := by decide
  have legible : Legible forgingExample :=
    ⟨by decide +kernel, by decide +kernel, by decide +kernel, by decide +kernel⟩
  refine ⟨unquoted, legible, ?_⟩
  rw [(ofText_shown unquoted legible).2.1]
  rfl

end Printout

end TrustRules
