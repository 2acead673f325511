import TrustRules.Proofs.Rule.Below

/-!
# Bodies without their headers

The visible lines of a text are its lines without the blanks around them and
without the lines of which nothing is left.  Main statement: a body without its
header is an end of the body that has lost its first visible line, if that is a
name line, and nothing else.  So the visible lines of a written custom rule are
its name line and those of its body without a name line in front.
-/

namespace TrustRules

namespace Text

/-! ## Visible lines -/

/-- The trimmed lines of a text, without the empty ones. -/
def visibleLines (s : List Char) : List (List Char) :=
  ((lines s).map trim).filter (!·.isEmpty)

theorem visibleLines_append (s t : List Char) :
    visibleLines (s ++ '\n' :: t) = visibleLines s ++ visibleLines t := by
  simp only [visibleLines, lines_append, List.map_append, List.filter_append]

/-- A single line is visible if there is anything on it. -/
theorem visibleLines_of_not_mem {l : List Char} (single : '\n' ∉ l) (visible : allBlank l = false) :
    visibleLines l = [trim l] := by
  rw [visibleLines, lines_of_not_mem single, List.map_singleton]
  exact List.filter_cons_of_pos (by simpa using trim_ne_nil visible)

/-- The visible line that a line gives, if it gives one. -/
def visibleLine (l : List Char) : List (List Char) :=
  [trim l].filter (!·.isEmpty)

theorem visibleLines_eq (s : List Char) : visibleLines s = (lines s).flatMap visibleLine := by
  rw [visibleLines, List.map_eq_flatMap, List.filter_flatMap]
  rfl

theorem visibleLine_trim (l : List Char) : visibleLine (trim l) = visibleLine l := by
  have core : trim (trim l) = trim l := strip_eq_self (firm_strip isBlank l)
  rw [visibleLine, core, visibleLine]

theorem visibleLines_append_of_blank {back : List Char} (blank : ∀ c ∈ back, isBlank c = true)
    (s : List Char) : visibleLines (s ++ back) = visibleLines s := by
  rw [visibleLines_eq, visibleLines_eq, flatMap_lines_append_of_blank visibleLine_trim rfl blank]

/-- Nothing visible is lost with blanks in front. -/
theorem visibleLines_dropWhile {p : Char → Bool} (blank : ∀ c, p c = true → isBlank c = true)
    (s : List Char) : visibleLines (s.dropWhile p) = visibleLines s := by
  have front : ∀ c ∈ s.takeWhile p, isBlank c = true := fun c mem =>
    blank c (List.all_eq_true.1 List.all_takeWhile c mem)
  have same := flatMap_lines_blank_append visibleLine_trim rfl front (s.dropWhile p)
  rw [List.takeWhile_append_dropWhile] at same
  rw [visibleLines_eq, visibleLines_eq, same]

/-- Nor is anything visible lost with blanks at the end. -/
theorem visibleLines_rdropWhile {p : Char → Bool} (blank : ∀ c, p c = true → isBlank c = true)
    (s : List Char) : visibleLines (s.rdropWhile p) = visibleLines s := by
  obtain ⟨back, whole, drops, -⟩ := exists_append_of_rdropWhile p s
  have same := visibleLines_append_of_blank (fun c mem => blank c (drops c mem)) (s.rdropWhile p)
  rw [← whole] at same
  exact same.symm

/-- A mark that ends firmly starts a line exactly when it starts the trimmed line. -/
theorem isPrefix_trim_iff {mark l : List Char} (stop : ∀ c ∈ mark.getLast?, isBlank c = false)
    (start : ∀ c ∈ l.head?, isBlank c = false) : mark <+: trim l ↔ mark <+: l := by
  have kept : trim l = l.rdropWhile isBlank := by rw [trim, strip_eq, dropWhile_eq_self start]
  obtain ⟨back, whole, blank, -⟩ := exists_append_of_rdropWhile isBlank l
  rw [kept]
  generalize l.rdropWhile isBlank = core at whole
  subst whole
  constructor
  · exact fun starts => starts.trans (List.prefix_append core back)
  · rintro ⟨rest, parts⟩
    rcases List.append_eq_append_iff.1 parts with ⟨more, rfl, -⟩ | ⟨more, rfl, behind⟩
    · exact List.prefix_append mark more
    · -- the end of the mark would be among the blanks
      cases last : more.getLast? with
      | none =>
          have nothing : more = [] := List.getLast?_eq_none_iff.1 last
          exact ⟨[], by rw [nothing, List.append_nil, List.append_nil]⟩
      | some c =>
          have firm := stop c (by rw [List.getLast?_append, last]; rfl)
          rw [blank c (behind ▸ List.mem_append_left rest (List.mem_of_getLast? last))] at firm
          cases firm

end Text

open Text

/-! ## The first visible line -/

namespace Header

/-- A text that starts firmly has its first line as its first visible one. -/
theorem exists_first_line {s : List Char} (start : ∀ c ∈ s.head?, isBlank c = false)
    (some : s ≠ []) :
    ∃ l, (∀ c ∈ l.head?, isBlank c = false) ∧
      visibleLines s = trim l :: visibleLines (afterLine s) ∧
      ∀ mark : List Char, '\n' ∉ mark → (mark <+: l ↔ mark <+: s) := by
  have visible (l : List Char) (some : l ≠ []) (start : ∀ c ∈ l.head?, isBlank c = false) :
      allBlank l = false := by
    obtain ⟨c, rest, rfl⟩ := List.exists_cons_of_ne_nil some
    rw [allBlank, List.all_cons, start c rfl, Bool.false_and]
  by_cases feed : '\n' ∈ s
  · obtain ⟨l, t, rfl, single⟩ := List.eq_append_cons_of_mem feed
    cases l with
    | nil => exact absurd (start '\n' rfl) (by decide)
    | cons c l =>
        refine ⟨c :: l, start, ?_, fun mark free => ⟨?_, isPrefix_of_append_cons free⟩⟩
        · rw [visibleLines_append, visibleLines_of_not_mem single (visible _ (by simp) start),
            afterLine_append single]
          rfl
        · exact fun starts => starts.trans (List.prefix_append _ _)
  · refine ⟨s, start, ?_, fun mark _ => Iff.rfl⟩
    rw [visibleLines_of_not_mem feed (visible s some start), afterLine_of_not_mem feed]
    rfl

theorem isBlank_of_isLineBreak (c : Char) (breaks : isLineBreak c = true) : isBlank c = true := by
  simp only [isLineBreak, Bool.or_eq_true, beq_iff_eq] at breaks
  rcases breaks with rfl | rfl <;> decide

variable {body : List Char}

/-- A body with a visible line has a header exactly when that is a name line. -/
theorem exists_first_visible (some : trimStart body ≠ []) :
    ∃ first, visibleLines body = first :: visibleLines (afterLine (trimStart body)) ∧
      (present body = true ↔ Mark.name <+: first) := by
  obtain ⟨l, start, parts, starts⟩ := exists_first_line not_of_mem_head?_dropWhile some
  refine ⟨trim l, ?_, ?_⟩
  · rw [← visibleLines_dropWhile (fun _ blank => blank) body]
    exact parts
  · rw [isPrefix_trim_iff (by decide) start, starts _ (by decide), present,
      List.isPrefixOf_iff_prefix]
    rfl

/-- With the header the first visible line goes. -/
theorem visibleLines_of_present (header : present body = true) :
    ∃ first, visibleLines body = first :: visibleLines (drop body) ∧ Mark.name <+: first := by
  have some : trimStart body ≠ [] := by
    intro none
    rw [present, none] at header
    cases header
  obtain ⟨first, parts, isName⟩ := exists_first_visible some
  refine ⟨first, ?_, isName.1 header⟩
  rw [parts, drop, if_pos header, visibleLines_dropWhile isBlank_of_isLineBreak]

theorem not_isPrefix_of_not_present (other : present body = false) :
    ∀ first ∈ (visibleLines body).head?, ¬ Mark.name <+: first := by
  intro first isFirst isName
  by_cases none : trimStart body = []
  · have same := visibleLines_dropWhile (fun _ blank => blank) body
    rw [trimStart] at none
    rw [← same, none] at isFirst
    cases isFirst
  · obtain ⟨found, parts, named⟩ := exists_first_visible none
    rw [parts] at isFirst
    obtain rfl : found = first := Option.some.inj isFirst
    rw [named.2 isName] at other
    cases other

/-- The lines without a name line in front. -/
def withoutNameLine : List (List Char) → List (List Char)
  | [] => []
  | first :: rest => if Mark.name.isPrefixOf first then rest else first :: rest

theorem visibleLines_drop (body : List Char) :
    visibleLines (drop body) = withoutNameLine (visibleLines body) := by
  cases header : present body with
  | true =>
      obtain ⟨first, parts, isName⟩ := visibleLines_of_present header
      rw [parts, withoutNameLine, if_pos (List.isPrefixOf_iff_prefix.2 isName)]
  | false =>
      have unnamed := not_isPrefix_of_not_present header
      rw [drop_of_not_present header]
      cases parts : visibleLines body with
      | nil => rfl
      | cons first rest =>
          rw [parts] at unnamed
          have other : ¬ Mark.name.isPrefixOf first = true := fun isName =>
            unnamed first rfl (List.isPrefixOf_iff_prefix.1 isName)
          rw [withoutNameLine, if_neg other]

end Header

/-! ## Written custom rules -/

theorem LineEnding.visibleLines_under (ending : LineEnding) (first s : List Char) :
    visibleLines (ending.under first s) = visibleLines first ++ visibleLines s := by
  by_cases empty : s = []
  · rw [empty]
    exact (List.append_nil _).symm
  · rw [under_of_ne_nil _ _ empty, visibleLines_append,
      visibleLines_append_of_blank ending.isBlank_of_mem_back]

namespace Rule

theorem visibleLines_nameText {rule : Rule} (single : '\n' ∉ rule.name.toList) :
    visibleLines rule.nameText = [rule.nameText] := by
  have free : '\n' ∉ rule.nameText := not_mem_append_wrapped rfl rfl single
  have core : trim rule.nameText = rule.nameText := strip_eq_self rule.firm_nameText
  rw [visibleLines_of_not_mem free rule.allBlank_nameText, core]

/-- The visible lines of a written custom rule are its name line and those of its body proper. -/
theorem visibleLines_text (ending : LineEnding) {rule : Rule} {body : String}
    (custom : rule.isCustom = true) (isBody : rule.body = some body)
    (single : '\n' ∉ rule.name.toList) :
    visibleLines (rule.text ending) =
      rule.nameText :: visibleLines (Header.drop body.toList) := by
  rw [text_eq, visibleLines_append_of_blank ending.isBlank_of_mem_text, content,
    LineEnding.visibleLines_under, visibleLines_nameText single, below_of_custom custom,
    bodyText_of_some isBody, visibleLines_rdropWhile Header.isBlank_of_isLineBreak,
    List.singleton_append]

/-! ## Main statement -/

/--
A body proper is an end of the body.  A body whose first visible line is no name
line is unchanged; any other one loses this line and the line breaks behind it,
and keeps its other lines.  A written custom rule shows its name and these lines.
-/
theorem bodyProper?_keeps_lines {rule : Rule} {body : String} (isBody : rule.body = some body) :
    ∃ proper, rule.bodyProper? = some proper ∧ proper.toList <:+ body.toList ∧
      ((∀ first ∈ (visibleLines body.toList).head?, ¬ Mark.name <+: first) → proper = body) ∧
      (∀ first ∈ (visibleLines body.toList).head?, Mark.name <+: first →
        (∀ c ∈ proper.toList.head?, c ≠ '\r' ∧ c ≠ '\n') ∧
          visibleLines proper.toList = (visibleLines body.toList).tail) ∧
      (rule.isCustom = true → '\n' ∉ rule.name.toList → ∀ ending : LineEnding,
        visibleLines (rule.write ending).value.toList =
          (Mark.name ++ ' ' :: '"' :: rule.name.toList ++ ['"']) ::
            Header.withoutNameLine (visibleLines body.toList)) := by
  refine ⟨String.ofList (Header.drop body.toList), ?_, ?_, ?_, ?_, ?_⟩
  · rw [bodyProper?, isBody, Option.map_some]
  · rw [String.toList_ofList]
    exact Header.drop_suffix body.toList
  · intro unnamed
    cases header : Header.present body.toList with
    | true =>
        obtain ⟨first, parts, isName⟩ := Header.visibleLines_of_present header
        exact absurd isName (unnamed first (by rw [parts]; rfl))
    | false => rw [Header.drop_of_not_present header, String.ofList_toList]
  · intro first isFirst isName
    rw [String.toList_ofList]
    cases header : Header.present body.toList with
    | true =>
        obtain ⟨other, parts, -⟩ := Header.visibleLines_of_present header
        refine ⟨fun c starts => ?_, by rw [parts, List.tail_cons]⟩
        rw [Header.drop, if_pos header] at starts
        simpa [Header.isLineBreak] using not_of_mem_head?_dropWhile c starts
    | false => exact absurd isName (Header.not_isPrefix_of_not_present header first isFirst)
  · intro custom single ending
    rw [write, String.toList_ofList, visibleLines_text ending custom isBody single,
      Header.visibleLines_drop]
    rfl

/-- A body with line breaks around its header and with another name line further down. -/
def repeatedExample : Rule :=
  .custom "n" " \r\n\t@RuleName = \"a\" \r\n\r\n\t=> add();\n@RuleName = \"b\"\r\n"

theorem bodyProper?_keeps_lines_repeatedExample :
    ∃ body proper, repeatedExample.body = some body ∧
      repeatedExample.bodyProper? = some proper ∧ proper.toList <:+ body.toList ∧
      visibleLines body.toList =
        ["@RuleName = \"a\"".toList, "=> add();".toList, "@RuleName = \"b\"".toList] ∧
      visibleLines proper.toList = ["=> add();".toList, "@RuleName = \"b\"".toList] ∧
      ∀ ending : LineEnding, visibleLines (repeatedExample.write ending).value.toList =
        ["@RuleName = \"n\"".toList, "=> add();".toList, "@RuleName = \"b\"".toList] := by
  have isBody : repeatedExample.body =
      some " \r\n\t@RuleName = \"a\" \r\n\r\n\t=> add();\n@RuleName = \"b\"\r\n" := rfl
  have shown : visibleLines
      " \r\n\t@RuleName = \"a\" \r\n\r\n\t=> add();\n@RuleName = \"b\"\r\n".toList =
        ["@RuleName = \"a\"".toList, "=> add();".toList, "@RuleName = \"b\"".toList] := by
    decide +kernel
  obtain ⟨proper, isProper, atEnd, -, kept, written⟩ := bodyProper?_keeps_lines isBody
  have rest := (kept _ (by rw [shown]; rfl) (by decide)).2
  rw [shown, List.tail_cons] at rest
  refine ⟨_, proper, isBody, isProper, atEnd, shown, rest, fun ending => ?_⟩
  rw [written rfl (by decide) ending, shown]
  rfl

end Rule

end TrustRules
