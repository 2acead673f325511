import TrustRules.Proofs.Block.Clauses
import TrustRules.Proofs.Rule.Values
import TrustRules.Proofs.Rule.Written

/-!
# Rules below their name lines

The name line of a written rule is its own; the rest of its text is what stands
below that line.  Whether the text is one block depends on the blank lines
below the name line, and what the block is read as depends on the name and
template lines there.
-/

namespace TrustRules

open Text

/-! ## One line and the text below it -/

namespace LineEnding

theorem ofText_under (ending : LineEnding) (first s : List Char) :
    Clause.ofText (ending.under first s) = Clause.ofText first ++ Clause.ofText s := by
  by_cases empty : s = []
  · subst empty
    exact (List.append_nil _).symm
  · rw [under_of_ne_nil _ _ empty, Clause.ofText_append,
      Clause.ofText_append_of_blank ending.isBlank_of_mem_back]

theorem lines_under (ending : LineEnding) {first s : List Char} (single : '\n' ∉ first)
    (some : s ≠ []) : lines (ending.under first s) = (first ++ ending.back) :: lines s := by
  have unbroken : '\n' ∉ first ++ ending.back := by
    rw [List.mem_append, not_or]
    exact ⟨single, ending.isReturn_back.not_mem⟩
  rw [under_of_ne_nil _ _ some, lines_line_append unbroken]

/-- A visible line above a text without blank lines adds none. -/
theorem solid_under (ending : LineEnding) {first s : List Char} (single : '\n' ∉ first)
    (visible : allBlank first = false) (solid : Block.Solid s) :
    Block.Solid (ending.under first s) := by
  refine .inr fun l mem => ?_
  by_cases empty : s = []
  · subst empty
    rw [under_nil, lines_of_not_mem single, List.mem_singleton] at mem
    rw [mem]
    exact Block.isBlankLine_of_visible visible
  · rw [lines_under ending single empty] at mem
    rcases List.mem_cons.1 mem with rfl | below
    · refine Block.isBlankLine_of_visible ?_
      rw [allBlank_append, visible, Bool.false_and]
    · rcases solid with none | solid
      · exact absurd none empty
      · exact solid l below

theorem allBlank_under (ending : LineEnding) {first : List Char}
    (visible : allBlank first = false) (s : List Char) :
    allBlank (ending.under first s) = false := by
  unfold under
  split
  · exact visible
  · rw [allBlank_append, allBlank_append, visible, Bool.false_and, Bool.false_and]

/-- Blanks at the end of the lower text stand at the end of the whole. -/
theorem exists_under_eq_append (ending : LineEnding) (first s : List Char) :
    ∃ back, (∀ c ∈ back, isBlank c = true) ∧
      ending.under first s = ending.under first (s.rdropWhile isBlank) ++ back := by
  obtain ⟨back, whole, blank, _⟩ := exists_append_of_rdropWhile isBlank s
  by_cases none : s.rdropWhile isBlank = []
  · rw [none, List.nil_append] at whole
    rw [none, under_nil]
    by_cases empty : s = []
    · exact ⟨[], by simp, by rw [empty, under_nil, List.append_nil]⟩
    · refine ⟨ending.text ++ s, ?_, ?_⟩
      · intro c mem
        rcases List.mem_append.1 mem with early | late
        · exact ending.isBlank_of_mem_text c early
        · rw [whole] at late
          exact blank c late
      · rw [under, if_neg (by simp [empty]), List.append_assoc]
  · have some : s ≠ [] := by
      rintro rfl
      exact none rfl
    have tail : '\n' :: s = '\n' :: s.rdropWhile isBlank ++ back := congrArg ('\n' :: ·) whole
    refine ⟨back, blank, ?_⟩
    rw [under_of_ne_nil _ _ none, under_of_ne_nil _ _ some, tail,
      ← List.append_assoc (first ++ ending.back)]

/-- Blanks at the end apart, a visible line and the text below it are one block. -/
theorem ofText_under_of_solid (ending : LineEnding) {first : List Char} (single : '\n' ∉ first)
    (visible : allBlank first = false) {s : List Char}
    (solid : Block.Solid (s.rdropWhile isBlank)) :
    Block.ofText (ending.under first s) = [trim (ending.under first s)] := by
  obtain ⟨back, blank, whole⟩ := exists_under_eq_append ending first s
  have core : trim (ending.under first (s.rdropWhile isBlank) ++ back) =
      trim (ending.under first (s.rdropWhile isBlank)) := strip_append _ blank
  rw [whole, Block.ofText_append_of_blank blank, core,
    (solid_under ending single visible solid).ofText_eq,
    Block.trimmed_of_not_blank (allBlank_under ending visible _)]

/--
A visible line is one block together with what stands below it exactly when
no blank line follows before the last visible character.
-/
theorem length_ofText_under_eq_one_iff (ending : LineEnding) {first : List Char}
    (single : '\n' ∉ first) (visible : allBlank first = false) (s : List Char) :
    (Block.ofText (ending.under first s)).length = 1 ↔
      Block.Solid (s.rdropWhile isBlank) := by
  constructor
  · intro one
    obtain ⟨back, blank, whole⟩ := exists_under_eq_append ending first s
    obtain ⟨_, _, _, stop⟩ := exists_append_of_rdropWhile isBlank s
    rw [whole, Block.ofText_append_of_blank blank] at one
    generalize s.rdropWhile isBlank = core at stop one ⊢
    by_contra loose
    have some : core ≠ [] := fun empty => loose (.inl empty)
    have broken : ¬ Block.Unbroken ('\n' :: core) := fun unbroken => loose (unbroken.solid stop)
    simp only [Block.Unbroken, not_forall, not_not] at broken
    obtain ⟨front, gap, rest, gapBlank, parts⟩ := broken
    -- the blank line splits the text into two, and neither half is blank
    have split : ending.under first core =
        (first ++ ending.back ++ front) ++ '\n' :: (gap ++ '\n' :: rest) := by
      rw [under_of_ne_nil _ _ some, parts, ← List.append_assoc]
    have upper : Block.ofText (first ++ ending.back ++ front) ≠ [] := by
      rw [Ne, Block.ofText_eq_nil_iff, allBlank_append, allBlank_append, visible]
      simp
    have lower : Block.ofText rest ≠ [] := by
      rw [Ne, Block.ofText_eq_nil_iff, allBlank_iff]
      intro allBlank
      have last : core.getLast? = ('\n' :: rest).getLast? := by
        have ends := congrArg List.getLast? parts
        obtain ⟨c, others, rfl⟩ := List.exists_cons_of_ne_nil some
        rw [List.getLast?_cons_cons] at ends
        rw [ends]
        simp [List.getLast?_append, List.getLast?_cons]
      obtain ⟨c, isLast⟩ : ∃ c, core.getLast? = Option.some c :=
        Option.ne_none_iff_exists'.1 fun none => some (List.getLast?_eq_none_iff.1 none)
      have firm := stop c isLast
      rw [last] at isLast
      rcases List.mem_cons.1 (List.mem_of_getLast? isLast) with rfl | inRest
      · cases firm
      · rw [allBlank c inRest] at firm
        cases firm
    have upperPositive := List.length_pos_iff.2 upper
    have lowerPositive := List.length_pos_iff.2 lower
    rw [split, Block.ofText_append_gap gapBlank, List.length_append] at one
    omega
  · intro solid
    rw [ofText_under_of_solid ending single visible solid, List.length_singleton]

theorem statedName?_under (ending : LineEnding) (first s : List Char) :
    Block.statedName? (ending.under first s) =
      (Block.statedName? s).or (Block.statedName? first) := by
  simp only [Block.statedName?_eq, ofText_under, List.filterMap_append, List.getLast?_append,
    Option.map_or]

theorem statedTemplate?_under (ending : LineEnding) (first s : List Char) :
    Block.statedTemplate? (ending.under first s) =
      (Block.statedTemplate? s).or (Block.statedTemplate? first) := by
  simp only [Block.statedTemplate?_eq, ofText_under, List.filterMap_append, List.getLast?_append,
    Option.map_or]

end LineEnding

/-! ## The name line and the template line -/

/-- A mark and a value in quotes start and end firmly if the mark starts so. -/
theorem firm_append_wrapped {mark : List Char} (start : Firm isBlank mark) (some : mark ≠ [])
    (value : String) : Firm isBlank (mark ++ ' ' :: wrapped value) := by
  have shape : mark ++ ' ' :: wrapped value = mark ++ (' ' :: '"' :: value.toList) ++ ['"'] := by
    simp [wrapped]
  rw [shape]
  exact start.append_append (by decide) some (by decide) _

namespace Rule

variable {rule : Rule}

theorem allBlank_nameText (rule : Rule) : allBlank rule.nameText = false := rfl

theorem allBlank_templateText (rule : Rule) : allBlank rule.templateText = false := rfl

theorem firm_nameText (rule : Rule) : Firm isBlank rule.nameText :=
  firm_append_wrapped (by decide) (by decide) rule.name

theorem firm_templateText (rule : Rule) : Firm isBlank rule.templateText :=
  firm_append_wrapped (by decide) (by decide) rule.template.identifier

theorem not_mem_nameText (bare : Bare rule.name.toList) : '\n' ∉ rule.nameText :=
  not_mem_append_wrapped rfl rfl bare.1

theorem not_mem_templateText (bare : Bare rule.template.identifier.toList) :
    '\n' ∉ rule.templateText :=
  not_mem_append_wrapped rfl rfl bare.1

theorem ofText_nameText (bare : Bare rule.name.toList) :
    Clause.ofText rule.nameText = [.name (' ' :: wrapped rule.name)] := by
  rw [Clause.ofText_of_not_mem (not_mem_nameText bare),
    Clause.ofLine_of_firm rule.firm_nameText rule.allBlank_nameText]
  rfl

theorem ofText_templateText (bare : Bare rule.template.identifier.toList) :
    Clause.ofText rule.templateText = [.template (' ' :: wrapped rule.template.identifier)] := by
  rw [Clause.ofText_of_not_mem (not_mem_templateText bare),
    Clause.ofLine_of_firm rule.firm_templateText rule.allBlank_templateText]
  rfl

/-- The name line of a rule states its name and no template. -/
theorem stated_nameText (bare : Bare rule.name.toList) :
    Block.statedName? rule.nameText = some rule.name ∧
      Block.statedTemplate? rule.nameText = none := by
  have name : [Clause.name (' ' :: wrapped rule.name)].filterMap Clause.name? =
      [' ' :: wrapped rule.name] := rfl
  have template : [Clause.name (' ' :: wrapped rule.name)].filterMap Clause.template? = [] := rfl
  rw [Block.statedName?_eq, Block.statedTemplate?_eq, ofText_nameText bare, name, template,
    List.getLast?_singleton, Option.map_some, Function.comp_apply,
    bare_blank_cons_wrapped bare.2]
  exact ⟨rfl, rfl⟩

/-- The template line of a rule states its template and no name. -/
theorem stated_templateText (bare : Bare rule.template.identifier.toList)
    (canonical : rule.template.Canonical) :
    Block.statedName? rule.templateText = none ∧
      Block.statedTemplate? rule.templateText = some rule.template := by
  have name : [Clause.template (' ' :: wrapped rule.template.identifier)].filterMap
      Clause.name? = [] := rfl
  have template : [Clause.template (' ' :: wrapped rule.template.identifier)].filterMap
      Clause.template? = [' ' :: wrapped rule.template.identifier] := rfl
  rw [Block.statedName?_eq, Block.statedTemplate?_eq, ofText_templateText bare, name, template,
    List.getLast?_singleton, Option.map_some, Function.comp_apply, Function.comp_apply,
    bare_blank_cons_wrapped bare.2, canonical]
  exact ⟨rfl, rfl⟩

end Rule

/-! ## Behind the first line -/

namespace Header

theorem dropWhile_line_append {l : List Char} (single : '\n' ∉ l) (s : List Char) :
    (l ++ s).dropWhile (· != '\n') = s.dropWhile (· != '\n') := by
  refine List.dropWhile_append_of_pos fun c mem => ?_
  rw [bne_iff_ne]
  rintro rfl
  exact single mem

theorem afterLine_of_not_mem {s : List Char} (single : '\n' ∉ s) : afterLine s = [] := by
  have none := dropWhile_line_append single []
  rw [List.append_nil] at none
  rw [afterLine, none]
  rfl

theorem afterLine_append {l : List Char} (single : '\n' ∉ l) (rest : List Char) :
    afterLine (l ++ '\n' :: rest) = rest := by
  rw [afterLine, dropWhile_line_append single]
  rfl

end Header

/-! ## The block of a rule -/

namespace Rule

variable {rule : Rule}

/-- The text of a rule as it is read again: without the blanks at its end. -/
def block (ending : LineEnding) (rule : Rule) : List Char :=
  trim (rule.content ending)

theorem ofText_block (ending : LineEnding) (rule : Rule) :
    Clause.ofText (rule.block ending) =
      Clause.ofText rule.nameText ++ Clause.ofText (rule.below ending) := by
  rw [block, Clause.ofText_trim, content, LineEnding.ofText_under]

/-- The name of the block is the last one stated below the name line, else the rule's. -/
theorem statedName?_block (bare : Bare rule.name.toList) (ending : LineEnding) :
    Block.statedName? (rule.block ending) =
      (Block.statedName? (rule.below ending)).or (some rule.name) := by
  have above := (stated_nameText bare).1
  rw [Block.statedName?_eq] at above
  rw [Block.statedName?_eq, ofText_block, List.filterMap_append, List.getLast?_append,
    Option.map_or, above, Block.statedName?_eq]

/-- The template of the block is the last one stated below the name line. -/
theorem statedTemplate?_block (bare : Bare rule.name.toList) (ending : LineEnding) :
    Block.statedTemplate? (rule.block ending) = Block.statedTemplate? (rule.below ending) := by
  have above := (stated_nameText bare).2
  rw [Block.statedTemplate?_eq] at above
  rw [Block.statedTemplate?_eq, ofText_block, List.filterMap_append, List.getLast?_append,
    Option.map_or, above, Option.or_none, Block.statedTemplate?_eq]

/-- Without blank lines below its name line, a rule is read as one block. -/
theorem ofText_content_of_solid (bare : Bare rule.name.toList) {ending : LineEnding}
    (solid : Block.Solid (rule.below ending)) :
    Block.ofText (rule.content ending) = [rule.block ending] := by
  have single := not_mem_nameText bare
  have visible := LineEnding.allBlank_under ending rule.allBlank_nameText (rule.below ending)
  rw [content, (ending.solid_under single rule.allBlank_nameText solid).ofText_eq,
    Block.trimmed_of_not_blank visible, block, content]

/-- The same with blank lines at the end, which are trimmed away. -/
theorem ofText_content_of_solid_rdropWhile (bare : Bare rule.name.toList) {ending : LineEnding}
    (solid : Block.Solid ((rule.below ending).rdropWhile isBlank)) :
    Block.ofText (rule.content ending) = [rule.block ending] :=
  ending.ofText_under_of_solid (not_mem_nameText bare) rule.allBlank_nameText solid

theorem length_ofText_content_eq_one_iff (bare : Bare rule.name.toList) (ending : LineEnding) :
    (Block.ofText (rule.content ending)).length = 1 ↔
      Block.Solid ((rule.below ending).rdropWhile isBlank) :=
  ending.length_ofText_under_eq_one_iff (not_mem_nameText bare) rule.allBlank_nameText _

/-- Where the text below ends firmly, nothing of the rule is trimmed away. -/
theorem block_eq_content {ending : LineEnding}
    (stop : ∀ c ∈ (rule.below ending).getLast?, isBlank c = false) :
    rule.block ending = rule.content ending := by
  refine strip_eq_self ?_
  by_cases empty : rule.below ending = []
  · rw [content, empty, LineEnding.under_nil]
    exact rule.firm_nameText
  · have firm := firm_append rule.firm_nameText.1 stop (List.cons_ne_nil _ _) empty
    rw [content, LineEnding.under, if_neg (by simp [empty]), List.append_assoc]
    refine ⟨firm.1, fun c last => ?_⟩
    rw [← List.append_assoc, List.getLast?_append_of_ne_nil _ empty] at last
    exact stop c last

/-- Without its header, a rule is what stands below its name line. -/
theorem drop_content (bare : Bare rule.name.toList) (ending : LineEnding) :
    Header.drop (rule.content ending) =
      (rule.below ending).dropWhile Header.isLineBreak := by
  have firm : trimStart (rule.content ending) = rule.content ending := by
    unfold content LineEnding.under
    split <;> rfl
  have present : Header.present (rule.content ending) = true := by
    rw [Header.present, firm, content]
    unfold LineEnding.under
    split <;> rfl
  rw [Header.drop, if_pos present, firm, content]
  have single := not_mem_nameText bare
  by_cases empty : rule.below ending = []
  · rw [empty, LineEnding.under_nil, Header.afterLine_of_not_mem single]
  · have free : '\n' ∉ rule.nameText ++ ending.back := by
      rw [List.mem_append, not_or]
      exact ⟨single, ending.isReturn_back.not_mem⟩
    rw [LineEnding.under_of_ne_nil _ _ empty, Header.afterLine_append free]

end Rule

end TrustRules
