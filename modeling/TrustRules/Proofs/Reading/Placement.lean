import Mathlib.Logic.Relation
import TrustRules.Proofs.Block.Values
import TrustRules.Proofs.Reading.Diagnostics

/-!
# Where statements stand

Within a block the order of the lines matters only among lines of one kind.
Main statement: neighbours without a common kind can change places, and a
condition and the action behind it can stand on two lines, any number of times;
the block is read as the same rule and the same pieces of it are reported.
-/

namespace TrustRules

open Text

namespace Clause

/-! ## Kinds of lines -/

/-- The kinds of statements. -/
inductive Kind where
  | name
  | template
  | condition
  | action
  | unrecognized
  deriving DecidableEq, Repr

/-- The kind of a text by the mark in front of it. -/
def Kind.ofMark (text : List Char) : Kind :=
  if Mark.name.isPrefixOf text then .name
  else if Mark.template.isPrefixOf text then .template
  else if Mark.condition.isPrefixOf text then .condition
  else if Mark.action.isPrefixOf text then .action
  else .unrecognized

/-- The kind of what follows the first bracket of a text outside double quotes. -/
def kindsBehind (text : List Char) : List Kind :=
  match throughUnquoted ']' false text with
  | some (_, rest) =>
      if allBlank rest then []
      else if Mark.action.isPrefixOf (trim rest) then [.action]
      else [.unrecognized]
  | none => []

/--
The kinds of a line.  A blank line has none, and a condition with more behind
its bracket has two.
-/
def kinds (line : List Char) : List Kind :=
  if allBlank line then []
  else if Kind.ofMark (trim line) = .condition then .condition :: kindsBehind (trim line)
  else [Kind.ofMark (trim line)]

/-- The kind of a clause. -/
def kind : Clause → Kind
  | .name _ => .name
  | .template _ => .template
  | .condition _ => .condition
  | .action _ => .action
  | .unrecognized _ => .unrecognized

theorem map_kind_ofTail (rest : List Char) :
    (ofTail (trim rest)).map kind =
      if allBlank rest then []
      else if Mark.action.isPrefixOf (trim rest) then [.action]
      else [.unrecognized] := by
  unfold ofTail
  cases blank : allBlank rest with
  | true => rw [trim_eq_nil_iff.2 blank]; rfl
  | false =>
      have some : (trim rest).isEmpty = false := by simpa using trim_ne_nil blank
      rw [some]
      cases Mark.action.isPrefixOf (trim rest) <;> rfl

theorem map_kind_ofConditionLine (line : List Char) :
    (ofConditionLine line).map kind = .condition :: kindsBehind line := by
  unfold ofConditionLine kindsBehind
  cases throughUnquoted ']' false line with
  | none => rfl
  | some parts => exact congrArg (Kind.condition :: ·) (map_kind_ofTail parts.2)

theorem map_kind_ofTrimmed (line : List Char) :
    (ofTrimmed line).map kind =
      if Kind.ofMark line = .condition then .condition :: kindsBehind line
      else [Kind.ofMark line] := by
  unfold ofTrimmed Kind.ofMark
  rw [← List.isSome_isPrefixOf?_eq_isPrefixOf Mark.name,
    ← List.isSome_isPrefixOf?_eq_isPrefixOf Mark.template]
  cases Mark.name.isPrefixOf? line with
  | some value => rfl
  | none =>
      cases Mark.template.isPrefixOf? line with
      | some value => rfl
      | none =>
          cases Mark.condition.isPrefixOf line with
          | true => exact map_kind_ofConditionLine line
          | false => cases Mark.action.isPrefixOf line <;> rfl

/-- The clauses of a line are of its kinds. -/
theorem map_kind_ofLine (line : List Char) : (ofLine line).map kind = kinds line := by
  unfold ofLine kinds
  split
  · rfl
  · exact map_kind_ofTrimmed (trim line)

/-! ## A condition and the action behind it -/

/-- Up to its first unquoted bracket, a condition is a condition without more behind it. -/
theorem ofConditionLine_front {line front rest : List Char} (starts : Mark.condition <+: line)
    (bracket : throughUnquoted ']' false line = some (front, rest)) :
    Mark.condition <+: front ∧ ofConditionLine front = [.condition front] := by
  constructor
  · obtain ⟨content, rfl⟩ := starts
    rw [throughUnquoted_append_of_free (by decide) (by decide)] at bracket
    obtain ⟨parts, -, same⟩ := Option.map_eq_some_iff.1 bracket
    obtain ⟨rfl, -⟩ := Prod.mk.inj same
    exact List.prefix_append _ _
  · rw [ofConditionLine, throughUnquoted_front bracket]
    rfl

/-- A condition and the action behind it are the same clauses on one line and on two. -/
theorem ofLine_broken {line front rest first second : List Char}
    (condition : Mark.condition <+: trim line)
    (bracket : throughUnquoted ']' false (trim line) = some (front, rest))
    (action : Mark.action <+: trim rest) (isFirst : trim first = front)
    (isSecond : trim second = trim rest) :
    ofLine line = [.condition front, .action (trim rest)] ∧
      ofLine first = [.condition front] ∧ ofLine second = [.action (trim rest)] := by
  obtain ⟨starts, alone⟩ := ofConditionLine_front condition bracket
  refine ⟨?_, ?_, ?_⟩
  · rw [ofLine_of_condition condition, ofConditionLine, bracket]
    exact congrArg (Clause.condition front :: ·) (ofTail_of_action action)
  · rw [ofLine_of_condition (isFirst ▸ starts), isFirst, alone]
  · rw [ofLine_of_action (isSecond ▸ action), isSecond]

/-- The pieces that some clauses leave unused, with the reasons. -/
def unusedOf (clauses : List Clause) : List (String × Cause) :=
  clauses.flatMap fun clause =>
    clause.unused.map fun piece => (String.ofList piece.1, piece.2)

theorem flatMap_ofLine_broken {line front rest first second : List Char}
    (condition : Mark.condition <+: trim line)
    (bracket : throughUnquoted ']' false (trim line) = some (front, rest))
    (action : Mark.action <+: trim rest) (isFirst : trim first = front)
    (isSecond : trim second = trim rest) (above below : List (List Char)) :
    (above ++ line :: below).flatMap ofLine =
      (above ++ first :: second :: below).flatMap ofLine := by
  obtain ⟨whole, front, back⟩ := ofLine_broken condition bracket action isFirst isSecond
  simp only [List.flatMap_append, List.flatMap_cons, whole, front, back, List.cons_append,
    List.nil_append]

/-- A line that states something is not blank. -/
theorem visible_of_mem_ofLine {line : List Char} {clause : Clause} (mem : clause ∈ ofLine line) :
    allBlank line = false := by
  unfold ofLine at mem
  split at mem
  · cases mem
  · next visible => exact Bool.eq_false_iff.2 visible

end Clause

namespace Draft

/-! ## Clauses of different kinds -/

/-- Each clause sets the part of its own kind and reads no other. -/
theorem add_add_comm {first second : Clause} (apart : first.kind ≠ second.kind) (draft : Draft) :
    (draft.add first).add second = (draft.add second).add first := by
  cases first <;> cases second <;> first | rfl | exact absurd rfl apart

theorem foldl_add_comm {clause : Clause} {clauses : List Clause}
    (apart : ∀ other ∈ clauses, clause.kind ≠ other.kind) (draft : Draft) :
    clauses.foldl add (draft.add clause) = (clauses.foldl add draft).add clause := by
  induction clauses generalizing draft with
  | nil => rfl
  | cons other rest ih =>
      rw [List.foldl_cons, add_add_comm (apart other List.mem_cons_self),
        ih fun later mem => apart later (List.mem_cons_of_mem other mem), List.foldl_cons]

theorem foldl_add_append_comm {first second : List Clause}
    (apart : ∀ kind ∈ first.map Clause.kind, kind ∉ second.map Clause.kind) (draft : Draft) :
    (first ++ second).foldl add draft = (second ++ first).foldl add draft := by
  induction first generalizing draft with
  | nil => rw [List.nil_append, List.append_nil]
  | cons clause rest ih =>
      rw [List.map_cons, List.forall_mem_cons] at apart
      have alone : ∀ other ∈ second, clause.kind ≠ other.kind := fun other mem same =>
        apart.1 (same ▸ List.mem_map_of_mem mem)
      rw [List.cons_append, List.foldl_cons, ih apart.2, List.foldl_append, List.foldl_append,
        foldl_add_comm alone, List.foldl_cons]

/-- Neighbouring clauses without a common kind make the same draft in either order. -/
theorem ofClauses_append_comm {first second : List Clause}
    (apart : ∀ kind ∈ first.map Clause.kind, kind ∉ second.map Clause.kind)
    (above below : List Clause) :
    ofClauses (above ++ (first ++ second) ++ below) =
      ofClauses (above ++ (second ++ first) ++ below) := by
  have parts (inner : List Clause) : ofClauses (above ++ inner ++ below) =
      below.foldl add (inner.foldl add (ofClauses above)) := by
    rw [ofClauses, List.foldl_append, List.foldl_append, ofClauses]
  rw [parts, parts, foldl_add_append_comm apart]

end Draft

namespace Block

/-! ## Lines in another place -/

/-- One change of where the statements of a block stand. -/
inductive Rearranged : List (List Char) → List (List Char) → Prop where
  /-- Two neighbours without a common kind change places. -/
  | swapped (above below : List (List Char)) {first second : List Char}
      (apart : ∀ kind ∈ Clause.kinds first, kind ∉ Clause.kinds second) :
      Rearranged (above ++ first :: second :: below) (above ++ second :: first :: below)
  /-- A condition, up to its bracket, and the action behind it become two lines. -/
  | broken (above below : List (List Char)) {line front rest first second : List Char}
      (condition : Mark.condition <+: trim line)
      (bracket : throughUnquoted ']' false (trim line) = some (front, rest))
      (action : Mark.action <+: trim rest)
      (isFirst : trim first = front) (single : '\n' ∉ first)
      (isSecond : trim second = trim rest) (alsoSingle : '\n' ∉ second) :
      Rearranged (above ++ line :: below) (above ++ first :: second :: below)

namespace Rearranged

variable {ls others : List (List Char)}

/-- What is rearranged are the clauses of the lines. -/
theorem perm (rearranged : Rearranged ls others) :
    (ls.flatMap Clause.ofLine).Perm (others.flatMap Clause.ofLine) := by
  cases rearranged with
  | swapped above below apart =>
      exact ((List.Perm.swap _ _ below).append_left above).flatMap_right Clause.ofLine
  | broken above below condition bracket action isFirst single isSecond alsoSingle =>
      exact .of_eq
        (Clause.flatMap_ofLine_broken condition bracket action isFirst isSecond above below)

theorem ofClauses_eq (rearranged : Rearranged ls others) :
    Draft.ofClauses (ls.flatMap Clause.ofLine) = .ofClauses (others.flatMap Clause.ofLine) := by
  cases rearranged with
  | @swapped above below first second apart =>
      rw [← Clause.map_kind_ofLine, ← Clause.map_kind_ofLine] at apart
      have parts (line other : List Char) :
          (above ++ line :: other :: below).flatMap Clause.ofLine =
            above.flatMap Clause.ofLine ++ (Clause.ofLine line ++ Clause.ofLine other) ++
              below.flatMap Clause.ofLine := by
        simp
      rw [parts, parts, Draft.ofClauses_append_comm apart]
  | broken above below condition bracket action isFirst single isSecond alsoSingle =>
      rw [Clause.flatMap_ofLine_broken condition bracket action isFirst isSecond above below]

theorem consecutive (rearranged : Rearranged ls others) (isText : Consecutive ls) :
    Consecutive others := by
  cases rearranged with
  | swapped above below apart =>
      exact fun l mem => isText l (((List.Perm.swap _ _ below).append_left above).subset mem)
  | @broken above below line front rest first second condition bracket action isFirst single
      isSecond alsoSingle =>
      obtain ⟨-, onFirst, onSecond⟩ :=
        Clause.ofLine_broken condition bracket action isFirst isSecond
      have onLine {l : List Char} {clause : Clause} (only : Clause.ofLine l = [clause]) :
          isBlankLine l = false :=
        isBlankLine_of_visible
          (Clause.visible_of_mem_ofLine (only ▸ List.mem_singleton_self clause))
      intro l mem
      rw [List.mem_append, List.mem_cons, List.mem_cons] at mem
      rcases mem with inAbove | rfl | rfl | inBelow
      · exact isText l (List.mem_append_left _ inAbove)
      · exact ⟨single, onLine onFirst⟩
      · exact ⟨alsoSingle, onLine onSecond⟩
      · exact isText l (List.mem_append_right _ (List.mem_cons_of_mem _ inBelow))

end Rearranged

/-- Any number of changes keeps the clauses, the draft and the block whole. -/
theorem rearranged_kept {ls others : List (List Char)}
    (rearranged : Relation.ReflTransGen Rearranged ls others) (isText : Consecutive ls) :
    (ls.flatMap Clause.ofLine).Perm (others.flatMap Clause.ofLine) ∧
      Draft.ofClauses (ls.flatMap Clause.ofLine) = .ofClauses (others.flatMap Clause.ofLine) ∧
      Consecutive others := by
  induction rearranged with
  | refl => exact ⟨.refl _, rfl, isText⟩
  | tail _ change ih =>
      obtain ⟨perm, same, isStillText⟩ := ih
      exact ⟨perm.trans change.perm, same.trans change.ofClauses_eq,
        change.consecutive isStillText⟩

/-- The rule of a templated block depends on its draft alone. -/
theorem rule_eq_of_draft {block other : List Char} (templated : (rule block).isCustom = false)
    (same : draft block = draft other) : rule other = rule block := by
  obtain ⟨template, found⟩ := exists_template?_draft templated
  rw [rule, rule, ← same, Draft.rule, Draft.rule, found]

/-- What is reported of a templated block, without the numbers of the lines. -/
theorem map_diagnostics (templated : (rule block).isCustom = false) (place : Nat) :
    ((diagnostics place block).map fun diagnostic => (diagnostic.text, diagnostic.cause)) =
      Clause.unusedOf (Clause.ofText block) := by
  rw [diagnostics, isSome_template?_draft, templated, Bool.not_false, if_pos rfl,
    List.map_flatMap, ← map_snd_clauses, Clause.unusedOf, List.flatMap_map]
  refine List.flatMap_congr fun clause _ => ?_
  rw [List.map_map]
  rfl

end Block

namespace Reading

/-- The pieces that were reported, with the reasons and without the places. -/
def reported (reading : Reading) : List (String × Cause) :=
  reading.skipped.map fun diagnostic => (diagnostic.text, diagnostic.cause)

/-- A text with a single block is read as the rule of the block. -/
theorem ofText_of_block {text : String} {block : List Char}
    (blocks : Block.ofText text.toList = [block]) :
    (ofText text).set = ⟨[Block.rule block]⟩ ∧
      (ofText text).skipped = Block.diagnostics 0 block := by
  have rules : (ofText text).set.rules = [Block.rule block] := by
    rw [rules_ofText, blocks, List.map_singleton]
  refine ⟨congrArg RuleSet.mk rules, ?_⟩
  rw [skipped_ofText, blocks]
  exact List.flatMap_singleton _ _

/-- The lines of a templated block after any number of changes. -/
theorem ofText_of_rearranged {text block : List Char} {ls : List (List Char)}
    (isBlock : Block.IsBlock text block) (templated : (Block.rule block).isCustom = false)
    (rearranged : Relation.ReflTransGen Block.Rearranged (lines block) ls) :
    (ofText (String.ofList (['\n'].intercalate ls))).set = ⟨[Block.rule block]⟩ ∧
      (ofText (String.ofList (['\n'].intercalate ls))).reported.Perm
        (Clause.unusedOf (Clause.ofText block)) := by
  obtain ⟨perm, same, isText⟩ := Block.rearranged_kept rearranged isBlock.consecutive
  have clauses : Clause.ofText (trim (['\n'].intercalate ls)) = ls.flatMap Clause.ofLine := by
    rw [Clause.ofText_trim, Clause.ofText_intercalate fun l mem => (isText l mem).1]
  have drafts : Block.draft block = Block.draft (trim (['\n'].intercalate ls)) := by
    rw [Block.draft_eq, Block.draft_eq, clauses, ← same, Clause.ofText]
  have isRule := Block.rule_eq_of_draft templated drafts
  have stillTemplated := isRule ▸ templated
  have visible := Block.not_blank_of_templated stillTemplated
  rw [allBlank_trim] at visible
  obtain ⟨set, skipped⟩ := ofText_of_block
    ((congrArg Block.ofText String.toList_ofList).trans (isText.ofText_intercalate visible))
  refine ⟨isRule ▸ set, ?_⟩
  rw [reported, skipped, Block.map_diagnostics stillTemplated, clauses]
  exact perm.symm.flatMap_right _

/--
A templated block is read as the same rule, and the same pieces of it are
reported for the same reasons, when neighbouring lines without a common kind
change places or a condition and the action behind it are put on two lines.
-/
theorem ofText_rearranged {text : String} {block : List Char} {ls : List (List Char)}
    (isBlock : block ∈ Block.ofText text.toList)
    (templated : (Block.rule block).isCustom = false)
    (rearranged : Relation.ReflTransGen Block.Rearranged (lines block) ls) :
    (ofText (String.ofList block)).set = ⟨[Block.rule block]⟩ ∧
      (ofText (String.ofList (['\n'].intercalate ls))).set = ⟨[Block.rule block]⟩ ∧
      (ofText (String.ofList (['\n'].intercalate ls))).reported.Perm
        (ofText (String.ofList block)).reported := by
  have isIn := Block.isBlock_of_mem_ofText isBlock
  obtain ⟨set, reported⟩ := ofText_of_rearranged isIn templated .refl
  obtain ⟨movedSet, movedReported⟩ := ofText_of_rearranged isIn templated rearranged
  rw [intercalate_lines] at set reported
  exact ⟨set, movedSet, movedReported.trans reported.symm⟩

/-- A templated block with a line of noise, and a condition and an action on one line. -/
def oneLineExample : List (List Char) :=
  ["@RuleTemplate = \"t\"".toList, "noise".toList,
    "c:[Type == \"u]\", odd, Issuer == \"i\"]  => issue(store = \"s\");".toList]

/-- The same statements in another order, with the condition and the action on two lines. -/
def twoLinesExample : List (List Char) :=
  ["@RuleTemplate = \"t\"".toList, "\tc:[Type == \"u]\", odd, Issuer == \"i\"]\r".toList,
    "noise".toList, "=> issue(store = \"s\");".toList]

theorem ofText_rearranged_twoLinesExample :
    (ofText (String.ofList (['\n'].intercalate twoLinesExample))).set.rules =
        [{ name := "", template := .other "t", condition := some ⟨"u]", "i"⟩,
           action := some { store := some "s" } }] ∧
      (ofText (String.ofList (['\n'].intercalate twoLinesExample))).reported.Perm
        [("noise", .unrecognizedLine), ("odd", .malformedPair)] := by
  have whole : Block.ofText (['\n'].intercalate oneLineExample) =
      [['\n'].intercalate oneLineExample] := by
    rw [Block.ofText_eq_ofLines]
    decide +kernel
  have parts : lines (['\n'].intercalate oneLineExample) = oneLineExample := by decide +kernel
  have broken : Block.Rearranged oneLineExample
      ["@RuleTemplate = \"t\"".toList, "noise".toList,
        "\tc:[Type == \"u]\", odd, Issuer == \"i\"]\r".toList,
        "=> issue(store = \"s\");".toList] :=
    @Block.Rearranged.broken ["@RuleTemplate = \"t\"".toList, "noise".toList] [] _
      "c:[Type == \"u]\", odd, Issuer == \"i\"]".toList
      "  => issue(store = \"s\");".toList _ _ (by decide +kernel) (by decide +kernel)
      (by decide +kernel) (by decide +kernel) (by decide) (by decide +kernel) (by decide)
  have swapped : Block.Rearranged
      ["@RuleTemplate = \"t\"".toList, "noise".toList,
        "\tc:[Type == \"u]\", odd, Issuer == \"i\"]\r".toList,
        "=> issue(store = \"s\");".toList] twoLinesExample :=
    .swapped ["@RuleTemplate = \"t\"".toList] ["=> issue(store = \"s\");".toList]
      (by decide +kernel)
  have rearranged : Relation.ReflTransGen Block.Rearranged
      (lines (['\n'].intercalate oneLineExample)) twoLinesExample := by
    rw [parts]
    exact (Relation.ReflTransGen.single broken).tail swapped
  have isBlock : ['\n'].intercalate oneLineExample ∈
      Block.ofText (String.ofList (['\n'].intercalate oneLineExample)).toList := by
    rw [String.toList_ofList, whole]
    exact List.mem_singleton_self _
  have templated : (Block.rule (['\n'].intercalate oneLineExample)).isCustom = false := by
    decide +kernel
  obtain ⟨-, set, perm⟩ := ofText_rearranged isBlock templated rearranged
  refine ⟨?_, ?_⟩
  · rw [set]
    decide +kernel
  · have reported : (ofText (String.ofList (['\n'].intercalate oneLineExample))).reported =
        [("noise", .unrecognizedLine), ("odd", .malformedPair)] := by
      rw [Reading.reported, skipped_ofText, String.toList_ofList, whole]
      decide +kernel
    rwa [reported] at perm

end Reading

end TrustRules
