import TrustRules.Proofs.Reading.Diagnostics
import TrustRules.Proofs.Rule.Arrangements

/-!
# Readings of arguments in any order

Main statement: where a templated block states a condition and an action last,
its rule has exactly these two, whatever order their arguments come in and
whatever unknown arguments stand among them, and nothing of their lines is
reported.
-/

namespace TrustRules

open Text

/-! ## Lines of statements -/

namespace Clause

variable {condition : Condition} {pieces : List (List Char)}

/-- A condition alone on its line. -/
theorem ofLine_condition (wellFormed : condition.WellFormed) (arranged : condition.Arranged pieces)
    {line : List Char} (trimmed : trim line = Condition.textOf pieces) :
    ofLine line = [.condition (Condition.textOf pieces)] := by
  have alone := ofTrimmed_textOf (arranged.throughUnquoted_textOf wellFormed [])
  rw [List.append_nil] at alone
  rw [ofLine_of_trim trimmed (List.cons_ne_nil _ _), alone]
  rfl

/-- An action alone on its line. -/
theorem ofLine_action {line : List Char} (trimmed : trim line = Action.textOf pieces) :
    ofLine line = [.action (Action.textOf pieces)] := by
  rw [ofLine_of_trim trimmed (List.cons_ne_nil _ _)]
  rfl

/-- A condition and an action behind it, with any blanks between the two. -/
theorem ofLine_condition_action (wellFormed : condition.WellFormed)
    (arranged : condition.Arranged pieces) {others : List (List Char)} {line gap : List Char}
    (blank : allBlank gap = true)
    (trimmed : trim line = Condition.textOf pieces ++ (gap ++ Action.textOf others)) :
    ofLine line =
      [.condition (Condition.textOf pieces), .action (Action.textOf others)] := by
  have behind : trim (gap ++ Action.textOf others) = Action.textOf others := by
    have core := strip_append_append (allBlank_iff.1 blank) (Action.firm_textOf others)
      (List.forall_mem_nil _)
    rwa [List.append_nil] at core
  rw [ofLine_of_trim trimmed (List.cons_ne_nil _ _),
    ofTrimmed_textOf (arranged.throughUnquoted_textOf wellFormed _), behind]
  rfl

end Clause

namespace Block

variable {block condition action : List Char}

/-- A condition and an action stand at places of a block: on one line, or on two. -/
inductive Stands (block condition action : List Char) : Nat → Nat → Prop where
  | together {place : Nat} {line gap : List Char} (isLine : (lines block)[place]? = some line)
      (blank : allBlank gap = true) (trimmed : trim line = condition ++ (gap ++ action)) :
      Stands block condition action place place
  | apart {place other : Nat} {line following : List Char}
      (isLine : (lines block)[place]? = some line) (trimmed : trim line = condition)
      (isOther : (lines block)[other]? = some following) (otherTrimmed : trim following = action) :
      Stands block condition action place other

/-- No line below this place has a clause of this kind. -/
def LastAt (kind? : Clause → Option (List Char)) (block : List Char) (place : Nat) : Prop :=
  ∀ line ∈ (lines block).drop (place + 1), (Clause.ofLine line).filterMap kind? = []

/-- The last clause of a kind is the one on the last line that has one. -/
theorem getLast?_of_lastAt {kind? : Clause → Option (List Char)} {place : Nat}
    {line value : List Char} (isLine : (lines block)[place]? = some line)
    (stated : (Clause.ofLine line).filterMap kind? = [value]) (last : LastAt kind? block place) :
    ((Clause.ofText block).filterMap kind?).getLast? = some value := by
  obtain ⟨inside, rfl⟩ := List.getElem?_eq_some_iff.1 isLine
  have below : ((lines block).drop (place + 1)).flatMap
      (fun line => (Clause.ofLine line).filterMap kind?) = [] :=
    List.flatMap_eq_nil_iff.2 last
  have parts : lines block =
      (lines block).take place ++ (lines block)[place] :: (lines block).drop (place + 1) := by
    rw [List.getElem_cons_drop, List.take_append_drop]
  rw [Clause.ofText, List.filterMap_flatMap, parts, List.flatMap_append, List.flatMap_cons, below,
    stated, List.append_nil, List.getLast?_concat]

variable {stated : Condition} {pieces others : List (List Char)} {place other : Nat}

/-- On the lines of these places stand the condition and the action, and no other clause. -/
theorem Stands.exists_lines (wellFormed : stated.WellFormed) (arranged : stated.Arranged pieces)
    (stands : Stands block (Condition.textOf pieces) (Action.textOf others) place other) :
    ∃ line following, (lines block)[place]? = some line ∧
      (lines block)[other]? = some following ∧
      (Clause.ofLine line).filterMap Clause.condition? = [Condition.textOf pieces] ∧
      (Clause.ofLine following).filterMap Clause.action? = [Action.textOf others] ∧
      ∀ clause ∈ Clause.ofLine line ++ Clause.ofLine following,
        clause = .condition (Condition.textOf pieces) ∨
          clause = .action (Action.textOf others) := by
  cases stands with
  | together isLine blank trimmed =>
      refine ⟨_, _, isLine, isLine, ?_⟩
      rw [Clause.ofLine_condition_action wellFormed arranged blank trimmed]
      exact ⟨rfl, rfl, by simp⟩
  | apart isLine trimmed isOther otherTrimmed =>
      refine ⟨_, _, isLine, isOther, ?_⟩
      rw [Clause.ofLine_condition wellFormed arranged trimmed, Clause.ofLine_action otherTrimmed]
      exact ⟨rfl, rfl, by simp⟩

end Block

namespace Reading

/-- A line whose clauses are all used is not reported. -/
theorem line_ne_of_used {text : String} {place number : Nat} {block line : List Char}
    (isBlock : (Block.ofText text.toList)[place]? = some block)
    (isLine : (lines block)[number]? = some line)
    (used : ∀ clause ∈ Clause.ofLine line, clause.unused = []) {diagnostic : Diagnostic}
    (reported : diagnostic ∈ (ofText text).skipped) (here : diagnostic.block = place) :
    diagnostic.line ≠ number + 1 := by
  intro same
  obtain ⟨found, isFound, -, clause, isClause, piece, unused, -⟩ := mem_skipped_iff.1 reported
  rw [here, isBlock] at isFound
  obtain rfl := Option.some.inj isFound
  obtain ⟨counter, stated, isStated, counted, mem⟩ := Block.mem_clauses_iff.1 isClause
  obtain rfl : number = counter := Nat.succ.inj (same.symm.trans counted)
  rw [isLine] at isStated
  obtain rfl := Option.some.inj isStated
  rw [used clause mem] at unused
  cases unused

/--
A templated block that states a condition and an action last, with their
arguments in any order and unknown arguments among them, is read as a rule with
exactly these two, and nothing of their lines is reported.
-/
theorem ofText_arranged {text : String} {block : List Char} {place first second : Nat}
    {condition : Condition} {action : Action} {pieces others : List (List Char)}
    (isBlock : (Block.ofText text.toList)[place]? = some block)
    (templated : (Block.rule block).isCustom = false)
    (conditionWellFormed : condition.WellFormed) (actionWellFormed : action.WellFormed)
    (closed : action.Closed) (conditionArranged : condition.Arranged pieces)
    (actionArranged : action.Arranged others)
    (stands : Block.Stands block (Condition.textOf pieces) (Action.textOf others) first second)
    (conditionLast : Block.LastAt Clause.condition? block first)
    (actionLast : Block.LastAt Clause.action? block second) :
    ∃ rule, (ofText text).set.rules[place]? = some rule ∧ rule.isCustom = false ∧
      rule.condition = some condition ∧ rule.action = some action ∧
      ∀ diagnostic ∈ (ofText text).skipped, diagnostic.block = place →
        diagnostic.line ≠ first + 1 ∧ diagnostic.line ≠ second + 1 := by
  obtain ⟨line, other, isLine, isOther, conditionHere, actionHere, clauses⟩ :=
    stands.exists_lines conditionWellFormed conditionArranged
  have used : ∀ clause ∈ Clause.ofLine line ++ Clause.ofLine other, clause.unused = [] := by
    intro clause mem
    rcases clauses clause mem with rfl | rfl
    · exact conditionArranged.unused_textOf conditionWellFormed
    · exact actionArranged.unused_textOf actionWellFormed.toSeparable closed
  have isRule : (ofText text).set.rules[place]? = some (Block.rule block) := by
    rw [rules_ofText, List.getElem?_map, isBlock]
    rfl
  obtain ⟨template, found⟩ := Block.exists_template?_draft templated
  refine ⟨Block.rule block, isRule, templated, ?_, ?_, fun diagnostic reported here => ⟨?_, ?_⟩⟩
  · rw [Block.rule, Draft.rule, found, Block.draft_eq, Draft.condition_ofClauses,
      Block.getLast?_of_lastAt isLine conditionHere conditionLast]
    exact conditionArranged.ofText?_textOf conditionWellFormed
  · rw [Block.rule, Draft.rule, found, Block.draft_eq, Draft.action_ofClauses,
      Block.getLast?_of_lastAt isOther actionHere actionLast]
    exact congrArg some (actionArranged.ofText_textOf actionWellFormed closed)
  · exact line_ne_of_used isBlock isLine
      (fun clause mem => used clause (List.mem_append_left _ mem)) reported here
  · exact line_ne_of_used isBlock isOther
      (fun clause mem => used clause (List.mem_append_right _ mem)) reported here

/-- A condition with its issuer in front and an argument whose key only looks known. -/
def issuerFirst : List (List Char) :=
  ["Issuer == \"a, ]\"".toList, "Type= == (b, \"]\")".toList, "Type == \"u\"".toList]

/-- An action with its expression in front and a note in the middle. -/
def paramFirst : List (List Char) :=
  ["param = f(c, \"(\")".toList, "note = \"a, b\"".toList, "types = (\"t\", \"v\")".toList]

/-- A templated block with both on one line. -/
def arrangedExample : List Char :=
  ("@RuleTemplate = \"t\"\n" ++
    "c:[Issuer == \"a, ]\", Type= == (b, \"]\"), Type == \"u\"] " ++
    "=> issue(param = f(c, \"(\"), note = \"a, b\", types = (\"t\", \"v\"));").toList

theorem ofText_arranged_arrangedExample :
    ∃ rule, (ofText (String.ofList arrangedExample)).set.rules[0]? = some rule ∧
      rule.condition = some ⟨"u", "a, ]"⟩ ∧
      rule.action = some { types := some ["t", "v"], param := some "f(c, \"(\")" } := by
  have parts : lines arrangedExample =
      ["@RuleTemplate = \"t\"".toList,
        Condition.textOf issuerFirst ++ ([' '] ++ Action.textOf paramFirst)] := by
    decide +kernel
  have isBlock : (Block.ofText (String.ofList arrangedExample).toList)[0]? =
      some arrangedExample := by
    rw [String.toList_ofList, Block.ofText_eq_ofLines, parts]
    decide +kernel
  have templated : (Block.rule arrangedExample).isCustom = false := by
    rw [Block.isCustom_rule, Block.statedTemplate?, Clause.lastTemplate?, Clause.marked, parts]
    decide +kernel
  have similar : Argument.Foreign Mark.equals Condition.keys "Type= == (b, \"]\")".toList :=
    @Argument.foreign_spaced Mark.equals Condition.keys "Type=".toList "(b, \"]\")".toList
      (by decide) (by decide) ⟨by decide +kernel, by decide +kernel⟩ (by decide +kernel)
      (by decide +kernel)
  have note : Argument.Foreign Mark.assigns Action.keys "note = \"a, b\"".toList :=
    @Argument.foreign_spaced Mark.assigns Action.keys "note".toList "\"a, b\"".toList
      (by decide) (by decide) ⟨by decide +kernel, by decide +kernel⟩ (by decide +kernel)
      (by decide +kernel)
  have conditionArranged : Condition.Arranged ⟨"u", "a, ]"⟩ issuerFirst := by
    refine ⟨["Type= == (b, \"]\")".toList], by decide +kernel, fun extra mem => ?_⟩
    rw [List.mem_singleton.1 mem]
    exact ⟨similar, by decide +kernel⟩
  have actionArranged : Action.Arranged
      { types := some ["t", "v"], param := some "f(c, \"(\")" } paramFirst := by
    refine ⟨["note = \"a, b\"".toList], by decide +kernel, fun extra mem => ?_⟩
    rw [List.mem_singleton.1 mem]
    exact note
  have stands : Block.Stands arrangedExample (Condition.textOf issuerFirst)
      (Action.textOf paramFirst) 1 1 :=
    @Block.Stands.together arrangedExample _ _ 1
      (Condition.textOf issuerFirst ++ ([' '] ++ Action.textOf paramFirst)) [' ']
      (by rw [parts]; rfl) (by decide) (by decide +kernel)
  have last (kind? : Clause → Option (List Char)) : Block.LastAt kind? arrangedExample 1 := by
    rw [Block.LastAt, parts]
    exact List.forall_mem_nil _
  obtain ⟨rule, isRule, _, condition, action, _⟩ :=
    ofText_arranged isBlock templated (by decide +kernel) (by decide +kernel) (by decide +kernel)
      conditionArranged actionArranged stands (last _) (last _)
  exact ⟨rule, isRule, condition, action⟩

end Reading

end TrustRules
