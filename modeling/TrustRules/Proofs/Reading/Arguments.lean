import TrustRules.Proofs.Reading.Diagnostics

/-!
# Arguments of read rules

A condition and an action state their arguments under keys, and the rule of a
templated block holds a value under each of these keys.  Main statement: an
argument with a known key is held by the rule, or its line is reported, or
something further on in its block takes its place; and nothing else is ever
held under that key.
-/

namespace TrustRules

open Text

/-! ## Keys -/

/-- A key under which a rule holds a value. -/
inductive Key where
  | claimType
  | issuer
  | store
  | types
  | query
  | param
  deriving DecidableEq, Repr

namespace Key

/-- The spelling of the key in rule text. -/
def text : Key → List Char
  | .claimType => "Type".toList
  | .issuer => "Issuer".toList
  | .store => "store".toList
  | .types => "types".toList
  | .query => "query".toList
  | .param => "param".toList

/-- The key belongs to conditions, and not to actions. -/
def isOfCondition : Key → Bool
  | .claimType => true
  | .issuer => true
  | _ => false

/-- What a value under this key says: a text, or the texts of a list. -/
def read (key : Key) (value : List Char) : List String :=
  match key with
  | .types => Action.typesOf value
  | _ => [String.ofList (bare value)]

end Key

/-- What a condition holds under a key. -/
def Condition.held? (condition : Condition) : Key → Option (List String)
  | .claimType => some [condition.claimType]
  | .issuer => some [condition.issuer]
  | _ => none

/-- What an action holds under a key. -/
def Action.held? (action : Action) : Key → Option (List String)
  | .store => action.store.map ([·])
  | .types => action.types
  | .query => action.query.map ([·])
  | .param => action.param.map ([·])
  | _ => none

/-- What a condition or an action holds under the key, as far as there is one. -/
def Key.held? (key : Key) (condition : Option Condition) (action : Option Action) :
    Option (List String) :=
  if key.isOfCondition then condition.bind (·.held? key) else action.bind (·.held? key)

/-- What a rule holds under a key. -/
def Rule.held? (rule : Rule) (key : Key) : Option (List String) :=
  key.held? rule.condition rule.action

/-! ## The last value under a key -/

namespace Argument

/-- Behind an argument with the key, its own value is the last one only if there is no other. -/
theorem lastValue?_append_cons (key value : List Char) (earlier later : List Argument) :
    lastValue? key (earlier ++ .pair key value :: later) =
      some ((lastValue? key later).getD value) := by
  have own : value? key (.pair key value) = some value := if_pos rfl
  rw [lastValue?, List.filterMap_append, List.filterMap_cons_some own, List.getLast?_append,
    List.getLast?_cons, lastValue?]
  rfl

theorem mem_of_lastValue? {key value : List Char} {arguments : List Argument}
    (last : lastValue? key arguments = some value) : .pair key value ∈ arguments := by
  obtain ⟨argument, mem, isValue⟩ := List.mem_filterMap.1 (List.mem_of_getLast? last)
  cases argument with
  | malformed text => cases isValue
  | pair found other =>
      obtain ⟨rfl, same⟩ := Option.ite_none_right_eq_some.1 isValue
      cases same
      exact mem

end Argument

/-! ## Clauses -/

/-- A complete condition holds the last value under each of its keys. -/
theorem Condition.held?_of_ofText? {text : List Char} {condition : Condition} {key : Key}
    (read : Condition.ofText? text = some condition) (known : key.isOfCondition = true) :
    condition.held? key =
      (Argument.lastValue? key.text (Condition.argumentsOf text)).map key.read := by
  rw [Condition.ofText?, Condition.ofArguments?] at read
  split at read
  · next claimType issuer first second =>
      cases read
      cases key with
      | claimType => exact (congrArg (Option.map (Key.read .claimType)) first).symm
      | issuer => exact (congrArg (Option.map (Key.read .issuer)) second).symm
      | store => cases known
      | types => cases known
      | query => cases known
      | param => cases known
  · cases read

/-- An action holds the last value under each of its keys. -/
theorem Action.held?_ofText (text : List Char) {key : Key} (known : key.isOfCondition = false) :
    (Action.ofText text).held? key =
      (Argument.lastValue? key.text (Action.argumentsOf text)).map key.read := by
  cases key with
  | claimType => cases known
  | issuer => cases known
  | types => rfl
  | store => exact Option.map_map _ _ _
  | query => exact Option.map_map _ _ _
  | param => exact Option.map_map _ _ _

namespace Clause

/-- The arguments of a condition or an action. -/
def arguments : Clause → List Argument
  | .condition text => Condition.argumentsOf text
  | .action text => Action.argumentsOf text
  | _ => []

/-- The clause is of the kind that knows the key. -/
def knows : Clause → Key → Bool
  | .condition _, key => key.isOfCondition
  | .action _, key => !key.isOfCondition
  | _, _ => false

/-- What the clause gives its rule under a key, in place of any earlier clause of its kind. -/
def given? : Clause → Key → Option (List String)
  | .condition text, key => (Condition.ofText? text).bind (·.held? key)
  | .action text, key => (Action.ofText text).held? key
  | _, _ => none

variable {clause : Clause} {key : Key}

/-- A clause gives the last value under the key, or it is incomplete and is reported. -/
theorem given?_cases (knows : clause.knows key = true) :
    clause.given? key = (Argument.lastValue? key.text clause.arguments).map key.read ∨
      clause.given? key = none ∧ ∃ piece, piece ∈ clause.unused := by
  cases clause with
  | name value => cases knows
  | template value => cases knows
  | unrecognized text => cases knows
  | action text => exact .inl (Action.held?_ofText text (Bool.not_eq_true' _ ▸ knows))
  | condition text =>
      cases read : Condition.ofText? text with
      | none =>
          refine .inr ⟨by simp [given?, read], (text, .incompleteCondition), ?_⟩
          exact mem_unused_incompleteCondition_iff.2 ⟨rfl, read⟩
      | some condition =>
          have given : (Clause.condition text).given? key = condition.held? key := by
            simp [given?, read]
          exact .inl (given.trans (Condition.held?_of_ofText? read knows))

/-- Whatever a clause gives under a key is the value of an argument with that key. -/
theorem exists_argument_of_given? {values : List String} (knows : clause.knows key = true)
    (given : clause.given? key = some values) :
    ∃ value, .pair key.text value ∈ clause.arguments ∧ values = key.read value := by
  rcases given?_cases knows with last | ⟨none, _⟩
  · rw [last, Option.map_eq_some_iff] at given
    obtain ⟨value, isLast, rfl⟩ := given
    exact ⟨value, Argument.mem_of_lastValue? isLast, rfl⟩
  · rw [none] at given
    cases given

end Clause

namespace Draft

/-- What a draft holds under a key. -/
def held? (draft : Draft) (key : Key) : Option (List String) :=
  key.held? draft.condition draft.action

/-- A clause that knows the key puts what it gives in the place of what was held. -/
theorem held?_add (draft : Draft) (clause : Clause) (key : Key) :
    (draft.add clause).held? key =
      if clause.knows key then clause.given? key else draft.held? key := by
  cases clause with
  | name value => rfl
  | template value => rfl
  | unrecognized text => rfl
  | condition text => cases key <;> rfl
  | action text => cases key <;> rfl

/-- The last of some clauses to know a key decides what is held under it. -/
theorem held?_ofClauses_append (key : Key) (front behind : List Clause) :
    ((∀ other ∈ behind, other.knows key = false) ∧
        (ofClauses (front ++ behind)).held? key = (ofClauses front).held? key) ∨
      ∃ other ∈ behind, other.knows key = true ∧
        (ofClauses (front ++ behind)).held? key = other.given? key := by
  induction behind using List.reverseRecOn with
  | nil => exact .inl ⟨by simp, by rw [List.append_nil]⟩
  | append_singleton behind last ih =>
      rw [← List.append_assoc, ofClauses_append_singleton, held?_add]
      cases knows : last.knows key with
      | true => exact .inr ⟨last, by simp, knows, if_pos rfl⟩
      | false =>
          rw [if_neg Bool.false_ne_true]
          rcases ih with ⟨none, same⟩ | ⟨other, mem, otherKnows, decides⟩
          · refine .inl ⟨fun other mem => ?_, same⟩
            rcases List.mem_append.1 mem with early | isLast
            · exact none other early
            · rw [List.mem_singleton.1 isLast]
              exact knows
          · exact .inr ⟨other, List.mem_append_left _ mem, otherKnows, decides⟩

/-- A templated rule holds what its draft holds. -/
theorem held?_rule {draft : Draft} {template : Template}
    (found : draft.template? = some template) (block : List Char) (key : Key) :
    (draft.rule block).held? key = draft.held? key := by
  rw [rule, found]
  rfl

end Draft

namespace Reading

/-- The unused pieces of a clause are reported under its block and its line. -/
theorem exists_mem_skipped {text : String} {place line : Nat} {block : List Char} {clause : Clause}
    (isBlock : (Block.ofText text.toList)[place]? = some block)
    (templated : (Block.rule block).isCustom = false) (mem : (line, clause) ∈ Block.clauses block)
    (unused : ∃ piece, piece ∈ clause.unused) :
    ∃ diagnostic ∈ (ofText text).skipped, diagnostic.block = place ∧ diagnostic.line = line := by
  obtain ⟨⟨piece, cause⟩, isUnused⟩ := unused
  refine ⟨⟨place, line, String.ofList piece, cause⟩, ?_, rfl, rfl⟩
  exact mem_skipped_iff.2 ⟨block, isBlock, templated, clause, mem, piece, isUnused, rfl⟩

/--
An argument with a known key in a templated block is held by the rule, or its
line is reported, or it is replaced: by a later argument of its clause with the
same key, or by a later clause of its kind.  In that case the rule holds under
the key what is stated further on, or nothing.
-/
theorem held_or_reported_or_replaced {text : String} {place line : Nat} {rule : Rule}
    {block : List Char} {clause : Clause} {before behind : List (Nat × Clause)} {key : Key}
    {value : List Char} {earlier later : List Argument}
    (isRule : (ofText text).set.rules[place]? = some rule) (templated : rule.isCustom = false)
    (isBlock : (Block.ofText text.toList)[place]? = some block)
    (parts : Block.clauses block = before ++ (line, clause) :: behind)
    (knows : clause.knows key = true)
    (stated : clause.arguments = earlier ++ .pair key.text value :: later) :
    rule.held? key = some (key.read value) ∨
      (∃ diagnostic ∈ (ofText text).skipped,
        diagnostic.block = place ∧ diagnostic.line = line) ∨
      ((∃ other, .pair key.text other ∈ later) ∨
          ∃ other ∈ behind.map Prod.snd, other.knows key = true) ∧
        ∀ values ∈ rule.held? key, ∃ other, values = key.read other ∧
          (.pair key.text other ∈ later ∨
            ∃ clause ∈ behind.map Prod.snd, clause.knows key = true ∧
              .pair key.text other ∈ clause.arguments) := by
  have shape : rule = Block.rule block := by
    rw [rules_ofText, List.getElem?_map, isBlock] at isRule
    exact (Option.some.inj isRule).symm
  obtain ⟨_, found⟩ := Block.exists_template?_draft (shape ▸ templated)
  have held : rule.held? key =
      (Draft.ofClauses ((before.map Prod.snd ++ [clause]) ++ behind.map Prod.snd)).held? key := by
    rw [shape, Block.rule, Draft.held?_rule found, Block.draft, parts, List.map_append,
      List.map_cons, List.append_assoc, List.singleton_append]
  rcases Draft.held?_ofClauses_append key (before.map Prod.snd ++ [clause])
    (behind.map Prod.snd) with ⟨_, same⟩ | ⟨other, mem, otherKnows, decides⟩
  · -- no clause further on knows the key, so the clause decides
    have own : rule.held? key = clause.given? key := by
      rw [held, same, Draft.ofClauses_append_singleton, Draft.held?_add, if_pos knows]
    rcases Clause.given?_cases knows with given | ⟨_, unused⟩
    · rw [stated, Argument.lastValue?_append_cons] at given
      cases replaced : Argument.lastValue? key.text later with
      | none =>
          refine .inl ?_
          rw [own, given, replaced]
          rfl
      | some last =>
          have mem := Argument.mem_of_lastValue? replaced
          refine .inr (.inr ⟨.inl ⟨last, mem⟩, fun values isHeld => ⟨last, ?_, .inl mem⟩⟩)
          rw [own, given, replaced] at isHeld
          exact (Option.some.inj isHeld).symm
    · have isClause : (line, clause) ∈ Block.clauses block := by
        rw [parts]
        exact List.mem_append_right _ List.mem_cons_self
      exact .inr (.inl (exists_mem_skipped isBlock (shape ▸ templated) isClause unused))
  · refine .inr (.inr ⟨.inr ⟨other, mem, otherKnows⟩, fun values isHeld => ?_⟩)
    rw [held, decides] at isHeld
    obtain ⟨value, isStated, isRead⟩ := Clause.exists_argument_of_given? otherKnows isHeld
    exact ⟨value, isRead, .inr ⟨other, mem, otherKnows, isStated⟩⟩

/-- A template line, and an action behind a condition. -/
def heldExample : List Char :=
  ("@RuleTemplate = \"t\"\nc:[Type == \"u\", Issuer == \"i\"] " ++
    "=> issue(store = \"s\", param = c);").toList

theorem held_or_reported_or_replaced_heldExample :
    ∃ rule, (ofText (String.ofList heldExample)).set.rules[0]? = some rule ∧
      rule.isCustom = false ∧ rule.held? .store = some ["s"] := by
  have blocks : Block.ofText (String.ofList heldExample).toList = [heldExample] := by
    rw [String.toList_ofList, Block.ofText_eq_ofLines]
    decide +kernel
  have isRule : (ofText (String.ofList heldExample)).set.rules[0]? =
      some (Block.rule heldExample) := by
    rw [rules_ofText, blocks]
    rfl
  have parts : Block.clauses heldExample =
      (Block.clauses heldExample).take 2 ++
        (2, .action "=> issue(store = \"s\", param = c);".toList) :: [] := by
    decide +kernel
  have stated : (Clause.action "=> issue(store = \"s\", param = c);".toList).arguments =
      [] ++ .pair (Key.text .store) " \"s\"".toList :: [.pair "param".toList " c".toList] := by
    decide +kernel
  have templated : (Block.rule heldExample).isCustom = false := by decide +kernel
  have clean : (ofText (String.ofList heldExample)).skipped = [] := by
    rw [skipped_ofText, blocks]
    decide +kernel
  refine ⟨Block.rule heldExample, isRule, templated, ?_⟩
  rcases held_or_reported_or_replaced isRule templated (by rw [blocks]; rfl) parts rfl stated with
    held | ⟨diagnostic, reported, _⟩ | ⟨⟨other, later⟩ | ⟨other, behind, _⟩, _⟩
  · rw [held]
    decide +kernel
  · rw [clean] at reported
    cases reported
  · have sameKey := (Argument.pair.inj (List.mem_singleton.1 later)).1
    exact absurd sameKey (by decide +kernel)
  · cases behind

/-- Two actions, of which only the second one counts. -/
def replacedExample : List Char :=
  "@RuleTemplate = \"t\"\n=> issue(store = \"a\");\n=> issue(query = \"b\");".toList

/-- The store that the first action states is not in the rule, and nothing is reported. -/
theorem replacedExample_not_held :
    Block.ofText replacedExample = [replacedExample] ∧
      (2, .action "=> issue(store = \"a\");".toList) ∈ Block.clauses replacedExample ∧
      (Clause.action "=> issue(store = \"a\");".toList).arguments =
        [.pair (Key.text .store) " \"a\"".toList] ∧
      (ofText (String.ofList replacedExample)).set.rules =
        [{ name := "", template := .other "t", action := some { query := some "b" } }] ∧
      (ofText (String.ofList replacedExample)).skipped = [] := by
  have blocks : Block.ofText replacedExample = [replacedExample] := by
    rw [Block.ofText_eq_ofLines]
    decide +kernel
  refine ⟨blocks, by decide +kernel, by decide +kernel, ?_, ?_⟩
  · rw [rules_ofText, String.toList_ofList, blocks]
    decide +kernel
  · rw [skipped_ofText, String.toList_ofList, blocks]
    decide +kernel

end Reading

end TrustRules
