import TrustRules.Proofs.Block.Clauses
import TrustRules.Proofs.Rule.Values

/-!
# Written statements

Main statements: a well-formed condition and a separable action are read back
from their texts, also when both stand on one line, and their texts leave no
argument unused.  Of the action only its expression can change: it stands in
the text as it is, and it is unwrapped when it is read.
-/

namespace TrustRules

open Text

/-! ## Conditions -/

namespace Condition

/-- Both values of the condition can stand in quotes. -/
structure WellFormed (condition : Condition) : Prop where
  claimType : Quotable condition.claimType.toList
  issuer : Quotable condition.issuer.toList

instance (condition : Condition) : Decidable condition.WellFormed :=
  decidable_of_iff (Quotable condition.claimType.toList ∧ Quotable condition.issuer.toList)
    ⟨fun both => ⟨both.1, both.2⟩, fun wellFormed => ⟨wellFormed.claimType, wellFormed.issuer⟩⟩

theorem complete_of_mem_arguments {condition : Condition} (wellFormed : condition.WellFormed)
    {piece : List Char} (mem : piece ∈ condition.arguments) : Nesting.Complete piece := by
  rw [arguments, List.mem_cons, List.mem_singleton] at mem
  rcases mem with rfl | rfl
  · exact (Nesting.complete_wrapped wellFormed.claimType.1).plain_append (by decide)
  · exact (Nesting.complete_wrapped wellFormed.issuer.1).plain_append (by decide)

theorem solid_of_mem_arguments {condition : Condition} {piece : List Char}
    (mem : piece ∈ condition.arguments) : allBlank piece = false := by
  rw [arguments, List.mem_cons, List.mem_singleton] at mem
  rcases mem with rfl | rfl <;> rfl

/-- The arguments of a condition as they are read back. -/
def pairs (condition : Condition) : List Argument :=
  [.pair "Type".toList (' ' :: wrapped condition.claimType),
    .pair "Issuer".toList (' ' :: wrapped condition.issuer)]

theorem map_ofPiece_arguments (condition : Condition) :
    condition.arguments.map (Argument.ofPiece Mark.equals) = condition.pairs := by
  have typePair := Argument.ofPiece_append ['='] (show '=' ∉ "Type ".toList by decide)
    (' ' :: wrapped condition.claimType)
  have issuerPair := Argument.ofPiece_append ['='] (show '=' ∉ "Issuer ".toList by decide)
    (' ' :: wrapped condition.issuer)
  exact congrArg₂ (fun first second => [first, second]) typePair issuerPair

/-- The text of a condition with these arguments. -/
def textOf (pieces : List (List Char)) : List Char :=
  Mark.condition ++ Mark.separator.intercalate pieces ++ Mark.conditionEnd

theorem text_eq_textOf (condition : Condition) : condition.text = textOf condition.arguments := rfl

theorem argumentsOf_textOf {pieces : List (List Char)}
    (apart : Nesting.topLevel (Mark.separator.intercalate pieces) = pieces) :
    argumentsOf (textOf pieces) = pieces.map (Argument.ofPiece Mark.equals) := by
  have content : dropClosing Mark.conditionEnd (dropOpening Mark.condition (textOf pieces)) =
      Mark.separator.intercalate pieces :=
    dropClosing_dropOpening_append Mark.condition _ Mark.conditionEnd
  rw [argumentsOf, Argument.ofList, content, apart]

theorem argumentsOf_text {condition : Condition} (wellFormed : condition.WellFormed) :
    argumentsOf condition.text = condition.pairs := by
  have apart : Nesting.topLevel (Mark.separator.intercalate condition.arguments) =
      condition.arguments :=
    Nesting.topLevel_of_complete (fun _ mem => complete_of_mem_arguments wellFormed mem)
      fun _ mem => solid_of_mem_arguments mem
  rw [text_eq_textOf, argumentsOf_textOf apart, map_ofPiece_arguments]

/-- A well-formed condition is read back from its text. -/
theorem ofText?_text {condition : Condition} (wellFormed : condition.WellFormed) :
    ofText? condition.text = some condition := by
  have claimType := bare_blank_cons_wrapped wellFormed.claimType.bare.2
  have issuer := bare_blank_cons_wrapped wellFormed.issuer.bare.2
  calc ofText? condition.text
      = ofArguments? condition.pairs := by rw [ofText?, argumentsOf_text wellFormed]
    _ = some ⟨String.ofList (bare (' ' :: wrapped condition.claimType)),
          String.ofList (bare (' ' :: wrapped condition.issuer))⟩ := rfl
    _ = some condition := by rw [claimType, issuer]

theorem unused_text {condition : Condition} (wellFormed : condition.WellFormed) :
    (Clause.condition condition.text).unused = [] := by
  rw [Clause.unused, argumentsOf_text wellFormed, ofText?_text wellFormed]
  rfl

/-- The texts that a condition holds. -/
def strings (condition : Condition) : List String :=
  [condition.claimType, condition.issuer]

/-- A written condition breaks a line only where one of its texts does. -/
theorem not_mem_text_of_strings {condition : Condition} {c : Char}
    (breaks : Header.isLineBreak c = true) (free : ∀ s ∈ condition.strings, c ∉ s.toList) :
    c ∉ condition.text := by
  have wording {fixed : List Char} (single : fixed.any Header.isLineBreak = false) : c ∉ fixed :=
    not_mem_of_breaks breaks single
  refine not_mem_between breaks (wording rfl) (wording rfl) fun piece mem => ?_
  rw [arguments, List.mem_cons, List.mem_singleton] at mem
  rcases mem with rfl | rfl
  · exact List.not_mem_append (wording rfl)
      (not_mem_wrapped breaks (free _ List.mem_cons_self))
  · exact List.not_mem_append (wording rfl)
      (not_mem_wrapped breaks (free _ (List.mem_cons_of_mem _ List.mem_cons_self)))

theorem not_mem_text {condition : Condition} (wellFormed : condition.WellFormed) :
    '\n' ∉ condition.text := by
  refine not_mem_text_of_strings rfl fun s mem => ?_
  rw [strings, List.mem_cons, List.mem_singleton] at mem
  rcases mem with rfl | rfl
  · exact wellFormed.claimType.2.1
  · exact wellFormed.issuer.2.1

theorem throughUnquoted_of_mem_arguments {condition : Condition}
    (wellFormed : condition.WellFormed) {piece : List Char} (mem : piece ∈ condition.arguments) :
    throughUnquoted ']' false piece = none := by
  have quote : (']' : Char) ≠ '"' := by decide
  have one {key : List Char} {value : String} (free : ']' ∉ key) (plain : '"' ∉ key)
      (unquoted : '"' ∉ value.toList) :
      throughUnquoted ']' false (key ++ wrapped value) = none := by
    have passed := throughUnquoted_wrapped_append quote unquoted []
    rw [throughUnquoted_append_of_free free plain, wrapped, passed]
    rfl
  rw [arguments, List.mem_cons, List.mem_singleton] at mem
  rcases mem with rfl | rfl
  · exact one (by decide) (by decide) wellFormed.claimType.1
  · exact one (by decide) (by decide) wellFormed.issuer.1

/-- The first unquoted bracket of a condition is the one that ends it. -/
theorem throughUnquoted_textOf {pieces : List (List Char)}
    (closed : ∀ piece ∈ pieces, Nesting.outer.after piece = .outer)
    (free : ∀ piece ∈ pieces, throughUnquoted ']' false piece = none) (rest : List Char) :
    throughUnquoted ']' false (textOf pieces ++ rest) = some (textOf pieces, rest) := by
  have stop : throughUnquoted ']' false (Mark.conditionEnd ++ rest) =
      some (Mark.conditionEnd, rest) := rfl
  rw [textOf, List.append_assoc, List.append_assoc,
    throughUnquoted_append_of_free (by decide) (by decide),
    throughUnquoted_intercalate (by decide) closed free, stop]
  simp

theorem throughUnquoted_text {condition : Condition} (wellFormed : condition.WellFormed)
    (rest : List Char) :
    throughUnquoted ']' false (condition.text ++ rest) = some (condition.text, rest) :=
  throughUnquoted_textOf (fun _ mem => (complete_of_mem_arguments wellFormed mem).closed)
    (fun _ mem => throughUnquoted_of_mem_arguments wellFormed mem) rest

theorem firm_textOf (pieces : List (List Char)) : Firm isBlank (textOf pieces) :=
  Firm.append_append (by decide) (by decide) (by decide) (by decide) _

theorem firm_text (condition : Condition) : Firm isBlank condition.text :=
  firm_textOf condition.arguments

end Condition

/-! ## Actions -/

namespace Action

/-- The other values can stand in quotes, and the expression is one argument within its line. -/
structure Separable (action : Action) : Prop extends action.Quoted Quotable where
  param : ∀ value ∈ action.param, '\n' ∉ value.toList ∧ Nesting.outer.Joined value.toList

instance (action : Action) : Decidable action.Separable :=
  decidable_of_iff
    (action.Quoted Quotable ∧
      ∀ value ∈ action.param, '\n' ∉ value.toList ∧ Nesting.outer.Joined value.toList)
    ⟨fun ⟨quoted, param⟩ => ⟨quoted, param⟩,
      fun separable => ⟨separable.toQuoted, separable.param⟩⟩

/-- A separable action whose expression has neither a blank nor a double quote at its ends. -/
structure WellFormed (action : Action) : Prop extends action.Separable where
  firm : ∀ value ∈ action.param, Firm isWrapping value.toList

instance (action : Action) : Decidable action.WellFormed :=
  decidable_of_iff
    (action.Separable ∧ ∀ value ∈ action.param, Firm isWrapping value.toList)
    ⟨fun ⟨separable, firm⟩ => ⟨separable, firm⟩,
      fun wellFormed => ⟨wellFormed.toSeparable, wellFormed.firm⟩⟩

/-- The action with its expression stripped of the blanks and double quotes at its ends. -/
def unwrapped (action : Action) : Action :=
  { action with param := action.param.map fun value => String.ofList (bare value.toList) }

/-- An expression is kept exactly if neither a blank nor a double quote is at its ends. -/
theorem unwrapped_eq_self_iff {action : Action} :
    action.unwrapped = action ↔ ∀ value ∈ action.param, Firm isWrapping value.toList := by
  obtain ⟨store, types, query, param⟩ := action
  cases param with
  | none => simp [unwrapped]
  | some value => simp [unwrapped, ofList_bare_eq_iff]

/-- The arguments of an action as they are read back. -/
def pairs (action : Action) : List Argument :=
  ((action.store.map fun store => ' ' :: wrapped store).map
      (Argument.pair "store".toList)).toList ++
    ((action.types.map fun types => ' ' :: typesText types).map
      (Argument.pair "types".toList)).toList ++
    ((action.query.map fun query => ' ' :: wrapped query).map
      (Argument.pair "query".toList)).toList ++
    ((action.param.map fun param => ' ' :: param.toList).map
      (Argument.pair "param".toList)).toList

/-- The arguments in front of the expression, which all are complete. -/
def quotedArguments (action : Action) : List (List Char) :=
  (action.store.map fun store => "store = ".toList ++ wrapped store).toList ++
    (action.types.map fun types => "types = ".toList ++ typesText types).toList ++
    (action.query.map fun query => "query = ".toList ++ wrapped query).toList

theorem complete_of_mem_quotedArguments {action : Action} (quoted : action.Quoted Quotable)
    {piece : List Char} (mem : piece ∈ action.quotedArguments) : Nesting.Complete piece := by
  simp only [quotedArguments, List.mem_append, Option.mem_toList, Option.map_eq_some_iff] at mem
  rcases mem with (⟨store, isStore, rfl⟩ | ⟨types, isTypes, rfl⟩) | ⟨query, isQuery, rfl⟩
  · exact (Nesting.complete_wrapped (quoted.store store isStore).1).plain_append (by decide)
  · refine Nesting.Complete.plain_append (Nesting.complete_typesText ?_) (by decide)
    exact fun type mem => (quoted.types types isTypes type mem).1
  · exact (Nesting.complete_wrapped (quoted.query query isQuery).1).plain_append (by decide)

theorem arguments_eq (action : Action) :
    action.arguments = action.quotedArguments ++
      (action.param.map fun param => "param = ".toList ++ param.toList).toList := rfl

theorem solid_of_mem_arguments {action : Action} {piece : List Char}
    (mem : piece ∈ action.arguments) : allBlank piece = false := by
  simp only [arguments, List.mem_append, Option.mem_toList, Option.map_eq_some_iff] at mem
  rcases mem with ((⟨_, _, rfl⟩ | ⟨_, _, rfl⟩) | ⟨_, _, rfl⟩) | ⟨_, _, rfl⟩ <;> rfl

/-- The written arguments are cut apart again. -/
theorem topLevel_arguments {action : Action} (separable : action.Separable) :
    Nesting.topLevel (Mark.separator.intercalate action.arguments) = action.arguments := by
  refine Nesting.topLevel_intercalate ?_ ?_ fun piece mem => solid_of_mem_arguments mem
  · intro piece mem
    rw [arguments_eq, List.mem_append] at mem
    rcases mem with quoted | last
    · exact (complete_of_mem_quotedArguments separable.toQuoted quoted).joined
    · rw [Option.mem_toList, Option.map_eq_some_iff] at last
      obtain ⟨param, isParam, rfl⟩ := last
      obtain ⟨_, joined⟩ := Nesting.scan_plain Nesting.outer
        (show ∀ c ∈ "param = ".toList, Nesting.isPlain c = true by decide) param.toList
      exact joined.2 (separable.param param isParam).2
  · intro piece mem
    -- the expression comes last, so what it leaves open does not matter
    have quoted : piece ∈ action.quotedArguments := by
      rw [arguments_eq] at mem
      cases last : action.param with
      | none =>
          rw [last] at mem
          simpa using List.dropLast_subset _ mem
      | some param =>
          rw [last] at mem
          simpa using mem
    exact (complete_of_mem_quotedArguments separable.toQuoted quoted).closed

theorem map_ofPiece_arguments (action : Action) :
    action.arguments.map (Argument.ofPiece Mark.assigns) = action.pairs := by
  have field {Value : Type} (key : List Char) (free : '=' ∉ key) (print : Value → List Char)
      (value : Option Value) :
      ((value.map fun given => key ++ (Mark.assigns ++ ' ' :: print given)).toList).map
          (Argument.ofPiece Mark.assigns) =
        ((value.map fun given => ' ' :: print given).map (Argument.pair (trim key))).toList := by
    cases value with
    | none => rfl
    | some given =>
        exact congrArg (fun pair => [pair]) (Argument.ofPiece_append [] free (' ' :: print given))
  have store := field "store ".toList (by decide) wrapped action.store
  have types := field "types ".toList (by decide) typesText action.types
  have query := field "query ".toList (by decide) wrapped action.query
  have param := field "param ".toList (by decide) String.toList action.param
  rw [arguments, pairs, List.map_append, List.map_append, List.map_append]
  exact congrArg₂ (· ++ ·) (congrArg₂ (· ++ ·) (congrArg₂ (· ++ ·) store types) query) param

/-- The text of an action with these arguments. -/
def textOf (pieces : List (List Char)) : List Char :=
  Mark.action ++ Mark.separator.intercalate pieces ++ Mark.actionEnd

theorem text_eq_textOf (action : Action) : action.text = textOf action.arguments := rfl

theorem argumentsOf_textOf {pieces : List (List Char)}
    (apart : Nesting.topLevel (Mark.separator.intercalate pieces) = pieces) :
    argumentsOf (textOf pieces) = pieces.map (Argument.ofPiece Mark.assigns) := by
  have content : dropClosing Mark.actionEnd (dropOpening Mark.action (textOf pieces)) =
      Mark.separator.intercalate pieces :=
    dropClosing_dropOpening_append Mark.action _ Mark.actionEnd
  rw [argumentsOf, Argument.ofList, content, apart]

theorem argumentsOf_text {action : Action} (separable : action.Separable) :
    argumentsOf action.text = action.pairs := by
  rw [text_eq_textOf, argumentsOf_textOf (topLevel_arguments separable), map_ofPiece_arguments]

/-- A list of types is read back from its text. -/
theorem typesOf_typesText {types : List String}
    (quotable : ∀ type ∈ types, Quotable type.toList) :
    typesOf (' ' :: typesText types) = types := by
  have core : trim (' ' :: typesText types) = typesText types :=
    strip_cons (by decide) (Firm.append_append (by decide) (by decide) (by decide) (by decide) _)
  have content : dropClosing Mark.typesEnd (dropOpening Mark.typesStart (typesText types)) =
      Mark.separator.intercalate (types.map wrapped) :=
    dropClosing_dropOpening_append Mark.typesStart _ Mark.typesEnd
  have complete : ∀ piece ∈ types.map wrapped, Nesting.Complete piece := by
    intro piece mem
    obtain ⟨type, isType, rfl⟩ := List.mem_map.1 mem
    exact Nesting.complete_wrapped (quotable type isType).1
  have solid : ∀ piece ∈ types.map wrapped, allBlank piece = false := by
    intro piece mem
    obtain ⟨type, _, rfl⟩ := List.mem_map.1 mem
    rfl
  rw [typesOf, core, content]
  cases types with
  | nil => rfl
  | cons type rest =>
      have some : allBlank (Mark.separator.intercalate ((type :: rest).map wrapped)) = false := by
        rw [List.map_cons]
        cases rest <;> rfl
      rw [some, if_neg Bool.false_ne_true,
        Nesting.topLevel_of_complete complete solid, List.map_map]
      refine (List.map_congr_left fun other mem => ?_).trans (List.map_id _)
      exact bare_append_wrapped [] (by decide) (quotable other mem).bare.2

/-- Of the arguments of a written action each key finds its own. -/
theorem lastValue?_pairs (action : Action) (key : List Char) :
    Argument.lastValue? key action.pairs =
      ((if "store".toList = key then
          (action.store.map fun store => ' ' :: wrapped store).toList else []) ++
        (if "types".toList = key then
          (action.types.map fun types => ' ' :: typesText types).toList else []) ++
        (if "query".toList = key then
          (action.query.map fun query => ' ' :: wrapped query).toList else []) ++
        (if "param".toList = key then
          (action.param.map fun param => ' ' :: param.toList).toList else [])).getLast? := by
  simp only [Argument.lastValue?, pairs, List.filterMap_append, Argument.filterMap_value?_toList]

/-- A separable action is read back from its text, with its expression unwrapped. -/
theorem ofText_text {action : Action} (separable : action.Separable) :
    ofText action.text = action.unwrapped := by
  have store : Argument.lastValue? "store".toList action.pairs =
      action.store.map fun store => ' ' :: wrapped store := by
    rw [lastValue?_pairs]
    cases action.store <;> rfl
  have types : Argument.lastValue? "types".toList action.pairs =
      action.types.map fun types => ' ' :: typesText types := by
    rw [lastValue?_pairs]
    cases action.types <;> rfl
  have query : Argument.lastValue? "query".toList action.pairs =
      action.query.map fun query => ' ' :: wrapped query := by
    rw [lastValue?_pairs]
    cases action.query <;> rfl
  have param : Argument.lastValue? "param".toList action.pairs =
      action.param.map fun param => ' ' :: param.toList := by
    rw [lastValue?_pairs]
    cases action.param <;> rfl
  have same {Value : Type} {field : Option Value} {read : Value → Value}
      (back : ∀ value ∈ field, read value = value) : field.map read = field := by
    cases field with
    | none => rfl
    | some value => exact congrArg some (back value rfl)
  have quoted : ∀ value : String, Quotable value.toList →
      ((String.ofList ∘ bare) ∘ fun value => ' ' :: wrapped value) value = value :=
    fun value quotable => bare_blank_cons_wrapped quotable.bare.2
  have storeBack := same fun value mem => quoted value (separable.store value mem)
  have queryBack := same fun value mem => quoted value (separable.query value mem)
  have typesBack : action.types.map (typesOf ∘ fun types => ' ' :: typesText types) =
      action.types := same fun list mem => typesOf_typesText (separable.types list mem)
  have paramBack : ((String.ofList ∘ bare) ∘ fun param : String => ' ' :: param.toList) =
      fun param => String.ofList (bare param.toList) :=
    funext fun param => congrArg String.ofList (bare_blank_cons param.toList)
  rw [ofText, argumentsOf_text separable, ofArguments, store, types, query, param]
  simp only [Option.map_map]
  rw [storeBack, typesBack, queryBack, paramBack, unwrapped]

theorem unused_text {action : Action} (separable : action.Separable) :
    (Clause.action action.text).unused = [] := by
  rw [Clause.unused, argumentsOf_text separable, pairs, Clause.malformed]
  cases action.store <;> cases action.types <;> cases action.query <;> cases action.param <;> rfl

/-- The texts that an action holds. -/
def strings (action : Action) : List String :=
  action.store.toList ++ action.types.getD [] ++ action.query.toList ++ action.param.toList

/-- A written action breaks a line only where one of its texts does. -/
theorem not_mem_text_of_strings {action : Action} {c : Char}
    (breaks : Header.isLineBreak c = true) (free : ∀ s ∈ action.strings, c ∉ s.toList) :
    c ∉ action.text := by
  have wording {fixed : List Char} (single : fixed.any Header.isLineBreak = false) : c ∉ fixed :=
    not_mem_of_breaks breaks single
  refine not_mem_between breaks (wording rfl) (wording rfl) fun piece mem => ?_
  -- every argument is a key and a value, and neither breaks a line
  simp only [strings, List.mem_append, Option.mem_toList, or_imp, forall_and] at free
  obtain ⟨⟨⟨inStore, inTypes⟩, inQuery⟩, inParam⟩ := free
  simp only [arguments, List.mem_append, Option.mem_toList, Option.map_eq_some_iff] at mem
  rcases mem with ((⟨store, isStore, rfl⟩ | ⟨types, isTypes, rfl⟩) | ⟨query, isQuery, rfl⟩) |
    ⟨param, isParam, rfl⟩
  · exact List.not_mem_append (wording rfl) (not_mem_wrapped breaks (inStore store isStore))
  · rw [isTypes] at inTypes
    refine List.not_mem_append (wording rfl)
      (not_mem_between breaks (wording rfl) (wording rfl) fun value isValue => ?_)
    obtain ⟨type, isType, rfl⟩ := List.mem_map.1 isValue
    exact not_mem_wrapped breaks (inTypes type isType)
  · exact List.not_mem_append (wording rfl) (not_mem_wrapped breaks (inQuery query isQuery))
  · exact List.not_mem_append (wording rfl) (inParam param isParam)

theorem not_mem_text {action : Action} (separable : action.Separable) :
    '\n' ∉ action.text := by
  refine not_mem_text_of_strings rfl fun s mem => ?_
  simp only [strings, List.mem_append, Option.mem_toList] at mem
  rcases mem with ((isStore | isType) | isQuery) | isParam
  · exact (separable.store s isStore).2.1
  · cases isTypes : action.types with
    | none =>
        rw [isTypes] at isType
        cases isType
    | some types =>
        rw [isTypes] at isType
        exact (separable.types types isTypes s isType).2.1
  · exact (separable.query s isQuery).2.1
  · exact (separable.param s isParam).1

theorem firm_textOf (pieces : List (List Char)) : Firm isBlank (textOf pieces) :=
  Firm.append_append (by decide) (by decide) (by decide) (by decide) _

theorem firm_text (action : Action) : Firm isBlank action.text :=
  firm_textOf action.arguments

end Action

/-! ## The line of a statement -/

namespace Clause

theorem ofTrimmed_action (action : Action) : ofTrimmed action.text = [.action action.text] := rfl

theorem ofTail_action (action : Action) : ofTail action.text = [.action action.text] := rfl

/-- A condition that its first unquoted bracket ends, with more behind it on its line. -/
theorem ofTrimmed_textOf {pieces : List (List Char)} {rest : List Char}
    (ended : throughUnquoted ']' false (Condition.textOf pieces ++ rest) =
      some (Condition.textOf pieces, rest)) :
    ofTrimmed (Condition.textOf pieces ++ rest) =
      .condition (Condition.textOf pieces) :: ofTail (trim rest) := by
  have isCondition : ofTrimmed (Condition.textOf pieces ++ rest) =
      ofConditionLine (Condition.textOf pieces ++ rest) := rfl
  rw [isCondition, ofConditionLine, ended]

/-- A condition with a written action or nothing behind it on its line. -/
theorem ofTrimmed_condition {condition : Condition} (wellFormed : condition.WellFormed)
    (rest : List Char) :
    ofTrimmed (condition.text ++ rest) = .condition condition.text :: ofTail (trim rest) :=
  ofTrimmed_textOf (Condition.throughUnquoted_text wellFormed rest)

/-- The clauses of the line on which a rule's condition and action stand. -/
theorem ofText_statement {rule : Rule}
    (condition : ∀ stated ∈ rule.condition, stated.WellFormed)
    (action : ∀ stated ∈ rule.action, stated.Separable) :
    ofText rule.statement =
      (rule.condition.map fun stated => Clause.condition stated.text).toList ++
        (rule.action.map fun stated => Clause.action stated.text).toList := by
  cases hasCondition : rule.condition with
  | none =>
      cases hasAction : rule.action with
      | none =>
          rw [Rule.statement, hasCondition, hasAction]
          rfl
      | some issued =>
          have whole : rule.statement = issued.text := by
            rw [Rule.statement, hasCondition, hasAction]
            rfl
          rw [whole, ofText_of_not_mem (Action.not_mem_text (action issued hasAction)),
            ofLine_of_firm (Action.firm_text issued) rfl, ofTrimmed_action]
          rfl
  | some stated =>
      have wellFormed := condition stated hasCondition
      cases hasAction : rule.action with
      | none =>
          have blank : ∀ c ∈ [' '], isBlank c = true := by decide
          have whole : rule.statement = stated.text ++ [' '] := by
            rw [Rule.statement, hasCondition, hasAction, List.append_nil]
          have single : '\n' ∉ stated.text ++ [' '] := by
            simp [Condition.not_mem_text wellFormed]
          have alone := ofTrimmed_condition wellFormed []
          rw [List.append_nil] at alone
          rw [whole, ofText_of_not_mem single, ofLine_append_of_blank blank,
            ofLine_of_firm (Condition.firm_text stated) rfl, alone]
          rfl
      | some issued =>
          have whole : rule.statement = stated.text ++ ' ' :: issued.text := by
            rw [Rule.statement, hasCondition, hasAction]
            simp
          have single : '\n' ∉ stated.text ++ ' ' :: issued.text := by
            simp [Condition.not_mem_text wellFormed,
              Action.not_mem_text (action issued hasAction)]
          have firm : Firm isBlank (stated.text ++ [' '] ++ issued.text) :=
            (Condition.firm_text stated).append_append (Action.firm_text issued)
              (List.cons_ne_nil _ _) (List.cons_ne_nil _ _) [' ']
          rw [List.append_assoc, List.singleton_append] at firm
          have behind : trim (' ' :: issued.text) = issued.text :=
            strip_cons (by decide) (Action.firm_text issued)
          rw [whole, ofText_of_not_mem single, ofLine_of_firm firm rfl,
            ofTrimmed_condition wellFormed, behind, ofTail_action]
          rfl

/-- The statement of a rule holds its condition and its action and no other clause. -/
theorem filterMap_statement {rule : Rule}
    (condition : ∀ stated ∈ rule.condition, stated.WellFormed)
    (action : ∀ stated ∈ rule.action, stated.Separable) :
    (ofText rule.statement).filterMap name? = [] ∧
      (ofText rule.statement).filterMap template? = [] ∧
      (ofText rule.statement).filterMap condition? =
        (rule.condition.map Condition.text).toList ∧
      (ofText rule.statement).filterMap action? = (rule.action.map Action.text).toList := by
  rw [ofText_statement condition action]
  cases rule.condition with
  | none =>
      cases rule.action with
      | none => exact ⟨rfl, rfl, rfl, rfl⟩
      | some issued => exact ⟨rfl, rfl, rfl, rfl⟩
  | some stated =>
      cases rule.action with
      | none => exact ⟨rfl, rfl, rfl, rfl⟩
      | some issued => exact ⟨rfl, rfl, rfl, rfl⟩

end Clause

end TrustRules
