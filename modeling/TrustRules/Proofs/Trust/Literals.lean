import TrustRules.Command

/-!
# Literals of a command

A shell scans a command from left to right.  Outside of literals a quote opens
one; inside, two quotes stand for one and a lone quote closes it.  Main
statement: whatever the trust and the rules are, the scan of a command ends
outside of literals, the literals that it finds are just the ones that were
put in, and what stands outside of them is always the same.
-/

namespace TrustRules

open Text

namespace Command

/-! ## Scanning -/

/-- Where a scan stands. -/
inductive Place where
  | outside
  | inside
  /-- Behind a quote in a literal, which closes it unless a second one follows. -/
  | quote
  deriving DecidableEq, Repr

/-- A part of a command: a text outside of literals, or the text of a literal. -/
inductive Part where
  | bare (text : List Char)
  | literal (text : List Char)
  deriving DecidableEq, Repr

namespace Part

/-- The part with more text in front. -/
def prepend (front : List Char) : Part → Part
  | .bare text => .bare (front ++ text)
  | .literal text => .literal (front ++ text)

/-- The text of a literal. -/
def literal? : Part → Option String
  | .bare _ => none
  | .literal text => some (String.ofList text)

/-- The text outside of literals. -/
def bare? : Part → Option String
  | .bare text => some (String.ofList text)
  | .literal _ => none

end Part

/-- Put more text in front of the first of some parts. -/
def prepend (front : List Char) (parts : List Part) : List Part :=
  parts.modifyHead (.prepend front)

theorem prepend_nil (parts : List Part) : prepend [] parts = parts := by
  cases parts with
  | nil => rfl
  | cons part rest => cases part <;> rfl

theorem prepend_prepend (front text : List Char) (parts : List Part) :
    prepend front (prepend text parts) = prepend (front ++ text) parts := by
  cases parts with
  | nil => rfl
  | cons part rest => cases part <;> simp [prepend, Part.prepend]

/--
The parts of what is left of a command, the first of which the scan is already
in.  There is no result for a literal that is never closed.
-/
def partsFrom : Place → List Char → Option (List Part)
  | .outside, [] => some [.bare []]
  | .outside, c :: rest =>
      if c = '\'' then (partsFrom .inside rest).map (.bare [] :: ·)
      else (partsFrom .outside rest).map (prepend [c])
  | .inside, [] => none
  | .inside, c :: rest =>
      if c = '\'' then partsFrom .quote rest
      else (partsFrom .inside rest).map (prepend [c])
  | .quote, [] => some [.literal [], .bare []]
  | .quote, c :: rest =>
      if c = '\'' then (partsFrom .inside rest).map (prepend [c])
      else (partsFrom .outside rest).map fun parts => .literal [] :: prepend [c] parts

/-- The parts of a command, if its scan ends outside of literals. -/
def parts? (command : String) : Option (List Part) :=
  partsFrom .outside command.toList

/-- The literals of a command. -/
def literals? (command : String) : Option (List String) :=
  (parts? command).map (·.filterMap Part.literal?)

/-- What stands in front of, between and behind the literals of a command. -/
def surroundings? (command : String) : Option (List String) :=
  (parts? command).map (·.filterMap Part.bare?)

theorem map_prepend_cons (c : Char) (front : List Char) (parts : Option (List Part)) :
    (parts.map (prepend front)).map (prepend [c]) = parts.map (prepend (c :: front)) := by
  rw [Option.map_map]
  exact congrArg (Option.map · parts) (funext (prepend_prepend [c] front))

theorem map_prepend_nil (parts : Option (List Part)) : parts.map (prepend []) = parts := by
  rw [funext prepend_nil, Option.map_id']

/-- Outside of literals, a text without quotes goes to the part that the scan is in. -/
theorem partsFrom_outside_append {front : List Char} (unquoted : '\'' ∉ front)
    (rest : List Char) :
    partsFrom .outside (front ++ rest) = (partsFrom .outside rest).map (prepend front) := by
  induction front with
  | nil => rw [List.nil_append, map_prepend_nil]
  | cons c front ih =>
      rw [List.mem_cons, not_or] at unquoted
      rw [List.cons_append, partsFrom, if_neg (Ne.symm unquoted.1), ih unquoted.2,
        map_prepend_cons]

/-- Inside a literal, a doubled text goes to the literal as it was, whatever quotes it holds. -/
theorem partsFrom_inside_double_append (text rest : List Char) :
    partsFrom .inside (Quoted.double text ++ rest) =
      (partsFrom .inside rest).map (prepend text) := by
  induction text with
  | nil => rw [Quoted.double, List.nil_append, map_prepend_nil]
  | cons c text ih =>
      by_cases quote : c = '\''
      · rw [Quoted.double, if_pos quote, List.cons_append, List.cons_append, partsFrom,
          if_pos rfl, partsFrom, if_pos rfl, ih, map_prepend_cons, quote]
      · rw [Quoted.double, if_neg quote, List.cons_append, partsFrom, if_neg quote, ih,
          map_prepend_cons]

/-- Behind a quote that no other follows, the literal is closed. -/
theorem partsFrom_quote {rest : List Char} (closed : rest.head? ≠ some '\'') :
    partsFrom .quote rest = (partsFrom .outside rest).map (.literal [] :: ·) := by
  cases rest with
  | nil => rfl
  | cons c rest =>
      have other : c ≠ '\'' := fun quote => closed (congrArg some quote)
      rw [partsFrom, if_neg other, partsFrom, if_neg other, Option.map_map]
      rfl

/-- A literal that no quote follows is a part with just its text. -/
theorem partsFrom_encode_append (text : List Char) {rest : List Char}
    (closed : rest.head? ≠ some '\'') :
    partsFrom .outside (Quoted.encode text ++ rest) =
      (partsFrom .outside rest).map ([.bare [], .literal text] ++ ·) := by
  have inside : partsFrom .inside (Quoted.double text ++ '\'' :: rest) =
      (partsFrom .outside rest).map (.literal text :: ·) := by
    rw [partsFrom_inside_double_append, partsFrom, if_pos rfl, partsFrom_quote closed,
      Option.map_map]
    refine congrArg (Option.map · _) (funext fun parts => ?_)
    rw [Function.comp_apply, prepend, List.modifyHead_cons, Part.prepend, List.append_nil]
  have shape : Quoted.encode text ++ rest = '\'' :: (Quoted.double text ++ '\'' :: rest) := by
    rw [Quoted.encode, List.cons_append, List.cons_append, List.append_assoc,
      List.singleton_append]
  rw [shape, partsFrom, if_pos rfl, inside, Option.map_map]
  rfl

/-! ## Commands that are put together -/

/-- A text outside of literals, and literals with the texts behind them. -/
def assembled (front : List Char) (literals : List (List Char × List Char)) : List Char :=
  front ++ literals.flatMap fun literal => Quoted.encode literal.1 ++ literal.2

/-- The parts from which a command is put together. -/
def partsOf (front : List Char) (literals : List (List Char × List Char)) : List Part :=
  .bare front :: literals.flatMap fun literal => [.literal literal.1, .bare literal.2]

/-- Literals are found again if no quotes stand around them and something stands between them. -/
theorem partsFrom_assembled {front : List Char} {literals : List (List Char × List Char)}
    (unquoted : '\'' ∉ front) (free : ∀ literal ∈ literals, '\'' ∉ literal.2)
    (apart : ∀ literal ∈ literals.dropLast, literal.2 ≠ []) :
    partsFrom .outside (assembled front literals) = some (partsOf front literals) := by
  induction literals generalizing front with
  | nil =>
      rw [assembled, partsFrom_outside_append unquoted]
      exact congrArg (fun text => some [Part.bare text]) (List.append_nil front)
  | cons literal literals ih =>
      obtain ⟨text, behind⟩ := literal
      obtain ⟨behindFree, others⟩ := List.forall_mem_cons.1 free
      have apartLater : ∀ literal ∈ literals.dropLast, literal.2 ≠ [] := by
        intro literal mem
        cases literals with
        | nil => cases mem
        | cons next literals => exact apart literal (List.mem_cons_of_mem _ mem)
      have later := ih behindFree others apartLater
      have closed : (assembled behind literals).head? ≠ some '\'' := by
        cases behind with
        | nil =>
            cases literals with
            | nil => rintro ⟨⟩
            | cons next literals => exact absurd rfl (apart (text, []) List.mem_cons_self)
        | cons c behind =>
            intro quote
            exact behindFree (Option.some.inj quote ▸ List.mem_cons_self)
      have shape : assembled front ((text, behind) :: literals) =
          front ++ (Quoted.encode text ++ assembled behind literals) := by
        rw [assembled, List.flatMap_cons, assembled, List.append_assoc]
      rw [shape, partsFrom_outside_append unquoted, partsFrom_encode_append text closed, later]
      exact congrArg (fun text => some (Part.bare text :: _)) (List.append_nil front)

theorem filterMap_literal?_partsOf (front : List Char)
    (literals : List (List Char × List Char)) :
    (partsOf front literals).filterMap Part.literal? =
      literals.map fun literal => String.ofList literal.1 := by
  rw [partsOf, List.filterMap_cons_none rfl, List.filterMap_flatMap, List.map_eq_flatMap]
  rfl

theorem filterMap_bare?_partsOf (front : List Char)
    (literals : List (List Char × List Char)) :
    (partsOf front literals).filterMap Part.bare? =
      String.ofList front :: literals.map fun literal => String.ofList literal.2 := by
  have first : Part.bare? (.bare front) = some (String.ofList front) := rfl
  rw [partsOf, List.filterMap_cons_some first, List.filterMap_flatMap, List.map_eq_flatMap]
  rfl

/-! ## The two commands -/

/-- What stands behind the name in the command that reads, up to the next literal. -/
def readOnward : List Char :=
  "; if ($trust) \x7b return @\x7b ".toList

/-- The literals between the two names in the command that reads, with the texts behind them. -/
def readBetween : List (List Char × List Char) :=
  [("name".toList, " = $trust.Name; ".toList),
    (rulesKey.toList, " = $trust.IssuanceTransformRules \x7d \x7d else \x7b throw (".toList),
    ("Relying party trust not found: ".toList, " + ".toList)]

theorem toList_apply (trust rules : String) :
    (apply trust rules).toList =
      assembled applyOpening [(trust.toList, applyMiddle), (rules.toList, [])] := by
  rw [apply, String.toList_ofList]
  simp only [assembled, argument, List.flatMap_cons, List.flatMap_nil, List.append_assoc,
    List.append_nil]

theorem toList_read (trust : String) :
    (read trust).toList = assembled readOpening
      ((trust.toList, readOnward) :: readBetween ++ [(trust.toList, readClosing)]) := by
  have middle : readMiddle = assembled readOnward readBetween := by decide +kernel
  rw [read, String.toList_ofList, middle]
  simp only [assembled, argument, List.cons_append, List.flatMap_cons, List.flatMap_append,
    List.flatMap_nil, List.append_assoc, List.append_nil]

theorem parts?_apply (trust rules : String) :
    parts? (apply trust rules) =
      some (partsOf applyOpening [(trust.toList, applyMiddle), (rules.toList, [])]) := by
  have middle : '\'' ∉ applyMiddle := by decide +kernel
  rw [parts?, toList_apply]
  refine partsFrom_assembled (by decide +kernel) ?_ ?_
  · exact List.forall_mem_cons.2 ⟨middle, List.forall_mem_singleton.2 List.not_mem_nil⟩
  · exact List.forall_mem_singleton.2 (List.cons_ne_nil _ _)

theorem parts?_read (trust : String) :
    parts? (read trust) = some (partsOf readOpening
      ((trust.toList, readOnward) :: readBetween ++ [(trust.toList, readClosing)])) := by
  have onward : '\'' ∉ readOnward ∧ readOnward ≠ [] := by decide +kernel
  have between : ∀ literal ∈ readBetween, '\'' ∉ literal.2 ∧ literal.2 ≠ [] := by
    decide +kernel
  have closing : '\'' ∉ readClosing := by decide +kernel
  rw [parts?, toList_read]
  refine partsFrom_assembled (by decide +kernel) ?_ ?_
  · rw [List.cons_append, List.forall_mem_cons, List.forall_mem_append,
      List.forall_mem_singleton]
    exact ⟨onward.1, fun literal mem => (between literal mem).1, closing⟩
  · rw [List.dropLast_concat, List.forall_mem_cons]
    exact ⟨onward.2, fun literal mem => (between literal mem).2⟩

theorem literals?_apply (trust rules : String) :
    literals? (apply trust rules) = some [trust, rules] := by
  rw [literals?, parts?_apply, Option.map_some, filterMap_literal?_partsOf]
  simp only [List.map_cons, List.map_nil, String.ofList_toList]

theorem literals?_read (trust : String) :
    literals? (read trust) =
      some [trust, "name", rulesKey, "Relying party trust not found: ", trust] := by
  rw [literals?, parts?_read, Option.map_some, filterMap_literal?_partsOf]
  simp only [readBetween, List.cons_append, List.nil_append, List.map_cons, List.map_nil,
    String.ofList_toList]

theorem surroundings?_apply (trust rules : String) :
    surroundings? (apply trust rules) =
      some ["Set-AdfsRelyingPartyTrust -TargetName ", " -IssuanceTransformRules ", ""] := by
  have opening : String.ofList applyOpening = "Set-AdfsRelyingPartyTrust -TargetName " :=
    String.ofList_toList
  have middle : String.ofList applyMiddle = " -IssuanceTransformRules " :=
    String.ofList_toList
  rw [surroundings?, parts?_apply, Option.map_some, filterMap_bare?_partsOf, opening,
    List.map_cons, middle, List.map_singleton, String.ofList_nil]

theorem surroundings?_read (trust : String) :
    surroundings? (read trust) =
      some ["$trust = Get-AdfsRelyingPartyTrust -Name ",
        "; if ($trust) \x7b return @\x7b ", " = $trust.Name; ",
        " = $trust.IssuanceTransformRules \x7d \x7d else \x7b throw (", " + ", ") \x7d"] := by
  have opening : String.ofList readOpening = "$trust = Get-AdfsRelyingPartyTrust -Name " :=
    String.ofList_toList
  have onward : String.ofList readOnward = "; if ($trust) \x7b return @\x7b " :=
    String.ofList_toList
  have closing : String.ofList readClosing = ") \x7d" := String.ofList_toList
  rw [surroundings?, parts?_read, Option.map_some, filterMap_bare?_partsOf, opening,
    List.cons_append, List.map_cons, onward, List.map_append, List.map_singleton, closing]
  simp only [readBetween, List.map_cons, List.map_nil, String.ofList_toList, List.cons_append,
    List.nil_append]

/--
The literals of a command are the texts that it was made from, and for the
command that reads three fixed ones between them; nothing else in a command
depends on these texts.  So different texts make different commands, and no
command that reads is one that applies.
-/
theorem texts_stay_in_literals :
    (∀ trust rules,
      literals? (apply trust rules) = some [trust, rules] ∧
        surroundings? (apply trust rules) =
          some ["Set-AdfsRelyingPartyTrust -TargetName ", " -IssuanceTransformRules ", ""]) ∧
      (∀ trust,
        literals? (read trust) =
            some [trust, "name", rulesKey, "Relying party trust not found: ", trust] ∧
          surroundings? (read trust) =
            some ["$trust = Get-AdfsRelyingPartyTrust -Name ",
              "; if ($trust) \x7b return @\x7b ", " = $trust.Name; ",
              " = $trust.IssuanceTransformRules \x7d \x7d else \x7b throw (", " + ", ") \x7d"]) ∧
      (∀ trust rules otherTrust otherRules,
        apply trust rules = apply otherTrust otherRules →
          trust = otherTrust ∧ rules = otherRules) ∧
      (∀ trust other, read trust = read other → trust = other) ∧
      ∀ trust other rules, read trust ≠ apply other rules := by
  refine ⟨fun trust rules => ⟨literals?_apply trust rules, ?_⟩,
    fun trust => ⟨literals?_read trust, ?_⟩, fun trust rules otherTrust otherRules same => ?_,
    fun trust other same => ?_, fun trust other rules same => ?_⟩
  · exact surroundings?_apply trust rules
  · exact surroundings?_read trust
  · have literals := literals?_apply trust rules
    rw [same, literals?_apply, Option.some.injEq, List.cons.injEq, List.cons.injEq] at literals
    exact ⟨literals.1.symm, literals.2.1.symm⟩
  · have literals := literals?_read trust
    rw [same, literals?_read, Option.some.injEq, List.cons.injEq] at literals
    exact literals.1.symm
  · -- five literals are not two
    have literals := literals?_read trust
    rw [same, literals?_apply] at literals
    simp at literals

end Command

end TrustRules
