import TrustRules.Block.Clause

/-!
# Drafts of rules

The clauses of a block are put into a draft, and of several clauses of one
kind the last one stands.  A draft with a template other than the custom one
becomes a templated rule; any other block is kept whole as a custom rule.
-/

namespace TrustRules

open Text

/-- What the clauses of a block have stated so far. -/
structure Draft where
  name : Option String := none
  template : Option Template := none
  condition : Option Condition := none
  action : Option Action := none
  deriving DecidableEq, Repr

namespace Draft

/--
The draft with one more clause.  An incomplete condition takes the place of an
earlier one and leaves the draft without a condition.
-/
def add (draft : Draft) : Clause → Draft
  | .name value => { draft with name := some (String.ofList (bare value)) }
  | .template value =>
      { draft with template := some (.ofIdentifier (String.ofList (bare value))) }
  | .condition text => { draft with condition := Condition.ofText? text }
  | .action text => { draft with action := some (Action.ofText text) }
  | .unrecognized _ => draft

/-- The draft of a list of clauses. -/
def ofClauses (clauses : List Clause) : Draft :=
  clauses.foldl add {}

/-- The template of the draft, unless it has none or the custom one. -/
def template? (draft : Draft) : Option Template :=
  draft.template.filter fun template => !template.isCustom

/-- The rule of a block with this draft. -/
def rule (draft : Draft) (block : List Char) : Rule :=
  match draft.template? with
  | some template =>
      { name := draft.name.getD ""
        template
        condition := draft.condition
        action := draft.action }
  | none => .custom (draft.name.getD "") (String.ofList block)

end Draft

namespace Block

/-! ## Reading a block -/

/-- The clauses of a block with the numbers of their lines. -/
def clauses (block : List Char) : List (Nat × Clause) :=
  ((lines block).zipIdx 1).flatMap fun line =>
    (Clause.ofLine line.1).map fun clause => (line.2, clause)

/-- The draft of a block. -/
def draft (block : List Char) : Draft :=
  .ofClauses ((clauses block).map Prod.snd)

/-- The rule of a block. -/
def rule (block : List Char) : Rule :=
  (draft block).rule block

/--
The diagnostics of a block whose rule has this place.  A custom rule keeps its
whole block, so nothing of it is reported.
-/
def diagnostics (place : Nat) (block : List Char) : List Diagnostic :=
  if (draft block).template?.isSome then
    (clauses block).flatMap fun clause =>
      clause.2.unused.map fun piece =>
        { block := place, line := clause.1, text := String.ofList piece.1, cause := piece.2 }
  else []

/-- Read a block: its rule and its diagnostics, and the log of both. -/
def read (place : Nat) (block : List Char) : Logged (Rule × List Diagnostic) :=
  let rule := rule block
  let diagnostics := diagnostics place block
  { value := (rule, diagnostics)
    events :=
      .block place (String.ofList block) ::
        ((clauses block).flatMap fun clause => clause.2.events) ++
        (if rule.isCustom then [.assumedCustom rule.name] else []) ++
        diagnostics.map .skipped }

end Block

end TrustRules
