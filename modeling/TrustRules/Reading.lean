import TrustRules.Block
import TrustRules.Block.Draft

/-!
# Readings

Reading rule text yields a rule set and the diagnostics of its templated
blocks.  It never fails: a block that is no templated rule is a custom rule.
-/

namespace TrustRules

open Text

/-- What was read from a text. -/
structure Reading where
  set : RuleSet := {}
  skipped : List Diagnostic := []
  deriving DecidableEq, Repr

namespace Reading

/-- Every line of every templated block was used. -/
def isClean (reading : Reading) : Bool :=
  reading.skipped.isEmpty

/--
Read the pieces of a text, the first of whose blocks has this place.  A piece
that is blank is no block and takes no place.
-/
def ofPieces (place : Nat) : List (List Char) → Logged Reading
  | [] => ⟨{}, []⟩
  | piece :: rest =>
      if allBlank piece then
        let others := ofPieces place rest
        ⟨others.value, .emptyBlock :: others.events⟩
      else
        let first := Block.read place (trim piece)
        let others := ofPieces (place + 1) rest
        { value :=
            { set := ⟨first.value.1 :: others.value.set.rules⟩
              skipped := first.value.2 ++ others.value.skipped }
          events := first.events ++ others.events }

/-- Read a text and log what was read. -/
def logged (text : String) : Logged Reading :=
  let pieces := ofPieces 0 (Block.pieces text.toList)
  { value := pieces.value
    events :=
      pieces.events ++
        [.textRead pieces.value.set.size pieces.value.skipped.length] }

/-- Read a text. -/
def ofText (text : String) : Reading :=
  (logged text).value

end Reading

end TrustRules
