/-!
# Character ranges

A class of characters is given by its ranges of code points, both ends
included.  Membership looks only at the code point.
-/

namespace TrustRules.Text

/-- A run of code points, both ends included. -/
structure CharRange where
  first : Nat
  last : Nat
  deriving DecidableEq, Repr

namespace CharRange

/-- The code point of the character lies between the two ends. -/
def contains (range : CharRange) (c : Char) : Bool :=
  range.first ≤ c.toNat && c.toNat ≤ range.last

end CharRange

/-- Some range of the class holds the character. -/
def inRanges (ranges : List CharRange) (c : Char) : Bool :=
  ranges.any fun range => range.contains c

end TrustRules.Text
