import TrustRules.Text.Range

/-!
# Blank characters

Lines, blocks and values are trimmed of blank characters, the characters with
the Unicode property `White_Space`.  Line feed and carriage return are among
them; the zero width space and the byte order mark are not.
-/

namespace TrustRules.Text

/-- The code points with the property `White_Space`. -/
def blankRanges : List CharRange :=
  [⟨0x9, 0xD⟩, ⟨0x20, 0x20⟩, ⟨0x85, 0x85⟩, ⟨0xA0, 0xA0⟩, ⟨0x1680, 0x1680⟩,
    ⟨0x2000, 0x200A⟩, ⟨0x2028, 0x2029⟩, ⟨0x202F, 0x202F⟩, ⟨0x205F, 0x205F⟩,
    ⟨0x3000, 0x3000⟩]

/-- A character that trimming removes. -/
def isBlank (c : Char) : Bool :=
  inRanges blankRanges c

/-- A text that trimming would remove whole. -/
def allBlank (s : List Char) : Bool :=
  s.all isBlank

/-! ## Trimming -/

/-- Drop the characters that satisfy `p` from both ends. -/
def strip (p : Char → Bool) (s : List Char) : List Char :=
  ((s.dropWhile p).reverse.dropWhile p).reverse

/-- Drop the blanks in front. -/
def trimStart (s : List Char) : List Char :=
  s.dropWhile isBlank

/-- Drop the blanks at both ends. -/
def trim (s : List Char) : List Char :=
  strip isBlank s

/-- A character that surrounds a value without belonging to it. -/
def isWrapping (c : Char) : Bool :=
  c == '"' || isBlank c

/--
The value itself, without the double quotes and blanks around it.  Any number
and any mix of them goes, so an unpaired quote at one end is dropped as well.
-/
def bare (s : List Char) : List Char :=
  strip isWrapping s

end TrustRules.Text
