/-!
# Blank texts

The characters that Unicode gives the property `White_Space`.
-/

namespace CommandSuite.Text

/-- Ranges of the code points with the property `White_Space`, both ends included. -/
def blankRanges : List (Nat × Nat) :=
  [(0x09, 0x0d), (0x20, 0x20), (0x85, 0x85), (0xa0, 0xa0), (0x1680, 0x1680), (0x2000, 0x200a),
   (0x2028, 0x2029), (0x202f, 0x202f), (0x205f, 0x205f), (0x3000, 0x3000)]

/-- Whether the character is white space. -/
def isBlankChar (c : Char) : Bool :=
  blankRanges.any fun range => range.1 ≤ c.toNat && c.toNat ≤ range.2

/-- Whether there is nothing but white space in the text. -/
def isBlank (s : String) : Bool := s.toList.all isBlankChar

end CommandSuite.Text
