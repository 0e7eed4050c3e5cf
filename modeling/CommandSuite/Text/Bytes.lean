import CommandSuite.Text.Utf8

/-!
# Byte texts

A byte text holds bytes: each of its characters stands for the byte of its number. Processes read
and write byte texts, since what they pass on need not be UTF-8.
-/

namespace CommandSuite.Text

/-- The byte text of bytes. -/
def ofBytes (bytes : List UInt8) : String :=
  String.ofList (bytes.map fun byte => Char.ofNat byte.toNat)

/-- The bytes of a byte text. -/
def toBytes (s : String) : List UInt8 := s.toList.map fun c => UInt8.ofNat c.toNat

/-- The byte text that holds a text in UTF-8. -/
def byteText (s : String) : String := ofBytes (Utf8.encode s)

/-- The text that a byte text holds in UTF-8, with U+FFFD for whatever is no character. -/
def ofByteText (s : String) : String := Utf8.decodeLossy (toBytes s)

end CommandSuite.Text
