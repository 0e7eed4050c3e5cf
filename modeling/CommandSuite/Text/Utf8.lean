/-!
# UTF-8

Bytes are read as UTF-8 in parts: a part is a character, or a longest sequence of bytes that
begins a character and does not go on as one. `decodeLossy` puts U+FFFD for each part of the
second kind, `decode?` reads only bytes without such parts.
-/

namespace CommandSuite.Text.Utf8

/-- The range in which the byte behind a first byte must lie, and the number of bytes that follow
the first. The range keeps out longer forms than needed, surrogates and numbers past U+10FFFF. -/
def secondRange? (first : UInt8) : Option (UInt8 × UInt8 × Nat) :=
  if 0xc2 ≤ first && first ≤ 0xdf then some (0x80, 0xbf, 1)
  else if first = 0xe0 then some (0xa0, 0xbf, 2)
  else if first = 0xed then some (0x80, 0x9f, 2)
  else if 0xe1 ≤ first && first ≤ 0xef then some (0x80, 0xbf, 2)
  else if first = 0xf0 then some (0x90, 0xbf, 3)
  else if 0xf1 ≤ first && first ≤ 0xf3 then some (0x80, 0xbf, 3)
  else if first = 0xf4 then some (0x80, 0x8f, 3)
  else none

/-- What is known of a character of which some bytes are read. -/
structure Pending where
  value : Nat
  /-- The range of the next byte. -/
  low : UInt8
  high : UInt8
  /-- The number of bytes that are missing. -/
  missing : Nat

/-- What the first byte of a part leads to: a part of its own, or more bytes. -/
def start (byte : UInt8) : Option Char ⊕ Pending :=
  if byte < 0x80 then .inl (some (Char.ofNat byte.toNat))
  else
    match secondRange? byte with
    | some (low, high, missing) =>
      let bits := byte.toNat % Nat.pow 2 (6 - missing)
      .inr { value := bits, low, high, missing }
    | none => .inl none

/-- The parts of bytes, of which some may have been read already. -/
def parts : Option Pending → List UInt8 → List (Option Char)
  | none, [] => []
  | some _, [] => [none]
  | none, byte :: bytes =>
    match start byte with
    | .inl part => part :: parts none bytes
    | .inr pending => parts (some pending) bytes
  | some pending, byte :: bytes =>
    if pending.low ≤ byte && byte ≤ pending.high then
      let value := pending.value * 64 + byte.toNat % 64
      if pending.missing ≤ 1 then some (Char.ofNat value) :: parts none bytes
      else parts (some { value, low := 0x80, high := 0xbf, missing := pending.missing - 1 }) bytes
    else
      match start byte with
      | .inl part => none :: part :: parts none bytes
      | .inr pending => none :: parts (some pending) bytes

/-- The text of bytes, with U+FFFD for whatever is no character. -/
def decodeLossy (bytes : List UInt8) : String :=
  String.ofList ((parts none bytes).map (·.getD '\ufffd'))

/-- The text of bytes, if they are UTF-8. -/
def decode? (bytes : List UInt8) : Option String :=
  ((parts none bytes).mapM id).map String.ofList

/-- The bytes of a text. -/
def encode (s : String) : List UInt8 := s.toUTF8.data.toList

end CommandSuite.Text.Utf8
