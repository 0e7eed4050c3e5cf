import CommandSuite.Text.Bytes

/-!
# Reading what was written in UTF-8

A text that is written in UTF-8 is read as itself, so what a process is given as byte text is what
it finds when it reads the bytes as a text.

* `parts_utf8EncodeChar`: the bytes of a character are read as one part, whatever follows them.
  The cases are the numbers of bytes; the range that the second byte must lie in keeps out longer
  forms, surrogates and what is past the last character.
* `ofByteText_byteText`: the text that the byte text of a text holds is this text.
-/

namespace CommandSuite.Text

namespace Utf8

theorem encode_eq_flatMap (s : String) : encode s = s.toList.flatMap String.utf8EncodeChar := by
  rw [encode, String.toUTF8_eq_toByteArray, ← String.utf8Encode_toList, List.utf8Encode,
    List.data_toByteArray]

/-- A character is written in one byte at least. -/
theorem length_le_utf8ByteSize (s : String) : s.toList.length ≤ s.utf8ByteSize := by
  have bytes : (encode s).length = s.utf8ByteSize := Array.length_toList
  have each : ∀ cs : List Char, cs.length ≤ (cs.flatMap String.utf8EncodeChar).length := by
    intro cs
    induction cs with
    | nil => exact Nat.le_refl 0
    | cons c cs ih =>
      have filled := c.utf8Size_pos
      rw [List.flatMap_cons, List.length_cons, List.length_append, String.length_utf8EncodeChar]
      omega
  rw [← bytes, encode_eq_flatMap]
  exact each s.toList

/-! ## First bytes -/

theorem toNat_ofNat {n : Nat} (small : n < 256) : (UInt8.ofNat n).toNat = n :=
  UInt8.toNat_ofNat_of_lt' small

theorem secondRange?_ofNat {n : Nat} (small : n < 256) :
    secondRange? (UInt8.ofNat n) =
      if 0xc2 ≤ n ∧ n ≤ 0xdf then some (0x80, 0xbf, 1)
      else if n = 0xe0 then some (0xa0, 0xbf, 2)
      else if n = 0xed then some (0x80, 0x9f, 2)
      else if 0xe1 ≤ n ∧ n ≤ 0xef then some (0x80, 0xbf, 2)
      else if n = 0xf0 then some (0x90, 0xbf, 3)
      else if 0xf1 ≤ n ∧ n ≤ 0xf3 then some (0x80, 0xbf, 3)
      else if n = 0xf4 then some (0x80, 0x8f, 3)
      else none := by
  revert n
  decide +kernel

/-- A byte that goes on as a character is the first of several. -/
theorem parts_none_cons {n missing : Nat} {low high : UInt8} (wide : 0x80 ≤ n) (small : n < 256)
    (range : secondRange? (UInt8.ofNat n) = some (low, high, missing)) (bytes : List UInt8) :
    parts none (UInt8.ofNat n :: bytes) =
      parts (some { value := n % Nat.pow 2 (6 - missing), low, high, missing }) bytes := by
  have begins : ¬ UInt8.ofNat n < 0x80 := by
    rw [UInt8.lt_iff_toNat_lt, toNat_ofNat small]
    exact Nat.not_lt.2 wide
  rw [parts, start, if_neg begins, range, toNat_ofNat small]

/-- The second of three bytes is in the range that the first one sets, unless two would do or the
number is that of a surrogate. -/
theorem exists_secondRange?_three {n m : Nat} (least : 0xe0 ≤ n) (most : n ≤ 0xef)
    (low : 0x80 ≤ m) (high : m ≤ 0xbf) (needed : n = 0xe0 → 0xa0 ≤ m)
    (valid : n = 0xed → m ≤ 0x9f) :
    ∃ low high, secondRange? (UInt8.ofNat n) = some (low, high, 2) ∧
      low.toNat ≤ m ∧ m ≤ high.toNat := by
  rw [secondRange?_ofNat (by omega), if_neg (by omega)]
  by_cases first : n = 0xe0
  · exact ⟨0xa0, 0xbf, if_pos first, needed first, high⟩
  · rw [if_neg first]
    by_cases surrogates : n = 0xed
    · exact ⟨0x80, 0x9f, if_pos surrogates, low, valid surrogates⟩
    · rw [if_neg surrogates]
      exact ⟨0x80, 0xbf, if_pos (by omega), low, high⟩

/-- The second of four bytes is in the range that the first one sets, unless three would do or the
number is past the last character. -/
theorem exists_secondRange?_four {n m : Nat} (least : 0xf0 ≤ n) (most : n ≤ 0xf4)
    (low : 0x80 ≤ m) (high : m ≤ 0xbf) (needed : n = 0xf0 → 0x90 ≤ m)
    (valid : n = 0xf4 → m ≤ 0x8f) :
    ∃ low high, secondRange? (UInt8.ofNat n) = some (low, high, 3) ∧
      low.toNat ≤ m ∧ m ≤ high.toNat := by
  rw [secondRange?_ofNat (by omega), if_neg (by omega), if_neg (by omega), if_neg (by omega),
    if_neg (by omega)]
  by_cases first : n = 0xf0
  · exact ⟨0x90, 0xbf, if_pos first, needed first, high⟩
  · rw [if_neg first]
    by_cases last : n = 0xf4
    · rw [if_neg (by omega)]
      exact ⟨0x80, 0x8f, if_pos last, low, valid last⟩
    · exact ⟨0x80, 0xbf, if_pos (by omega), low, high⟩

/-! ## Characters -/

section Following

variable {low high : UInt8} {n : Nat} (above : low.toNat ≤ n % 64 + 0x80)
  (below : n % 64 + 0x80 ≤ high.toNat) (value : Nat) (bytes : List UInt8)

include above below

/-- A byte in its range goes on with a character. -/
theorem parts_some_cons (missing : Nat) :
    parts (some { value, low, high, missing }) (UInt8.ofNat (n % 64 + 0x80) :: bytes) =
      if missing ≤ 1 then some (Char.ofNat (value * 64 + n % 64)) :: parts none bytes
      else
        parts (some {
          value := value * 64 + n % 64
          low := 0x80
          high := 0xbf
          missing := missing - 1 }) bytes := by
  have toNat : (UInt8.ofNat (n % 64 + 0x80)).toNat = n % 64 + 0x80 := toNat_ofNat (by omega)
  have bits : (n % 64 + 0x80) % 64 = n % 64 := by omega
  have inside :
      (low ≤ UInt8.ofNat (n % 64 + 0x80) && UInt8.ofNat (n % 64 + 0x80) ≤ high) = true := by
    rw [Bool.and_eq_true, decide_eq_true_iff, decide_eq_true_iff, UInt8.le_iff_toNat_le,
      UInt8.le_iff_toNat_le, toNat]
    exact ⟨above, below⟩
  rw [parts, if_pos inside, toNat, bits]

theorem parts_some_cons_last :
    parts (some { value, low, high, missing := 1 }) (UInt8.ofNat (n % 64 + 0x80) :: bytes) =
      some (Char.ofNat (value * 64 + n % 64)) :: parts none bytes :=
  (parts_some_cons above below value bytes 1).trans (if_pos (Nat.le_refl 1))

theorem parts_some_cons_more (missing : Nat) :
    parts (some { value, low, high, missing := missing + 2 })
      (UInt8.ofNat (n % 64 + 0x80) :: bytes) =
      parts (some {
        value := value * 64 + n % 64
        low := 0x80
        high := 0xbf
        missing := missing + 1 }) bytes :=
  (parts_some_cons above below value bytes (missing + 2)).trans (if_neg (by omega))

end Following

theorem low_le (n : Nat) : (0x80 : UInt8).toNat ≤ n % 64 + 0x80 := Nat.le_add_left 0x80 _

theorem le_high (n : Nat) : n % 64 + 0x80 ≤ (0xbf : UInt8).toNat := by
  show n % 64 + 0x80 ≤ 0xbf
  omega

theorem parts_one {v : Nat} (most : v ≤ 0x7f) (bytes : List UInt8) :
    parts none (UInt8.ofNat v :: bytes) = some (Char.ofNat v) :: parts none bytes := by
  have begins : UInt8.ofNat v < 0x80 := by
    rw [UInt8.lt_iff_toNat_lt, toNat_ofNat (by omega)]
    exact Nat.lt_succ_of_le most
  rw [parts, start, if_pos begins, toNat_ofNat (by omega)]

theorem parts_two {v : Nat} (least : 0x7f < v) (most : v ≤ 0x7ff) (bytes : List UInt8) :
    parts none (UInt8.ofNat (v / 64 % 32 + 0xc0) :: UInt8.ofNat (v % 64 + 0x80) :: bytes) =
      some (Char.ofNat v) :: parts none bytes := by
  have range : secondRange? (UInt8.ofNat (v / 64 % 32 + 0xc0)) = some (0x80, 0xbf, 1) := by
    rw [secondRange?_ofNat (by omega)]
    exact if_pos (by omega)
  have value : (v / 64 % 32 + 0xc0) % Nat.pow 2 (6 - 1) * 64 + v % 64 = v := by
    show (v / 64 % 32 + 0xc0) % 32 * 64 + v % 64 = v
    omega
  rw [parts_none_cons (by omega) (by omega) range,
    parts_some_cons_last (low_le v) (le_high v), value]

theorem parts_three {v : Nat} (least : 0x7ff < v) (most : v ≤ 0xffff) (valid : v.isValidChar)
    (bytes : List UInt8) :
    parts none (UInt8.ofNat (v / 4096 % 16 + 0xe0) :: UInt8.ofNat (v / 64 % 64 + 0x80) ::
        UInt8.ofNat (v % 64 + 0x80) :: bytes) =
      some (Char.ofNat v) :: parts none bytes := by
  rw [Nat.isValidChar] at valid
  obtain ⟨low, high, range, above, below⟩ :=
    exists_secondRange?_three (n := v / 4096 % 16 + 0xe0) (m := v / 64 % 64 + 0x80)
      (by omega) (by omega) (by omega) (by omega) (by omega) (by omega)
  have value :
      ((v / 4096 % 16 + 0xe0) % Nat.pow 2 (6 - 2) * 64 + v / 64 % 64) * 64 + v % 64 = v := by
    show ((v / 4096 % 16 + 0xe0) % 16 * 64 + v / 64 % 64) * 64 + v % 64 = v
    omega
  rw [parts_none_cons (by omega) (by omega) range, parts_some_cons_more above below _ _ 0,
    parts_some_cons_last (low_le v) (le_high v), value]

theorem parts_four {v : Nat} (least : 0xffff < v) (valid : v.isValidChar) (bytes : List UInt8) :
    parts none (UInt8.ofNat (v / 262144 % 8 + 0xf0) :: UInt8.ofNat (v / 4096 % 64 + 0x80) ::
        UInt8.ofNat (v / 64 % 64 + 0x80) :: UInt8.ofNat (v % 64 + 0x80) :: bytes) =
      some (Char.ofNat v) :: parts none bytes := by
  rw [Nat.isValidChar] at valid
  obtain ⟨low, high, range, above, below⟩ :=
    exists_secondRange?_four (n := v / 262144 % 8 + 0xf0) (m := v / 4096 % 64 + 0x80)
      (by omega) (by omega) (by omega) (by omega) (by omega) (by omega)
  have value :
      (((v / 262144 % 8 + 0xf0) % Nat.pow 2 (6 - 3) * 64 + v / 4096 % 64) * 64 + v / 64 % 64) *
        64 +
        v % 64 = v := by
    show (((v / 262144 % 8 + 0xf0) % 8 * 64 + v / 4096 % 64) * 64 + v / 64 % 64) * 64 + v % 64 = v
    omega
  rw [parts_none_cons (by omega) (by omega) range, parts_some_cons_more above below _ _ 1,
    parts_some_cons_more (low_le (v / 64)) (le_high (v / 64)) _ _ 0,
    parts_some_cons_last (low_le v) (le_high v), value]

/-- The bytes of a character are read as the character. -/
theorem parts_utf8EncodeChar (c : Char) (bytes : List UInt8) :
    parts none (String.utf8EncodeChar c ++ bytes) = some c :: parts none bytes := by
  have same : Char.ofNat c.val.toNat = c := Char.ofNat_toNat c
  rw [String.utf8EncodeChar]
  by_cases one : c.val.toNat ≤ 0x7f
  · rw [if_pos one]
    exact (parts_one one bytes).trans (by rw [same])
  rw [if_neg one]
  by_cases two : c.val.toNat ≤ 0x7ff
  · rw [if_pos two]
    exact (parts_two (Nat.not_le.1 one) two bytes).trans (by rw [same])
  rw [if_neg two]
  by_cases three : c.val.toNat ≤ 0xffff
  · rw [if_pos three]
    exact (parts_three (Nat.not_le.1 two) three c.valid bytes).trans (by rw [same])
  · rw [if_neg three]
    exact (parts_four (Nat.not_le.1 three) c.valid bytes).trans (by rw [same])

/-- What was written in UTF-8 is read as it was. -/
theorem decodeLossy_encode (s : String) : decodeLossy (encode s) = s := by
  have read : ∀ cs : List Char, parts none (cs.flatMap String.utf8EncodeChar) = cs.map some := by
    intro cs
    induction cs with
    | nil => rfl
    | cons c cs ih => rw [List.flatMap_cons, parts_utf8EncodeChar, ih, List.map_cons]
  rw [decodeLossy, encode_eq_flatMap, read, List.map_map]
  exact (congrArg String.ofList (List.map_id s.toList)).trans String.ofList_toList

end Utf8

/-! ## Byte texts -/

theorem toBytes_ofBytes (bytes : List UInt8) : toBytes (ofBytes bytes) = bytes := by
  have byte : ∀ b : UInt8, UInt8.ofNat (Char.ofNat b.toNat).toNat = b := by
    intro b
    have same : (Char.ofNat b.toNat).toNat = b.toNat := by
      have valid : ∀ n < 256, (Char.ofNat n).toNat = n := by decide +kernel
      exact valid b.toNat b.toNat_lt
    rw [same, UInt8.ofNat_toNat]
  rw [toBytes, ofBytes, String.toList_ofList, List.map_map]
  exact (List.map_congr_left fun b _ => byte b).trans (List.map_id bytes)

/-- A byte text of a text holds this text. -/
theorem ofByteText_byteText (s : String) : ofByteText (byteText s) = s := by
  rw [ofByteText, byteText, toBytes_ofBytes, Utf8.decodeLossy_encode]

end CommandSuite.Text
