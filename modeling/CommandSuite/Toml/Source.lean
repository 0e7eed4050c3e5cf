/-!
# The text of a document

A document is read as characters with their byte offsets. A carriage return with its line feed is
one line feed, at the offset of the return. A byte order mark in front is no part of the text,
though its bytes are counted.
-/

namespace CommandSuite.Toml

/-- Characters with their byte offsets. -/
abbrev Source := List (Nat × Char)

namespace Source

/-- The characters of a text that starts at a byte offset. -/
def ofChars (pos : Nat) : List Char → Source
  | [] => []
  | [c] => [(pos, c)]
  | c :: d :: cs =>
    if c = '\r' && d = '\n' then (pos, '\n') :: ofChars (pos + 2) cs
    else (pos, c) :: ofChars (pos + c.utf8Size) (d :: cs)

/-- The characters of a document. -/
def ofDocument (document : String) : Source :=
  match document.toList with
  | [] => []
  | c :: cs => if c = '\ufeff' then ofChars c.utf8Size cs else ofChars 0 (c :: cs)

/-- The characters up to the first that fails the test. -/
def run (test : Char → Bool) (source : Source) : List Char :=
  (List.takeWhile (fun p => test p.2) source).map Prod.snd

/-- The characters from the first that fails the test. -/
def skip (test : Char → Bool) (source : Source) : Source :=
  List.dropWhile (fun p => test p.2) source

theorem length_skip_le (test : Char → Bool) (source : Source) :
    (skip test source).length ≤ source.length :=
  (List.dropWhile_sublist _).length_le

end Source

/-- A place in a document: the line and the byte of it, both from 1. -/
structure Position where
  line : Nat
  column : Nat
  deriving Repr, DecidableEq

/-- The place `offset` bytes on from a place. -/
def Position.advance (place : Position) (offset : Nat) : List Char → Position
  | [] => place
  | c :: cs =>
    if offset = 0 then place
    else if c = '\n' then advance ⟨place.line + 1, 1⟩ (offset - 1) cs
    else advance ⟨place.line, place.column + c.utf8Size⟩ (offset - c.utf8Size) cs

/-- The place of a byte offset. -/
def Position.ofOffset (document : String) (offset : Nat) : Position :=
  advance ⟨1, 1⟩ offset document.toList

end CommandSuite.Toml
