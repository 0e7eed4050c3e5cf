import CommandSuite.Toml.Error

/-!
# Values of a document

Values and tables as they stand in a document, in its order and with repetitions; what a repeated
key means is left to the reader of the tables.
-/

namespace CommandSuite.Toml

/-- A value with the byte offset at which it starts. -/
inductive Value where
  | integer (pos : Nat) (n : Int)
  | float (pos : Nat) (x : Float)
  | boolean (pos : Nat) (b : Bool)
  | text (pos : Nat) (s : String)
  | date (pos : Nat) (s : String)
  | array (pos : Nat) (elements : List Value)
  /-- An inline table, or a table that dotted keys have made. Only the latter takes further
  keys. -/
  | table (pos : Nat) (dotted : Bool) (entries : List (String × Value))
  deriving Repr, Inhabited

namespace Value

/-- The byte offset at which the value starts; for a table that dotted keys have made, that of the
first value in it. -/
def pos : Value → Nat
  | integer pos _ => pos
  | float pos _ => pos
  | boolean pos _ => pos
  | text pos _ => pos
  | date pos _ => pos
  | array pos _ => pos
  | table pos _ _ => pos

end Value

/-- A table with its header. The entries in front of all headers are a table with no header. -/
structure Table where
  pos : Nat
  header : List String
  /-- Whether the header is that of a further element of an array. -/
  array : Bool
  entries : List (String × Value)
  deriving Repr

/-- The entries with one more value under a dotted key, given as its first part and the others. -/
def insertDotted (value : Value) (key : String) :
    List String → List (String × Value) → Except Error (List (String × Value))
  | [], entries => .ok (entries ++ [(key, value)])
  | next :: parts, entries =>
    match entries.span (fun entry => entry.1 != key) with
    | (before, (_, .table pos true inner) :: after) => do
      let inner ← insertDotted value next parts inner
      return before ++ (key, .table pos true inner) :: after
    | (_, (_, other) :: _) => .error ⟨.extendsValue, other.pos⟩
    | (_, []) => do
      let inner ← insertDotted value next parts []
      return entries ++ [(key, .table value.pos true inner)]

end CommandSuite.Toml
