import CommandSuite.Decimal.Shortest
import CommandSuite.Suite.Shape
import CommandSuite.Text.Escaped

/-!
# Faults of a suite document

A fault tells what is wrong with a document, under which key and at which place.
-/

namespace CommandSuite.Suite

/-- What a message says of a value of a wrong type. -/
def Found.message : Found → String
  | integer n => "integer `" ++ toString n ++ "`"
  | boolean b => "boolean `" ++ (if b then "true" else "false") ++ "`"
  | float x => "floating point `" ++ Decimal.ofFloat x ++ "`"
  | text s => "string " ++ Text.escaped s
  | sequence => "sequence"
  | map => "map"

/-- Names that a message offers. -/
def offer : List String → String
  | [name] => "`" ++ name ++ "`"
  | names => "one of " ++ ", ".intercalate (names.map fun name => "`" ++ name ++ "`")

/-- The text that reports what is wrong with the shape. -/
def ShapeError.message : ShapeError → String
  | unknownField name known => "unknown field `" ++ name ++ "`, expected " ++ offer known
  | duplicateField name => "duplicate field `" ++ name ++ "`"
  | invalidType found expected => "invalid type: " ++ found.message ++ ", expected " ++ expected
  | invalidLength length expected =>
    "invalid length " ++ toString length ++ ", expected " ++ expected
  | redefinedTable header => "redefinition of table `" ++ ".".intercalate header ++ "`"
  | redefinedAsArray => "table redefined as array"

/-- What is wrong with a document. -/
inductive FaultCause where
  | grammar (kind : Toml.ErrorKind)
  | shape (error : ShapeError)
  deriving Repr

def FaultCause.message : FaultCause → String
  | grammar kind => kind.message
  | shape error => error.message

/-- What is wrong with a document, and where. -/
structure Fault where
  cause : FaultCause
  /-- The keys that lead to the fault. -/
  keys : List String
  place : Option Toml.Position
  deriving Repr

/-- The text that reports the fault. -/
def Fault.message (fault : Fault) : String :=
  let key := if fault.keys.isEmpty then "" else " for key `" ++ ".".intercalate fault.keys ++ "`"
  let place := match fault.place with
    | some place => " at line " ++ toString place.line ++ " column " ++ toString place.column
    | none => ""
  fault.cause.message ++ key ++ place

/-- The suite that a document holds. -/
def ofDocument (document : String) : Except Fault Suite :=
  match Toml.readDocument document with
  | .error e => .error ⟨.grammar e.kind, [], some (.ofOffset document e.pos)⟩
  | .ok tables =>
    match suiteOfTables tables with
    | .error e => .error ⟨.shape e.error, e.keys, e.pos.map (.ofOffset document)⟩
    | .ok suite => .ok suite

end CommandSuite.Suite
