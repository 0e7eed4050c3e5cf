import CommandSuite.Suite.Entry
import CommandSuite.Toml.Document

/-!
# The shape of a suite document

A suite document holds nothing but `tests`, a table of entries by name, and an entry holds nothing
but its four fields. `suiteOfTables` reads the entries from the tables of a document, in its
order. A field comes once; of two values under one name the later one counts. An entry may also be
written as an array of its four fields in their order.

A fault is placed where a value of a wrong type stands. A fault in the fields of a table in
braces, or of one made by dotted keys, is placed where that table starts; any other fault has no
place of its own and is placed at the last table of the document.
-/

namespace CommandSuite.Suite

/-- What a document has in a place where something else belongs. -/
inductive Found where
  | integer (n : Int)
  | boolean (b : Bool)
  | float (x : Float)
  | text (s : String)
  | sequence
  | map
  deriving Repr

/-- What is wrong with the shape of a document. -/
inductive ShapeError where
  | unknownField (name : String) (known : List String)
  | duplicateField (name : String)
  | invalidType (found : Found) (expected : String)
  | invalidLength (length : Nat) (expected : String)
  | redefinedTable (header : List String)
  | redefinedAsArray
  deriving Repr

/-- A fault in the shape, with the keys that lead to it and its byte offset, if it has one. -/
structure ShapeFault where
  error : ShapeError
  keys : List String
  pos : Option Nat
  deriving Repr

/-- A part of a suite, or the fault in its shape. -/
abbrev Shaped (α : Type) := Except ShapeFault α

namespace Shaped

def fail {α : Type} (error : ShapeError) (pos : Option Nat) : Shaped α := .error ⟨error, [], pos⟩

/-- Says under which key a fault was met. -/
def under {α : Type} (key : String) : Shaped α → Shaped α
  | .error fault => .error { fault with keys := key :: fault.keys }
  | .ok a => .ok a

/-- Says where a fault was met that has no place yet. -/
def within {α : Type} (pos : Nat) : Shaped α → Shaped α
  | .error fault => .error { fault with pos := fault.pos <|> some pos }
  | .ok a => .ok a

end Shaped

/-- What a message says of a value. -/
def Found.ofValue : Toml.Value → Found
  | .integer _ n => integer n
  | .float _ x => float x
  | .boolean _ b => boolean b
  | .text _ s => text s
  | .date _ _ => map
  | .array _ _ => sequence
  | .table _ _ _ => map

/-- Where a message places a value that has the wrong type. -/
def faultPos : Toml.Value → Option Nat
  | .array _ _ => none
  | value => some value.pos

/-- The fault of a value that is not of the expected type. -/
def mistyped {α : Type} (value : Toml.Value) (expected : String) : Shaped α :=
  .fail (.invalidType (.ofValue value) expected) (faultPos value)

/-! ## Fields -/

/-- The fields of an entry. -/
inductive Field where
  | description
  | arguments
  | shell
  | expectedOutput
  deriving Repr, DecidableEq

namespace Field

def all : List Field := [description, arguments, shell, expectedOutput]

def name : Field → String
  | description => "description"
  | arguments => "arguments"
  | shell => "shell"
  | expectedOutput => "expected_output"

/-- The field of a name. -/
def ofName (s : String) : Shaped Field :=
  match all.find? (·.name = s) with
  | some field => .ok field
  | none => .fail (.unknownField s (all.map name)) none

/-- Whether the entry has the field. -/
def isIn (entry : Entry) : Field → Bool
  | description => entry.description.isSome
  | arguments => entry.arguments.isSome
  | shell => entry.shell.isSome
  | expectedOutput => entry.expectedOutput.isSome

/-- The field of a name that the entry does not have yet. -/
def fresh (entry : Entry) (s : String) : Shaped Field := do
  let field ← ofName s
  if field.isIn entry then .fail (.duplicateField s) none else return field

end Field

/-- A value that is a text. -/
def textOf : Toml.Value → Shaped String
  | .text _ s => .ok s
  | value => mistyped value "a string"

/-- A value that is an array of texts. -/
def textsOf : Toml.Value → Shaped (List String)
  | .array _ elements => elements.mapM textOf
  | value => mistyped value "a sequence"

/-- The entry with a value in one of its fields. -/
def setField (entry : Entry) (value : Toml.Value) : Field → Shaped Entry
  | .description => return { entry with description := some (← textOf value) }
  | .arguments => return { entry with arguments := some (← textsOf value) }
  | .shell => return { entry with shell := some (← textOf value) }
  | .expectedOutput => return { entry with expectedOutput := some (← textOf value) }

/-! ## Entries within values -/

/-- What a message calls an entry. -/
def entryType : String := "struct TestCaseToml"

/-- The key under which a date would have to be read if it were a table. -/
def dateKey : String := "$__toml_private_datetime"

/-- The entry with the values of an array in its fields, in their order. -/
def setFields (entry : Entry) (length : Nat) : List Field → List Toml.Value → Shaped Entry
  | [], [] => .ok entry
  | [], _ :: _ => .fail (.invalidLength length "4 elements in sequence") none
  | _ :: _, [] => .fail (.invalidLength length (entryType ++ " with 4 elements")) none
  | field :: fields, value :: values => do
    setFields (← setField entry value field) length fields values

/-- A value that is an entry. -/
def entryOf : Toml.Value → Shaped Entry
  | .table pos _ pairs =>
    Shaped.within pos <| pairs.foldlM (fun entry (key, value) => do
      setField entry value (← Field.fresh entry key)) {}
  | .array _ elements => setFields {} elements.length Field.all elements
  | .date pos _ => .fail (.unknownField dateKey (Field.all.map Field.name)) (some pos)
  | value => mistyped value entryType

/-- A value that is a table of entries. -/
def suiteOf : Toml.Value → Shaped Suite
  | .table pos _ pairs =>
    Shaped.within pos <| pairs.foldlM (fun (suite : Suite) (name, value) =>
      return suite.put name (← entryOf value)) Suite.empty
  | .date pos s => .fail (.invalidType (.text s) entryType) (some pos)
  | value => mistyped value "a map"

/-! ## Entries within tables -/

/-- The key under which the entries of a suite stand. -/
def suiteKey : String := "tests"

/-- A table under the header of a field: no field is a table. -/
def tableField (table : Toml.Table) (field : Field) : Shaped Entry :=
  let last := table.header.length = 3
  let wrong (found : Found) (expected : String) : Shaped Entry :=
    Shaped.under field.name (.fail (.invalidType found expected) none)
  match field with
  | .arguments =>
    if table.array && last then wrong .map "a string" else wrong .map "a sequence"
  | _ => wrong (if table.array && last then .sequence else .map) "a string"

/-- The entry with the fields of one more of its tables; `opened` tells whether its header came
before. -/
def entryTable : Entry × Bool → Toml.Table → Shaped (Entry × Bool)
  | (entry, opened), table =>
    match table.header with
    | _ :: _ :: key :: _ => do
      let entry ← tableField table (← Field.fresh entry key)
      return (entry, opened)
    | header =>
      if opened then .fail (.redefinedTable header) (some table.pos)
      else do
        let entry ← table.entries.foldlM (fun entry (key, value) => do
          let field ← Field.fresh entry key
          Shaped.under key (setField entry value field)) entry
        return (entry, true)

/-- The entry of the tables that have its name in their headers. -/
def entryOfTables (tables : List Toml.Table) : Shaped Entry :=
  match tables with
  | first :: _ =>
    if first.array && first.header.length = 2 then .fail (.invalidType .map "a string") none
    else return (← tables.foldlM entryTable ({}, false)).1
  | [] => .ok {}

/-- Whether a table belongs to the entry of a name. -/
def isOfEntry (name : String) (table : Toml.Table) : Bool := table.header[1]? == some name

/-- The tables of other entries. -/
def otherTables (name : String) (tables : List Toml.Table) : List Toml.Table :=
  tables.filter fun table => !isOfEntry name table

theorem length_otherTables_le (name : String) (tables : List Toml.Table) :
    (otherTables name tables).length ≤ tables.length :=
  List.length_filter_le _ _

/-- The suite with the entries of more tables; `opened` tells whether the header of the suite
itself came before. -/
def addTables (suite : Suite) (opened : Bool) : List Toml.Table → Shaped Suite
  | [] => .ok suite
  | table :: tables =>
    match table.header with
    | _ :: name :: _ => do
      let entry ← Shaped.under name (entryOfTables (table :: tables.filter (isOfEntry name)))
      addTables (suite.put name entry) opened (otherTables name tables)
    | header =>
      if opened then .fail (.redefinedTable header) (some table.pos)
      else if table.array then .fail .redefinedAsArray (some table.pos)
      else do
        let suite ← table.entries.foldlM (fun (suite : Suite) (name, value) =>
          return suite.put name (← Shaped.under name (entryOf value))) suite
        addTables suite true tables
  termination_by tables => tables.length
  decreasing_by
  · have := length_otherTables_le name tables
    simp only [List.length_cons]
    omega
  · simp

/-- The suite of the tables under its key. -/
def suiteOfGroup (tables : List Toml.Table) : Shaped Suite :=
  match tables with
  | first :: _ =>
    if first.array && first.header.length = 1 then .fail (.invalidType .sequence "a map") none
    else addTables Suite.empty false tables
  | [] => .ok Suite.empty

/-! ## Documents -/

/-- The suite with a further key of the document itself. -/
def rootEntry (suite : Option Suite) : String × Toml.Value → Shaped (Option Suite)
  | (key, value) =>
    if key = suiteKey then
      if suite.isSome then .fail (.duplicateField key) none
      else some <$> Shaped.under key (suiteOf value)
    else .fail (.unknownField key [suiteKey]) none

/-- The suite of the tables that have headers. -/
def suiteOfHeaders (suite : Option Suite) (tables : List Toml.Table) : Shaped Suite :=
  let unknown (table : Toml.Table) : Shaped Suite :=
    .fail (.unknownField (table.header.head?.getD "") [suiteKey]) none
  let isSuite (table : Toml.Table) : Bool := table.header.head? == some suiteKey
  match tables with
  | [] => .ok (suite.getD Suite.empty)
  | first :: _ =>
    if !isSuite first then unknown first
    else if suite.isSome then .fail (.duplicateField suiteKey) none
    else do
      let suite ← Shaped.under suiteKey (suiteOfGroup (tables.filter isSuite))
      match tables.filter fun table => !isSuite table with
      | [] => return suite
      | other :: _ => unknown other

/-- The suite of the tables of a document. -/
def suiteOfTables (tables : List Toml.Table) : Shaped Suite :=
  let placed (suite : Shaped Suite) : Shaped Suite :=
    match tables.getLast? with
    | some table => Shaped.within table.pos suite
    | none => suite
  placed <| match tables with
    | root :: rest =>
      if root.header.isEmpty then do
        suiteOfHeaders (← root.entries.foldlM rootEntry none) rest
      else suiteOfHeaders none tables
    | [] => .ok Suite.empty

end CommandSuite.Suite
