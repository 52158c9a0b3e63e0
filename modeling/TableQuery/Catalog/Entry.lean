import TableQuery.Catalog.Drive
import TableQuery.Clean
import TableQuery.Csv.Reader
import TableQuery.Document

/-! What a catalog knows about a table: its name, where its rows are, and how they are cleaned. -/
namespace TableQuery

structure Entry where
  /-- Tells entries apart that are otherwise alike. -/
  id : Nat
  name : Document
  /-- The file with the rows; an entry without one has none. -/
  file? : Option Document
  /-- How the rows are cleaned. -/
  plan : Document := .null
  /-- Whether the rows are looked for in the cache. -/
  cached : Bool := false
  /-- What writing the entry raises, if a part of it was given as something that no text stands for,
  such as a set, or as a number of more digits than are written. -/
  unwritable? : Option Fault := none

namespace Entry

def kindName (e : Entry) : String := if e.file?.isSome then "FileTable" else "Table"

def toDocument (e : Entry) : Document :=
  let common := [("type", .text e.kindName), ("name", e.name), ("preprocessing_dict", e.plan)]
  match e.file? with
  | some path => .object (common ++ [("fpath", path)])
  | none => .object common

def ofDocument (id : Nat) (d : Document) : Except Fault Entry := do
  let .object members := d | throw .wrongType
  let some kind := members.lookup "type" | throw .missingKey
  if !kind.isScalar then throw .wrongType
  let isFile ← match kind with
    | .text "Table" => pure false
    | .text "FileTable" => pure true
    | _ => throw .missingKey
  let some name := members.lookup "name" | throw .wrongType
  let plan := (members.lookup "preprocessing_dict").getD .null
  if isFile then
    let some path := members.lookup "fpath" | throw .wrongType
    return { id, name, file? := some path, plan }
  else return { id, name, file? := none, plan }

def planDocument (plan : CleaningPlan) : Document :=
  .object [("empty_rows", .list (plan.emptyRows.map Document.ofCell)),
    ("drop_columns", .list (plan.dropColumns.map Document.ofCell))]

/-- The labels that a part of a plan lists. A single label stands for itself. -/
def planLabels : Document → Except Fault (List Cell)
  | .list items => .ok (items.map Document.toCell)
  | .object _ => .error .wrongType
  | .null => .error .badValue
  | d => .ok [d.toCell]

/-- The cleaning plan of a document, which has exactly two members. -/
def readPlan (d : Document) : Except Fault CleaningPlan :=
  match d.member? "empty_rows", d.member? "drop_columns" with
  | some rows, some columns =>
    if d.members.length == 2 then return ⟨← planLabels rows, ← planLabels columns⟩
    else .error .wrongType
  | _, _ => .error .wrongType

def fetchRaw (e : Entry) (drive : Drive) : Except Fault (Option Table) :=
  match e.file? with
  | none => .ok none
  | some (.text path) => do return some (← Csv.read (← drive.read path))
  | some _ => .error .badValue

def fetch (e : Entry) (drive : Drive) : Except Fault (Option Table) := do
  let raw ← e.fetchRaw drive
  if e.plan.isTrue then
    let .object _ := e.plan | throw .wrongType
    match raw with
    | some t =>
      let plan ← readPlan e.plan
      return some (← t.clean plan)
    | none =>
      let _ ← readPlan e.plan
      throw .missingMember
  else return raw

/-- The entry of a file. Its name is that of the file, and what is empty in it now is planned to be
dropped. -/
def ofFile (id : Nat) (drive : Drive) (path : String) (clean : Bool) : Except Fault Entry := do
  let e : Entry :=
    { id, name := .text (Path.withoutExtension (Path.baseName path)), file? := some (.text path) }
  match ← e.fetchRaw drive with
  | some t => return if clean then { e with plan := planDocument t.cleaningPlan } else e
  | none => return e

end Entry

end TableQuery
