import TableQuery.Csv.Writer
import TableQuery.FromClause
import TableQuery.Query.Eval

/-! Queries over tables that are given with them. The tables are put into a catalog of their own, by
way of text files, so that their columns have the types that a file gives them. The catalog has a
directory for as long as the query takes. -/
namespace TableQuery.Adhoc

def dir : String := "adhoc"

/-- Adds given tables to a catalog by way of files. A table that the query does not mention is
refused. -/
def addTablesIn (dir sql : String) : List (String × Table) → Work Unit
  | [] => pure ()
  | (name, t) :: rest => do
    if !occursIn name sql then throw (.input (.unusedTable name))
    let path := Path.join dir (name ++ ".csv")
    match (← Work.drive).write path (Csv.write t) with
    | .ok d => Work.setDrive d
    | .error _ => throw .fileSystem
    Work.addFile path true
    addTablesIn dir sql rest

def addTables (sql : String) (tables : List (String × Table)) : Work Unit :=
  addTablesIn dir sql tables

def registerIn (dir sql : String) (tables : List (String × Table))
    (extensions : List (String × Extension)) : Work Unit := do
  Work.openCatalog dir [] (Cache.fresh none) extensions
  addTablesIn dir sql tables

def register (sql : String) (tables : List (String × Table))
    (extensions : List (String × Extension)) : Work Unit :=
  registerIn dir sql tables extensions

def blankOn (drive : Drive) (dir : String) : Workspace := { drive, catalog := { dir } }

/-- The workspace that given tables are put into: there is nothing in it. -/
def blank : Workspace := blankOn {} dir

def discard (dir : String) : Work Unit := do
  Work.setDrive (← Work.lift ((← Work.drive).removeDirectory dir))

/-- Answers a query over tables that are put into a catalog on a directory, which is taken away
afterwards in any case. -/
def answerIn (dir sql : String) (tables : List (String × Table))
    (extensions : List (String × Extension)) : Work Value := do
  try
    Work.openCatalog dir [] (Cache.fresh none) extensions
  catch f =>
    discard dir
    throw f
  try
    addTablesIn dir sql tables
    Work.query sql
  finally
    Work.clearMetadata dir
    discard dir

/-- The words that cannot name a table, because they name something else, and what comes of them. -/
def reserved? (name : String) : Option Fault :=
  if name == "sql" || name == "custom_functions" then some .wrongType
  else if name == "ds_kwargs" then some .badValue
  else none

/-- The given tables by name, of which the last counts. Reserved names are refused, and so is a
query without tables. -/
def accept (tables : List (String × Table)) : Except Fault (List (String × Table)) := do
  let tables := tables.foldl (fun all (name, t) => setNamed all name t) []
  let faults := tables.filterMap fun t => reserved? t.1
  match (faults.find? (· == .wrongType)).or faults.head? with
  | some f => throw f
  | none => if tables.isEmpty then throw (.input .noTables) else return tables

/-- The answer of a query over given tables, by way of a directory, and the drive afterwards. -/
def queryOn (drive : Drive) (dir sql : String) (tables : List (String × Table))
    (extensions : List (String × Extension)) : Except Fault Value × Drive :=
  match accept tables with
  | .error f => (.error f, drive)
  | .ok tables =>
    let (answer, w) := (answerIn dir sql tables extensions).run (blankOn drive dir)
    (answer, w.drive)

def query (sql : String) (tables : List (String × Table)) (extensions : List (String × Extension)) :
    Except Fault Value := (queryOn {} dir sql tables extensions).1

def ownName : String := "temp"

/-- Answers a query on a table, which a select without FROM takes its rows from. -/
def queryTable (t : Table) (sql : String) (tables : List (String × Table))
    (extensions : List (String × Extension)) : Except Fault Value := do
  if tables.any fun other => other.1 == "self" then throw .wrongType
  query (FromClause.complete sql ownName) (tables ++ [(ownName, t)]) extensions

end TableQuery.Adhoc
