import TableQuery.Catalog.Workspace
import TableQuery.Command
import TableQuery.Document.Printer
import TableQuery.Document.Reader

/-! Operations on a catalog. Its entries are written to a metadata file after each change, and a
catalog that is opened on a directory with such a file starts with the entries there. -/
namespace TableQuery

def metadataName : String := "datasource_tables.json"

def metadataPath (dir : String) : String := Path.join dir metadataName

namespace Document

def sameKey (a b : Document) : Bool := a.isScalar && b.isScalar && a.toCell.same b.toCell

end Document

def entryAt? (entries : List (Document × Entry)) (key : Document) : Option Entry :=
  (entries.find? fun e => e.1.sameKey key).map (·.2)

/-- The entries with one set: in its place if the key is there, at the end otherwise. -/
def setEntry (entries : List (Document × Entry)) (key : Document) (e : Entry) :
    List (Document × Entry) :=
  match entries with
  | [] => [(key, e)]
  | (k, old) :: rest =>
    if k.sameKey key then (k, e) :: rest else (k, old) :: setEntry rest key e

namespace Catalog

def toDocument (c : Catalog) : Document :=
  .object (c.entries.map fun (key, e) => (key.memberName, e.toDocument))

/-- The text of the metadata. There is none if some entry cannot be written. -/
def dump (c : Catalog) : Except Fault String :=
  match c.entries.findSome? fun e => e.2.unwritable? with
  | some f => .error f
  | none => .ok c.toDocument.print

def keys (c : Catalog) : List Document := c.entries.map (·.1)

/-- The entry of a key, which must be one that can be looked up. -/
def find (c : Catalog) (key : Document) : Except Fault (Option Entry) :=
  if key.isScalar then .ok (entryAt? c.entries key) else .error .wrongType

def readEntries (first : Nat) : List (String × Document) → Except Fault (List (Document × Entry))
  | [] => .ok []
  | (name, d) :: rest => do
    let e ← Entry.ofDocument first d
    return (.text name, e) :: (← readEntries (first + 1) rest)

/-- The entries that the metadata file of a directory holds, none if there is no file. -/
def load (drive : Drive) (dir : String) : Except Fault (List (Document × Entry)) := do
  let path := metadataPath dir
  if drive.pathExists path then
    let text ← drive.read path
    match ← Document.read text with
    | .object members => readEntries 0 members
    | _ => throw .missingMember
  else return []

end Catalog

namespace Work

def ensureDirectory (dir : String) : Work Unit := do
  let d ← drive
  if !d.pathExists dir then setDrive (← lift (d.makeDirectories dir))

/-- Saves the entries. The file is emptied before their text is made. -/
def saveMetadata (overwrite : Bool) : Work Unit := do
  let c ← catalog
  ensureDirectory c.dir
  let d ← drive
  if !d.isWritable c.dir then throw (.query (.notWritable c.dir))
  if !overwrite && d.pathExists (metadataPath c.dir) then throw (.query .metadataKept)
  setDrive (← lift (d.write (metadataPath c.dir) ""))
  let text ← lift c.dump
  setDrive (← lift ((← drive).write (metadataPath c.dir) text))

def clearMetadata (dir : String) : Work Unit := do
  let d ← drive
  if d.pathExists (metadataPath dir) then setDrive (← lift (d.remove (metadataPath dir)))

def setCache (cache : Cache Relation) : Work Unit :=
  setCatalog fun c =>
    { c with cache, entries := c.entries.map fun (key, e) => (key, { e with cached := true }) }

def addEntry (e : Entry) : Work Unit := do
  let c ← catalog
  match ← lift (c.find e.name) with
  | some _ =>
    throw (.query (.tableExists (match e.name with | .text s => s | d => d.toCell.display)))
  | none =>
    setCatalog fun c =>
      { c with
        entries := setEntry c.entries e.name { e with id := c.created }
        created := c.created + 1 }
    saveMetadata true

def addFile (path : String) (clean : Bool) : Work Unit := do
  let e ← lift (Entry.ofFile 0 (← drive) path clean)
  addEntry e

def dropEntry (key : Document) : Work Unit := do
  let c ← catalog
  match ← lift (c.find key) with
  | some _ =>
    setCatalog fun c => { c with entries := c.entries.filter fun e => !e.1.sameKey key }
    saveMetadata true
  | none => throw .missingKey

/-- The names of entries in lower case, with the entries; later ones replace earlier ones. -/
def nameEntries (first : Nat) : List Entry → Except Fault (List (Document × Entry))
  | entries => do
    let named ← entries.mapM fun e =>
      match e.name with
      | .text s => Except.ok (Document.text (Text.lower s), e)
      | _ => .error .missingMember
    return (named.zipIdx).foldl
      (fun all ((key, e), i) => setEntry all key { e with id := first + i }) []

/-- The catalog of a directory. Entries may be given if the directory has no metadata yet. -/
def catalogOf (drive : Drive) (dir : String) (given : List Entry) : Except Fault Catalog := do
  let named ← nameEntries 0 given
  let loaded ← Catalog.load drive dir
  if !loaded.isEmpty && !named.isEmpty then throw (.query (.metadataExists dir))
  let entries := if loaded.isEmpty then named else loaded
  return { dir, entries, created := given.length + loaded.length }

/-- Opens the catalog of a directory. -/
def openCatalog (dir : String) (given : List Entry) (cache : Cache Relation)
    (extensions : List (String × Extension)) : Work Unit := do
  ensureDirectory dir
  let c ← lift (catalogOf (← drive) dir given)
  setCatalog fun _ => c
  saveMetadata true
  setCache cache
  setCatalog fun c => { c with extensions }

def createCatalog (dir : String) (given : List Entry) : Work Unit := do
  clearMetadata dir
  openCatalog dir given (Cache.fresh none) []

def addFiles (dir : String) : List String → Work Unit
  | [] => pure ()
  | name :: rest => do
    if name.endsWith ".csv" then addFile (Path.join dir name) true
    addFiles dir rest

def openFiles (dir filesDir : String) : Work Unit := do
  let names ← lift ((← drive).list filesDir)
  openCatalog dir [] (Cache.fresh none) []
  addFiles filesDir names
  if (← catalog).entries.isEmpty then throw (.query (.noDataFiles filesDir))

def handOut (t : Option Table) : Work Relation :=
  match t with
  | some t => return .frame (← newFrame t)
  | none => return .value (.scalar .null)

def rowsOf (e : Entry) : Work Relation := do
  if !e.cached then handOut (← lift (e.fetch (← drive)))
  else
    match (← catalog).cache with
    | .nothing => return .value (.scalar .null)
    | cache =>
      if !e.name.isScalar then throw .wrongType
      let (kept, cache) := cache.ask e.id
      setCatalog fun c => { c with cache }
      match kept with
      | some r => return r
      | none =>
        let r ← handOut (← lift (e.fetch (← drive)))
        setCatalog fun c => { c with cache := c.cache.keep e.id r }
        return r

def listing : Work Table := do
  let entries := (← catalog).entries.map (·.2)
  let rows ← lift (entries.mapM fun e =>
    match e.file? with
    | some path => Except.ok (e.name.toCell, path.toCell)
    | none => .error .missingMember)
  return ⟨Column.freshLabels rows.length,
    [("name", Data.infer (rows.map (·.1))), ("fpath", Data.infer (rows.map (·.2)))]⟩

def execute (command : Command) : Work Value := do
  match command.kind, command.args.getD [] with
  | .bare, _ => return .scalar .null
  | .createTable, .text path :: .bool clean :: _ =>
    addFile path clean
    return .scalar (.text "OK")
  | .createTable, _ => throw .outOfBounds
  | .dropTable, .text name :: _ =>
    dropEntry (.text name)
    return .scalar (.text "OK")
  | .dropTable, _ => throw .outOfBounds
  | .showTables, _ => return .table (← listing)

end Work

end TableQuery
