import TableQuery.Query.Eval

/-! A session: files, the tables that were handed out, and at most one catalog that is open. -/
namespace TableQuery

structure Session where
  drive : Drive := { arrange := Drive.byName }
  frames : Array Frame := #[]
  catalog? : Option Catalog := none

namespace Session

/-- Does a step of work on the open catalog. Without one there is nothing to work on. -/
def work {α : Type} (s : Session) (step : Work α) : Except Fault α × Session :=
  match s.catalog? with
  | none => (.error .missingMember, s)
  | some catalog =>
    let (result, w) := step.run { drive := s.drive, frames := s.frames, catalog }
    (result, { drive := w.drive, frames := w.frames, catalog? := some w.catalog })

/-- Opens a catalog by a step of work. If that fails, the catalog before it stays open or not. -/
def opening (s : Session) (keepsOld : Bool) (step : Work Unit) :
    Except Fault (List Document) × Session :=
  let (result, w) := step.run { drive := s.drive, frames := s.frames, catalog := { dir := "" } }
  match result with
  | .ok _ =>
    (.ok w.catalog.keys, { drive := w.drive, frames := w.frames, catalog? := some w.catalog })
  | .error f =>
    (.error f,
      { drive := w.drive, frames := w.frames, catalog? := if keepsOld then s.catalog? else none })

def onDrive (s : Session) (f : Drive → Except Fault Drive) : Except Fault Unit × Session :=
  match f s.drive with
  | .ok drive => (.ok (), { s with drive })
  | .error e => (.error e, s)

def clearMetadata (s : Session) (dir : String) : Except Fault Unit × Session :=
  s.onDrive fun d =>
    if d.pathExists (metadataPath dir) then d.remove (metadataPath dir) else .ok d

def metadata? (s : Session) (dir : String) : Option String :=
  if s.drive.pathExists (metadataPath dir) then (s.drive.read (metadataPath dir)).toOption else none

end Session

namespace Work

def thenKeys (step : Work Unit) : Work (List Document) := do
  step
  return (← catalog).keys

def describe : Work (List (Document × Document)) := do
  return (← catalog).entries.map fun (key, e) => (key, e.toDocument)

def tableRows (key : Document) : Work Value := do
  match ← lift ((← catalog).find key) with
  | none => throw .missingKey
  | some e =>
    match ← rowsOf e with
    | .frame id => return .table (← frame id).table
    | .value v => return v
    | .absent => return .scalar .null

def register (name : String) (f : Extension) : Work (List String) := do
  setCatalog fun c => { c with extensions := setNamed c.extensions name f }
  return (← catalog).extensions.map (·.1)

def clearCache : Work Unit := setCatalog fun c => { c with cache := c.cache.clear }

structure CacheReport where
  hits : Nat
  misses : Nat
  bound : Option Nat
  size : Nat

/-- What the cache did so far. A cache that keeps nothing does not count. -/
def cacheReport : Work CacheReport := do
  match (← catalog).cache with
  | .memory bound kept hits misses => return { hits, misses, bound, size := kept.length }
  | .nothing => throw .missingMember

def scopeNames : Work (List String) := return (← catalog).scope.map (·.1)

def clearScope : Work Unit := setCatalog fun c => { c with scope := [] }

def groupValue (targets : List Sql.Node) (source : Value) (groupBy : List Sql.Node) :
    Work Value := do
  let source ← Relation.toGroupSource (.value source)
  return .table (← lift (groupTargets (← catalog).extensions targets source groupBy))

end Work

end TableQuery
