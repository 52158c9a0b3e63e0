import TableQuery.Catalog.Cache
import TableQuery.Catalog.Entry
import TableQuery.Extension

/-! The state that queries and commands work on. Tables that were fetched are kept by number, so
that a table which is handed out twice is the same table: a column that is added to it is seen
wherever it is known. What a step changes stays changed when the step fails later. -/
namespace TableQuery

/-- A table that was handed out, and the names that were given to columns of it in place of their
own. -/
structure Frame where
  table : Table
  renamed : List (String × String) := []

instance : Inhabited Frame := ⟨⟨default, []⟩⟩

namespace Frame

def nameOf (f : Frame) (column : String) : String := (f.renamed.lookup column).getD column

def rename (f : Frame) (column name : String) : Frame :=
  { f with renamed := (column, name) :: f.renamed }

/-- Sets a column. Where one is replaced, columns have their own names again. -/
def setColumn (f : Frame) (name : String) (d : Data) : Frame :=
  { table := f.table.setColumn name d
    renamed := if f.table.has name then [] else f.renamed }

end Frame

inductive Relation where
  /-- There is no source. -/
  | absent
  /-- A table that was handed out. -/
  | frame (id : Nat)
  /-- A value that is no table; the absent value for a table without rows of its own. -/
  | value (v : Value)

instance : Inhabited Relation := ⟨.absent⟩

structure Catalog where
  /-- Where the metadata is kept. -/
  dir : String
  entries : List (Document × Entry) := []
  /-- How many entries were made. -/
  created : Nat := 0
  cache : Cache Relation := Cache.fresh none
  /-- The tables and aliases that a query under way knows. -/
  scope : List (String × Relation) := []
  extensions : List (String × Extension) := []

structure Workspace where
  drive : Drive
  frames : Array Frame := #[]
  catalog : Catalog

abbrev Work := ExceptT Fault (StateM Workspace)

namespace Work

def run {α : Type} (work : Work α) (w : Workspace) : Except Fault α × Workspace :=
  StateT.run (ExceptT.run work) w

def lift {α : Type} (e : Except Fault α) : Work α :=
  match e with
  | .ok a => pure a
  | .error f => throw f

def catalog : Work Catalog := return (← get).catalog

def setCatalog (f : Catalog → Catalog) : Work Unit :=
  modify fun w => { w with catalog := f w.catalog }

def drive : Work Drive := return (← get).drive

def setDrive (d : Drive) : Work Unit := modify fun w => { w with drive := d }

def frame (id : Nat) : Work Frame := return (← get).frames[id]?.getD default

def setFrame (id : Nat) (f : Frame) : Work Unit :=
  modify fun w => { w with frames := w.frames.set! id f }

def newFrame (t : Table) : Work Nat := do
  let w ← get
  set { w with frames := w.frames.push { table := t } }
  return w.frames.size

end Work

end TableQuery
