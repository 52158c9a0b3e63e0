import TableQuery.Column.Align
import TableQuery.Column.Infer

/-! Tables: named columns of one length over shared row labels. Names may repeat. -/
namespace TableQuery

/-- A table. Every column has as many entries as there are labels. -/
structure Table where
  labels : List Cell
  columns : List (String × Data)

instance : Inhabited Table := ⟨[], []⟩

namespace Table

def height (t : Table) : Nat := t.labels.length

def width (t : Table) : Nat := t.columns.length

def names (t : Table) : List String := t.columns.map (·.1)

def isEmpty (t : Table) : Bool := t.labels.isEmpty || t.columns.isEmpty

def toCell (t : Table) : Cell := .table t.labels t.columns

def named (t : Table) (name : String) : List Data :=
  (t.columns.filter fun c => c.1 == name).map (·.2)

def has (t : Table) (name : String) : Bool :=
  t.columns.any fun c => c.1 == name

/-- A table with fresh labels from named lists of values, types inferred. All lists have one
length. -/
def ofLists (columns : List (String × List Cell)) : Table :=
  let height := match columns with | [] => 0 | (_, xs) :: _ => xs.length
  ⟨Column.freshLabels height, columns.map fun (n, xs) => (n, Data.inferEntries xs)⟩

def pickRows (t : Table) (positions : List Nat) : Table :=
  ⟨positions.filterMap (t.labels[·]?), t.columns.map fun (n, d) => (n, d.pick positions)⟩

def positionsWhere (mask : List Bool) : List Nat :=
  (mask.zipIdx.filter (·.1)).map (·.2)

def filterRows (t : Table) (mask : List Bool) : Table :=
  t.pickRows (positionsWhere mask)

def setColumn (t : Table) (name : String) (d : Data) : Table :=
  if t.has name then
    { t with columns := t.columns.map fun c => if c.1 == name then (name, d) else c }
  else { t with columns := t.columns ++ [(name, d)] }

/-- The columns of some names in that order, none if one is unknown. A repeated name gives all its
columns. -/
def selectNames? (t : Table) (names : List String) : Option Table :=
  if names.all t.has then
    some { t with columns := names.flatMap fun n => (t.named n).map fun d => (n, d) }
  else none

def relabelled (t : Table) : Table :=
  { t with labels := Column.freshLabels t.height }

def rows (t : Table) : List (List Cell) :=
  let lists := t.columns.map fun c => c.2.cells
  (List.range t.height).map fun i => lists.filterMap (·[i]?)

end Table

end TableQuery
