import TableQuery.Cell

/-! Columns: data with row labels and an optional name. -/
namespace TableQuery

structure Column where
  labels : List Cell
  name : Option String
  data : Data

namespace Column

def freshLabels (n : Nat) : List Cell :=
  (List.range n).map fun (i : Nat) => Cell.int i

def ofData (d : Data) (name : Option String) : Column :=
  ⟨freshLabels d.length, name, d⟩

def length (c : Column) : Nat := c.data.length

def toCell (c : Column) : Cell := .column c.labels c.name c.data

end Column

end TableQuery
