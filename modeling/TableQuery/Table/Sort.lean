import TableQuery.Table

/-! Sorting the rows of a table by some of its columns. Missing entries come last in both
directions, and rows with equal keys keep their order. -/
namespace TableQuery

/-- A key of a sort: the entries, none where one is missing, and the direction. -/
structure SortKey where
  entries : List (Option Cell)
  ascending : Bool

namespace SortKey

/-- Whether all entries that are there can be compared: all numbers, or all texts. -/
def isOrdered (key : SortKey) : Bool :=
  let present := key.entries.filterMap id
  let isText (c : Cell) : Bool := match c with | .text _ => true | _ => false
  present.length ≤ 1 || present.all (fun c => c.num?.isSome) || present.all isText

def before (key : SortKey) (i j : Nat) : Bool :=
  match key.entries[i]?.join, key.entries[j]?.join with
  | some a, some b => if key.ascending then !b.sortsBefore a else !a.sortsBefore b
  | some _, none => true
  | none, _ => false

end SortKey

def SortKey.keepsOrder (keys : List SortKey) (i j : Nat) : Bool :=
  match keys with
  | [] => true
  | key :: rest =>
    if key.before i j then true else if key.before j i then false else keepsOrder rest i j

def Data.sortKey (d : Data) (ascending : Bool) : Except Fault SortKey :=
  let key : SortKey :=
    ⟨List.zipWith (fun c m => if m then none else some c) d.cells d.missing, ascending⟩
  if key.isOrdered then .ok key else .error .wrongType

def Table.column (t : Table) (name : String) : Except Fault Data :=
  match t.named name with
  | [] => .error .missingKey
  | [d] => .ok d
  | _ => .error .badValue

def Table.sortKeys (t : Table) (fields : List (String × Bool)) : Except Fault (List SortKey) := do
  let columns ← fields.mapM fun (name, ascending) => do return (← t.column name, ascending)
  columns.mapM fun (d, ascending) => d.sortKey ascending

def Table.sortBy (t : Table) (fields : List (String × Bool)) : Except Fault Table := do
  let keys ← t.sortKeys fields
  return t.pickRows ((List.range t.height).mergeSort (SortKey.keepsOrder keys))

end TableQuery
