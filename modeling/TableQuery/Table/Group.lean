import TableQuery.Column.Aggregate
import TableQuery.Table.Distinct
import TableQuery.Table.Sort

/-! Grouping the rows of a table by keys, and what is computed of each group. Groups come in the
order of their keys, rows with a missing key belong to no group, and the rows of a group keep their
order. -/
namespace TableQuery

structure Grouping where
  table : Table
  /-- The names of the keys with the keys of each group. -/
  keys : List (String × Data)
  /-- The positions of the rows of each group. -/
  groups : List (List Nat)

namespace Grouping

/-- A group under way: its keys, and the positions of its rows, the latest first. -/
abbrev Bucket := List Cell × List Nat

def insertRow (keys : List Cell) (position : Nat) : List Bucket → List Bucket
  | [] => [(keys, [position])]
  | (ks, rows) :: rest =>
    if (keys.zip ks).all fun (a, b) => Data.sameObject a b then (ks, position :: rows) :: rest
    else (ks, rows) :: insertRow keys position rest

def keyedRows (height : Nat) (columns : List Data) : List (List Cell × Nat) :=
  let lists := columns.map fun d => d.cells.zip d.missing
  (List.range height).filterMap fun i =>
    match lists.mapM (·[i]?) with
    | some entries => if entries.any (·.2) then none else some (entries.map (·.1), i)
    | none => none

def ofKeyedRows (rows : List (List Cell × Nat)) : List (List Nat) :=
  let buckets := rows.foldl (fun buckets (keys, i) => insertRow keys i buckets) []
  (buckets.mergeSort fun a b => Cell.sortsBeforeAll a.1 b.1).map fun b => b.2.reverse

end Grouping

/-- The entries of a key at the first row of each group. Objects of one kind get their own storage
type. -/
def Data.keyEntries (d : Data) (groups : List (List Nat)) : Data :=
  match d.pick (groups.filterMap List.head?) with
  | .objects xs => Data.infer xs
  | d => d

def Table.groupByColumns (t : Table) (columns : List (String × Data)) : Grouping :=
  let groups := Grouping.ofKeyedRows (Grouping.keyedRows t.height (columns.map (·.2)))
  ⟨t, columns.map fun (name, d) => (name, d.keyEntries groups), groups⟩

/-- The rows of a table grouped by columns. Names that are not all columns may be the keys of the
rows themselves. -/
def Table.groupBy (t : Table) (keys : List String) : Except Fault Grouping :=
  if keys.length == t.height && !keys.all t.has then
    .ok (t.groupByColumns [("index", .objects (keys.map Cell.text))])
  else do
    let columns ← keys.mapM fun k => do return (k, ← t.column k)
    return t.groupByColumns columns

/-- What is computed of a column's groups: one of the known functions, or any other. -/
inductive Aggregator where
  | known (f : Aggregate)
  | custom (f : Column → Except Fault Value)

namespace Grouping

/-- One result for a group. A column of one entry counts as that entry. -/
def resultCell (v : Value) : Except Fault Cell :=
  match v with
  | .scalar c => .ok c
  | .column c _ =>
    match c.data.freeCells with
    | [entry] => .ok entry
    | _ => .error .badValue
  | .table _ => .error .badValue

/-- The results in the storage type of the column that they come from, if they fit in it without
loss. -/
def castBack (source : Data) (results : List Cell) : Data :=
  let plain := Data.infer results
  let isText (c : Cell) : Bool := match c with | .text _ => true | _ => c.isMissing
  match source with
  | .nullableInts k _ =>
    match plain.toMarkedInts k with
    | .ok xs => if results.all (fun c => !(c matches .text _)) then .nullableInts k xs else plain
    | .error _ => plain
  | .nullableFloats _ =>
    match plain.toMarkedFloats with
    | .ok xs => if results.all (fun c => !(c matches .text _)) then .nullableFloats xs else plain
    | .error _ => plain
  | .nullableBools _ =>
    match plain.toMarkedBools with
    | .ok xs => .nullableBools xs
    | .error _ => plain
  | .texts _ => if results.all isText then .texts plain.toTexts else plain
  | _ => plain

def runCustom (g : Grouping) (name : String) (d : Data) (f : Column → Except Fault Value) :
    Except Fault Data := do
  if g.groups.isEmpty then return d.pick []
  let results ← g.groups.mapM fun rows => do
    resultCell (← f ⟨rows.filterMap (g.table.labels[·]?), some name, d.pick rows⟩)
  return castBack d results

def aggregateColumn (g : Grouping) (name : String) (f : Aggregator) : Except Fault Data := do
  let d ← match g.table.named name with
    | [] => .error .missingKey
    | [d] => .ok d
    | _ => .error .badValue
  match f with
  | .known f => d.aggregate f g.groups
  | .custom f => g.runCustom name d f

/-- The keys and the aggregates of the groups as a table, in which no name is used twice. -/
def aggregates (g : Grouping) (asked : List (String × String × Aggregator)) :
    Except Fault Table := do
  if asked.isEmpty then throw .wrongType
  if !(asked.all fun a => g.table.has a.2.1) then throw .missingKey
  let results ← asked.mapM fun (name, column, f) => do return (name, ← g.aggregateColumn column f)
  let columns := g.keys ++ results
  let names := columns.map (·.1)
  if g.keys.any fun k => (names.filter (· == k.1)).length > 1 then throw .badValue
  return ⟨Column.freshLabels g.groups.length, columns⟩

end Grouping

end TableQuery
