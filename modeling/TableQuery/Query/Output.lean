import TableQuery.Value

/-! The table that a select answers, made from the values of its targets. Columns set the rows, and
scalars fill them; where there are no rows a scalar makes one. Types are inferred anew. -/
namespace TableQuery

/-- The pairs with one set: in its place if the name is there, at the end otherwise. -/
def setNamed {α : Type} (pairs : List (String × α)) (name : String) (a : α) : List (String × α) :=
  match pairs with
  | [] => [(name, a)]
  | (n, old) :: rest => if n == name then (n, a) :: rest else (n, old) :: setNamed rest name a

/-- The entries in the storage type that they have on their own. Whole numbers without gaps keep
their width. -/
def Data.anew (d : Data) : Data :=
  match d with
  | .nullableInts k (x :: xs) =>
    if d.hasMarks then inferEntries d.cells else .ints k ((x :: xs).map (·.getD 0))
  | d => inferEntries d.cells

namespace Table

def startWith (t : Table) (name : String) (v : Value) : Table :=
  let columns := t.columns.map fun (n, d) => (n, d.reindex [none])
  ({ labels := Column.freshLabels 1, columns } : Table).setColumn name (Data.infer [v.toCell])

/-- A value under a name in all rows. A table fits only if it has one column, and a list is spread
over the rows. -/
def fillWith (t : Table) (name : String) (v : Value) : Except Fault Table :=
  match v with
  | .table u =>
    match u.columns with
    | [(_, d)] => .ok (t.setColumn name (d.relabel u.labels t.labels))
    | _ => .error .badValue
  | .scalar (.list items) =>
    if items.length == t.height then .ok (t.setColumn name (Data.infer items)) else .error .badValue
  | v => .ok (t.setColumn name (Data.infer (List.replicate t.height v.toCell)))

def addScalar (t : Table) (name : String) (v : Value) : Except Fault Table :=
  if t.isEmpty then .ok (t.startWith name v) else t.fillWith name v

/-- The columns among some values, under their names. Of two with one name the later one counts. -/
def columnsOf (values : List (String × Value)) : List (String × Data) :=
  values.foldl (fun columns (name, v) =>
    match v with
    | .column c _ => setNamed columns name c.data.anew
    | _ => columns) []

def heightOf : List (String × Data) → Nat
  | [] => 0
  | (_, d) :: _ => d.length

def addScalars (t : Table) (values : List (String × Value)) : Except Fault Table :=
  values.foldlM (fun t (name, v) =>
    match v with
    | .column _ _ => .ok t
    | v => addScalar t name v) t

/-- The table of some named values. Columns come first, and of two values with one name the later
one counts. -/
def ofValues (values : List (String × Value)) : Except Fault Table := do
  let columns := columnsOf values
  let height := heightOf columns
  if !(columns.all fun c => c.2.length == height) then throw .badValue
  let filled ← addScalars ⟨Column.freshLabels height, columns⟩ values
  match filled.selectNames? (values.map (·.1)) with
  | some t => return t
  | none => throw .missingKey

end Table

namespace Data

/-- The entry of a table with one row and one column. Numbers are packed. -/
def singleCell (d : Data) : Cell :=
  match d.cells.head? with
  | none => .null
  | some c =>
    match d with
    | .objects _ => c
    | .texts _ => c
    | .nullableBools _ => c
    | _ =>
      match c.num? with
      | some n => .packed n
      | none => .packed (.float Binary64.nan)

end Data

/-- A table as a value: a single entry is a scalar, a single column a column. -/
def Table.reduced (t : Table) : Value :=
  match t.columns with
  | [(name, d)] =>
    if t.height == 1 then Value.ofCell d.singleCell else .column ⟨t.labels, some name, d⟩ none
  | _ => .table t

/-- A name without backquotes at its ends, unless it has a dot. -/
def bareName (name : String) : String :=
  let cs := name.toList
  let isMark (c : Char) : Bool := c == '`'
  if cs.head?.any isMark && cs.getLast?.any isMark && !cs.contains '.' then
    String.ofList ((cs.dropWhile isMark).reverse.dropWhile isMark).reverse
  else name

def Table.bareNames (t : Table) : Table :=
  { t with columns := t.columns.map fun (n, d) => (bareName n, d) }

end TableQuery
