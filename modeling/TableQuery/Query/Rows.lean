import TableQuery.Value

/-! Choosing rows by a column: truth values choose rows, and anything else is taken for the names of
columns. -/
namespace TableQuery

inductive Choice where
  /-- The rows where it holds. -/
  | rows (mask : List Bool)
  /-- The columns of these names. -/
  | names (names : List Cell)

/-- What a column's data chooses. A missing truth value chooses no row, and is refused among
objects. -/
def Data.choice : Data → Except Fault Choice
  | .bools bs => .ok (.rows bs)
  | .nullableBools bs => .ok (.rows (bs.map (·.getD false)))
  | .objects xs =>
    let isTruth (c : Cell) : Bool := match c.num? with | some (.bool _) => true | _ => false
    if xs.isEmpty then .ok (.names [])
    else if xs.all isTruth then .ok (.rows (xs.map Cell.asBool))
    else if xs.all fun c => isTruth c || c.isMissing then .error .badValue
    else .ok (.names xs)
  | d => .ok (.names d.cells)

namespace Table

def chooseColumns (t : Table) (names : List Cell) : Except Fault Table := do
  let texts ← names.mapM fun
    | .text s => Except.ok s
    | _ => .error .missingKey
  match t.selectNames? texts with
  | some chosen => return chosen
  | none => throw .missingKey

def choose (t : Table) (d : Data) : Except Fault Table := do
  match ← d.choice with
  | .rows mask => if mask.length == t.height then return t.filterRows mask else throw .badValue
  | .names names => t.chooseColumns names

/-- What a column chooses, where truth values belong to the rows of their labels. Every row needs
one. -/
def chooseByLabel (t : Table) (c : Column) : Except Fault Table := do
  match ← c.data.choice with
  | .rows mask =>
    if Cell.sameAll c.labels t.labels then return t.filterRows mask
    else
      match t.labels.mapM (positionOf? c.labels) with
      | some positions => return t.filterRows (positions.map fun i => mask[i]?.getD false)
      | none => throw .failure
  | .names names => t.chooseColumns names

/-- The rows from a position on, or up to one; a negative position counts from the end. -/
def clampPosition (t : Table) (n : Int) : Nat :=
  if n < 0 then (n + t.height).toNat else min n.toNat t.height

def dropRowsBefore (t : Table) (n : Int) : Table :=
  t.pickRows ((List.range t.height).drop (t.clampPosition n))

def takeRowsBefore (t : Table) (n : Int) : Table :=
  t.pickRows ((List.range t.height).take (t.clampPosition n))

def afterBound (t : Table) : Option Int → Table
  | some n => t.dropRowsBefore n
  | none => t

def beforeBound (t : Table) : Option Int → Table
  | some n => t.takeRowsBefore n
  | none => t

end Table

end TableQuery
