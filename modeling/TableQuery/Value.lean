import TableQuery.Column.Cast
import TableQuery.Column.Compare
import TableQuery.Column.Numeric
import TableQuery.Table

/-! Values of expressions: a scalar, a column or a table, and the operations that work on all three.
Columns are matched by their row labels before they are combined; comparison asks for the same
labels on both sides. -/
namespace TableQuery

/-- Which stored column a value was read from. Two readings of one stored column are the same
column. -/
structure Origin where
  frame : Nat
  column : String
  deriving Repr, DecidableEq

inductive Value where
  | scalar (c : Cell)
  | column (c : Column) (origin : Option Origin)
  | table (t : Table)

instance : Inhabited Value := ⟨.scalar .null⟩

namespace Value

def ofColumn (c : Column) : Value := .column c none

def ofCell : Cell → Value
  | .column labels name data => .column ⟨labels, name, data⟩ none
  | .table labels columns => .table ⟨labels, columns⟩
  | c => .scalar c

def toCell : Value → Cell
  | .scalar c => c
  | .column c _ => c.toCell
  | .table t => t.toCell

def isStructured : Value → Bool
  | .scalar _ => false
  | _ => true

/-- Whether the value as a condition holds. Columns and tables are no conditions. -/
def truth : Value → Except Fault Bool
  | .scalar c => c.truth
  | _ => .error .badValue

end Value

namespace Column

def arith (op : Arith) (a b : Column) : Except Fault Column := do
  let (labels, l, r) := a.align b
  return ⟨labels, sharedName a.name b.name, ← Data.arith op (.data l) (.data r)⟩

/-- Arithmetic of a column and a scalar, the column standing on the left or not. -/
def arithScalar (op : Arith) (a : Column) (c : Cell) (columnLeft : Bool) : Except Fault Column := do
  let d ←
    if columnLeft then Data.arith op (.data a.data) (.scalar c)
    else Data.arith op (.scalar c) (.data a.data)
  return { a with data := d }

def compares (op : Comparison) (a b : Column) : Except Fault Column :=
  if Cell.sameAll a.labels b.labels then
    return ⟨a.labels, sharedName a.name b.name, ← Data.compares op (.data a.data) (.data b.data)⟩
  else .error .badValue

def comparesScalar (op : Comparison) (a : Column) (c : Cell) : Except Fault Column :=
  return { a with data := ← Data.compares op (.data a.data) (.scalar c) }

def map (f : Data → Except Fault Data) (a : Column) : Except Fault Column :=
  return { a with data := ← f a.data }

end Column

namespace Table

def mapData (f : Data → Except Fault Data) (t : Table) : Except Fault Table := do
  let columns ← t.columns.mapM fun (n, d) => do return (n, ← f d)
  return { t with columns }

/-- Two tables column by column: a column that only one of them has is missing in the result. -/
def zipData (f : Data → Data → Except Fault Data) (s t : Table) : Except Fault Table := do
  let labels := if Cell.sameAll s.labels t.labels then s.labels else unionLabels s.labels t.labels
  let names :=
    if s.names == t.names then s.names
    else (s.names ++ t.names.filter fun n => !s.has n).mergeSort fun a b => !(b < a)
  let columns ← names.mapM fun n =>
    match s.named n, t.named n with
    | d :: _, e :: _ => do return (n, ← f (d.relabel s.labels labels) (e.relabel t.labels labels))
    | _, _ => .ok (n, .floats (labels.map fun _ => Binary64.nan))
  return ⟨labels, columns⟩

end Table

namespace Value

/-- The outcome of arithmetic: a value, or a number that is not real. -/
inductive Outcome where
  | real (v : Value)
  | imaginary

/-- Arithmetic of two values. A text as a template takes a column as a whole. -/
def arith (op : Arith) (a b : Value) : Except Fault Outcome :=
  match a, b with
  | .scalar x, .scalar y => do
    match ← Cell.arith op x y with
    | .real c => return .real (.scalar c)
    | .imaginary => return .imaginary
  | .scalar (.text s), b =>
    if op == .mod then do
      match ← Cell.arith .mod (.text s) b.toCell with
      | .real c => return .real (.scalar c)
      | .imaginary => return .imaginary
    else
      match b with
      | .column c _ => return .real (ofColumn (← c.arithScalar op (.text s) false))
      | .table t =>
        return .real (.table (← t.mapData fun d => Data.arith op (.scalar (.text s)) (.data d)))
      | .scalar y => do
        match ← Cell.arith op (.text s) y with
        | .real c => return .real (.scalar c)
        | .imaginary => return .imaginary
  | .column x _, .column y _ => return .real (ofColumn (← x.arith op y))
  | .column x _, .scalar c => return .real (ofColumn (← x.arithScalar op c true))
  | .scalar c, .column y _ => return .real (ofColumn (← y.arithScalar op c false))
  | .table s, .table t =>
    return .real (.table (← s.zipData (fun d e => Data.arith op (.data d) (.data e)) t))
  | .table t, .scalar c =>
    return .real (.table (← t.mapData fun d => Data.arith op (.data d) (.scalar c)))
  | .scalar c, .table t =>
    return .real (.table (← t.mapData fun d => Data.arith op (.scalar c) (.data d)))
  | .table t, .column c _ => return .real (.table (crossed t c))
  | .column c _, .table t => return .real (.table (crossed t c))
where
  /-- A table and a column share nothing: the column's labels name columns of the result. -/
  crossed (t : Table) (c : Column) : Table :=
    let added := (c.labels.map Cell.display).filter fun n => !t.has n
    let missing : Data := .floats (t.labels.map fun _ => Binary64.nan)
    ⟨t.labels, (t.names ++ added).map fun n => (n, missing)⟩

def compares (op : Comparison) (a b : Value) : Except Fault Value :=
  match a, b with
  | .scalar x, .scalar y => return .scalar (← Cell.compares op x y)
  | .column x _, .column y _ => return ofColumn (← x.compares op y)
  | .column x _, .scalar c => return ofColumn (← x.comparesScalar op c)
  | .scalar c, .column y _ => return ofColumn (← y.comparesScalar op.flip c)
  | .table s, .table t =>
    if s.names == t.names && Cell.sameAll s.labels t.labels then
      return .table (← s.zipData (fun d e => Data.compares op (.data d) (.data e)) t)
    else .error .badValue
  | .table t, .scalar c => return .table (← t.mapData (tableEntry op c))
  | .scalar c, .table t => return .table (← t.mapData (tableEntry op.flip c))
  | .table _, .column _ _ => .error .badValue
  | .column _ _, .table _ => .error .badValue
where
  /-- A scalar next to a table's column. -/
  tableEntry (op : Comparison) (c : Cell) (d : Data) : Except Fault Data :=
    Data.compares op (.data d) (.scalar c)

def negate : Value → Except Fault Value
  | .scalar c => return .scalar (← c.negate)
  | .column c _ => return ofColumn (← c.map Data.negate)
  | .table t => return .table (← t.mapData Data.negate)

def invert : Value → Except Fault Value
  | .scalar c => return .scalar (← c.invert)
  | .column c _ => return ofColumn (← c.map Data.invert)
  | .table t => return .table (← t.mapData Data.invert)

def toNumeric : Value → Except Fault Value
  | .column c _ => return ofColumn (← c.map Data.toNumeric)
  | .table _ => .error .wrongType
  | .scalar c =>
    match c with
    | .na => .ok (.scalar (.packed (.float Binary64.nan)))
    | .text _ => do
      match (← Reading.of c).num? with
      | some n => return .scalar (.packed n)
      | none => return .scalar (.packed (.float Binary64.nan))
    | .list items => do
      let _ ← items.mapM Reading.of
      return .scalar c
    | c => .ok (.scalar c)

def isMissing : Value → Value
  | .scalar c => .scalar (.bool c.isMissing)
  | .column c _ => ofColumn { c with data := .bools c.data.missing }
  | .table t => .table { t with columns := t.columns.map fun (n, d) => (n, .bools d.missing) }

/-- The value in a named storage type. A scalar or a list is made a column first, and a packed
number stays a scalar. -/
def cast (name : String) (v : Value) : Except Fault Value :=
  match CastType.ofName? name with
  | none => .error .wrongType
  | some target =>
    match v with
    | .column c _ => return ofColumn (← c.map (Data.cast target))
    | .table t => return .table (← t.mapData (Data.cast target))
    | .scalar (.packed n) => castPacked target n
    | .scalar .null => return ofColumn (Column.ofData (← Data.cast target (.objects [])) none)
    | .scalar (.list items) =>
      return ofColumn (Column.ofData (← Data.cast target (Data.infer items)) none)
    | .scalar c => return ofColumn (Column.ofData (← Data.cast target (Data.infer [c])) none)
where
  /-- A packed number changes only to plain types. -/
  castPacked (target : CastType) (n : Num) : Except Fault Value :=
    match target with
    | .plainText => .ok (.scalar (.text n.display))
    | .storage .objects => .ok (.scalar n.toCell)
    | .storage (.ints k) => do
      match ← Data.toInts k (Data.infer [n.toCell]) with
      | m :: _ => return .scalar (.packed (.int m))
      | [] => .error .badValue
    | .storage .floats => .ok (.scalar (.packed (.float n.toFloat)))
    | .storage .bools => .ok (.scalar (.packed (.bool n.isTrue)))
    | .storage _ => .error .wrongType

end Value

end TableQuery
