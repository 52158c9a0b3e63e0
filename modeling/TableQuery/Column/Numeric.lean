import TableQuery.Column.Arith
import TableQuery.Decimal.Reader

/-! Columns read as numbers. Numeric columns stay; texts are read as the fields of a data file are,
and a text that is no number is refused. -/
namespace TableQuery

/-- An entry read as a number, or found to be missing. -/
inductive Reading where
  | bool (b : Bool)
  | int (n : Int)
  | float (x : Float)
  /-- A missing entry. -/
  | gap

namespace Reading

def of : Cell → Except Fault Reading
  | .null => .ok .gap
  | .na => .ok .gap
  | .bool b => .ok (.bool b)
  | .int n => .ok (.int n)
  | .float x => .ok (.float x)
  | .packed (.bool b) => .ok (.bool b)
  | .packed (.int n) => .ok (.int n)
  | .packed (.float x) => .ok (.float x)
  | .text s =>
    if s == "" then .ok .gap
    else
      match Decimal.readField? s with
      | some (.whole n) =>
        if IntKind.int64.low ≤ n && n ≤ IntKind.uint64.high then .ok (.int n) else .error .badValue
      | some (.real x) => .ok (.float x)
      | none => .error .badValue
  | .list items => if items.isEmpty then .ok .gap else .error .wrongType
  | .column _ _ _ => .error .wrongType
  | .table _ _ => .error .wrongType

def num? : Reading → Option Num
  | .bool b => some (.bool b)
  | .int n => some (.int n)
  | .float x => some (.float x)
  | .gap => none

end Reading

namespace Data

/-- The plain type of some readings, gaps being doubles that are no number. -/
def ofReadings (readings : List Reading) : Data :=
  let cells : List Cell := readings.map fun r =>
    match r.num? with
    | some n => n.toCell
    | none => .float Binary64.nan
  let census := Census.of cells
  if cells.isEmpty then .ints .int64 []
  else if census.float || census.noNumber then .floats (cells.map Cell.asFloat)
  else if census.int then
    match census.intKind? with
    | some k => .ints k (cells.map Cell.asInt)
    | none => .floats (cells.map Cell.asFloat)
  else .bools (cells.map Cell.asBool)

def ofTextReadings (readings : List Reading) : Data :=
  let gaps := readings.map fun r => r.num?.isNone
  let known := readings.filter fun r => r.num?.isSome
  if known.isEmpty && !readings.isEmpty then .nullableFloats (readings.map fun _ => none)
  else
    let base := ofReadings (readings.map fun
      | .gap => (known.head?.getD (.int 0))
      | r => r)
    base.mark gaps

def toNumeric (d : Data) : Except Fault Data :=
  match d with
  | .objects xs => return ofReadings (← xs.mapM Reading.of)
  | .texts xs => do
    let readings ← xs.mapM fun
      | some s => Reading.of (.text s)
      | none => .ok .gap
    return ofTextReadings readings
  | d => .ok d

end Data

end TableQuery
