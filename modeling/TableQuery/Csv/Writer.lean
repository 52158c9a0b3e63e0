import TableQuery.Cell.Display
import TableQuery.Table

/-! Tables written as comma separated text. All columns are brought to one storage type first, so
that whole numbers next to doubles are written as doubles. -/
namespace TableQuery.Csv

def needsQuotes (cs : List Char) : Bool :=
  cs.any fun c => c == ',' || c == '"' || c == '\n' || c == '\r'

def quoteField (cs : List Char) : String :=
  "\"" ++ String.ofList (cs.flatMap fun c => if c == '"' then ['"', '"'] else [c]) ++ "\""

def writeField (s : String) : String :=
  if needsQuotes s.toList then quoteField s.toList else s

/-- A line. An empty field that stands alone is quoted. -/
def writeRecord (fields : List String) : String :=
  match fields with
  | [""] => "\"\"\n"
  | fields => String.intercalate "," (fields.map writeField) ++ "\n"

def entryText (c : Cell) : String :=
  if c.isMissing then "" else c.display

/-- Whether all columns are of whole numbers and doubles, with at least one of doubles. -/
def mixesNumbers (t : Table) : Bool :=
  let kinds := t.columns.map fun c => c.2.dtype
  let isInt : DType → Bool | .ints _ => true | _ => false
  kinds.all (fun k => isInt k || k == .floats) &&
    (kinds.any (· == .floats) || (kinds.any (· == .ints .uint64) && kinds.any (· == .ints .int64)))

def commonCells (asDoubles : Bool) (d : Data) : List Cell :=
  match d with
  | .ints _ xs => if asDoubles then xs.map fun n => .float (Binary64.ofInt n) else d.freeCells
  | d => d.freeCells

def write (t : Table) : String :=
  let asDoubles := mixesNumbers t
  let lists := t.columns.map fun c => commonCells asDoubles c.2
  let row (i : Nat) : String :=
    writeRecord (lists.map fun xs => match xs[i]? with | some c => entryText c | none => "")
  writeRecord t.names ++ String.join ((List.range t.height).map row)

end TableQuery.Csv
