import TableQuery.Column.Cast
import TableQuery.Table

/-! Cleaning a table: rows and columns without any entry are dropped, the rows are numbered anew,
and every column gets a storage type that marks missing entries. What is dropped is planned once, on
the table as it was then. -/
namespace TableQuery

structure CleaningPlan where
  emptyRows : List Cell
  dropColumns : List Cell

namespace Data

def isWordFloat (x : Float) : Bool :=
  match Binary64.ofFloat? x with
  | some b => b.isWhole && IntKind.int64.fits b.truncate
  | none => false

/-- Doubles as words with marks, if all that are there are whole; otherwise with marks only. -/
def markFloats (xs : List Float) : Data :=
  if xs.all fun x => x.isNaN || isWordFloat x then
    .nullableInts .int64 (xs.map fun x => if x.isNaN then none else some (floatToInt .int64 x))
  else .nullableFloats (markNaN xs)

def markObjects (xs : List Cell) : Data :=
  let present := xs.filter fun c => !c.isMissing
  let isText (c : Cell) : Bool := match c with | .text _ => true | _ => false
  let isTruth (c : Cell) : Bool := match c.num? with | some (.bool _) => true | _ => false
  let isInt (c : Cell) : Bool := match c.num? with | some (.int _) => true | _ => false
  let isNum (c : Cell) : Bool :=
    match c.num? with | some (.int _) => true | some (.float _) => true | _ => false
  if present.isEmpty then .objects xs
  else if present.all isText then .texts (toTexts (.objects xs))
  else if present.all isTruth then
    .nullableBools (xs.map fun c => if c.isMissing then none else some c.asBool)
  else if present.all isInt then
    .nullableInts .int64 (xs.map fun c => if c.isMissing then none else some c.asInt)
  else if present.all isNum then
    .nullableFloats (xs.map fun c => if c.isMissing then none else some c.asFloat)
  else .objects xs

def withMarks : Data → Data
  | .ints k xs => .nullableInts k (xs.map some)
  | .floats xs => markFloats xs
  | .bools xs => .nullableBools (xs.map some)
  | .objects xs => markObjects xs
  | d => d

end Data

namespace Table

def emptyRowMask (t : Table) : List Bool :=
  t.columns.foldl (fun mask c => List.zipWith (· && ·) mask c.2.missing)
    (t.labels.map fun _ => true)

def cleaningPlan (t : Table) : CleaningPlan :=
  ⟨((t.labels.zip t.emptyRowMask).filter (·.2)).map (·.1),
   (t.columns.filter fun c => c.2.missing.all id).map fun c => .text c.1⟩

def dropColumns (t : Table) (names : List Cell) : Except Fault Table :=
  if names.all fun n => t.names.any fun m => n.same (.text m) then
    .ok { t with columns := t.columns.filter fun c => !names.any fun n => n.same (.text c.1) }
  else .error .missingKey

def dropRows (t : Table) (labels : List Cell) : Except Fault Table :=
  if labels.all fun l => t.labels.any (Data.sameObject l) then
    .ok (t.filterRows (t.labels.map fun l => !labels.any (Data.sameObject l)))
  else .error .missingKey

def clean (t : Table) (plan : CleaningPlan) : Except Fault Table := do
  let t ← t.dropColumns plan.dropColumns
  let t ← t.dropRows plan.emptyRows
  let t := t.relabelled
  return { t with columns := t.columns.map fun (n, d) => (n, d.withMarks) }

end Table

end TableQuery
