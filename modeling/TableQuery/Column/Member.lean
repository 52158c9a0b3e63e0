import TableQuery.Column.Arith

/-! Membership of a column's entries among some values. Only columns with marks answer in their own
way: a marked entry is a member exactly if a mark is among the values. -/
namespace TableQuery

namespace Data

/-- Data as an array of plain storage: marks turn whole numbers to doubles, and the rest to objects.
-/
def toArray (d : Data) : Data :=
  match d with
  | .nullableInts k xs =>
    if d.hasMarks then .floats (xs.map fun | some n => Binary64.ofInt n | none => Binary64.nan)
    else .ints k (xs.map (·.getD 0))
  | .nullableFloats xs => .floats (xs.map (·.getD Binary64.nan))
  | .nullableBools xs => if d.hasMarks then .objects d.freeCells else .bools (xs.map (·.getD false))
  | .texts _ => .objects d.freeCells
  | d => d

/-- Equality of numbers in one machine type: a double that is no number equals itself. -/
def sameMachine (a b : Num) : Bool :=
  match a.asInt?, b.asInt? with
  | some m, some n => m == n
  | _, _ =>
    let x := a.toFloat
    let y := b.toFloat
    x == y || (x.isNaN && y.isNaN)

/-- Equality of objects in a hash table: a double that is no number equals itself. -/
def sameObject (a b : Cell) : Bool :=
  match a.num?, b.num? with
  | some (.float x), some (.float y) => x == y || (x.isNaN && y.isNaN)
  | _, _ => a.same b

def plainMembers (self values : Data) : List Bool :=
  match NumOperand.ofData? self, NumOperand.ofData? values with
  | some s, some v =>
    let vs := v.nums 0
    (s.nums 0).map fun a => vs.any (sameMachine a)
  | _, _ =>
    let vs := values.freeCells
    self.freeCells.map fun a => vs.any (sameObject a)

def holdsMark : Data → Bool
  | .objects xs => xs.any fun | .na => true | _ => false
  | _ => false

def members (self values : Data) : Data :=
  let array := values.toArray
  if self.isMarked then
    let found := plainMembers self.hidden array
    let answer := array.holdsMark
    .nullableBools (List.zipWith (fun f m => some (if m then answer else f)) found self.marks)
  else .bools (plainMembers self.toArray array)

end Data

end TableQuery
