import TableQuery.Cell.Order
import TableQuery.Column

/-! Matching rows by their labels. Two columns with the same labels are matched row by row; others
are brought to the sorted union of their labels, and a row that only one of them has is missing in
the other. -/
namespace TableQuery

namespace Data

/-- The entries at some positions. Where there is none a missing entry stands, for which the type
may change. -/
def reindex (d : Data) (positions : List (Option Nat)) : Data :=
  let isWhole := positions.all fun p => p.any (· < d.length)
  let at? {α : Type} (xs : List α) (p : Option Nat) : Option α := p.bind (xs[·]?)
  match d with
  | .ints k xs =>
    if isWhole then .ints k (positions.filterMap (at? xs))
    else .floats (positions.map fun p =>
      match at? xs p with | some n => Binary64.ofInt n | none => Binary64.nan)
  | .floats xs => .floats (positions.map fun p => (at? xs p).getD Binary64.nan)
  | .bools xs =>
    if isWhole then .bools (positions.filterMap (at? xs))
    else .objects (positions.map fun p =>
      match at? xs p with | some b => .bool b | none => .float Binary64.nan)
  | .objects xs => .objects (positions.map fun p => (at? xs p).getD (.float Binary64.nan))
  | .nullableInts k xs => .nullableInts k (positions.map fun p => (at? xs p).join)
  | .nullableFloats xs => .nullableFloats (positions.map fun p => (at? xs p).join)
  | .nullableBools xs => .nullableBools (positions.map fun p => (at? xs p).join)
  | .texts xs => .texts (positions.map fun p => (at? xs p).join)

end Data

def unionLabels (ls rs : List Cell) : List Cell :=
  let added := rs.filter fun r => !ls.any (Cell.same r)
  (ls ++ added).mergeSort Cell.sortsBefore

def positionOf? (labels : List Cell) (label : Cell) : Option Nat :=
  labels.findIdx? (Cell.same label)

def Data.relabel (d : Data) (labels target : List Cell) : Data :=
  d.reindex (target.map (positionOf? labels))

def sharedName (a b : Option String) : Option String :=
  if a == b then a else none

namespace Column

def align (a b : Column) : List Cell × Data × Data :=
  if Cell.sameAll a.labels b.labels then (a.labels, a.data, b.data)
  else
    let labels := unionLabels a.labels b.labels
    (labels, a.data.relabel a.labels labels, b.data.relabel b.labels labels)

end Column

end TableQuery
