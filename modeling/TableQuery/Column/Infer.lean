import TableQuery.Cell.Compare
import TableQuery.Column

/-! The storage type of a list of values. Whole numbers, doubles and truth values get a plain type;
an absent value among numbers turns them to doubles; everything else is kept as objects. -/
namespace TableQuery

structure Census where
  absent : Bool := false
  noNumber : Bool := false
  float : Bool := false
  int : Bool := false
  bool : Bool := false
  other : Bool := false
  least : Int := 0
  greatest : Int := 0

namespace Census

def note (s : Census) : Cell → Census
  | .null => { s with absent := true }
  | c =>
    match c.num? with
    | some (.bool _) => { s with bool := true }
    | some (.int n) => { s with int := true, least := min s.least n, greatest := max s.greatest n }
    | some (.float x) => if x.isNaN then { s with noNumber := true } else { s with float := true }
    | none => { s with other := true }

def of (cells : List Cell) : Census :=
  cells.foldl note {}

def intKind? (s : Census) : Option IntKind :=
  if IntKind.int64.fits s.least && IntKind.int64.fits s.greatest then some .int64
  else if 0 ≤ s.least && IntKind.uint64.fits s.greatest then some .uint64
  else none

def gaps (s : Census) : Bool := s.absent || s.noNumber

def dtype (s : Census) : DType :=
  if s.other then .objects
  else if s.bool then if s.int || s.float || s.gaps then .objects else .bools
  else if s.int then
    match s.intKind? with
    | none => .objects
    | some k => if s.float || s.gaps then .floats else .ints k
  else if s.float || s.noNumber then .floats
  else .objects

end Census

namespace Cell

def asFloat (c : Cell) : Float :=
  match c.num? with
  | some n => n.toFloat
  | none => Binary64.nan

def asInt (c : Cell) : Int :=
  match c.num? with
  | some n => n.asInt?.getD 0
  | none => 0

def asBool (c : Cell) : Bool :=
  match c.num? with
  | some n => n.isTrue
  | none => false

end Cell

namespace Data

/-- The data of a list of values. An empty list is kept as objects. -/
def infer (cells : List Cell) : Data :=
  match (Census.of cells).dtype with
  | .ints k => .ints k (cells.map Cell.asInt)
  | .floats => .floats (cells.map Cell.asFloat)
  | .bools => .bools (cells.map Cell.asBool)
  | _ => .objects cells

/-- The data of a new column of a table: without rows it is a column of doubles. -/
def inferEntries (cells : List Cell) : Data :=
  if cells.isEmpty then .floats [] else infer cells

end Data

end TableQuery
