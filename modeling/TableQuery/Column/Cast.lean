import TableQuery.Column.Member
import TableQuery.Decimal.Reader

/-! Conversion of columns to a named storage type. Plain targets have no room for marks; a target
with marks takes missing entries; text is always possible. -/
namespace TableQuery

/-- A type that a column can be converted to. Plain text is kept as objects. -/
inductive CastType where
  | storage (type : DType)
  | plainText
  deriving Repr, DecidableEq

namespace CastType

def intKinds : List (String × IntKind) :=
  [("int8", .int8), ("int16", .int16), ("int32", .int32), ("int64", .int64), ("uint8", .uint8),
   ("uint16", .uint16), ("uint32", .uint32), ("uint64", .uint64), ("int", .int64),
   ("uint", .uint64), ("i1", .int8), ("i2", .int16), ("i4", .int32), ("i8", .int64), ("u1", .uint8),
   ("u2", .uint16), ("u4", .uint32), ("u8", .uint64), ("byte", .int8), ("short", .int16),
   ("intc", .int32), ("long", .int64), ("longlong", .int64), ("intp", .int64), ("int_", .int64),
   ("ubyte", .uint8), ("ushort", .uint16), ("uintc", .uint32), ("ulong", .uint64),
   ("ulonglong", .uint64), ("uintp", .uint64), ("b", .int8), ("h", .int16), ("i", .int32),
   ("l", .int64), ("q", .int64), ("p", .int64), ("B", .uint8), ("H", .uint16), ("I", .uint32),
   ("L", .uint64), ("Q", .uint64), ("P", .uint64)]

def markedKinds : List (String × IntKind) :=
  [("Int8", .int8), ("Int16", .int16), ("Int32", .int32), ("Int64", .int64),
   ("UInt8", .uint8), ("UInt16", .uint16), ("UInt32", .uint32), ("UInt64", .uint64)]

def others : List (String × CastType) :=
  [("float", .storage .floats), ("float64", .storage .floats), ("double", .storage .floats),
   ("f8", .storage .floats), ("d", .storage .floats),
   ("bool", .storage .bools), ("bool_", .storage .bools), ("?", .storage .bools),
   ("object", .storage .objects), ("object_", .storage .objects), ("O", .storage .objects),
   ("str", .plainText), ("str_", .plainText), ("U", .plainText),
   ("string", .storage .texts), ("boolean", .storage .nullableBools),
   ("Float64", .storage .nullableFloats)]

def ofName? (name : String) : Option CastType :=
  match intKinds.lookup name with
  | some k => some (.storage (.ints k))
  | none =>
    match markedKinds.lookup name with
    | some k => some (.storage (.nullableInts k))
    | none => others.lookup name

end CastType

namespace Cell

/-- The whole number that a scalar converts to. Texts are read, fractions dropped. -/
def toInt : Cell → Except Fault Int
  | .text s =>
    match Decimal.readInt? s with
    | some n => .ok n
    | none => .error .badValue
  | c =>
    match c.num? with
    | some n => n.truncate
    | none => .error .wrongType

def toDouble : Cell → Except Fault Float
  | .null => .ok Binary64.nan
  | .text s =>
    match Decimal.readFloat? s with
    | some x => .ok x
    | none => .error .badValue
  | c =>
    match c.num? with
    | some n => n.toFloat?
    | none => .error .wrongType

end Cell

namespace Data

/-- A double as a machine integer. What does not fit becomes the smallest value. -/
def floatToInt (k : IntKind) (x : Float) : Int :=
  match Binary64.ofFloat? x with
  | some b => if IntKind.int64.fits b.truncate then k.wrap b.truncate else k.wrap IntKind.int64.low
  | none => k.wrap IntKind.int64.low

def objectToInt (k : IntKind) (c : Cell) : Except Fault Int := do
  let n ← c.toInt
  if k.fits n then return n else .error .overflow

def toInts (k : IntKind) (d : Data) : Except Fault (List Int) :=
  match d with
  | .ints _ xs => .ok (xs.map k.wrap)
  | .floats xs => if xs.all Binary64.isFinite then .ok (xs.map (floatToInt k)) else .error .badValue
  | .bools xs => .ok (xs.map fun b => if b then 1 else 0)
  | .objects xs => xs.mapM (objectToInt k)
  | .nullableInts _ xs =>
    if d.hasMarks then .error .badValue else .ok (xs.map fun x => k.wrap (x.getD 0))
  | .nullableFloats xs =>
    if d.hasMarks then .error .badValue else .ok (xs.map fun x => floatToInt k (x.getD 0))
  | .nullableBools xs =>
    if d.hasMarks then .error .badValue else .ok (xs.map fun x => if x.getD false then 1 else 0)
  | .texts _ => d.freeCells.mapM (objectToInt k)

def toFloats (d : Data) : Except Fault (List Float) :=
  match d with
  | .ints _ xs => .ok (xs.map Binary64.ofInt)
  | .floats xs => .ok xs
  | .bools xs => .ok (xs.map fun b => if b then 1.0 else 0.0)
  | .objects xs => xs.mapM Cell.toDouble
  | .nullableInts _ xs => .ok (xs.map fun | some n => Binary64.ofInt n | none => Binary64.nan)
  | .nullableFloats xs => .ok (xs.map (·.getD Binary64.nan))
  | .nullableBools xs =>
    .ok (xs.map fun | some b => if b then 1.0 else 0.0 | none => Binary64.nan)
  | .texts xs => xs.mapM fun
    | some s => Cell.toDouble (.text s)
    | none => .ok Binary64.nan

/-- Conversion to plain truth values: what is not zero and not empty holds. -/
def toBools (d : Data) : Except Fault (List Bool) :=
  match d with
  | .ints _ xs => .ok (xs.map (· != 0))
  | .floats xs => .ok (xs.map (· != 0.0))
  | .bools xs => .ok xs
  | .objects xs => xs.mapM Cell.truth
  | .texts _ => d.freeCells.mapM Cell.truth
  | d => if d.hasMarks then .error .badValue else .ok (d.hidden.freeCells.map Cell.asBool)

def toPlainTexts (d : Data) : List Cell :=
  d.freeCells.map fun c => .text c.display

def toTexts (d : Data) : List (Option String) :=
  List.zipWith (fun c m => if m then none else some c.display) d.freeCells d.missing

inductive ObjectKind where
  | numbers | truths | texts | other
  deriving DecidableEq

def objectKind (xs : List Cell) : ObjectKind :=
  let present := xs.filter fun c => !c.isMissing
  let isNum (c : Cell) : Bool :=
    match c.num? with | some (.bool _) => false | some _ => true | none => false
  let isTruth (c : Cell) : Bool := match c.num? with | some (.bool _) => true | _ => false
  let isText (c : Cell) : Bool := match c with | .text _ => true | _ => false
  let hasNumber := present.any fun c => c.num?.isSome
  if present.all isNum then .numbers
  else if present.all isTruth then .truths
  else if present.all isText then .texts
  else if hasNumber && present.any (fun c => match c.num? with | some (.int _) => true | _ => false)
  then .numbers
  else .other

def wholeInts (k : IntKind) (xs : List (Option Float)) : Except Fault (List (Option Int)) :=
  xs.mapM fun
    | none => .ok none
    | some x =>
      match Binary64.ofFloat? x with
      | some b =>
        if b.isWhole && k.fits b.truncate then .ok (some b.truncate) else .error .wrongType
      | none => .error .wrongType

def markNaN (xs : List Float) : List (Option Float) :=
  xs.map fun x => if x.isNaN then none else some x

def entryToWhole (k : IntKind) (c : Cell) : Except Fault Int :=
  match c with
  | .text _ => objectToInt k c
  | c =>
    match c.num? with
    | some (.float x) =>
      match Binary64.ofFloat? x with
      | some b => if b.isWhole then objectToInt k c else .error .wrongType
      | none => .error .wrongType
    | some _ => objectToInt k c
    | none => .error .wrongType

def toMarkedInts (k : IntKind) (d : Data) : Except Fault (List (Option Int)) :=
  match d with
  | .ints _ xs => xs.mapM fun n => if k.fits n then .ok (some n) else .error .wrongType
  | .floats xs => wholeInts k (markNaN xs)
  | .bools xs => .ok (xs.map fun b => some (if b then 1 else 0))
  | .objects xs =>
    if objectKind xs == .other then .error .wrongType
    else xs.mapM fun c => if c.isMissing then .ok none else return some (← entryToWhole k c)
  | .nullableInts _ xs => .ok (xs.map (·.map k.wrap))
  | .nullableFloats xs => .ok (xs.map (·.map (floatToInt k)))
  | .nullableBools xs => .ok (xs.map (·.map fun b => if b then 1 else 0))
  | .texts xs => xs.mapM fun
    | some s => return some (← objectToInt k (.text s))
    | none => .ok none

def toMarkedFloats (d : Data) : Except Fault (List (Option Float)) :=
  match d with
  | .nullableInts _ xs => .ok (xs.map (·.map Binary64.ofInt))
  | .nullableFloats xs => .ok xs
  | .nullableBools xs => .ok (xs.map (·.map fun b => if b then 1.0 else 0.0))
  | .texts xs => xs.mapM fun
    | some s => return some (← Cell.toDouble (.text s))
    | none => .ok none
  | .objects xs =>
    if objectKind xs == .other then .error .wrongType
    else xs.mapM fun c => if c.isMissing then .ok none else return some (← c.toDouble)
  | d => return markNaN (← d.toFloats)

def truthOfNum (n : Num) : Except Fault Bool :=
  if n.compares .eq (.int 0) then .ok false
  else if n.compares .eq (.int 1) then .ok true
  else .error .wrongType

/-- Conversion to truth values with marks. Without marks before, only zero and one stand for them.
-/
def toMarkedBools (d : Data) : Except Fault (List (Option Bool)) :=
  match d with
  | .bools xs => .ok (xs.map some)
  | .nullableBools xs => .ok xs
  | .nullableInts _ xs => .ok (xs.map (·.map (· != 0)))
  | .nullableFloats xs => .ok (xs.map (·.map (· != 0.0)))
  | .ints _ xs => xs.mapM fun n => return some (← truthOfNum (.int n))
  | .floats xs =>
    xs.mapM fun x => if x.isNaN then .ok none else return some (← truthOfNum (.float x))
  | .texts xs => if xs.all Option.isNone then .ok (xs.map fun _ => none) else .error .wrongType
  | .objects xs =>
    if objectKind xs == .texts && !(xs.all Cell.isMissing) then .error .wrongType
    else xs.mapM fun c =>
      if c.isMissing then .ok none
      else
        match c.num? with
        | some n => return some (← truthOfNum n)
        | none => .error .wrongType

def cast (target : CastType) (d : Data) : Except Fault Data :=
  match target with
  | .plainText => .ok (.objects d.toPlainTexts)
  | .storage type =>
    match type with
    | .ints k => return .ints k (← d.toInts k)
    | .floats => return .floats (← d.toFloats)
    | .bools => return .bools (← d.toBools)
    | .objects => .ok (.objects d.freeCells)
    | .nullableInts k => return .nullableInts k (← d.toMarkedInts k)
    | .nullableFloats => return .nullableFloats (← d.toMarkedFloats)
    | .nullableBools => return .nullableBools (← d.toMarkedBools)
    | .texts => .ok (.texts d.toTexts)

/-- Data made from values, of a named type if one is given. -/
def ofValues (type : Option String) (cells : List Cell) : Except Fault Data :=
  match type with
  | none => .ok (infer cells)
  | some "object" => .ok (.objects cells)
  | some name =>
    match CastType.ofName? name with
    | some target => (infer cells).cast target
    | none => .error .wrongType

end Data

end TableQuery
