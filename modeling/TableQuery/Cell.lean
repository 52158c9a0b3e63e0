import TableQuery.Fault

/-! Values. A cell is one entry of a column, or a scalar of an expression; a column's data is a list
of entries of one storage type. Numbers come in two forms: those written in a query are exact, and
those read out of a typed column are packed, which means that they follow machine arithmetic. -/
namespace TableQuery

inductive IntKind where
  | int8 | int16 | int32 | int64
  | uint8 | uint16 | uint32 | uint64
  deriving Repr, DecidableEq

namespace IntKind

def bits : IntKind → Nat
  | .int8 | .uint8 => 8
  | .int16 | .uint16 => 16
  | .int32 | .uint32 => 32
  | .int64 | .uint64 => 64

def isSigned : IntKind → Bool
  | .int8 | .int16 | .int32 | .int64 => true
  | _ => false

def name : IntKind → String
  | .int8 => "int8"
  | .int16 => "int16"
  | .int32 => "int32"
  | .int64 => "int64"
  | .uint8 => "uint8"
  | .uint16 => "uint16"
  | .uint32 => "uint32"
  | .uint64 => "uint64"

def nullableName : IntKind → String
  | .int8 => "Int8"
  | .int16 => "Int16"
  | .int32 => "Int32"
  | .int64 => "Int64"
  | .uint8 => "UInt8"
  | .uint16 => "UInt16"
  | .uint32 => "UInt32"
  | .uint64 => "UInt64"

def low (k : IntKind) : Int :=
  if k.isSigned then -(Nat.pow 2 (k.bits - 1) : Nat) else 0

def high (k : IntKind) : Int :=
  if k.isSigned then (Nat.pow 2 (k.bits - 1) : Nat) - 1 else (Nat.pow 2 k.bits : Nat) - 1

def fits (k : IntKind) (n : Int) : Bool :=
  k.low ≤ n && n ≤ k.high

def wrap (k : IntKind) (n : Int) : Int :=
  if k.isSigned then Int.bmod n (Nat.pow 2 k.bits) else n % (Nat.pow 2 k.bits : Nat)

end IntKind

/-- A number; truth values count as 0 and 1. -/
inductive Num where
  | bool (b : Bool)
  | int (n : Int)
  | float (x : Float)

mutual

/-- A value: a scalar, or a whole column or table where one stands for a scalar. -/
inductive Cell where
  /-- The absent value of scalars. -/
  | null
  /-- The missing entry of a column, which spreads through operations. -/
  | na
  | bool (b : Bool)
  | int (n : Int)
  | float (x : Float)
  | text (s : String)
  /-- A number read out of a typed column. -/
  | packed (n : Num)
  | list (items : List Cell)
  | column (labels : List Cell) (name : Option String) (data : Data)
  | table (labels : List Cell) (columns : List (String × Data))

/-- The entries of a column. The first four storage types have no missing entries of their own. -/
inductive Data where
  | ints (kind : IntKind) (entries : List Int)
  | floats (entries : List Float)
  | bools (entries : List Bool)
  | objects (entries : List Cell)
  | nullableInts (kind : IntKind) (entries : List (Option Int))
  | nullableFloats (entries : List (Option Float))
  | nullableBools (entries : List (Option Bool))
  | texts (entries : List (Option String))

end

instance : Inhabited Cell := ⟨.null⟩

instance : Inhabited Data := ⟨.objects []⟩

inductive DType where
  | ints (kind : IntKind)
  | floats
  | bools
  | objects
  | nullableInts (kind : IntKind)
  | nullableFloats
  | nullableBools
  | texts
  deriving Repr, DecidableEq

def DType.name : DType → String
  | .ints k => k.name
  | .floats => "float64"
  | .bools => "bool"
  | .objects => "object"
  | .nullableInts k => k.nullableName
  | .nullableFloats => "Float64"
  | .nullableBools => "boolean"
  | .texts => "string"

namespace Data

def dtype : Data → DType
  | .ints k _ => .ints k
  | .floats _ => .floats
  | .bools _ => .bools
  | .objects _ => .objects
  | .nullableInts k _ => .nullableInts k
  | .nullableFloats _ => .nullableFloats
  | .nullableBools _ => .nullableBools
  | .texts _ => .texts

def length : Data → Nat
  | .ints _ xs => xs.length
  | .floats xs => xs.length
  | .bools xs => xs.length
  | .objects xs => xs.length
  | .nullableInts _ xs => xs.length
  | .nullableFloats xs => xs.length
  | .nullableBools xs => xs.length
  | .texts xs => xs.length

/-- The entries one by one. Out of a column with missing values come packed numbers. -/
def cells : Data → List Cell
  | .ints _ xs => xs.map .int
  | .floats xs => xs.map .float
  | .bools xs => xs.map .bool
  | .objects xs => xs
  | .nullableInts _ xs => xs.map fun | some n => .packed (.int n) | none => .na
  | .nullableFloats xs => xs.map fun | some x => .packed (.float x) | none => .na
  | .nullableBools xs => xs.map fun | some b => .packed (.bool b) | none => .na
  | .texts xs => xs.map fun | some s => .text s | none => .na

def freeCells : Data → List Cell
  | .nullableInts _ xs => xs.map fun | some n => .int n | none => .na
  | .nullableFloats xs => xs.map fun | some x => .float x | none => .na
  | .nullableBools xs => xs.map fun | some b => .bool b | none => .na
  | d => d.cells

def arrange (d : Data) (f : {α : Type} → List α → List α) : Data :=
  match d with
  | .ints k xs => .ints k (f xs)
  | .floats xs => .floats (f xs)
  | .bools xs => .bools (f xs)
  | .objects xs => .objects (f xs)
  | .nullableInts k xs => .nullableInts k (f xs)
  | .nullableFloats xs => .nullableFloats (f xs)
  | .nullableBools xs => .nullableBools (f xs)
  | .texts xs => .texts (f xs)

/-- The entries at some positions, in that order; positions outside are left out. -/
def pick (d : Data) (positions : List Nat) : Data :=
  d.arrange fun xs => positions.filterMap (xs[·]?)

/-- The entries of one, then those of the other. Data of different storage types becomes objects. -/
def append : Data → Data → Data
  | .ints k xs, .ints k' ys => if k = k' then .ints k (xs ++ ys) else .objects ((xs ++ ys).map .int)
  | .floats xs, .floats ys => .floats (xs ++ ys)
  | .bools xs, .bools ys => .bools (xs ++ ys)
  | .objects xs, .objects ys => .objects (xs ++ ys)
  | .nullableInts k xs, .nullableInts k' ys =>
    if k = k' then .nullableInts k (xs ++ ys)
    else .objects ((xs ++ ys).map fun | some n => .int n | none => .na)
  | .nullableFloats xs, .nullableFloats ys => .nullableFloats (xs ++ ys)
  | .nullableBools xs, .nullableBools ys => .nullableBools (xs ++ ys)
  | .texts xs, .texts ys => .texts (xs ++ ys)
  | d, e => .objects (d.freeCells ++ e.freeCells)

end Data

/-- Whether a value is missing: absent, missing, or the double that is no number. -/
def Cell.isMissing : Cell → Bool
  | .null | .na => true
  | .float x => x.isNaN
  | .packed (.float x) => x.isNaN
  | _ => false

namespace Data

/-- Which entries are missing. In columns with missing values only the marked ones are. -/
def missing : Data → List Bool
  | .ints _ xs => xs.map fun _ => false
  | .floats xs => xs.map Float.isNaN
  | .bools xs => xs.map fun _ => false
  | .objects xs => xs.map Cell.isMissing
  | .nullableInts _ xs => xs.map Option.isNone
  | .nullableFloats xs => xs.map Option.isNone
  | .nullableBools xs => xs.map Option.isNone
  | .texts xs => xs.map Option.isNone

def hasMarks : Data → Bool
  | .nullableInts _ xs => xs.any Option.isNone
  | .nullableFloats xs => xs.any Option.isNone
  | .nullableBools xs => xs.any Option.isNone
  | .texts xs => xs.any Option.isNone
  | _ => false

end Data

end TableQuery
