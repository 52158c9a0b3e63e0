import TableQuery.Cell.Compare
import TableQuery.Cell.Display

/-! Arithmetic of scalars. Exact numbers have unbounded integers and refuse to divide by zero;
packed numbers have 64-bit integers that wrap and doubles that divide by zero. Texts can be joined,
repeated and filled in; a missing value makes the result missing. -/
namespace TableQuery

inductive Arith where
  | add | sub | mul | div | mod | pow
  deriving Repr, DecidableEq

namespace Num

/-- The double, if the integer is not too large for one. -/
def toFloat? (n : Num) : Except Fault Float :=
  let x := n.toFloat
  match n with
  | .int _ => if Binary64.isFinite x then .ok x else .error .overflow
  | _ => .ok x

def divideInts (m n : Int) : Except Fault Float :=
  if n == 0 then .error .divisionByZero
  else
    let x := Binary64.ofRatio ((m < 0) != (n < 0)) m.natAbs n.natAbs
    if Binary64.isFinite x then .ok x else .error .overflow

def isWholeFloat (x : Float) : Bool :=
  match Binary64.ofFloat? x with
  | some b => b.isWhole
  | none => false

/-- Powers of doubles. The outcome is none where the power is no real number. -/
def powFloats (x y : Float) : Except Fault (Option Float) :=
  if x == 0.0 && y < 0.0 then .error .divisionByZero
  else if x < 0.0 && Binary64.isFinite x && Binary64.isFinite y && !isWholeFloat y then .ok none
  else
    let z := Float.pow x y
    if !Binary64.isFinite z && !z.isNaN && Binary64.isFinite x && Binary64.isFinite y then
      .error .overflow
    else .ok (some z)

def exactFloats (op : Arith) (x y : Float) : Except Fault (Option Num) :=
  match op with
  | .add => .ok (some (.float (x + y)))
  | .sub => .ok (some (.float (x - y)))
  | .mul => .ok (some (.float (x * y)))
  | .div => if y == 0.0 then .error .divisionByZero else .ok (some (.float (x / y)))
  | .mod => if y == 0.0 then .error .divisionByZero else .ok (some (.float (floatMod x y)))
  | .pow => return (← powFloats x y).map .float

def exactInts (op : Arith) (m n : Int) : Except Fault (Option Num) :=
  match op with
  | .add => .ok (some (.int (m + n)))
  | .sub => .ok (some (.int (m - n)))
  | .mul => .ok (some (.int (m * n)))
  | .div => return some (.float (← divideInts m n))
  | .mod => if n == 0 then .error .divisionByZero else .ok (some (.int (Int.fmod m n)))
  | .pow =>
    if 0 ≤ n then .ok (some (.int (m.pow n.toNat)))
    else do
      let x ← toFloat? (.int m)
      let y ← toFloat? (.int n)
      return (← powFloats x y).map .float

/-- Arithmetic of exact numbers. The outcome is none where it is no real number. -/
def exact (op : Arith) (a b : Num) : Except Fault (Option Num) :=
  match a.asInt?, b.asInt? with
  | some m, some n => exactInts op m n
  | _, _ => do exactFloats op (← a.toFloat?) (← b.toFloat?)

def machineFloats (op : Arith) (x y : Float) : Float :=
  match op with
  | .add => x + y
  | .sub => x - y
  | .mul => x * y
  | .div => x / y
  | .mod => floatMod x y
  | .pow => Float.pow x y

/-- Arithmetic of integers in machine arithmetic, quotients apart. A remainder by zero is zero. -/
def machineInts (k : IntKind) (op : Arith) (m n : Int) : Except Fault Int :=
  match op with
  | .add => .ok (k.wrap (m + n))
  | .sub => .ok (k.wrap (m - n))
  | .mul => .ok (k.wrap (m * n))
  | .div => .ok 0
  | .mod => .ok (if n == 0 then 0 else Int.fmod m n)
  | .pow => if n < 0 then .error .badValue else .ok (wrappedPow k m n.toNat (Nat.log2 n.toNat + 1))
where
  /-- The power modulo the type's size. The last argument bounds the binary digits of the exponent.
  -/
  wrappedPow (k : IntKind) (m : Int) (n : Nat) : Nat → Int
    | 0 => 1
    | fuel + 1 =>
      let half := wrappedPow k (k.wrap (m * m)) (n / 2) fuel
      if n % 2 == 0 then half else k.wrap (half * m)

def machine (op : Arith) (a b : Num) : Except Fault Num :=
  match a, b with
  | .bool p, .bool q =>
    match op with
    | .add => .ok (.bool (p || q))
    | .sub => .error .wrongType
    | .mul => .ok (.bool (p && q))
    | .div => .ok (.float (machineFloats .div (toFloat (.bool p)) (toFloat (.bool q))))
    | _ => do
      let m : Int := if p then 1 else 0
      let n : Int := if q then 1 else 0
      return .int (← machineInts .int8 op m n)
  | _, _ =>
    match a.asInt?, b.asInt? with
    | some m, some n =>
      if !IntKind.int64.fits m || !IntKind.int64.fits n then .error .overflow
      else
        match op with
        | .div => .ok (.float (machineFloats .div (toFloat (.int m)) (toFloat (.int n))))
        | _ => return .int (← machineInts .int64 op m n)
    | _, _ => .ok (.float (machineFloats op a.toFloat b.toFloat))

end Num

namespace Num

def toCell : Num → Cell
  | .bool b => .bool b
  | .int n => .int n
  | .float x => .float x

def truncate : Num → Except Fault Int
  | .float x =>
    match Binary64.ofFloat? x with
    | some b => .ok b.truncate
    | none => if x.isNaN then .error .badValue else .error .overflow
  | n => .ok (n.asInt?.getD 0)

end Num

/-- Fills the places of a template, one of which may ask for the value. The flag says whether it was
used. -/
def fillTemplate (value : Cell) : List Char → Except Fault (String × Bool)
  | [] => .ok ("", false)
  | ['%'] => .error .badValue
  | '%' :: c :: rest => do
    let (tail, used) ← fillTemplate value rest
    if c == '%' then return ("%" ++ tail, used)
    else if used then .error .wrongType
    else if c == 's' then return (value.display ++ tail, true)
    else if c == 'r' then return (value.quoted ++ tail, true)
    else if c == 'd' || c == 'i' then
      match value.num? with
      | some n => return (Decimal.intText (← n.truncate) ++ tail, true)
      | none => .error .wrongType
    else .error .badValue
  | c :: rest => do
    let (tail, used) ← fillTemplate value rest
    return (String.ofList [c] ++ tail, used)

/-- The outcome of an operation on scalars: a scalar, or a number that is not real. -/
inductive Scalar where
  | real (c : Cell)
  | imaginary

namespace Cell

def arithNums (op : Arith) (a b : Cell) (m n : Num) : Except Fault Scalar :=
  if a.isPacked || b.isPacked then return .real (.packed (← Num.machine op m n))
  else
    match Num.exact op m n with
    | .ok (some r) => .ok (.real r.toCell)
    | .ok none => .ok .imaginary
    | .error e => .error e

def repeatText (s : String) (n : Int) : String :=
  String.join (List.replicate n.toNat s)

def isOne (n : Num) : Bool := n.compares .eq (.int 1)

def isZero (n : Num) : Bool := n.compares .eq (.int 0)

/-- Arithmetic with a missing operand. Any power to the zero and any power of one are known. -/
def arithMissing (op : Arith) (a b : Cell) : Except Fault Scalar :=
  match a, b with
  | .na, .na => .ok (.real .na)
  | .na, .text _ => .ok (.real .na)
  | .text _, .na => if op == .mod then .error .wrongType else .ok (.real .na)
  | .na, b =>
    match b.num? with
    | some n =>
      if op == .pow && isZero n then
        .ok (.real (match n with | .float _ => .float 1.0 | _ => .int 1))
      else .ok (.real .na)
    | none => .error .wrongType
  | a, .na =>
    match a.num? with
    | some m => if op == .pow && isOne m then .ok (.real a) else .ok (.real .na)
    | none => .error .wrongType
  | _, _ => .error .wrongType

/-- Whether a value is one that a template looks up names in, so that it need not be used up. -/
def isLookup : Cell → Bool
  | .list _ | .column _ _ _ | .table _ _ => true
  | _ => false

def arith (op : Arith) (a b : Cell) : Except Fault Scalar :=
  match a, b with
  | .text s, b =>
    match op with
    | .add =>
      match b with
      | .text t => .ok (.real (.text (s ++ t)))
      | .na => .ok (.real .na)
      | _ => .error .wrongType
    | .mul =>
      match b with
      | .na => .ok (.real .na)
      | _ =>
        match b.num? with
        | some (.float _) => .error .wrongType
        | some n => .ok (.real (.text (repeatText s (n.asInt?.getD 0))))
        | none => .error .wrongType
    | .mod => do
      let (filled, used) ← fillTemplate b s.toList
      if used || b.isLookup then return .real (.text filled) else .error .wrongType
    | _ => if b matches .na then .ok (.real .na) else .error .wrongType
  | a, .text t =>
    match op with
    | .mul =>
      match a.num? with
      | some (.float _) => .error .wrongType
      | some n => .ok (.real (.text (repeatText t (n.asInt?.getD 0))))
      | none => if a matches .na then .ok (.real .na) else .error .wrongType
    | _ => if a matches .na then .ok (.real .na) else .error .wrongType
  | .list xs, .list ys => if op == .add then .ok (.real (.list (xs ++ ys))) else .error .wrongType
  | .list xs, b => repeatList op xs b
  | a, .list ys => repeatList op ys a
  | a, b =>
    match a.num?, b.num? with
    | some m, some n => arithNums op a b m n
    | _, _ => arithMissing op a b
where
  /-- A list some times over; nothing else is defined for a list and a scalar. -/
  repeatList (op : Arith) (xs : List Cell) (n : Cell) : Except Fault Scalar :=
    match op, n.num? with
    | .mul, some (.float _) => .error .wrongType
    | .mul, some n => .ok (.real (.list (List.replicate (n.asInt?.getD 0).toNat xs).flatten))
    | _, _ => .error .wrongType

/-- Arithmetic of two scalars inside a column, where every result must be a value. -/
def arithEntry (op : Arith) (a b : Cell) : Except Fault Cell := do
  match ← arith op a b with
  | .real c => return c
  | .imaginary => .error .wrongType

def negate : Cell → Except Fault Cell
  | .na => .ok .na
  | .bool b => .ok (.int (if b then -1 else 0))
  | .int n => .ok (.int (-n))
  | .float x => .ok (.float (-x))
  | .packed (.int n) => .ok (.packed (.int (IntKind.int64.wrap (-n))))
  | .packed (.float x) => .ok (.packed (.float (-x)))
  | _ => .error .wrongType

/-- The bits of a scalar turned over; of a packed truth value its opposite. -/
def invert : Cell → Except Fault Cell
  | .na => .ok .na
  | .bool b => .ok (.int (if b then -2 else -1))
  | .int n => .ok (.int (-n - 1))
  | .packed (.bool b) => .ok (.packed (.bool !b))
  | .packed (.int n) => .ok (.packed (.int (-n - 1)))
  | _ => .error .wrongType

end Cell

end TableQuery
