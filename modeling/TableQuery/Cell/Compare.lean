import TableQuery.Binary64
import TableQuery.Cell

/-! Comparison of scalars. Numbers of all forms compare by value, exactly; texts compare by code
points; a missing value makes the answer missing; values of different kinds are unequal and have no
order. -/
namespace TableQuery

inductive Comparison where
  | eq | ne | lt | le | gt | ge
  deriving Repr, DecidableEq

namespace Comparison

def flip : Comparison → Comparison
  | .eq => .eq
  | .ne => .ne
  | .lt => .gt
  | .le => .ge
  | .gt => .lt
  | .ge => .le

def accepts : Comparison → Ordering → Bool
  | .eq, o => o == .eq
  | .ne, o => o != .eq
  | .lt, o => o == .lt
  | .le, o => o != .gt
  | .gt, o => o == .gt
  | .ge, o => o != .lt

/-- The answer for values that cannot be equal; none if there is no order either. -/
def ofUnequal? : Comparison → Option Bool
  | .eq => some false
  | .ne => some true
  | _ => none

/-- The answer for numbers that have no order, one of them being no number. -/
def ofUnordered (op : Comparison) : Bool :=
  op == .ne

def isEquality : Comparison → Bool
  | .eq | .ne => true
  | _ => false

end Comparison

namespace Num

def asInt? : Num → Option Int
  | .bool b => some (if b then 1 else 0)
  | .int n => some n
  | .float _ => none

def toFloat : Num → Float
  | .bool b => if b then 1.0 else 0.0
  | .int n => Binary64.ofInt n
  | .float x => x

def orderFloats? (x y : Float) : Option Ordering :=
  if x < y then some .lt else if y < x then some .gt else if x == y then some .eq else none

def order? (a b : Num) : Option Ordering :=
  match a.asInt?, b.asInt? with
  | some m, some n => some (compare m n)
  | some m, none => Binary64.compareIntFloat m b.toFloat
  | none, some n => (Binary64.compareIntFloat n a.toFloat).map Ordering.swap
  | none, none => orderFloats? a.toFloat b.toFloat

def isTrue : Num → Bool
  | .bool b => b
  | .int n => n != 0
  | .float x => x != 0.0

def compares (op : Comparison) (a b : Num) : Bool :=
  match a.order? b with
  | some o => op.accepts o
  | none => op.ofUnordered

end Num

namespace Cell

def num? : Cell → Option Num
  | .bool b => some (.bool b)
  | .int n => some (.int n)
  | .float x => some (.float x)
  | .packed n => some n
  | _ => none

def isPacked : Cell → Bool
  | .packed _ => true
  | _ => false

/-- Whether a value as a condition holds. A missing value and a whole column are no conditions. -/
def truth : Cell → Except Fault Bool
  | .null => .ok false
  | .na => .error .wrongType
  | .text s => .ok (s != "")
  | .list items => .ok !items.isEmpty
  | .column _ _ _ => .error .badValue
  | .table _ _ => .error .badValue
  | .bool b => .ok b
  | .int n => .ok (n != 0)
  | .float x => .ok (x != 0.0)
  | .packed n => .ok n.isTrue

def orderTexts (s t : String) : Ordering :=
  compareOfLessAndEq s t

mutual

def same : Cell → Cell → Bool
  | .null, .null => true
  | .na, .na => true
  | .text s, .text t => s == t
  | .list xs, .list ys => sameAll xs ys
  | a, b =>
    match a.num?, b.num? with
    | some m, some n => m.compares .eq n
    | _, _ => false

def sameAll : List Cell → List Cell → Bool
  | [], [] => true
  | a :: as, b :: bs => same a b && sameAll as bs
  | _, _ => false

end

/-- A truth value, packed if a packed number took part. -/
def verdict (isPacked b : Bool) : Cell :=
  if isPacked then .packed (.bool b) else .bool b

mutual

def compares (op : Comparison) (a b : Cell) : Except Fault Cell :=
  match a, b with
  | .na, .na => .ok .na
  | .na, .text _ => .ok .na
  | .text _, .na => .ok .na
  | .text s, .text t => .ok (.bool (op.accepts (orderTexts s t)))
  | .list xs, .list ys => comparesLists op xs ys
  | .null, .null =>
    match op with
    | .eq => .ok (.bool true)
    | .ne => .ok (.bool false)
    | _ => .error .wrongType
  | a, b =>
    match a.num?, b.num? with
    | some m, some n => .ok (verdict (a.isPacked || b.isPacked) (m.compares op n))
    | some _, none =>
      match b with
      | .na => .ok .na
      | _ => unequal op
    | none, some _ =>
      match a with
      | .na => .ok .na
      | _ => unequal op
    | none, none => unequal op

/-- Comparison of two lists: the first items that differ decide, then the lengths. -/
def comparesLists (op : Comparison) (xs ys : List Cell) : Except Fault Cell :=
  match xs, ys with
  | [], [] => .ok (.bool (op.accepts .eq))
  | [], _ :: _ => .ok (.bool (op.accepts .lt))
  | _ :: _, [] => .ok (.bool (op.accepts .gt))
  | x :: xs, y :: ys =>
    if same x y then comparesLists op xs ys
    else if op.isEquality then .ok (.bool (op == .ne))
    else compares op x y

def unequal (op : Comparison) : Except Fault Cell :=
  match op.ofUnequal? with
  | some b => .ok (.bool b)
  | none => .error .wrongType

end

end Cell

end TableQuery
