import TableQuery.Binary64

/-! The fewest decimal digits that read back to the same double, and of those the nearest to it.
The search is exact: a double owns the interval of reals that round to it, and for one digit, two
digits, up to seventeen, its two neighbours on that decimal grid are tested against the interval. -/
namespace TableQuery.Decimal

/-- A positive decimal `digits · 10^exponent`. -/
structure Digits where
  digits : Nat
  exponent : Int
  deriving Repr, DecidableEq

/-- The reals that round to a double, over one common denominator. -/
structure Interval where
  low : Nat
  value : Nat
  high : Nat
  denominator : Nat
  closed : Bool

/-- The interval of a positive double. Below a power of two the gap is half as wide. -/
def Interval.of (b : Binary64) : Interval :=
  let edge := b.mantissa == Nat.pow 2 52 && b.exponent > -1074
  let low := 4 * b.mantissa - (if edge then 1 else 2)
  let value := 4 * b.mantissa
  let high := 4 * b.mantissa + 2
  let shift := b.exponent - 2
  if 0 ≤ shift then
    let p := Nat.pow 2 shift.toNat
    ⟨low * p, value * p, high * p, 1, b.mantissa % 2 == 0⟩
  else ⟨low, value, high, Nat.pow 2 (-shift).toNat, b.mantissa % 2 == 0⟩

/-- A point of the grid of step `10^power`, scaled to the interval's denominator. -/
def scaled (i : Interval) (point : Nat) (power : Int) : Nat × Nat :=
  if 0 ≤ power then (point * Nat.pow 10 power.toNat * i.denominator, 1)
  else (point * i.denominator, Nat.pow 10 (-power).toNat)

def Interval.holds (i : Interval) (point : Nat) (power : Int) : Bool :=
  let (num, den) := scaled i point power
  if i.closed then i.low * den ≤ num && num ≤ i.high * den
  else i.low * den < num && num < i.high * den

def Interval.floor (i : Interval) (power : Int) : Nat :=
  if 0 ≤ power then i.value / (i.denominator * Nat.pow 10 power.toNat)
  else i.value * Nat.pow 10 (-power).toNat / i.denominator

/-- Twice the distance of the value above a point: less or more than a step says which neighbour is
nearer. -/
def Interval.halfway (i : Interval) (point : Nat) (power : Int) : Ordering :=
  if 0 ≤ power then
    compare (2 * i.value) ((2 * point + 1) * Nat.pow 10 power.toNat * i.denominator)
  else compare (2 * i.value * Nat.pow 10 (-power).toNat) ((2 * point + 1) * i.denominator)

/-- The nearer of a point and its successor, an exact half going to the even one. -/
def Interval.nearer (i : Interval) (point : Nat) (power : Int) : Nat :=
  match i.halfway point power with
  | .lt => point
  | .gt => point + 1
  | .eq => point + point % 2

/-- The decimal exponent of the value, from an estimate that is at most four too small. -/
def Interval.magnitude (i : Interval) : Int :=
  let estimate : Int :=
    (((Nat.log2 i.value : Int) - (Nat.log2 i.denominator : Int) - 1) * 30103).fdiv 100000 - 1
  let atLeast (k : Int) : Bool := 1 ≤ i.floor k
  if atLeast (estimate + 4) then estimate + 4
  else if atLeast (estimate + 3) then estimate + 3
  else if atLeast (estimate + 2) then estimate + 2
  else if atLeast (estimate + 1) then estimate + 1
  else estimate

/-- The first grid, from the coarsest on, with a point in the interval. -/
def search (i : Interval) (magnitude : Int) : Nat → Nat → Digits
  | 0, _ => ⟨i.floor (magnitude - 16), magnitude - 16⟩
  | fuel + 1, digits =>
    let power := magnitude - digits + 1
    let point := i.floor power
    match i.holds point power, i.holds (point + 1) power with
    | true, true => ⟨i.nearer point power, power⟩
    | true, false => ⟨point, power⟩
    | false, true => ⟨point + 1, power⟩
    | false, false => search i magnitude fuel (digits + 1)

def Digits.trim (d : Digits) : Nat → Digits
  | 0 => d
  | fuel + 1 =>
    if d.digits != 0 && d.digits % 10 == 0 then
      Digits.trim ⟨d.digits / 10, d.exponent + 1⟩ fuel
    else d

def shortest (b : Binary64) : Digits :=
  let i := Interval.of b
  (search i i.magnitude 17 1).trim 20

end TableQuery.Decimal
