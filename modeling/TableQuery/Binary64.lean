/-! Double precision numbers as exact dyadic fractions. A finite number is `± mantissa · 2^exponent`
in natural numbers, and a ratio of natural numbers is rounded to the nearest double, a half going to
the even neighbour. Everything that needs more than one rounding of its own is done on this view. -/
namespace TableQuery

/-- A finite double: `mantissa · 2^exponent`, with a sign that zero has too. -/
structure Binary64 where
  negative : Bool
  mantissa : Nat
  exponent : Int
  deriving Repr, DecidableEq

namespace Binary64

def nan : Float := Float.ofBits 0x7ff8000000000000

def infinity : Float := Float.ofBits 0x7ff0000000000000

/-- The parts of a finite double; none for an infinity and for the double that is no number. -/
def ofFloat? (x : Float) : Option Binary64 :=
  let bits := x.toBits.toNat
  let negative := bits / Nat.pow 2 63 == 1
  let biased : Nat := bits / Nat.pow 2 52 % 2048
  let fraction := bits % Nat.pow 2 52
  if biased == 2047 then none
  else if biased == 0 then some ⟨negative, fraction, -1074⟩
  else some ⟨negative, fraction + Nat.pow 2 52, (biased : Int) - 1075⟩

def signBit (x : Float) : Bool :=
  x.toBits.toNat / Nat.pow 2 63 == 1

def isFinite (x : Float) : Bool :=
  (ofFloat? x).isSome

/-- The quotient rounded to the nearest whole number, a half going to the even one. -/
def roundQuotient (num den : Nat) : Nat :=
  let q := num / den
  let r := num % den
  if 2 * r < den then q
  else if 2 * r == den then q + q % 2
  else q + 1

/-- The double nearest to the positive ratio `num / den`, as bits without a sign. -/
def ratioBits (num den : Nat) : Nat :=
  if num == 0 || den == 0 then 0
  else
    let scale : Int := (Nat.log2 num : Int) - (Nat.log2 den : Int)
    let low : Int := max (scale - 53) (-1074)
    let scaled (e : Int) : Nat :=
      if 0 ≤ e then roundQuotient num (den * Nat.pow 2 e.toNat)
      else roundQuotient (num * Nat.pow 2 (-e).toNat) den
    let exponent := if scaled low < Nat.pow 2 53 then low else low + 1
    let exponent := if scaled exponent ≤ Nat.pow 2 53 then exponent else exponent + 1
    let bits := (exponent + 1074).toNat * Nat.pow 2 52 + scaled exponent
    min bits (2047 * Nat.pow 2 52)

/-- The double nearest to `± num / den`. -/
def ofRatio (negative : Bool) (num den : Nat) : Float :=
  Float.ofBits (UInt64.ofNat (ratioBits num den + if negative then Nat.pow 2 63 else 0))

def ofInt (n : Int) : Float :=
  ofRatio (n < 0) n.natAbs 1

def toFloat (b : Binary64) : Float :=
  if 0 ≤ b.exponent then ofRatio b.negative (b.mantissa * Nat.pow 2 b.exponent.toNat) 1
  else ofRatio b.negative b.mantissa (Nat.pow 2 (-b.exponent).toNat)

def truncate (b : Binary64) : Int :=
  let magnitude : Nat :=
    if 0 ≤ b.exponent then b.mantissa * Nat.pow 2 b.exponent.toNat
    else b.mantissa / Nat.pow 2 (-b.exponent).toNat
  if b.negative then -(magnitude : Int) else magnitude

def isWhole (b : Binary64) : Bool :=
  if 0 ≤ b.exponent then true else b.mantissa % Nat.pow 2 (-b.exponent).toNat == 0

def compareInt (n : Int) (b : Binary64) : Ordering :=
  let signed : Int := if b.negative then -(b.mantissa : Int) else b.mantissa
  if 0 ≤ b.exponent then compare n (signed * Nat.pow 2 b.exponent.toNat)
  else compare (n * Nat.pow 2 (-b.exponent).toNat) signed

/-- The order of a whole number and any double; none against the double that is no number. -/
def compareIntFloat (n : Int) (x : Float) : Option Ordering :=
  match ofFloat? x with
  | some b => some (compareInt n b)
  | none =>
    if x.isNaN then none
    else if signBit x then some .gt
    else some .lt

/-- The remainder of the magnitudes, exact: both are brought to the smaller exponent first. -/
def remainder (a b : Binary64) : Binary64 :=
  let low := min a.exponent b.exponent
  let m := a.mantissa * Nat.pow 2 (a.exponent - low).toNat
  let n := b.mantissa * Nat.pow 2 (b.exponent - low).toNat
  ⟨a.negative, m % n, low⟩

end Binary64

/-- The remainder with the sign of the divisor. Division by zero and an infinite dividend have none.
-/
def floatMod (x y : Float) : Float :=
  match Binary64.ofFloat? x, Binary64.ofFloat? y with
  | some a, some b =>
    if b.mantissa == 0 then Binary64.nan
    else
      let r := a.remainder b
      if r.mantissa == 0 then (if b.negative then -0.0 else 0.0)
      else if r.negative == b.negative then r.toFloat
      else r.toFloat + y
  | some a, none =>
    if y.isNaN then Binary64.nan
    else if a.mantissa == 0 then (if Binary64.signBit y then -0.0 else 0.0)
    else if a.negative == Binary64.signBit y then x
    else y
  | none, _ => Binary64.nan

end TableQuery
