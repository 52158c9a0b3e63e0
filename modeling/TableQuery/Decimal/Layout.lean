import TableQuery.Decimal.Shortest

/-! How numbers are written. A double is written with its shortest digits; positional notation is
used while the decimal exponent is from -4 to 15, and a whole number keeps one zero after the point.
-/
namespace TableQuery.Decimal

def natText (n : Nat) : String :=
  String.ofList (Nat.toDigits 10 n)

def intText (n : Int) : String :=
  if n < 0 then "-" ++ natText n.natAbs else natText n.natAbs

def exponentText (k : Int) : String :=
  let digits := natText k.natAbs
  let padded := if digits.length < 2 then "0" ++ digits else digits
  "e" ++ (if k < 0 then "-" else "+") ++ padded

/-- The text of the decimal `digits · 10^exponent`. -/
def Digits.text (d : Digits) : String :=
  let ds := Nat.toDigits 10 d.digits
  let count := ds.length
  let magnitude : Int := d.exponent + count - 1
  if -4 ≤ magnitude && magnitude < 16 then
    if 0 ≤ d.exponent then
      String.ofList ds ++ String.ofList (List.replicate d.exponent.toNat '0') ++ ".0"
    else if 0 ≤ magnitude then
      let whole := magnitude.toNat + 1
      String.ofList (ds.take whole) ++ "." ++ String.ofList (ds.drop whole)
    else "0." ++ String.ofList (List.replicate ((-magnitude).toNat - 1) '0') ++ String.ofList ds
  else
    let tail := ds.drop 1
    String.ofList (ds.take 1) ++ (if tail.isEmpty then "" else "." ++ String.ofList tail) ++
      exponentText magnitude

def floatText (x : Float) : String :=
  match Binary64.ofFloat? x with
  | some b =>
    let sign := if b.negative then "-" else ""
    if b.mantissa == 0 then sign ++ "0.0" else sign ++ (shortest b).text
  | none =>
    if x.isNaN then "nan" else if Binary64.signBit x then "-inf" else "inf"

end TableQuery.Decimal
