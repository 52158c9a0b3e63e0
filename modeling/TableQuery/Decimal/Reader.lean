import TableQuery.Binary64
import TableQuery.Text.Blank
import TableQuery.Text.Word

/-! Numbers read from text. Two dialects are read: the one of literals and casts, where digits of
every script count and a single underscore may stand between two digits, and the one of data files,
where only the ten basic digits count. Each reader takes the whole text or refuses it. -/
namespace TableQuery.Decimal

def splitSign : List Char → Bool × List Char
  | '-' :: rest => (true, rest)
  | '+' :: rest => (false, rest)
  | cs => (false, cs)

/-- The number that a list of basic digits stands for, after `value`. -/
def natOfDigits (value : Nat) (cs : List Char) : Nat :=
  cs.foldl (fun value c => value * 10 + (c.toNat - 48)) value

def readNat? (cs : List Char) : Option Nat :=
  if cs.isEmpty || !cs.all Char.isDigit then none else some (natOfDigits 0 cs)

def readSigned? (cs : List Char) : Option Int :=
  let (negative, digits) := splitSign cs
  (readNat? digits).map fun n => if negative then -(n : Int) else n

/-- A decimal number `digits · 10^exponent`, of either sign. -/
structure Scanned where
  negative : Bool
  digits : Nat
  exponent : Int

/-- The exponent mark after a mantissa. A mark without digits is no part of the number. -/
def readExponent? : List Char → Option Int
  | [] => some 0
  | c :: rest => if c == 'e' || c == 'E' then readSigned? rest else none

/-- A decimal with optional point and exponent. At least one digit stands before the exponent. -/
def scanDecimal? (cs : List Char) : Option Scanned :=
  let (negative, body) := splitSign cs
  let whole := body.takeWhile Char.isDigit
  let afterWhole := body.dropWhile Char.isDigit
  let (fraction, tail) :=
    match afterWhole with
    | '.' :: rest => (rest.takeWhile Char.isDigit, rest.dropWhile Char.isDigit)
    | _ => ([], afterWhole)
  if whole.isEmpty && fraction.isEmpty then none
  else
    (readExponent? tail).map fun e =>
      ⟨negative, natOfDigits 0 (whole ++ fraction), e - fraction.length⟩

/-- The nearest double. Exponents far outside the range of doubles are cut off first. -/
def Scanned.toFloat (s : Scanned) : Float :=
  let size : Int := (Nat.toDigits 10 s.digits).length
  if s.digits == 0 then Binary64.ofRatio s.negative 0 1
  else if s.exponent + size > 400 then
    if s.negative then -Binary64.infinity else Binary64.infinity
  else if s.exponent + size < -400 then Binary64.ofRatio s.negative 0 1
  else if 0 ≤ s.exponent then Binary64.ofRatio s.negative (s.digits * Nat.pow 10 s.exponent.toNat) 1
  else Binary64.ofRatio s.negative s.digits (Nat.pow 10 (-s.exponent).toNat)

def basicDigits (cs : List Char) : List Char :=
  cs.map fun c =>
    match Text.digitValue? c with
    | some d => Char.ofNat (48 + d)
    | none => c

/-- Drops the underscores between digits; an underscore elsewhere stays, and spoils the number. -/
def dropSeparators : List Char → List Char
  | a :: '_' :: b :: rest =>
    if a.isDigit && b.isDigit then a :: dropSeparators (b :: rest)
    else a :: '_' :: dropSeparators (b :: rest)
  | c :: rest => c :: dropSeparators rest
  | [] => []

/-- The literal dialect without its white space, foreign digits and separators. -/
def plainLiteral (s : String) : List Char :=
  dropSeparators (basicDigits (Text.strip s.toList))

def readInt? (s : String) : Option Int :=
  readSigned? (plainLiteral s)

def readNamedFloat? (cs : List Char) : Option Float :=
  let (negative, body) := splitSign cs
  let word := String.ofList (body.map Char.toLower)
  if word == "inf" || word == "infinity" then
    some (if negative then -Binary64.infinity else Binary64.infinity)
  else if word == "nan" then some Binary64.nan
  else none

def readFloat? (s : String) : Option Float :=
  let cs := plainLiteral s
  match scanDecimal? cs with
  | some n => some n.toFloat
  | none => readNamedFloat? cs

def isFieldBlank (c : Char) : Bool :=
  c == ' ' || ('\t' ≤ c && c ≤ '\r')

def trimField (cs : List Char) : List Char :=
  ((cs.dropWhile isFieldBlank).reverse.dropWhile isFieldBlank).reverse

/-- A number of a data file: a whole number if no point and no exponent is written. -/
inductive FieldNumber where
  | whole (n : Int)
  | real (x : Float)

/-- The infinities of data files: the words count only when nothing surrounds them. -/
def readInfinity? (cs : List Char) : Option Float :=
  let (negative, body) := splitSign cs
  let word := String.ofList (body.map Char.toLower)
  if word == "inf" || word == "infinity" then
    some (if negative then -Binary64.infinity else Binary64.infinity)
  else none

/-- The double that a field of a data file stands for. A minus sign counts on zero too. -/
def readFieldFloat? (s : String) : Option Float :=
  match scanDecimal? (trimField s.toList) with
  | some n => some n.toFloat
  | none => readInfinity? s.toList

def readField? (s : String) : Option FieldNumber :=
  match readSigned? (trimField s.toList) with
  | some n => some (.whole n)
  | none => (readFieldFloat? s).map .real

end TableQuery.Decimal
