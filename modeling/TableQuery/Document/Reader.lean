import TableQuery.Decimal.Reader
import TableQuery.Document

/-! Reading a document's text. Of two members with one name the later counts, in the place of the
earlier. -/
namespace TableQuery.Document

def skipBlanks (cs : List Char) : List Char :=
  cs.dropWhile fun c => c == ' ' || c == '\t' || c == '\n' || c == '\r'

def hexValue? (c : Char) : Option Nat :=
  if c.isDigit then some (c.toNat - '0'.toNat)
  else if 'a' ≤ c && c ≤ 'f' then some (c.toNat - 'a'.toNat + 10)
  else if 'A' ≤ c && c ≤ 'F' then some (c.toNat - 'A'.toNat + 10)
  else none

def readUnit? : List Char → Option (Nat × List Char)
  | a :: b :: c :: d :: rest => do
    let value ← [a, b, c, d].foldlM (fun n c => (hexValue? c).map (n * 16 + ·)) 0
    return (value, rest)
  | _ => none

/-- The character of an escape, and what is left. Half a pair makes the sign for a lost character.
-/
def readPair (first : Nat) (rest : List Char) : Char × List Char :=
  let isHigh : Bool := 0xd800 ≤ first && first < 0xdc00
  let second? : Option (Nat × List Char) :=
    match rest with
    | '\\' :: 'u' :: more => readUnit? more
    | _ => none
  match isHigh, second? with
  | true, some (second, more) =>
    if 0xdc00 ≤ second && second < 0xe000 then
      (Char.ofNat (0x10000 + (first - 0xd800) * 0x400 + (second - 0xdc00)), more)
    else ('\ufffd', rest)
  | _, _ => if 0xd800 ≤ first && first < 0xe000 then ('\ufffd', rest) else (Char.ofNat first, rest)

def simpleEscape? : Char → Option Char
  | '"' => some '"'
  | '\\' => some '\\'
  | '/' => some '/'
  | 'b' => some '\x08'
  | 'f' => some '\x0c'
  | 'n' => some '\n'
  | 'r' => some '\r'
  | 't' => some '\t'
  | _ => none

def readChars? : Nat → List Char → Option (List Char × List Char)
  | 0, _ => none
  | _ + 1, '"' :: rest => some ([], rest)
  | fuel + 1, '\\' :: 'u' :: rest => do
    let (unit, rest) ← readUnit? rest
    let (c, rest) := readPair unit rest
    let (cs, rest) ← readChars? fuel rest
    return (c :: cs, rest)
  | fuel + 1, '\\' :: c :: rest => do
    let c ← simpleEscape? c
    let (cs, rest) ← readChars? fuel rest
    return (c :: cs, rest)
  | fuel + 1, c :: rest => do
    if c.toNat < 0x20 then none
    else
      let (cs, rest) ← readChars? fuel rest
      return (c :: cs, rest)
  | _ + 1, [] => none

def readText? (cs : List Char) : Option (String × List Char) :=
  (readChars? (cs.length + 1) cs).map fun (chars, rest) => (String.ofList chars, rest)

def readDigits? (cs : List Char) : Option (List Char × List Char) :=
  let digits := cs.takeWhile Char.isDigit
  if digits.isEmpty then none else some (digits, cs.drop digits.length)

def readWhole? : List Char → Option (List Char × List Char)
  | '0' :: rest => some (['0'], rest)
  | cs => readDigits? cs

def readFraction (cs : List Char) : List Char × List Char :=
  match cs with
  | '.' :: rest =>
    match readDigits? rest with
    | some (digits, rest) => ('.' :: digits, rest)
    | none => ([], cs)
  | _ => ([], cs)

def readExponentPart (cs : List Char) : List Char × List Char :=
  match cs with
  | e :: rest =>
    if e == 'e' || e == 'E' then
      let (sign, rest) : List Char × List Char :=
        match rest with
        | '+' :: more => (['+'], more)
        | '-' :: more => (['-'], more)
        | _ => ([], rest)
      match readDigits? rest with
      | some (digits, rest) => ('e' :: sign ++ digits, rest)
      | none => ([], cs)
    else ([], cs)
  | [] => ([], cs)

/-- A number after its sign, and what is left. Without fraction and exponent it is a whole number.
-/
def readUnsigned? (sign cs : List Char) : Option (Document × List Char) := do
  let (whole, rest) ← readWhole? cs
  let (fraction, rest) := readFraction rest
  let (exponent, rest) := readExponentPart rest
  let digits := String.ofList (sign ++ whole ++ fraction ++ exponent)
  if fraction.isEmpty && exponent.isEmpty then
    let n ← Decimal.readInt? digits
    return (.int n, rest)
  else
    let x ← Decimal.readFloat? digits
    return (.float x, rest)

def readNumber? : List Char → Option (Document × List Char)
  | '-' :: rest => readUnsigned? ['-'] rest
  | cs => readUnsigned? [] cs

def constants : List (String × Document) :=
  [("null", .null), ("true", .bool true), ("false", .bool false), ("NaN", .float Binary64.nan),
   ("Infinity", .float Binary64.infinity), ("-Infinity", .float (-Binary64.infinity))]

def readConstant? (cs : List Char) : Option (Document × List Char) :=
  constants.findSome? fun (word, d) =>
    if word.toList.isPrefixOf cs then some (d, cs.drop word.length) else none

mutual

def readValue? : Nat → List Char → Option (Document × List Char)
  | 0, _ => none
  | fuel + 1, cs =>
    match cs with
    | '"' :: rest => (readText? rest).map fun (s, rest) => (.text s, rest)
    | '[' :: rest =>
      match skipBlanks rest with
      | ']' :: rest => some (.list [], rest)
      | rest => (readItems? fuel rest).map fun (items, rest) => (.list items, rest)
    | '\x7b' :: rest =>
      match skipBlanks rest with
      | '\x7d' :: rest => some (.object [], rest)
      | rest => (readMembers? fuel [] rest).map fun (ms, rest) => (.object ms, rest)
    | cs => (readConstant? cs).or (readNumber? cs)

def readItems? : Nat → List Char → Option (List Document × List Char)
  | 0, _ => none
  | fuel + 1, cs => do
    let (d, rest) ← readValue? fuel (skipBlanks cs)
    match skipBlanks rest with
    | ']' :: rest => return ([d], rest)
    | ',' :: rest =>
      let (items, rest) ← readItems? fuel rest
      return (d :: items, rest)
    | _ => none

def readMembers? : Nat → List (String × Document) → List Char →
    Option (List (String × Document) × List Char)
  | 0, _, _ => none
  | fuel + 1, known, cs =>
    match skipBlanks cs with
    | '"' :: rest => do
      let (name, rest) ← readText? rest
      match skipBlanks rest with
      | ':' :: rest =>
        let (d, rest) ← readValue? fuel (skipBlanks rest)
        let known := setMember known name d
        match skipBlanks rest with
        | '\x7d' :: rest => return (known, rest)
        | ',' :: rest => readMembers? fuel known rest
        | _ => none
      | _ => none
    | _ => none

end

def read (s : String) : Except Fault Document :=
  let cs := s.toList
  match readValue? (cs.length + 1) (skipBlanks cs) with
  | some (d, rest) => if (skipBlanks rest).isEmpty then .ok d else .error .badValue
  | none => .error .badValue

end TableQuery.Document
