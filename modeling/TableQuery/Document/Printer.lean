import TableQuery.Decimal.Layout
import TableQuery.Document

/-! The text of a document. Characters outside the basic set are written as escapes, those beyond 16
bits as two. -/
namespace TableQuery.Document

def unitEscape (n : Nat) : String := "\\u" ++ Text.hexText 4 n

def highUnit (c : Char) : Nat := 0xd800 + (c.toNat - 0x10000) / 0x400

def lowUnit (c : Char) : Nat := 0xdc00 + (c.toNat - 0x10000) % 0x400

def printChar (c : Char) : String :=
  if c == '"' then "\\\""
  else if c == '\\' then "\\\\"
  else if c == '\n' then "\\n"
  else if c == '\r' then "\\r"
  else if c == '\t' then "\\t"
  else if c == '\x0c' then "\\f"
  else if c == '\x08' then "\\b"
  else if c.toNat < 0x20 || 0x7e < c.toNat then
    if c.toNat < 0x10000 then unitEscape c.toNat
    else unitEscape (highUnit c) ++ unitEscape (lowUnit c)
  else String.ofList [c]

def printText (s : String) : String :=
  "\"" ++ String.join (s.toList.map printChar) ++ "\""

def printFloat (x : Float) : String :=
  if x.isNaN then "NaN"
  else if x == Binary64.infinity then "Infinity"
  else if x == -Binary64.infinity then "-Infinity"
  else Decimal.floatText x

mutual

def print : Document → String
  | .null => "null"
  | .bool b => if b then "true" else "false"
  | .int n => Decimal.intText n
  | .float x => printFloat x
  | .text s => printText s
  | .list items => "[" ++ String.intercalate ", " (printAll items) ++ "]"
  | .object ms => "\x7b" ++ String.intercalate ", " (printMembers ms) ++ "\x7d"

def printAll : List Document → List String
  | [] => []
  | d :: rest => d.print :: printAll rest

def printMembers : List (String × Document) → List String
  | [] => []
  | (name, d) :: rest => (printText name ++ ": " ++ d.print) :: printMembers rest

end

def memberName : Document → String
  | .text s => s
  | d => d.print

end TableQuery.Document
