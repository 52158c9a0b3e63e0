import TableQuery.Text.Case.Lower
import TableQuery.Text.Case.Upper

/-! Upper and lower case of texts in every script. A letter may change to several letters, and the
Greek capital sigma has two lower case forms, chosen by its place in the word. -/
namespace TableQuery.Text

def upperChars (cs : List Char) : List Char :=
  cs.flatMap fun c =>
    if c.toNat < 128 then [c.toUpper] else mapCase upperRuns upperExpansions c

def startsCased (cs : List Char) : Bool :=
  match cs.dropWhile skippedRanges.holds with
  | [] => false
  | c :: _ => casedRanges.holds c

/-- Lower case after `before`, which is reversed. A sigma after a letter and not before one is
final. -/
def lowerAfter (before : List Char) : List Char → List Char
  | [] => []
  | c :: rest =>
    let image :=
      if c.toNat < 128 then [c.toLower]
      else if c == 'Σ' then
        if startsCased before && !startsCased rest then ['ς'] else ['σ']
      else mapCase lowerRuns lowerExpansions c
    image ++ lowerAfter (c :: before) rest

def lowerChars (cs : List Char) : List Char :=
  lowerAfter [] cs

def upper (s : String) : String :=
  String.ofList (upperChars s.toList)

def lower (s : String) : String :=
  String.ofList (lowerChars s.toList)

end TableQuery.Text
