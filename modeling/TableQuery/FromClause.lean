import TableQuery.Text.Blank
import TableQuery.Text.Case

/-! Completing a query by a FROM clause. Every SELECT without a FROM of its own gets one, placed
before its next clause, before the parenthesis that closes it, or at the end. Places are found in
the lower case text, which may be longer than the text itself. -/
namespace TableQuery.FromClause

/-- Parentheses and commas stand apart from words, and line ends are blanks. -/
def spaceOut (cs : List Char) : List Char :=
  cs.flatMap fun c =>
    if c == '(' then [' ', '(', ' ']
    else if c == ')' then [' ', ')', ' ']
    else if c == '\n' then [' ']
    else if c == ',' then [' ', ',', ' ']
    else [c]

def normalise (cs : List Char) : List Char :=
  Text.strip (Text.squeezeBlanks (spaceOut cs))

/-- The places of a word's occurrences that do not overlap, from a place on. -/
def occurrences (word : List Char) : Nat → Nat → List Char → List Nat
  | _, _, [] => []
  | place, skip, c :: rest =>
    if skip == 0 && word.isPrefixOf (c :: rest) then
      place :: occurrences word (place + 1) (word.length - 1) rest
    else occurrences word (place + 1) (skip - 1) rest

def firstPlace? (word : List Char) : Nat → List Char → Option Nat
  | place, [] => if word.isEmpty then some place else none
  | place, c :: rest =>
    if word.isPrefixOf (c :: rest) then some place else firstPlace? word (place + 1) rest

/-- The words between single blanks; blanks next to each other have empty words between them. -/
def splitWords : List Char → List (List Char)
  | [] => [[]]
  | c :: rest =>
    match splitWords rest with
    | [] => [[]]
    | word :: words => if c == ' ' then [] :: word :: words else (c :: word) :: words

def clauseWords : List (List Char) :=
  ["where", "group", "having", "order", "limit", "offset"].map String.toList

inductive Finding where
  /-- The clause is there. -/
  | complete
  /-- The clause belongs before the first place of this word. -/
  | before (word : List Char)
  /-- The clause belongs at the end. -/
  | atEnd

def find (depth : Nat) : List (List Char) → Finding
  | [] => .atEnd
  | word :: rest =>
    if word == "from".toList then .complete
    else if word == ['('] then find (depth + 1) rest
    else if word == [')'] then if depth == 0 then .before word else find (depth - 1) rest
    else if clauseWords.contains word then .before word
    else find depth rest

def insertion? (cs : List Char) (select : Nat) : Option Nat :=
  let tail := Text.lowerChars (cs.drop select)
  match find 0 (splitWords tail) with
  | .complete => none
  | .before word => some (select + (firstPlace? word 0 tail).getD 0)
  | .atEnd => some (select + tail.length)

def insertions (cs : List Char) : List Nat :=
  (occurrences "select".toList 0 0 (Text.lowerChars cs)).filterMap (insertion? cs)

def weave (clause cs : List Char) (last : Nat) : List Nat → List Char
  | [] => cs.drop last
  | place :: places => (cs.drop last).take (place - last) ++ clause ++ weave clause cs place places

def complete (sql table : String) : String :=
  let cs := normalise sql.toList
  String.ofList (weave (" from " ++ table ++ " ").toList cs 0 (insertions cs))

end TableQuery.FromClause
