import TableQuery.Query.Settled
import TableQuery.Table.Join

/-! Joins in queries: which columns are compared, and how the columns of the result are named. -/
namespace TableQuery

open Sql

def joinKinds : List (String × JoinKind) :=
  [("INNER JOIN", .inner), ("LEFT JOIN", .left), ("RIGHT JOIN", .right), ("FULL JOIN", .full)]

def JoinKind.ofWords (words : String) : Except Fault JoinKind :=
  match joinKinds.lookup words with
  | some kind => .ok kind
  | none => .error .missingKey

/-- The two sides of a condition. Only operations with two operands are conditions of a join. -/
def conditionSides (condition : Option Node) : Except Fault (Node × Node) :=
  match condition with
  | some (.operation .binary _ args _) =>
    match args with
    | a :: b :: _ => .ok (a, b)
    | _ => .error .outOfBounds
  | some (.operation _ op _ _) => .error (.query (.joinCondition op))
  | _ => .error .missingMember

def occursIn (part whole : String) : Bool :=
  let p := part.toList
  let rec search : List Char → Bool
    | [] => p.isEmpty
    | c :: rest => p.isPrefixOf (c :: rest) || search rest
  search whole.toList

def Sql.Node.firstPart : Node → Except Fault String
  | .name (part :: _) _ => .ok part
  | .name [] _ => .error .outOfBounds
  | _ => .error .missingMember

def Sql.Node.lastPart : Node → Except Fault String
  | .name parts _ =>
    match parts.getLast? with
    | some part => .ok part
    | none => .error .outOfBounds
  | _ => .error .missingMember

/-- The columns that a condition compares. A side belongs to a table whose name its first part
occurs in. -/
def joinColumns (leftName rightName : String) (a b : Node) : Except Fault (String × String) := do
  let leftOn := if occursIn (← a.firstPart) leftName then a else b
  let rightOn := if occursIn (← b.firstPart) rightName then b else a
  return (← leftOn.lastPart, ← rightOn.lastPart)

def without (part : List Char) : Nat → List Char → List Char
  | _, [] => []
  | skip + 1, _ :: rest => without part skip rest
  | 0, c :: rest =>
    if part.isPrefixOf (c :: rest) then without part (part.length - 1) rest
    else c :: without part 0 rest

/-- The name of a column of the result, qualified where it has an ending and is not compared. -/
def joinedName (leftName rightName leftOn rightOn column : String) : String :=
  if column == rightOn ++ "_y" then rightOn
  else if column == leftOn ++ "_x" then leftOn
  else if occursIn "_x" column then
    leftName ++ "." ++ String.ofList (without "_x".toList 0 column.toList)
  else if occursIn "_y" column then
    rightName ++ "." ++ String.ofList (without "_y".toList 0 column.toList)
  else column

def joinTables (kind : JoinKind) (leftName rightName leftOn rightOn : String) (left right : Table) :
    Except Fault Table := do
  let joined ← Table.join kind leftOn rightOn left right
  return { joined with
    columns := joined.columns.map fun (n, d) =>
      (joinedName leftName rightName leftOn rightOn n, d) }

end TableQuery
