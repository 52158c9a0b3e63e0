import TableQuery.Decimal.Reader
import TableQuery.Sql.Clause
import TableQuery.Sql.Printer

/-! What each rule of the grammar makes of its parts. Some rules refuse their parts, and they do so
at the moment when their last part was read. -/
namespace TableQuery.Sql

inductive Attr where
  | text (s : String)
  | node (n : Node)
  | nodes (ns : List Node)
  | ctes (cs : List Cte)
  | window (partition order : List Node)
  | nothing

inductive Build where
  /-- The part at a position. -/
  | part (i : Nat)
  /-- The words of all parts. -/
  | words
  /-- The word without marks at its ends. -/
  | unquoted (mark : Char)
  | statement (kind : String)
  | setNames
  | deleteWhere
  | union (keepsDuplicates : Bool)
  | select (distinct : Bool)
  | clause (c : Clause)
  | limitPair
  | withCtes
  | firstCte
  | nextCte
  /-- The list in parentheses. -/
  | listed
  | noNodes
  | oneNode
  /-- Two nodes with a comma between them. -/
  | pair
  /-- A list, and one more node after a comma. -/
  | append
  | orderKey (direction : String)
  | orderNulls (words : String)
  | tableAlias
  | targetAlias
  | join
  | joinOn
  | joinAll
  | name
  | joinNames
  | parens
  | tuple
  | unary
  | binary
  | notIn
  | between
  | cast
  | call (distinct : Bool)
  | noWindow
  | windowOrder
  | windowPartition
  | window
  | textConstant
  | floatConstant
  | intConstant
  | boolConstant (value : Bool)
  | nullConstant
  | star
  | parameter
  | nothing
  deriving Repr, DecidableEq

def operationName (s : String) : String :=
  String.ofList (Text.squeezeBlanks (Text.strip (Text.lower s).toList))

/-- The text without a mark at its ends, however often it stands there. -/
def stripMark (mark : Char) (s : String) : String :=
  String.ofList ((s.toList.dropWhile (· == mark)).reverse.dropWhile (· == mark)).reverse

def Node.parts : Node → List String
  | .name parts _ => parts
  | _ => []

def Node.toAlias (n : Node) : Alias := { parts := n.parts, parens := n.tag.parens }

def Node.asCondition (clause : Clause) (n : Node) : Except Fault Node :=
  if n.isOperation then .ok n else .error (.syntactic (.notBoolean clause.words n.text))

def Node.constantValue : Node → Cell
  | .constant v _ => v
  | _ => .null

/-- Whether a constant is a whole number; truth values count as numbers. -/
def Node.isWhole (n : Node) : Bool :=
  match n.constantValue with
  | .int _ => true
  | .bool _ => true
  | _ => false

def Node.asBound (clause : Clause) (n : Node) : Except Fault Node :=
  if n.isWhole then .ok n
  else .error (.syntactic (.notInteger clause.words n.constantValue.display))

def Select.extend (q : Select) (clause : Clause) (part : Attr) : Except Fault Select := do
  match clause, part with
  | .source, .node n =>
    q.accept .source
    return { q with source := some n }
  | .condition, .node n =>
    q.accept .condition
    return { q with condition := some (← n.asCondition .condition) }
  | .groupBy, .nodes ns =>
    q.accept .groupBy
    return { q with groupBy := some ns }
  | .having, .node n =>
    q.accept .having
    return { q with having := some (← n.asCondition .having) }
  | .orderBy, .nodes ns =>
    q.accept .orderBy
    return { q with orderBy := some ns }
  | .limit, .node n =>
    q.accept .limit
    return { q with limit := some (← n.asBound .limit) }
  | .offset, .node n =>
    if q.offset.isSome then throw (.syntactic .secondOffset)
    q.accept .offset
    return { q with offset := some (← n.asBound .offset) }
  | _, _ => throw .failure

def Select.extendBounds (q : Select) (first second : Node) : Except Fault Select := do
  q.accept .limit
  if first.isWhole && second.isWhole then
    return { q with limit := some second, offset := some first }
  throw (.syntactic (.notIntegers first.constantValue.display second.constantValue.display))

def Node.withTargetAlias (n name : Node) : Except Fault Node :=
  if n.tag.alias?.isSome then .error (.syntactic (.twoAliases n.text))
  else .ok (n.aliased name.toAlias)

def partTexts (parts : List Attr) : List String :=
  parts.filterMap fun
    | .text s => some s
    | _ => none

/-- What a rule makes of its parts. Parts of a wrong shape do not come out of the grammar. -/
def build (b : Build) (parts : List Attr) : Except Fault Attr :=
  match b, parts with
  | .part i, parts => .ok (parts[i]?.getD .nothing)
  | .words, parts => .ok (.text (String.intercalate " " (partTexts parts)))
  | .unquoted mark, [.text s] => .ok (.text (stripMark mark s))
  | .statement kind, _ => .ok (.node (.statement kind {}))
  | .setNames, [_, .text word, _] =>
    if Text.lower word == "names" then .ok (.node (.statement "set.Set" {}))
    else .error (.syntactic (.setNames word))
  | .deleteWhere, [_, _, _, _, .node n] => do
    let _ ← n.asCondition .condition
    return .node (.statement "delete.Delete" {})
  | .union d, .node left :: rest =>
    match rest.getLast? with
    | some (.node right) => .ok (.node (.union left right d {}))
    | _ => .error .failure
  | .select distinct, parts =>
    match parts.getLast? with
    | some (.nodes targets) => .ok (.node (.select { targets, distinct } {}))
    | _ => .error .failure
  | .clause c, [.node (.select q t), _, added] => do
    return .node (.select (← q.extend c added) t)
  | .limitPair, [.node (.select q t), _, .node first, _, .node second] => do
    return .node (.select (← q.extendBounds first second) t)
  | .withCtes, [.ctes cs, .node (.select q t)] => .ok (.node (.select { q with ctes := cs } t))
  | .firstCte, [_, .node name, .nodes columns, _, _, .node query, _] =>
    .ok (.ctes [{ name, columns, query }])
  | .nextCte, [.ctes cs, _, .node name, .nodes columns, _, _, .node query, _] =>
    .ok (.ctes (cs ++ [{ name, columns, query }]))
  | .listed, [_, .nodes ns, _] => .ok (.nodes ns)
  | .noNodes, _ => .ok (.nodes [])
  | .oneNode, [.node n] => .ok (.nodes [n])
  | .pair, [.node a, _, .node b] => .ok (.nodes [a, b])
  | .append, [.nodes ns, _, .node n] => .ok (.nodes (ns ++ [n]))
  | .orderKey direction, .node n :: _ => .ok (.node (.ordering n direction none {}))
  | .orderNulls words, .node (.ordering field direction _ t) :: _ =>
    .ok (.node (.ordering field direction (some words) t))
  | .tableAlias, .node n :: rest =>
    match rest.getLast? with
    | some (.node name) => .ok (.node (n.aliased name.toAlias))
    | _ => .error .failure
  | .targetAlias, .node n :: rest =>
    match rest.getLast? with
    | some (.node name) => do return .node (← n.withTargetAlias name)
    | _ => .error .failure
  | .join, [.node left, .text kind, .node right] =>
    .ok (.node (.join (Text.upper kind) left right none false {}))
  | .joinOn, [.node left, .text kind, .node right, _, .node condition] =>
    .ok (.node (.join (Text.upper kind) left right (some condition) false {}))
  | .joinAll, [.node left, _, .node right] =>
    .ok (.node (.join "INNER JOIN" left right none true {}))
  | .name, [.text s] => do return .node (← Node.ofName s)
  | .joinNames, [.node left, _, .node right] =>
    .ok (.node (.name (left.parts ++ right.parts) left.tag))
  | .parens, [_, .node n, _] => .ok (.node n.parenthesized)
  | .tuple, [_, .nodes ns, _] => .ok (.node (.tuple ns {}))
  | .unary, [.text op, .node n] => .ok (.node (.operation .unary (operationName op) [n] {}))
  | .binary, [.node a, .text op, .node b] =>
    .ok (.node (.operation .binary (operationName op) [a, b] {}))
  | .notIn, [.node a, _, _, .node b] => .ok (.node (.operation .binary "not in" [a, b] {}))
  | .between, [.node a, _, .node b, _, .node c] =>
    .ok (.node (.operation .between "between" [a, b, c] {}))
  | .cast, [_, _, .node n, _, .text type, _] => .ok (.node (.cast type n {}))
  | .call distinct, .text name :: rest =>
    match rest.reverse with
    | _ :: .nodes ns :: _ =>
      .ok (.node (.operation (.call distinct) (operationName name) ns {}))
    | _ => .error .failure
  | .noWindow, _ => .ok (.window [] [])
  | .windowOrder, [.window partition _, _, .nodes order] => .ok (.window partition order)
  | .windowPartition, [.window _ order, _, .nodes partition] => .ok (.window partition order)
  | .window, [.node f, _, _, .window partition order, _] =>
    .ok (.node (.window f partition order {}))
  | .textConstant, [.text s] => .ok (.node (.constant (.text s) {}))
  | .floatConstant, [.text s] =>
    match Decimal.readFloat? s with
    | some x => .ok (.node (.constant (.float x) {}))
    | none => .error .badValue
  | .intConstant, [.text s] =>
    match Decimal.readInt? s with
    | some n => .ok (.node (.constant (.int n) {}))
    | none => .error .badValue
  | .boolConstant b, _ => .ok (.node (.constant (.bool b) {}))
  | .nullConstant, _ => .ok (.node (.null {}))
  | .star, _ => .ok (.node (.star {}))
  | .parameter, _ => .ok (.node (.parameter {}))
  | .nothing, _ => .ok .nothing
  | _, _ => .error .failure

end TableQuery.Sql
