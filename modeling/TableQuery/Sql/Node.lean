import TableQuery.Cell

/-! The tree of a query. A node has a shape and a tag: the alias that was given to it, and whether
it stood in parentheses. -/
namespace TableQuery.Sql

structure Alias where
  parts : List String
  parens : Bool := false
  deriving Repr, DecidableEq

structure Tag where
  alias? : Option Alias := none
  parens : Bool := false
  deriving Repr, DecidableEq

inductive OpForm where
  | plain
  | unary
  | binary
  | between
  /-- A function call, with DISTINCT or without. -/
  | call (distinct : Bool)
  deriving Repr, DecidableEq

mutual

inductive Node where
  | name (parts : List String) (tag : Tag)
  | constant (value : Cell) (tag : Tag)
  | null (tag : Tag)
  | star (tag : Tag)
  | parameter (tag : Tag)
  | operation (form : OpForm) (op : String) (args : List Node) (tag : Tag)
  | window (function : Node) (partition order : List Node) (tag : Tag)
  | cast (type : String) (arg : Node) (tag : Tag)
  | tuple (items : List Node) (tag : Tag)
  /-- A key of an ordering, with the direction and the place of missing values. -/
  | ordering (field : Node) (direction : String) (nulls : Option String) (tag : Tag)
  | join (kind : String) (left right : Node) (condition : Option Node) (implicit : Bool) (tag : Tag)
  | select (query : Select) (tag : Tag)
  /-- Two selects put together. -/
  | union (left right : Node) (keepsDuplicates : Bool) (tag : Tag)
  /-- A statement that is read and not executed. -/
  | statement (kind : String) (tag : Tag)

structure Select where
  targets : List Node
  distinct : Bool := false
  source : Option Node := none
  condition : Option Node := none
  groupBy : Option (List Node) := none
  having : Option Node := none
  orderBy : Option (List Node) := none
  limit : Option Node := none
  offset : Option Node := none
  ctes : List Cte := []

structure Cte where
  name : Node
  columns : List Node
  query : Node

end

instance : Inhabited Node := ⟨.null {}⟩

namespace Node

def tag : Node → Tag
  | .name _ t => t
  | .constant _ t => t
  | .null t => t
  | .star t => t
  | .parameter t => t
  | .operation _ _ _ t => t
  | .window _ _ _ t => t
  | .cast _ _ t => t
  | .tuple _ t => t
  | .ordering _ _ _ t => t
  | .join _ _ _ _ _ t => t
  | .select _ t => t
  | .union _ _ _ t => t
  | .statement _ t => t

def withTag (t : Tag) : Node → Node
  | .name parts _ => .name parts t
  | .constant v _ => .constant v t
  | .null _ => .null t
  | .star _ => .star t
  | .parameter _ => .parameter t
  | .operation form op args _ => .operation form op args t
  | .window f p o _ => .window f p o t
  | .cast type arg _ => .cast type arg t
  | .tuple items _ => .tuple items t
  | .ordering f d n _ => .ordering f d n t
  | .join k l r c i _ => .join k l r c i t
  | .select q _ => .select q t
  | .union l r d _ => .union l r d t
  | .statement k _ => .statement k t

def parenthesized (n : Node) : Node := n.withTag { n.tag with parens := true }

def aliased (n : Node) (a : Alias) : Node := n.withTag { n.tag with alias? := some a }

def isOperation : Node → Bool
  | .operation _ _ _ _ => true
  | _ => false

def className : Node → String
  | .name _ _ => "select.identifier.Identifier"
  | .constant _ _ => "select.constant.Constant"
  | .null _ => "select.constant.NullConstant"
  | .star _ => "select.star.Star"
  | .parameter _ => "select.parameter.Parameter"
  | .operation form _ _ _ =>
    match form with
    | .plain => "select.operation.Operation"
    | .unary => "select.operation.UnaryOperation"
    | .binary => "select.operation.BinaryOperation"
    | .between => "select.operation.BetweenOperation"
    | .call _ => "select.operation.Function"
  | .window _ _ _ _ => "select.operation.WindowFunction"
  | .cast _ _ _ => "select.type_cast.TypeCast"
  | .tuple _ _ => "select.tuple.Tuple"
  | .ordering _ _ _ _ => "select.order_by.OrderBy"
  | .join _ _ _ _ _ _ => "select.join.Join"
  | .select _ _ => "select.select.Select"
  | .union _ _ _ _ => "select.union.Union"
  | .statement kind _ => kind

end Node

end TableQuery.Sql
