import TableQuery.Sql.Node

/-! The clauses of a select and the order in which they may be written. -/
namespace TableQuery.Sql

inductive Clause where
  | source
  | condition
  | groupBy
  | having
  | orderBy
  | limit
  | offset
  deriving Repr, DecidableEq

namespace Clause

def words : Clause → String
  | source => "FROM"
  | condition => "WHERE"
  | groupBy => "GROUP BY"
  | having => "HAVING"
  | orderBy => "ORDER BY"
  | limit => "LIMIT"
  | offset => "OFFSET"

def all : List Clause := [source, condition, groupBy, having, orderBy, limit, offset]

/-- The clause that has to be there already. -/
def needed? : Clause → Option Clause
  | condition | groupBy | orderBy => some source
  | having => some groupBy
  | _ => none

end Clause

def Select.has (q : Select) : Clause → Bool
  | .source => q.source.isSome
  | .condition => q.condition.isSome
  | .groupBy => q.groupBy.isSome
  | .having => q.having.isSome
  | .orderBy => q.orderBy.isSome
  | .limit => q.limit.isSome
  | .offset => q.offset.isSome

/-- Checks that a clause may be added: it is not there, what it needs is, and no later one is. -/
def Select.accept (q : Select) (clause : Clause) : Except Fault Unit :=
  if q.has clause then .error (.syntactic (.duplicateClause clause.words))
  else
    match clause.needed?.filter fun needed => !q.has needed with
    | some needed => .error (.syntactic (.requires clause.words needed.words))
    | none =>
      match (Clause.all.dropWhile (· != clause)).find? q.has with
      | some later => .error (.syntactic (.misplaced clause.words later.words))
      | none => .ok ()

end TableQuery.Sql
