import TableQuery.Aggregate
import TableQuery.Sql.Printer

/-! Grouping without a GROUP BY clause. A select whose targets are all aggregates counts as grouped
by the constant TRUE, and once it was executed its text says so. -/
namespace TableQuery.Sql

def Node.isTrueConstant : Node → Bool
  | .constant (.bool true) t => t == {}
  | _ => false

def Node.isAggregate : Node → Bool
  | .operation (.call _) op _ _ => (Aggregate.find? (Text.lower op)).isSome
  | _ => false

inductive ImplicitGrouping where
  | none
  | all
  /-- Some targets are aggregates and some are not. -/
  | mixed
  deriving Repr, DecidableEq

def implicitGrouping (targets : List Node) : ImplicitGrouping :=
  if targets.any Node.isAggregate then
    if targets.all Node.isAggregate then .all else .mixed
  else .none

mutual

def Node.settled : Node → Node
  | .operation form op args t => .operation form op (Node.settledAll args) t
  | .cast type arg t => .cast type arg.settled t
  | .tuple items t => .tuple (Node.settledAll items) t
  | .join kind left right condition implicit t =>
    .join kind left.settled right.settled condition implicit t
  | .select q t => .select q.settled t
  | n => n

def Node.settledAll : List Node → List Node
  | [] => []
  | n :: rest => n.settled :: Node.settledAll rest

/-- The select as it is after its execution. The targets of a grouped select are not executed. -/
def Select.settled : Select → Select
  | { targets, distinct, source, condition, groupBy, having, orderBy, limit, offset, ctes } =>
    let implicit := groupBy.isNone && implicitGrouping targets == .all
    let groups := match groupBy with | some keys => some (Node.settledAll keys) | none => none
    let isGrouped := implicit || groups.any fun keys => !keys.isEmpty
    { targets := if isGrouped then targets else Node.settledAll targets
      distinct
      source := match source with | some n => some n.settled | none => none
      condition := match condition with | some n => some n.settled | none => none
      groupBy := if implicit then some [.constant (.bool true) {}] else groups
      having := match having with | some n => some n.settled | none => none
      orderBy
      limit := match limit with | some n => some n.settled | none => none
      offset := match offset with | some n => some n.settled | none => none
      ctes }

end

end TableQuery.Sql
