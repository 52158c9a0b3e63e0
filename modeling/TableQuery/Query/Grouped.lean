import TableQuery.Extension
import TableQuery.Query.Output
import TableQuery.Query.Settled
import TableQuery.Table.Group

/-! The answer of a grouped select. Each target is either a key of the grouping or an aggregate of
one column. -/
namespace TableQuery

open Sql

inductive GroupSource where
  | grouping (g : Grouping)
  /-- All rows are one group. -/
  | table (t : Table)
  /-- A value that cannot be grouped. -/
  | other

def keyTexts : List Node → Except Fault (List String)
  | [] => .ok []
  | key :: rest =>
    match key with
    | .name parts _ => return writeParts parts :: (← keyTexts rest)
    | .operation _ _ _ _ => return key.settled.text :: (← keyTexts rest)
    | key =>
      if key.isTrueConstant then keyTexts rest else .error (.query (.groupKey key.text))

/-- An aggregate that is asked for: the target's text, the column and the function. -/
abbrev Asked := List (String × String × Aggregator)

def aggregatorOf (extensions : List (String × Extension)) (op : String) (distinct : Bool) :
    Except Fault Aggregator := do
  let name := if distinct then Text.lower op ++ "_distinct" else Text.lower op
  match extensions.lookup name with
  | some f => return .custom fun c => f [Value.ofColumn c]
  | none => return .known (← Aggregate.ofName name)

def askedOf (extensions : List (String × Extension)) (keys : List String) :
    Asked → List Node → Except Fault Asked
  | asked, [] => .ok asked
  | asked, target :: rest => do
    let text := target.bareText
    if asked.any fun a => a.1 == text then throw (.query (.duplicateColumn text))
    match target with
    | .operation (.call distinct) op args _ =>
      if keys.contains text then askedOf extensions keys asked rest
      else
        match args with
        | [] => throw .outOfBounds
        | [.name parts _] =>
          let f ← aggregatorOf extensions op distinct
          askedOf extensions keys (asked ++ [(text, writeParts parts, f)]) rest
        | [arg] => throw (.query (.aggregateArgument arg.text))
        | _ => throw (.query (.aggregateArity target.text))
    | _ =>
      if keys.contains text then askedOf extensions keys asked rest
      else throw (.query (.notGrouped text))

def wholeKey : String := "__dummy__"

def GroupSource.grouped : GroupSource → Except Fault Grouping
  | .grouping g => .ok g
  | .table t =>
    (t.setColumn wholeKey (.ints .int64 (t.labels.map fun _ => 0))).groupBy [wholeKey]
  | .other => .error .missingMember

/-- The columns of an answer: those that a target names, under the target's alias if it has one. -/
def answerColumns (targets : List Node) (columns : List (String × Data)) : List (String × Data) :=
  columns.foldl (fun answer (name, d) =>
    match targets.filter fun t => t.bareText == name with
    | [] => answer
    | named =>
      let alias? := named.reverse.findSome? fun t => t.tag.alias?.map Alias.render
      setNamed answer (alias?.getD name) d) []

def groupTargets (extensions : List (String × Extension)) (targets : List Node)
    (source : GroupSource) (groupBy : List Node) : Except Fault Table := do
  let keys ← keyTexts groupBy
  let asked ← askedOf extensions keys [] targets
  let g ← source.grouped
  let all ← g.aggregates asked
  let columns := answerColumns targets all.columns
  return ⟨if columns.isEmpty then [] else all.labels, columns⟩

end TableQuery
