import TableQuery.Operator

/-! The aggregate functions of queries, by their names in a query and by the names of the rules they
follow. -/
namespace TableQuery

inductive Aggregate where
  | sum | mean | count | countDistinct | max | min
  deriving Repr, DecidableEq

namespace Aggregate

def all : List Aggregate := [.sum, .mean, .count, .countDistinct, .max, .min]

def name : Aggregate → String
  | .sum => "sum"
  | .mean => "avg"
  | .count => "count"
  | .countDistinct => "count_distinct"
  | .max => "max"
  | .min => "min"

def ruleName : Aggregate → String
  | .sum => "sum"
  | .mean => "mean"
  | .count => "count"
  | .countDistinct => "nunique"
  | .max => "max"
  | .min => "min"

def find? (name : String) : Option Aggregate :=
  all.find? (·.name == name)

def ofName (name : String) : Except Fault Aggregate :=
  match find? (Text.lower name) with
  | some f => .ok f
  | none => .error (.query (.unsupportedOperation name))

end Aggregate

def isSupported (name : String) : Bool :=
  let key := Text.lower name
  (Operator.find? key).isSome || (Aggregate.find? key).isSome

end TableQuery
