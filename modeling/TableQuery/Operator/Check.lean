import TableQuery.Value

/-! Kinds of values, and the checks that operators make of their operands and results. -/
namespace TableQuery

inductive ValueKind where
  /-- A column or a table. -/
  | structured
  /-- Acceptable as a truth value. -/
  | boolean
  | numeric
  | textual
  deriving Repr, DecidableEq

namespace Value

/-- Acceptable as a truth value: a column, a table, a truth value, or what converts to 0 or 1. -/
def isBoolean : Value → Except Fault Bool
  | .column _ _ => .ok true
  | .table _ => .ok true
  | .scalar (.bool _) => .ok true
  | .scalar c => do
    let n ← c.toInt
    return n == 0 || n == 1

/-- A number, or a column that is not of objects. Packed whole numbers and truth values do not
count. -/
def isNumeric : Value → Except Fault Bool
  | .column c _ => .ok (c.data.dtype != .objects)
  | .table _ => .error .missingMember
  | .scalar (.bool _) => .ok true
  | .scalar (.int _) => .ok true
  | .scalar (.float _) => .ok true
  | .scalar (.packed (.float _)) => .ok true
  | .scalar _ => .ok false

def isTextual : Value → Except Fault Bool
  | .column c _ => .ok (c.data.dtype == .texts || c.data.dtype == .objects)
  | .table _ => .error .missingMember
  | .scalar (.text _) => .ok true
  | .scalar _ => .ok false

def isOfKind (v : Value) : ValueKind → Except Fault Bool
  | .structured => .ok v.isStructured
  | .boolean => v.isBoolean
  | .numeric => v.isNumeric
  | .textual => v.isTextual

end Value

inductive Check where
  | twoInputs
  | oneInput
  | inputs (kind : ValueKind)
  | output (kind : ValueKind)
  deriving Repr, DecidableEq

namespace Check

def isOfInputs : Check → Bool
  | .twoInputs | .oneInput | .inputs _ => true
  | .output _ => false

/-- Runs a check of operands. A check of the result has nothing to say about them. -/
def runInputs (function : String) (args : List Value) : Check → Except Fault Unit
  | .twoInputs => if args.length == 2 then .ok () else .error (.query (.badInputs function))
  | .oneInput => if args.length == 1 then .ok () else .error (.query (.badInputs function))
  | .inputs kind => do
    let oks ← args.mapM (·.isOfKind kind)
    if oks.all id then return () else .error (.query (.badInputs function))
  | .output _ => .ok ()

def runOutput (function : String) (v : Value) : Check → Except Fault Unit
  | .output kind => do
    if ← v.isOfKind kind then return () else .error (.query (.badOutputs function))
  | _ => .ok ()

end Check

/-- A function's checks. Only the first that looks at the operands, and the first that looks at the
result, is run. -/
structure Checks where
  function : String
  checks : List Check

namespace Checks

def assertInputs (c : Checks) (args : List Value) : Except Fault Unit :=
  match c.checks.find? Check.isOfInputs with
  | some check => check.runInputs c.function args
  | none => .error .missingMember

def assertOutput (c : Checks) (v : Value) : Except Fault Unit :=
  match c.checks.find? (!·.isOfInputs) with
  | some check => check.runOutput c.function v
  | none => .error .missingMember

/-- A call of a function that computes nothing: the checks around the absent value. -/
def call (c : Checks) (args : List Value) : Except Fault Value := do
  c.assertInputs args
  c.assertOutput (.scalar .null)
  return .scalar .null

end Checks

end TableQuery
