import TableQuery.Operator.Check
import TableQuery.Text.Case
import TableQuery.Text.Pattern.Reader

/-! The operators of expressions. Each has a name, a check of its operands, a rule and a check of
its result. -/
namespace TableQuery

inductive Operator where
  | and | or | not
  | compare (op : Comparison)
  | is | isNot
  | plus | minus | times | divide | modulo | power
  | concat | lower | upper | like
  | member
  deriving Repr, DecidableEq

namespace Operator

def name : Operator → String
  | .and => "and"
  | .or => "or"
  | .not => "not"
  | .compare .eq => "="
  | .compare .ne => "!="
  | .compare .gt => ">"
  | .compare .ge => ">="
  | .compare .lt => "<"
  | .compare .le => "<="
  | .is => "is"
  | .isNot => "is not"
  | .plus => "+"
  | .minus => "-"
  | .times => "*"
  | .divide => "/"
  | .modulo => "%"
  | .power => "^"
  | .concat => "||"
  | .lower => "lower"
  | .upper => "upper"
  | .like => "like"
  | .member => "in"

def all : List Operator :=
  [.and, .or, .not, .compare .eq, .compare .ne, .compare .gt, .compare .ge, .compare .lt,
   .compare .le, .is, .isNot, .plus, .minus, .times, .divide, .modulo, .power, .concat, .lower,
   .upper, .like, .member]

/-- The operator of a lower case name. Inequality has a second one. -/
def find? (name : String) : Option Operator :=
  if name == "<>" then some (.compare .ne) else all.find? (·.name == name)

def ofName (name : String) : Except Fault Operator :=
  match find? (Text.lower name) with
  | some op => .ok op
  | none => .error (.query (.unsupportedOperation name))

def checks : Operator → List Check
  | .and | .or => [.twoInputs, .inputs .boolean, .output .boolean]
  | .not | .member => [.output .boolean]
  | .compare _ | .is | .isNot => [.twoInputs, .output .boolean]
  | .plus | .times | .divide | .modulo | .power => [.twoInputs, .inputs .numeric, .output .numeric]
  | .minus => [.output .numeric]
  | .concat => [.twoInputs, .inputs .textual, .output .textual]
  | .lower | .upper => [.oneInput, .inputs .textual, .output .textual]
  | .like => [.twoInputs, .inputs .textual, .output .boolean]

def badInputs (op : Operator) : Fault := .query (.badInputs op.name)

/-- The check of a negation: one operand that is a column, a table, a truth value, or 0 or 1. -/
def assertNegatable (args : List Value) : Except Fault Unit :=
  match args with
  | [.scalar (.bool _)] => .ok ()
  | [.scalar .na] => .error .wrongType
  | [.scalar c] =>
    if c.same (.int 0) || c.same (.int 1) then .ok () else .error (badInputs .not)
  | [_] => .ok ()
  | _ => .error (badInputs .not)

/-- The check of a minus sign: one operand, or two that are both columns or both numbers. -/
def assertSubtractable (args : List Value) : Except Fault Unit := do
  match args with
  | [a, b] =>
    if a.isStructured && b.isStructured then return ()
    else if ← a.isNumeric then
      if ← b.isNumeric then return () else .error (badInputs .minus)
    else .error (badInputs .minus)
  | [a] =>
    if a.isStructured then return ()
    else if ← a.isNumeric then return ()
    else .error (badInputs .minus)
  | _ => .error (badInputs .minus)

def hasMembers : Value → Bool
  | .column _ _ => true
  | .table _ => true
  | .scalar (.text _) => true
  | .scalar (.list _) => true
  | .scalar _ => false

def assertMembers : List Value → Except Fault Unit
  | _ :: v :: _ => if hasMembers v then .ok () else .error (badInputs .member)
  | _ => .error .outOfBounds

def assertInputs (op : Operator) (args : List Value) : Except Fault Unit :=
  match op with
  | .not => assertNegatable args
  | .minus => assertSubtractable args
  | .member => assertMembers args
  | op => Checks.assertInputs ⟨op.name, op.checks⟩ args

/-- Both operands are columns or tables: combined and turned to truth values. -/
def combine (op : Arith) (a b : Value) : Except Fault Value := do
  match ← Value.arith op a b with
  | .real (.column c _) => return .ofColumn (← c.map fun d => return .bools (← d.toBools))
  | .real (.table t) => return .table (← t.mapData fun d => return .bools (← d.toBools))
  | _ => .error .missingMember

/-- Conjunction. With a scalar it is the second value if the first holds, else the first. -/
def conjoin (a b : Value) : Except Fault Value := do
  if a.isStructured && b.isStructured then combine .mul a b
  else if ← a.truth then return b
  else return a

/-- Disjunction. With a scalar it is the first value if it holds, else the second. -/
def disjoin (a b : Value) : Except Fault Value := do
  if a.isStructured && b.isStructured then combine .add a b
  else if ← a.truth then return a
  else return b

def opposite (v : Value) : Except Fault Value := do
  if v.isStructured then v.invert else return .scalar (.bool !(← v.truth))

/-- Whether two scalars are one and the same. Only some small ones have an identity. -/
def identical : Cell → Cell → Bool
  | .null, .null => true
  | .na, .na => true
  | .bool a, .bool b => a == b
  | .packed (.bool a), .packed (.bool b) => a == b
  | .int m, .int n => m == n && -5 ≤ m && m ≤ 256
  | .text s, .text t => s == t && s.toList.length ≤ 1
  | _, _ => false

def identicalValues : Value → Value → Bool
  | .scalar a, .scalar b => identical a b
  | .column _ (some o), .column _ (some p) => o == p
  | _, _ => false

def isTest (a b : Value) : Except Fault Value :=
  match a, b with
  | .scalar .null, .column _ _ => .ok b.isMissing
  | .scalar .null, .table _ => .ok b.isMissing
  | .column _ _, .scalar .null => .ok a.isMissing
  | .table _, .scalar .null => .ok a.isMissing
  | .scalar (.bool _), .column _ _ => Value.compares .eq a b
  | .scalar (.bool _), .table _ => Value.compares .eq a b
  | .column _ _, .scalar (.bool _) => Value.compares .eq a b
  | .table _, .scalar (.bool _) => Value.compares .eq a b
  | a, b => .ok (.scalar (.bool (identicalValues a b)))

/-- Whether a row label equals a scalar. Truth values are no row numbers. -/
def isLabel (key label : Cell) : Bool :=
  match key.num?, label with
  | some (.bool _), .int _ => false
  | _, label => key.same label

def occursIn (part whole : List Char) : Bool :=
  part.isPrefixOf whole ||
    match whole with
    | [] => false
    | _ :: rest => occursIn part rest

/-- Whether a value is among the items of a list. A missing value is no answer. -/
def amongItems (c : Cell) : List Cell → Except Fault Bool
  | [] => .ok false
  | item :: rest => do
    if identical item c then return true
    match ← Cell.compares .eq item c with
    | .na => .error .wrongType
    | v => if v.asBool then return true else amongItems c rest

/-- Membership of a column's entries in another column, or of a scalar in labels, names, items or a
text. -/
def membership (a b : Value) : Except Fault Value :=
  match a, b with
  | .column c _, .column d _ => .ok (.ofColumn { c with data := c.data.members d.data })
  | .column _ _, .table _ => .error .badValue
  | .column _ _, .scalar _ => .error .missingMember
  | .table t, .column d _ =>
    return .table (← t.mapData fun c => .ok (.bools (tableMembers c d.data)))
  | .table _, .table _ => .error .badValue
  | .table _, .scalar _ => .error .missingMember
  | .scalar (.list _), .column _ _ => .error .wrongType
  | .scalar (.list _), .table _ => .error .wrongType
  | .scalar c, .column d _ => .ok (.scalar (.bool (d.labels.any (isLabel c))))
  | .scalar c, .table t => .ok (.scalar (.bool (t.names.any fun n => c.same (.text n))))
  | .scalar c, .scalar (.list items) => return .scalar (.bool (← amongItems c items))
  | .scalar (.text s), .scalar (.text t) => .ok (.scalar (.bool (occursIn s.toList t.toList)))
  | .scalar _, .scalar _ => .error .wrongType
where
  /-- Membership of a table's column, without marks. -/
  tableMembers (c d : Data) : List Bool :=
    match Data.members c d with
    | .bools xs => xs
    | .nullableBools xs => xs.map (·.getD false)
    | _ => []

def onTexts (f : String → String) : Value → Except Fault Value
  | .scalar (.text s) => .ok (.scalar (.text (f s)))
  | .column c _ =>
    if c.length == 0 then .ok (.ofColumn c)
    else do
      let cells ← c.data.cells.mapM fun
        | .text s => Except.ok (Cell.text (f s))
        | _ => .error .missingMember
      return .ofColumn { c with data := .objects cells }
  | _ => .error .missingMember

/-- Whether a text matches a pattern from its start. The pattern is read first. -/
def matchesPattern (s pattern : Cell) : Except Fault Bool :=
  match pattern with
  | .text p => do
    let q ← Text.Pattern.read p
    match s with
    | .text s => return q.matchesStart s
    | _ => .error .wrongType
  | _ => .error .wrongType

def matching (a b : Value) : Except Fault Value :=
  match a with
  | .scalar c => return .scalar (.bool (← matchesPattern c b.toCell))
  | .column c _ =>
    if c.length == 0 then .ok (.ofColumn c)
    else do
      let answers ← c.data.cells.mapM fun s => matchesPattern s b.toCell
      return .ofColumn { c with data := .bools answers }
  | .table _ => .error .wrongType

def numericResult (op : Operator) (result : Except Fault Value.Outcome) : Except Fault Value := do
  match ← result with
  | .real v => v.toNumeric
  | .imaginary => .error (.query (.badOutputs op.name))

def rule (op : Operator) (args : List Value) : Except Fault Value :=
  match op, args with
  | .and, [a, b] => conjoin a b
  | .or, [a, b] => disjoin a b
  | .not, [a] => opposite a
  | .compare c, [a, b] => Value.compares c a b
  | .is, [a, b] => isTest a b
  | .isNot, [a, b] => do opposite (← isTest a b)
  | .plus, [a, b] => numericResult op (Value.arith .add a b)
  | .minus, [a, b] => numericResult op (Value.arith .sub a b)
  | .minus, [a] => do (← a.negate).toNumeric
  | .times, [a, b] => numericResult op (Value.arith .mul a b)
  | .divide, [a, b] => numericResult op (Value.arith .div a b)
  | .modulo, [a, b] => numericResult op (Value.arith .mod a b)
  | .power, [a, b] => numericResult op (Value.arith .pow a b)
  | .concat, [a, b] => do
    match ← Value.arith .add a b with
    | .real v => return v
    | .imaginary => .error (.query (.badOutputs op.name))
  | .lower, [a] => onTexts Text.lower a
  | .upper, [a] => onTexts Text.upper a
  | .like, [a, b] => matching a b
  | .member, a :: b :: _ => membership a b
  | _, _ => .error (.query (.badInputs op.name))

def apply (op : Operator) (args : List Value) : Except Fault Value := do
  op.assertInputs args
  let v ← op.rule args
  Checks.assertOutput ⟨op.name, op.checks⟩ v
  return v

end Operator

end TableQuery
