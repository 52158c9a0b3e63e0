import TableQuery.Column.Aggregate

/-! Functions that a user adds to a catalog. They get the values of their arguments, without any
check of kinds, and what they give is taken as it is. Some simple ones are given here. -/
namespace TableQuery

abbrev Extension := List Value → Except Fault Value

namespace Extension

def ofOne (f : Value → Except Fault Value) : Extension
  | [v] => f v
  | _ => .error .wrongType

def ofColumn (f : Column → Except Fault Value) : Extension :=
  ofOne fun
    | .column c _ => f c
    | _ => .error .missingMember

def real (op : Arith) (a b : Value) : Except Fault Value := do
  match ← Value.arith op a b with
  | .real v => return v
  | .imaginary => throw .wrongType

def packedEntry (d : Data) (c : Cell) : Cell :=
  match d with
  | .objects _ => c
  | _ =>
    match c.num? with
    | some n => .packed n
    | none => c

def suffix (ending : String) : Extension :=
  ofOne fun v => real .add v (.scalar (.text ending))

def isOne : Extension :=
  ofOne fun v => v.compares .eq (.scalar (.int 1))

def double : Extension :=
  ofOne fun v => real .mul v (.scalar (.int 2))

def addThree : Extension
  | [a, b, c] => do real .add (← real .add a b) c
  | _ => .error .wrongType

def constant (c : Cell) : Extension := fun _ => .ok (.scalar c)

def refuse (text : String) : Extension := fun _ => .error (.query (.refused text))

/-- How often each value of a list occurs, in the order of the first occurrences. -/
def occurrenceCounts (cells : List Cell) : List (Cell × Nat) :=
  cells.foldl (fun counts c => note c counts) []
where
  /-- Counts one value. -/
  note (c : Cell) : List (Cell × Nat) → List (Cell × Nat)
    | [] => [(c, 1)]
    | (d, n) :: rest => if Data.sameObject c d then (d, n + 1) :: rest else (d, n) :: note c rest

/-- The value that occurs most often, the first of equals. Marked missing entries come last. -/
def mode : Extension :=
  ofColumn fun c =>
    let cells := c.data.cells
    let ordered :=
      match c.data with
      | .objects _ => cells
      | .texts _ => cells
      | _ => cells.filter (fun x => !(x matches .na)) ++ cells.filter (fun x => x matches .na)
    match occurrenceCounts ordered with
    | [] => .error .outOfBounds
    | first :: rest =>
      let best := rest.foldl (fun best x => if best.2 < x.2 then x else best) first
      .ok (.scalar (packedEntry c.data best.1))

/-- A function of one value that says so when it gets another number of them. -/
def checked (name : String) (f : Extension) : Extension := fun args =>
  if args.length == 1 then f args else .error (.query (.badInputs name))

def extreme (greatest : Bool) (c : Column) : Except Fault Cell := do
  let missing : Cell := if c.data.dtype == .texts then .na else .float Binary64.nan
  if c.length == 0 then
    return match c.data with
      | .nullableInts _ _ => .na
      | .nullableFloats _ => .na
      | .nullableBools _ => .na
      | _ => missing
  match (← c.data.extremes greatest [List.range c.length]).cells with
  | x :: _ => return packedEntry c.data x
  | [] => return missing

def span : Extension :=
  ofColumn fun c => do
    let high ← extreme true c
    let low ← extreme false c
    real .sub (.scalar high) (.scalar low)

def first : Extension :=
  ofColumn fun c =>
    match c.data.cells with
    | x :: _ => .ok (.scalar (packedEntry c.data x))
    | [] => .error .outOfBounds

def size : Extension :=
  ofOne fun
    | .column c _ => .ok (.scalar (.int c.length))
    | .table t => .ok (.scalar (.int t.height))
    | .scalar (.text s) => .ok (.scalar (.int s.length))
    | .scalar (.list items) => .ok (.scalar (.int items.length))
    | .scalar _ => .error .wrongType

end Extension

end TableQuery
