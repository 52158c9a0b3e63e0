import TableQuery.Column.Arith

/-! Comparison of columns. Plain columns answer with plain truth values, and a missing entry equals
nothing; columns with marks answer with marks where an operand is marked. -/
namespace TableQuery

namespace Data

/-- Comparison of two numbers as machine numbers: whole numbers exactly, others as doubles. -/
def comparesMachine (op : Comparison) (a b : Num) : Bool :=
  match a.asInt?, b.asInt? with
  | some m, some n => op.accepts (compare m n)
  | _, _ =>
    match Num.orderFloats? a.toFloat b.toFloat with
    | some o => op.accepts o
    | none => op.ofUnordered

/-- Comparison of numeric operands. Truth values meet only numbers of 64 bits. -/
def numCompare (op : Comparison) (size : Nat) (l r : NumOperand) : Except Fault (List Bool) :=
  let tooBig : Bool :=
    match l, r with
    | .bools _, .one (.int n) => !IntKind.int64.fits n
    | .one (.int n), .bools _ => !IntKind.int64.fits n
    | _, _ => false
  if tooBig then .error .overflow
  else .ok (List.zipWith (comparesMachine op) (l.nums size) (r.nums size))

/-- The truth value of a comparison of entries. A missing answer is none. -/
def entryVerdict (op : Comparison) (a b : Cell) : Except Fault Bool := do
  match ← Cell.compares op a b with
  | .na => .error .wrongType
  | c => return c.asBool

def entryCompare (op : Comparison) (ls rs : List Cell) : Except Fault (List Bool) :=
  (ls.zip rs).mapM fun (a, b) => entryVerdict op a b

/-- Entry by entry, where a missing entry differs from everything and has no order. -/
def presentCompare (op : Comparison) (ls rs : List Cell) : Except Fault (List Bool) :=
  (ls.zip rs).mapM fun (a, b) =>
    if a.isMissing || b.isMissing then .ok op.ofUnordered else entryVerdict op a b

def unequalAll (op : Comparison) (size : Nat) : Except Fault (List Bool) :=
  match op.ofUnequal? with
  | some b => .ok (List.replicate size b)
  | none => .error .wrongType

def plainCompare (op : Comparison) (self : Data) (other : Operand) : Except Fault (List Bool) :=
  let size := self.length
  match other with
  | .data d =>
    if d.length != size then .error .badValue
    else
      match NumOperand.ofData? self, NumOperand.ofData? d with
      | some s, some o => numCompare op size s o
      | some _, none => entryCompare op self.freeCells d.freeCells
      | none, _ => presentCompare op self.freeCells d.freeCells
  | .scalar c =>
    if c.isMissing then .ok (List.replicate size op.ofUnordered)
    else
      match NumOperand.ofData? self, oneOf? c with
      | some s, some o => numCompare op size s o
      | some _, none => unequalAll op size
      | none, _ =>
        match presentCompare op self.freeCells (List.replicate size c) with
        | .error .wrongType => unequalAll op size
        | r => r

def hiddenCompare (op : Comparison) (self : Data) (other : Operand) : Except Fault (List Bool) :=
  let size := self.length
  match other with
  | .data d =>
    if d.length != size then .error .badValue
    else
      match NumOperand.ofData? self, NumOperand.ofData? d with
      | some s, some o => numCompare op size s o
      | _, _ => entryCompare op self.freeCells d.freeCells
  | .scalar c =>
    match NumOperand.ofData? self, oneOf? c with
    | some s, some o => numCompare op size s o
    | _, _ =>
      match c with
      | .null => if size == 0 then .ok [] else unequalAll op size
      | _ => unequalAll op size

def markedCompare (op : Comparison) (self : Data) (other : Operand) : Except Fault Data := do
  let own := self.marks
  match other with
  | .scalar .na => return .nullableBools (own.map fun _ => none)
  | .scalar c =>
    let answers ← hiddenCompare op self.hidden (.scalar c)
    return .nullableBools (markEntries answers own)
  | .data d =>
    let answers ← hiddenCompare op self.hidden (.data d.hidden)
    let others := if d.isMarked then d.marks else d.missing
    return .nullableBools (markEntries answers (List.zipWith (· || ·) own others))

def textCompare (op : Comparison) (self : List (Option String)) (other : Operand) :
    Except Fault Data := do
  let size := self.length
  let others ← match other with
    | .data d =>
      if d.length != size then .error .badValue else .ok (List.zip d.spreadCells d.missing)
    | .scalar c => .ok (List.replicate size (c, c.isMissing))
  let entries ← (self.zip others).mapM fun (s, o) =>
    match s with
    | none => Except.ok none
    | some s => if o.2 then .ok none else return some (← entryVerdict op (.text s) o.1)
  return .nullableBools entries

def compares (op : Comparison) (l r : Operand) : Except Fault Data :=
  match l, r with
  | .data d, other => dispatch op d (spread other)
  | .scalar c, .data d => dispatch op.flip d (spread (.scalar c))
  | .scalar _, .scalar _ => .error .wrongType
where
  /-- A list counts as a column. -/
  spread : Operand → Operand
    | .scalar (.list items) => .data (infer items)
    | o => o
  /-- The rules of the data decide; a plain column leaves the decision to one that is not. -/
  dispatch (op : Comparison) (d : Data) (other : Operand) : Except Fault Data :=
    match d, other with
    | .texts ts, other => textCompare op ts other
    | d, .data e =>
      if d.length != e.length then .error .badValue
      else if d.isMarked then markedCompare op d (.data e)
      else if e.isMarked then markedCompare op.flip e (.data d)
      else
        match e with
        | .texts ts => textCompare op.flip ts (.data d)
        | e => return .bools (← plainCompare op d (.data e))
    | d, .scalar c =>
      if d.isMarked then markedCompare op d (.scalar c)
      else return .bools (← plainCompare op d (.scalar c))

end Data

end TableQuery
