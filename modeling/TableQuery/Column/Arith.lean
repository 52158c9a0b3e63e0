import TableQuery.Cell.Arith
import TableQuery.Column.Infer

/-! Arithmetic on the data of columns. Plain columns follow machine arithmetic entry by entry, with
one type for the whole result; columns with missing values compute on what they hold and mark the
result where an operand is marked; text columns operate only where both sides are there. -/
namespace TableQuery

inductive Operand where
  | data (d : Data)
  | scalar (c : Cell)

/-- A numeric operand. A single number takes on the type of the column it meets. -/
inductive NumOperand where
  | ints (kind : IntKind) (entries : List Int)
  | floats (entries : List Float)
  | bools (entries : List Bool)
  | one (n : Num)

namespace NumOperand

def ofData? : Data → Option NumOperand
  | .ints k xs => some (.ints k xs)
  | .floats xs => some (.floats xs)
  | .bools xs => some (.bools xs)
  | _ => none

def nums (size : Nat) : NumOperand → List Num
  | .ints _ xs => xs.map .int
  | .floats xs => xs.map .float
  | .bools xs => xs.map .bool
  | .one n => List.replicate size n

def isInteger : NumOperand → Bool
  | .ints _ _ => true
  | .one (.int _) => true
  | _ => false

def isOne : NumOperand → Bool
  | .one _ => true
  | _ => false

end NumOperand

namespace IntKind

/-- The type that holds the values of both; none if only doubles do. -/
def join (j k : IntKind) : Option IntKind :=
  if j == k then some j
  else if j.isSigned == k.isSigned then some (if j.bits < k.bits then k else j)
  else
    let signed := if j.isSigned then j else k
    let unsigned := if j.isSigned then k else j
    if unsigned.bits < signed.bits then some signed
    else
      match unsigned.bits with
      | 8 => some .int16
      | 16 => some .int32
      | 32 => some .int64
      | _ => none

end IntKind

inductive NumType where
  | bools
  | ints (kind : IntKind)
  | floats

namespace NumType

/-- A single number next to a column of a type. A whole number must fit the column's type. -/
def withOne (column : NumType) (n : Num) : Except Fault NumType :=
  match n, column with
  | .float _, _ => .ok .floats
  | .bool _, t => .ok t
  | .int _, .floats => .ok .floats
  | .int n, .ints k => if k.fits n then .ok (.ints k) else .error .overflow
  | .int n, .bools => if IntKind.int64.fits n then .ok (.ints .int64) else .error .overflow

def join : NumType → NumType → NumType
  | .bools, t => t
  | t, .bools => t
  | .ints j, .ints k =>
    match j.join k with
    | some kind => .ints kind
    | none => .floats
  | _, _ => .floats

def ofOperand : NumOperand → NumType
  | .ints k _ => .ints k
  | .floats _ => .floats
  | .bools _ => .bools
  | .one (.int _) => .ints .int64
  | .one (.float _) => .floats
  | .one (.bool _) => .bools

def common (l r : NumOperand) : Except Fault NumType :=
  match l, r with
  | .one n, .one _ => .ok (ofOperand (.one n))
  | .one n, r => (ofOperand r).withOne n
  | l, .one n => (ofOperand l).withOne n
  | l, r => .ok ((ofOperand l).join (ofOperand r))

end NumType

namespace Num

def int! (n : Num) : Int := n.asInt?.getD 0

/-- Power by a single exponent: squares, roots and reciprocals are computed as such. -/
def powByOne (x y : Float) : Float :=
  if y == 2.0 then x * x
  else if y == 0.5 then x.sqrt
  else if y == -1.0 then 1.0 / x
  else Float.pow x y

end Num

namespace Data

def floatArith (op : Arith) (byOne : Bool) (ls rs : List Num) : List Float :=
  List.zipWith
    (fun a b =>
      if byOne && op == .pow then Num.powByOne a.toFloat b.toFloat
      else Num.machineFloats op a.toFloat b.toFloat)
    ls rs

def boolArith (op : Arith) (ls rs : List Num) : Except Fault Data :=
  match op with
  | .add => .ok (.bools (List.zipWith (fun a b => a.isTrue || b.isTrue) ls rs))
  | .mul => .ok (.bools (List.zipWith (fun a b => a.isTrue && b.isTrue) ls rs))
  | .sub => .error .wrongType
  | .mod => .ok (.ints .int8 (List.zipWith (fun _ _ => 0) ls rs))
  | .div | .pow => .error .notImplemented

def intArith (k : IntKind) (op : Arith) (ls rs : List Num) : Except Fault Data := do
  let entries ← (ls.zip rs).mapM fun (a, b) => Num.machineInts k op a.int! b.int!
  return .ints k entries

def rawNumArith (op : Arith) (size : Nat) (l r : NumOperand) : Except Fault Data := do
  let ls := l.nums size
  let rs := r.nums size
  match op, l, r with
  | .div, .bools _, .bools _ => .error .notImplemented
  | .div, .bools _, .one (.bool _) => .error .notImplemented
  | .div, .one (.bool _), .bools _ => .error .notImplemented
  | .div, _, _ => return .floats (floatArith .div false ls rs)
  | _, _, _ =>
    match ← NumType.common l r with
    | .bools => boolArith op ls rs
    | .ints k => intArith k op ls rs
    | .floats => return .floats (floatArith op r.isOne ls rs)

/-- Turns integers to doubles with no number where the divisor is zero, if it is zero anywhere. -/
def voidRemainders (d : Data) (divisors : List Num) : Data :=
  match d with
  | .ints _ xs =>
    if divisors.any fun n => n.int! == 0 then
      .floats (List.zipWith
        (fun x n => if n.int! == 0 then Binary64.nan else Binary64.ofInt x) xs divisors)
    else d
  | d => d

def numArith (op : Arith) (size : Nat) (l r : NumOperand) : Except Fault Data := do
  let result ← rawNumArith op size l r
  if op == .mod && r.isInteger then return result.voidRemainders (r.nums size) else return result

def equalsOne (c : Cell) : Bool := c.same (.int 1)

/-- A second try at arithmetic on objects, where both entries are there, or the column's next to a
single value. -/
def presentArith (op : Arith) (byOne : Option Bool) (ls rs : List Cell) :
    Except Fault (List Cell) :=
  (ls.zip rs).mapM fun (a, b) =>
    let present : Bool :=
      match byOne with
      | none => !a.isMissing && !b.isMissing
      | some true => !a.isMissing && !(op == .pow && equalsOne a)
      | some false => !b.isMissing && !(op == .pow && equalsOne a)
    if present then Cell.arithEntry op a b else .ok (.float Binary64.nan)

/-- Arithmetic on objects; `byOne` says which side is a single value, `again` whether there is a
second try. -/
def objectArith (op : Arith) (byOne : Option Bool) (again : Bool) (ls rs : List Cell) :
    Except Fault Data :=
  match (ls.zip rs).mapM fun (a, b) => Cell.arithEntry op a b with
  | .ok cells => .ok (.objects cells)
  | .error .wrongType =>
    if again then return .objects (← presentArith op byOne ls rs) else .error .wrongType
  | .error e => .error e

/-- Arithmetic of plain numbers with a missing scalar. Powers of one stay. -/
def missingArith (op : Arith) (onRight : Bool) (d : Data) : Data :=
  .objects (d.freeCells.map fun c =>
    match op, onRight with
    | .pow, true => if equalsOne c then c else .na
    | .pow, false => if c.same (.int 0) then .int 1 else .na
    | _, _ => .na)

/-- The single number of a scalar operand. Packed whole numbers and doubles count as exact ones. -/
def oneOf? (c : Cell) : Option NumOperand := c.num?.map .one

def isMarked : Data → Bool
  | .nullableInts _ _ | .nullableFloats _ | .nullableBools _ => true
  | _ => false

def marks : Data → List Bool
  | .nullableInts _ xs => xs.map Option.isNone
  | .nullableFloats xs => xs.map Option.isNone
  | .nullableBools xs => xs.map Option.isNone
  | .texts xs => xs.map Option.isNone
  | d => List.replicate d.length false

/-- The plain data below the marks: a one, no number, or false where there is a mark. -/
def hidden : Data → Data
  | .nullableInts k xs => .ints k (xs.map (·.getD 1))
  | .nullableFloats xs => .floats (xs.map (·.getD Binary64.nan))
  | .nullableBools xs => .bools (xs.map (·.getD false))
  | d => d

def markEntries {α : Type} (xs : List α) (marks : List Bool) : List (Option α) :=
  List.zipWith (fun x m => if m then none else some x) xs marks

/-- Plain data with marks. Objects show a mark as no number. -/
def mark (d : Data) (marks : List Bool) : Data :=
  match d with
  | .ints k xs => .nullableInts k (markEntries xs marks)
  | .floats xs => .nullableFloats (markEntries xs marks)
  | .bools xs => .nullableBools (markEntries xs marks)
  | .objects xs =>
    .objects (List.zipWith (fun x m => if m then .float Binary64.nan else x) xs marks)
  | .texts xs => .texts (List.zipWith (fun x m => if m then none else x) xs marks)
  | d => d

/-- Arithmetic on plain data, on the left if `selfLeft`. `raw` leaves out second tries and zero
divisors. -/
def plainArith (op : Arith) (raw : Bool) (self : Data) (other : Operand) (selfLeft : Bool) :
    Except Fault Data :=
  let size := self.length
  match other with
  | .data d =>
    if d.length != size then .error .badValue
    else
      match NumOperand.ofData? self, NumOperand.ofData? d with
      | some s, some o =>
        let (l, r) := if selfLeft then (s, o) else (o, s)
        if raw then rawNumArith op size l r else numArith op size l r
      | _, _ =>
        let (ls, rs) :=
          if selfLeft then (self.freeCells, d.freeCells) else (d.freeCells, self.freeCells)
        objectArith op none (!raw) ls rs
  | .scalar .na => .ok (missingArith op selfLeft self)
  | .scalar c =>
    match NumOperand.ofData? self, oneOf? c with
    | some s, some o =>
      let (l, r) := if selfLeft then (s, o) else (o, s)
      if raw then rawNumArith op size l r else numArith op size l r
    | some _, none =>
      match c with
      | .null => if size == 0 then .ok (.objects []) else .error .wrongType
      | _ => .error .wrongType
    | none, _ =>
      let cs := List.replicate size c
      let (ls, rs) := if selfLeft then (self.freeCells, cs) else (cs, self.freeCells)
      objectArith op (some selfLeft) (!raw) ls rs

def textResult (cells : List (Option Cell)) : Except Fault Data := do
  let entries ← cells.mapM fun
    | none => .ok none
    | some (.text s) => .ok (some s)
    | some .na => .ok none
    | some _ => .error .badValue
  return .texts entries

/-- The entries next to a column of texts: whole numbers with marks among them show as doubles. -/
def spreadCells (d : Data) : List Cell :=
  match d with
  | .nullableInts _ xs =>
    if d.hasMarks then xs.map fun | some n => .float (Binary64.ofInt n) | none => .na
    else d.freeCells
  | d => d.freeCells

def textArith (op : Arith) (self : List (Option String)) (other : Operand) (selfLeft : Bool) :
    Except Fault Data := do
  let size := self.length
  let others ← match other with
    | .data d =>
      if d.length != size then .error .badValue
      else .ok (List.zip d.spreadCells d.missing)
    | .scalar c => .ok (List.replicate size (c, c.isMissing))
  let cells ← (self.zip others).mapM fun (s, o) =>
    match s with
    | none => Except.ok none
    | some s =>
      if o.2 then .ok none
      else do
        let r ←
          if selfLeft then Cell.arithEntry op (.text s) o.1 else Cell.arithEntry op o.1 (.text s)
        return some r
  textResult cells

/-- Arithmetic with a missing scalar on data that can be marked: everything is marked. -/
def markedWithMissing (op : Arith) (self : Data) : Except Fault Data :=
  let ones : List Int := List.replicate self.length 1
  match self with
  | .nullableBools xs =>
    match op with
    | .div | .pow => .error .notImplemented
    | .mod => .ok (.ints .int8 ones)
    | _ => .ok (.bools (xs.map fun _ => true))
  | .nullableInts k _ =>
    if op == .div then .ok (.floats (ones.map fun _ => 1.0)) else .ok (.ints k ones)
  | d => .ok (.floats (List.replicate d.length 1.0))

def operandEquals (n : Int) (size : Nat) : Operand → List Bool
  | .data d => List.zipWith (fun c m => !m && c.same (.int n)) d.freeCells d.marks
  | .scalar c => List.replicate size (c.same (.int n))

/-- Powers that are known although an operand is missing: of one, and to the zero. -/
def knownPowers (self : Data) (other : Operand) (selfLeft : Bool) : List Bool :=
  let size := self.length
  let (base, exponent) :=
    if selfLeft then (Operand.data self, other) else (other, Operand.data self)
  List.zipWith (· || ·) (operandEquals 1 size base) (operandEquals 0 size exponent)

def markedArith (op : Arith) (self : Data) (other : Operand) (selfLeft : Bool) :
    Except Fault Data := do
  let size := self.length
  let own := self.marks
  let (plain, marks) : Operand × List Bool :=
    match other with
    | .data d =>
      if d.isMarked then (.data d.hidden, List.zipWith (· || ·) own d.marks)
      else (.data d, if d.length == size then List.zipWith (· || ·) own d.missing else own)
    | .scalar .na => (.scalar .na, own.map fun _ => true)
    | .scalar c => (.scalar c, own)
  let base := self.hidden
  let result ← match plain with
    | .scalar .na => markedWithMissing op self
    | .data (.texts ts) => textArith op ts (.data base) (!selfLeft)
    | plain =>
      let whole := self matches .nullableInts _ _
      plainArith op (op == .mod && selfLeft && whole) base plain selfLeft
  let marks :=
    if op == .pow then
      List.zipWith (fun m known => m && !known) marks (knownPowers self other selfLeft)
    else marks
  return result.mark marks

/-- The data of a list operand: numbers by their types, anything else as objects. -/
def ofList (size : Nat) (items : List Cell) : Data :=
  match items with
  | [x] => infer (List.replicate size x)
  | items => infer items

def arith (op : Arith) (l r : Operand) : Except Fault Data :=
  match l, r with
  | .data d, other => dispatch d (spread d.length other) true
  | .scalar c, .data d => dispatch d (spread d.length (.scalar c)) false
  | .scalar _, .scalar _ => .error .wrongType
where
  /-- A list counts as a column. -/
  spread (size : Nat) : Operand → Operand
    | .scalar (.list items) => .data (ofList size items)
    | o => o
  /-- The rules of the data decide; a plain column leaves the decision to one that is not. -/
  dispatch (d : Data) (other : Operand) (selfLeft : Bool) : Except Fault Data :=
    match d, other with
    | .texts ts, other => textArith op ts other selfLeft
    | d, .data e =>
      if d.isMarked then markedArith op d (.data e) selfLeft
      else if e.isMarked then markedArith op e (.data d) (!selfLeft)
      else
        match e with
        | .texts ts => textArith op ts (.data d) (!selfLeft)
        | e => plainArith op false d (.data e) selfLeft
    | d, .scalar c =>
      if d.isMarked then markedArith op d (.scalar c) selfLeft
      else plainArith op false d (.scalar c) selfLeft

def negate : Data → Except Fault Data
  | .ints k xs => .ok (.ints k (xs.map fun n => k.wrap (-n)))
  | .floats xs => .ok (.floats (xs.map fun x => -x))
  | .bools xs => .ok (.bools (xs.map not))
  | .objects xs => return .objects (← xs.mapM Cell.negate)
  | .nullableInts k xs => .ok (.nullableInts k (xs.map (·.map fun n => k.wrap (-n))))
  | .nullableFloats xs => .ok (.nullableFloats (xs.map (·.map fun x => -x)))
  | .nullableBools xs => .ok (.nullableBools (xs.map (·.map not)))
  | .texts _ => .error .wrongType

/-- The opposite of truth values, the bits turned over of whole numbers. Without rows all stays. -/
def invert (d : Data) : Except Fault Data :=
  if d.length == 0 then .ok d
  else
    match d with
    | .ints k xs => .ok (.ints k (xs.map fun n => k.wrap (-n - 1)))
    | .bools xs => .ok (.bools (xs.map not))
    | .objects xs => return .objects (← xs.mapM Cell.invert)
    | .nullableInts k xs => .ok (.nullableInts k (xs.map (·.map fun n => k.wrap (-n - 1))))
    | .nullableBools xs => .ok (.nullableBools (xs.map (·.map not)))
    | .floats _ | .nullableFloats _ | .texts _ => .error .wrongType

end Data

end TableQuery
