import TableQuery.Column.Cast
import TableQuery.Table.Distinct
import TableQuery.Table.Sort

/-! Joining two tables on a column of each. A row of one table is matched with every row of the
other that has an equal key, and missing keys are equal to each other. -/
namespace TableQuery

inductive JoinKind where
  | inner
  | left
  | right
  | full
  deriving Repr, DecidableEq

/-- A row of a join: the positions of its two halves, none where there is no match. -/
structure JoinRow where
  left : Option Nat
  right : Option Nat
  deriving Repr, DecidableEq

namespace JoinRow

def matching (a b : Cell) : Bool := a.sameEntry b

def matchesOf (keys : List Cell) (key : Cell) : List Nat :=
  ((keys.zipIdx).filter fun (k, _) => matching key k).map (·.2)

def ofInner (ls rs : List Cell) : List JoinRow :=
  ls.zipIdx.flatMap fun (key, i) => (matchesOf rs key).map fun j => ⟨some i, some j⟩

def ofLeft (ls rs : List Cell) : List JoinRow :=
  ls.zipIdx.flatMap fun (key, i) =>
    match matchesOf rs key with
    | [] => [⟨some i, none⟩]
    | js => js.map fun j => ⟨some i, some j⟩

def ofRight (ls rs : List Cell) : List JoinRow :=
  rs.zipIdx.flatMap fun (key, j) =>
    match matchesOf ls key with
    | [] => [⟨none, some j⟩]
    | is => is.map fun i => ⟨some i, some j⟩

/-- The different keys of both tables in order, missing ones last. -/
def orderedKeys (ls rs : List Cell) : List Cell :=
  let keys := (ls ++ rs).foldl
    (fun (seen : List Cell) k => if seen.any (matching k) then seen else k :: seen) []
  let (missing, present) := keys.partition Cell.isMissing
  present.reverse.mergeSort Cell.sortsBefore ++ missing

def ofFull (ls rs : List Cell) : List JoinRow :=
  (orderedKeys ls rs).flatMap fun key =>
    match matchesOf ls key, matchesOf rs key with
    | [], js => js.map fun j => ⟨none, some j⟩
    | is, [] => is.map fun i => ⟨some i, none⟩
    | is, js => is.flatMap fun i => js.map fun j => ⟨some i, some j⟩

def ofKeys (kind : JoinKind) (ls rs : List Cell) : List JoinRow :=
  match kind with
  | .inner => ofInner ls rs
  | .left => ofLeft ls rs
  | .right => ofRight ls rs
  | .full => ofFull ls rs

end JoinRow

/-- What the keys of a table hold, when they meet keys of another storage type. -/
inductive KeyKind where
  | number
  | truth
  | texts
  | objects
  deriving Repr, DecidableEq

namespace Data

def keyKind : Data → KeyKind
  | .ints _ _ => .number
  | .floats _ => .number
  | .nullableInts _ _ => .number
  | .nullableFloats _ => .number
  | .bools _ => .truth
  | .nullableBools _ => .truth
  | .texts _ => .texts
  | .objects _ => .objects

def isWholeObjects (xs : List Cell) : Bool :=
  let isWhole (c : Cell) : Bool := match c.num? with | some (.int _) => true | _ => false
  xs.any isWhole && xs.all fun c => isWhole c || c.isMissing

/-- Whether objects cannot be told from numbers: no texts, and no gaps among fractions. -/
def isNumberObjects (xs : List Cell) : Bool :=
  let isNumber (c : Cell) : Bool :=
    match c.num? with | some (.int _) => true | some (.float _) => true | _ => false
  let isTruth (c : Cell) : Bool := match c.num? with | some (.bool _) => true | _ => false
  isWholeObjects xs || (!xs.isEmpty && (xs.all isNumber || xs.all isTruth))

def meetsNumbers : Data → Bool
  | .objects xs => isNumberObjects xs
  | .texts _ => false
  | _ => true

/-- Whether keys of two tables can be compared, and whether they become objects for it. -/
def coercion (l r : Data) : Except Fault Bool :=
  if l.length == 0 && r.length != 0 then .ok false
  else if l.length != 0 && r.length == 0 then .ok false
  else if l.dtype == r.dtype then .ok false
  else
    match l.keyKind, r.keyKind with
    | .number, .number => .ok false
    | .truth, .truth => .ok false
    | .number, .truth => .ok true
    | .truth, .number => .ok true
    | .truth, _ => .ok true
    | _, .truth => .ok true
    | .number, _ => if r.meetsNumbers then .ok true else .error .badValue
    | _, .number => if l.meetsNumbers then .ok true else .error .badValue
    | _, _ => .ok true

def holdsMarks (d : Data) : Bool :=
  match d with
  | .nullableInts _ _ => true
  | .nullableFloats _ => true
  | .nullableBools _ => true
  | .texts _ => true
  | _ => false

def commonType (l r : Data) : CastType :=
  if l.dtype == r.dtype then .storage l.dtype
  else
    match l.keyKind, r.keyKind with
    | .number, .number =>
      let isFloat (d : Data) : Bool :=
        match d with | .floats _ => true | .nullableFloats _ => true | _ => false
      let marked := l.holdsMarks || r.holdsMarks
      if isFloat l || isFloat r then .storage (if marked then .nullableFloats else .floats)
      else .storage (if marked then .nullableInts .int64 else .ints .int64)
    | .truth, .truth => .storage .nullableBools
    | _, _ => .storage .objects

end Data

/-- The entries of a key that both tables have: the left one's, and where it has no row the right
one's. -/
def sharedKey (l r : Data) (rows : List JoinRow) : Except Fault Data := do
  if rows.all fun row => row.left.isSome then return l.reindex (rows.map (·.left))
  else if rows.all fun row => row.left.isNone then return r.reindex (rows.map (·.right))
  else
    let type :=
      if rows.all fun row => row.right.isNone then CastType.storage l.dtype else Data.commonType l r
    let l ← l.cast type
    let r ← r.cast type
    let both := l.append r
    return both.reindex (rows.map fun row =>
      match row.left with
      | some i => some i
      | none => row.right.map (· + l.length))

/-- The names of two tables side by side: those that both have get an ending. -/
def sideNames (ls rs : List String) : Except Fault (List String × List String) :=
  let suffixed (names others : List String) (ending : String) : List String :=
    names.map fun n => if others.contains n then n ++ ending else n
  let left := suffixed ls rs "_x"
  let right := suffixed rs ls "_y"
  if newlyRepeated ls left || newlyRepeated rs right then .error .badValue
  else .ok (left, right)
where
  /-- Whether a name is a repetition that was none before the endings. -/
  newlyRepeated (old new : List String) : Bool :=
    (List.range new.length).any fun i =>
      let repeats (names : List String) : Bool :=
        match names[i]? with
        | some n => (names.take i).contains n
        | none => false
      repeats new && !repeats old

def Table.withObjects (t : Table) (name : String) : Table :=
  { t with columns := t.columns.map fun (n, d) => if n == name then (n, .objects d.freeCells)
    else (n, d) }

def Table.join (kind : JoinKind) (leftOn rightOn : String) (l r : Table) : Except Fault Table := do
  let lk ← l.column leftOn
  let rk ← r.column rightOn
  let coerced ← Data.coercion lk rk
  let l := if coerced then l.withObjects leftOn else l
  let r := if coerced then r.withObjects rightOn else r
  let lk ← l.column leftOn
  let rk ← r.column rightOn
  let rows := JoinRow.ofKeys kind lk.freeCells rk.freeCells
  let shared := leftOn == rightOn
  let rightColumns := if shared then r.columns.filter fun c => c.1 != rightOn else r.columns
  let (leftNames, rightNames) ← sideNames l.names (rightColumns.map (·.1))
  let key ← sharedKey lk rk rows
  let leftData := l.columns.map fun (n, d) =>
    if shared && n == leftOn then key else d.reindex (rows.map (·.left))
  let rightData := rightColumns.map fun (_, d) => d.reindex (rows.map (·.right))
  return ⟨Column.freshLabels rows.length, leftNames.zip leftData ++ rightNames.zip rightData⟩

end TableQuery
