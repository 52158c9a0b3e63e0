import TableQuery.Column.Member
import TableQuery.Table

/-! The rows of a table, each once. A row that repeats an earlier one is left out. In a single
column the kinds of missing values differ; in rows of several columns all missing values are equal.
-/
namespace TableQuery

def Cell.sameEntry (a b : Cell) : Bool :=
  if a.isMissing then b.isMissing else Data.sameObject a b

def Cell.sameRow : List Cell → List Cell → Bool
  | [], [] => true
  | [a], [b] => Data.sameObject a b
  | as, bs => as.length == bs.length && (as.zip bs).all fun (a, b) => a.sameEntry b

def Cell.isDistinguishable : Cell → Bool
  | .list _ | .column _ _ _ | .table _ _ => false
  | _ => true

def firstPositions (same : List Cell → List Cell → Bool) :
    List (List Cell) → Nat → List (List Cell) → List Nat
  | _, _, [] => []
  | seen, i, row :: rest =>
    if seen.any (same row) then firstPositions same seen (i + 1) rest
    else i :: firstPositions same (row :: seen) (i + 1) rest

def Table.distinct (t : Table) : Except Fault Table :=
  if t.isEmpty then .ok t
  else if t.rows.all fun row => row.all Cell.isDistinguishable then
    .ok (t.pickRows (firstPositions Cell.sameRow [] 0 t.rows))
  else .error .wrongType

end TableQuery
