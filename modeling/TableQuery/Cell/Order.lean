import TableQuery.Cell.Compare

/-! The order of keys: numbers by value before texts by code points. The double that is no number
comes after all other numbers. -/
namespace TableQuery

def Num.isNaN : Num → Bool
  | .float x => x.isNaN
  | _ => false

def Num.sortsBefore (a b : Num) : Bool :=
  match a.order? b with
  | some o => o != .gt
  | none => b.isNaN

namespace Cell

def sortsBefore (a b : Cell) : Bool :=
  match a.num?, b.num? with
  | some m, some n => m.sortsBefore n
  | some _, none => true
  | none, some _ => false
  | none, none =>
    match a, b with
    | .text s, .text t => orderTexts s t != .gt
    | _, _ => true

/-- Whether a list of keys comes before another or is equal to it; the first keys that differ
decide. -/
def sortsBeforeAll : List Cell → List Cell → Bool
  | a :: as, b :: bs =>
    if a.sortsBefore b then if b.sortsBefore a then sortsBeforeAll as bs else true else false
  | _, _ => true

end Cell

end TableQuery
