/-! The case tables are made of runs: code points at equal steps that all move by one distance. -/
namespace TableQuery.Text

/-- The code points `first`, `first + step`, up to `last`, each mapped to itself plus `offset`. -/
structure CaseRun where
  first : Nat
  last : Nat
  step : Nat
  offset : Int

/-- The runs after a code point, each by its distance, its length, the step and the offset. -/
def CaseRun.spaced (start : Nat) : List (Nat × Nat × Nat × Int) → List CaseRun
  | (gap, length, step, offset) :: rest =>
    let first := start + gap
    ⟨first, first + length, step, offset⟩ :: spaced (first + length) rest
  | [] => []

def CaseRun.image? (run : CaseRun) (code : Nat) : Option Nat :=
  if run.first ≤ code && code ≤ run.last && (code - run.first) % run.step == 0 then
    some ((code : Int) + run.offset).toNat
  else none

/-- The image of a character under the first run that holds it, or its expansion, or itself. -/
def mapCase (runs : List CaseRun) (expansions : List (Nat × List Nat)) (c : Char) : List Char :=
  match runs.findSome? (·.image? c.toNat) with
  | some code => [Char.ofNat code]
  | none =>
    match expansions.lookup c.toNat with
    | some codes => codes.map Char.ofNat
    | none => [c]

end TableQuery.Text
