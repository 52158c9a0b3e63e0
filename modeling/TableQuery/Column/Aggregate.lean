import TableQuery.Aggregate

/-! Aggregates of a column over groups of its rows. Missing entries are passed over. Doubles are
added with a running correction of the rounding, in the order of the rows. -/
namespace TableQuery

/-- A sum under way: what was added so far, and the rounding that is still to be taken back. -/
structure RunningSum where
  total : Float := 0.0
  correction : Float := 0.0

namespace RunningSum

/-- Adds a number. An infinite number leaves nothing to correct. -/
def add (s : RunningSum) (x : Float) : RunningSum :=
  let y := x - s.correction
  let total := s.total + y
  let correction := total - s.total - y
  { total, correction := if correction.isNaN then 0.0 else correction }

def of (xs : List Float) : Float := (xs.foldl add {}).total

end RunningSum

namespace Aggregate

def meanOf? (xs : List Float) : Option Float :=
  if xs.isEmpty then none else some (RunningSum.of xs / Binary64.ofInt xs.length)

def leastOf? {α : Type} (before : α → α → Bool) : List α → Option α
  | [] => none
  | x :: rest => some (rest.foldl (fun best y => if before best y then best else y) x)

def extremeInt? (greatest : Bool) (xs : List Int) : Option Int :=
  leastOf? (fun a b => if greatest then b ≤ a else a ≤ b) xs

def extremeBool? (greatest : Bool) (xs : List Bool) : Option Bool :=
  leastOf? (fun a b => if greatest then a || !b else !a || b) xs

def extremeText? (greatest : Bool) (xs : List String) : Option String :=
  leastOf? (fun a b =>
    if greatest then Cell.orderTexts a b != .lt else Cell.orderTexts a b != .gt) xs

/-- The least or the greatest double. One that is no number is never taken. -/
def extremeFloat? (greatest : Bool) (xs : List Float) : Option Float :=
  if xs.isEmpty then none
  else
    let start := if greatest then -Binary64.infinity else Binary64.infinity
    some (xs.foldl (fun best x => if (if greatest then best < x else x < best) then x else best)
      start)

def countDifferent {α : Type} (same : α → α → Bool) (xs : List α) : Nat :=
  (xs.foldl (fun (seen : List α) x => if seen.any (same x) then seen else x :: seen) []).length

def sumObjects (xs : List Cell) : Except Fault Cell :=
  match xs with
  | [] => .ok (.int 0)
  | x :: rest => rest.foldlM (fun total y => Cell.arithEntry .add total y) x

def meanObjects (xs : List Cell) : Except Fault Cell := do
  if xs.isEmpty then return .float Binary64.nan
  if !(xs.all fun c => c.num?.isSome) then throw .wrongType
  let total ← xs.foldlM (fun total y => Cell.arithEntry .add total y) (.int 0)
  return .float (total.asFloat / Binary64.ofInt xs.length)

/-- The least or the greatest of objects: numbers or texts. A missing one among texts has no place
in their order. -/
def extremeObjects (greatest : Bool) (xs : List Cell) : Except Fault Cell :=
  let present := xs.filter fun c => !c.isMissing
  let isText (c : Cell) : Bool := match c with | .text _ => true | _ => false
  let ordered : Bool :=
    present.all (fun c => c.num?.isSome) || (xs.all isText) || xs.length ≤ 1
  if !ordered then .error .wrongType
  else
    .ok ((leastOf? (fun a b => if greatest then b.sortsBefore a else a.sortsBefore b) present).getD
      (.float Binary64.nan))

end Aggregate

namespace Data

def split {α : Type} (xs : List α) (groups : List (List Nat)) : List (List α) :=
  groups.map fun rows => rows.filterMap (xs[·]?)

def splitPresent {α : Type} (xs : List (Option α)) (groups : List (List Nat)) : List (List α) :=
  (split xs groups).map (·.filterMap id)

def splitNumbers (xs : List Float) (groups : List (List Nat)) : List (List Float) :=
  (split xs groups).map (·.filter fun x => !x.isNaN)

def bitFloat (b : Bool) : Float := if b then 1.0 else 0.0

def countTrue (bs : List Bool) : Int := (bs.filter id).length

def sums (d : Data) (groups : List (List Nat)) : Except Fault Data :=
  match d with
  | .ints k xs =>
    let kind : IntKind := if k.isSigned then .int64 else .uint64
    .ok (.ints kind ((split xs groups).map fun g => kind.wrap (g.foldl (· + ·) 0)))
  | .floats xs => .ok (.floats ((splitNumbers xs groups).map RunningSum.of))
  | .bools xs => .ok (.ints .int64 ((split xs groups).map countTrue))
  | .objects xs => do
    let groups := (split xs groups).map (·.filter fun c => !c.isMissing)
    return .objects (← groups.mapM Aggregate.sumObjects)
  | .nullableInts k xs =>
    let kind : IntKind := if k.isSigned then .int64 else .uint64
    .ok (.nullableInts kind ((splitPresent xs groups).map fun g =>
      some (kind.wrap (g.foldl (· + ·) 0))))
  | .nullableFloats xs =>
    .ok (.nullableFloats ((splitPresent xs groups).map fun g => some (RunningSum.of g)))
  | .nullableBools xs =>
    .ok (.nullableInts .int64 ((splitPresent xs groups).map fun g => some (countTrue g)))
  | .texts xs =>
    .ok (.texts ((splitPresent xs groups).map fun g =>
      some (if g.isEmpty then "0" else String.join g)))

def means (d : Data) (groups : List (List Nat)) : Except Fault Data :=
  let plain (gs : List (List Float)) : Data :=
    .floats (gs.map fun g => (Aggregate.meanOf? g).getD Binary64.nan)
  match d with
  | .ints _ xs => .ok (plain (split (xs.map Binary64.ofInt) groups))
  | .floats xs => .ok (plain (splitNumbers xs groups))
  | .bools xs => .ok (plain (split (xs.map bitFloat) groups))
  | .objects xs => do
    let groups := (split xs groups).map (·.filter fun c => !c.isMissing)
    return .objects (← groups.mapM Aggregate.meanObjects)
  | .nullableInts _ xs =>
    .ok (.nullableFloats ((splitPresent xs groups).map fun g =>
      Aggregate.meanOf? (g.map Binary64.ofInt)))
  | .nullableFloats xs => .ok (.nullableFloats ((splitPresent xs groups).map Aggregate.meanOf?))
  | .nullableBools xs =>
    .ok (.nullableFloats ((splitPresent xs groups).map fun g => Aggregate.meanOf? (g.map bitFloat)))
  | .texts _ => .error .wrongType

def counts (d : Data) (groups : List (List Nat)) : Data :=
  let numbers : List Int := (split d.missing groups).map fun g => (g.filter fun m => !m).length
  match d with
  | .nullableInts _ _ => .nullableInts .int64 (numbers.map some)
  | .nullableFloats _ => .nullableInts .int64 (numbers.map some)
  | .nullableBools _ => .nullableInts .int64 (numbers.map some)
  | _ => .ints .int64 numbers

def distinctCounts (d : Data) (groups : List (List Nat)) : Data :=
  let entries := d.cells.zip d.missing
  .ints .int64 ((split entries groups).map fun g =>
    let present := (g.filter fun e => !e.2).map (·.1)
    (Aggregate.countDifferent sameObject present : Int))

def extremes (greatest : Bool) (d : Data) (groups : List (List Nat)) : Except Fault Data :=
  match d with
  | .ints k xs =>
    .ok (.ints k ((split xs groups).map fun g => (Aggregate.extremeInt? greatest g).getD 0))
  | .floats xs =>
    .ok (.floats ((splitNumbers xs groups).map fun g =>
      (Aggregate.extremeFloat? greatest g).getD Binary64.nan))
  | .bools xs =>
    .ok (.bools ((split xs groups).map fun g => (Aggregate.extremeBool? greatest g).getD false))
  | .objects xs => do
    return .objects (← (split xs groups).mapM (Aggregate.extremeObjects greatest))
  | .nullableInts k xs =>
    .ok (.nullableInts k ((splitPresent xs groups).map (Aggregate.extremeInt? greatest)))
  | .nullableFloats xs =>
    .ok (.nullableFloats ((splitPresent xs groups).map (Aggregate.extremeFloat? greatest)))
  | .nullableBools xs =>
    .ok (.nullableBools ((splitPresent xs groups).map (Aggregate.extremeBool? greatest)))
  | .texts xs => .ok (.texts ((splitPresent xs groups).map (Aggregate.extremeText? greatest)))

def aggregate (f : Aggregate) (d : Data) (groups : List (List Nat)) : Except Fault Data :=
  match f with
  | .sum => d.sums groups
  | .mean => d.means groups
  | .count => .ok (d.counts groups)
  | .countDistinct => .ok (d.distinctCounts groups)
  | .max => d.extremes true groups
  | .min => d.extremes false groups

end Data

end TableQuery
