import TableQuery.Csv.Field
import TableQuery.Csv.Record
import TableQuery.Table

/-! Tables read from comma separated text. The first record names the columns; if the first row has
one field more than that, the first field of each row is its label. -/
namespace TableQuery.Csv

def unnamed (position : Nat) : String := "Unnamed: " ++ toString position

abbrev NameCounts := List (String × Nat)

def timesGiven (counts : NameCounts) (name : String) : Nat := (counts.lookup name).getD 0

def numberedName (taken : List String) (old : String) :
    Nat → NameCounts → Nat → String × NameCounts
  | 0, counts, _ => (old, counts)
  | fuel + 1, counts, count =>
    let counts := (old, count + 1) :: counts
    let candidate := old ++ "." ++ toString count
    if taken.contains candidate then numberedName taken old fuel counts (count + 1)
    else if timesGiven counts candidate == 0 then (candidate, counts)
    else numberedName taken old fuel counts (timesGiven counts candidate)

/-- Gives the names at some positions their final form, one after the other. -/
def settleNames (names : List String) (counts : NameCounts) : List Nat → List String
  | [] => names
  | position :: rest =>
    let name := names[position]?.getD ""
    let (settled, counts) :=
      if timesGiven counts name == 0 then (name, counts)
      else numberedName names name (2 * names.length + 2) counts (timesGiven counts name)
    settleNames (names.set position settled) ((settled, timesGiven counts settled + 1) :: counts)
      rest

/-- The column names of a header: named columns keep their names before unnamed ones do. -/
def columnNames (header : List String) : List String :=
  let positions := List.range header.length
  let isNamed (i : Nat) : Bool := header[i]?.getD "" != ""
  let names := header.zipIdx.map fun (n, i) => if n == "" then unnamed i else n
  settleNames names [] (positions.filter isNamed ++ positions.filter fun i => !isNamed i)

def columnFields (rows : List (List String)) (position : Nat) : List String :=
  rows.map fun r => r[position]?.getD ""

def read (s : String) : Except Fault Table := do
  match ← records s with
  | [] => .error .badValue
  | header :: body =>
    let rows ← bodyRows header.length body
    let names := columnNames header
    let width := match rows with | [] => names.length | r :: _ => r.length
    let extra := width - names.length
    if extra > 1 then .error .badValue
    else
      let columns := names.zipIdx.map fun (n, i) => (n, typed (columnFields rows (i + extra)))
      let labels :=
        if extra == 1 then (typed (columnFields rows 0)).cells else Column.freshLabels rows.length
      return ⟨labels, columns⟩

end TableQuery.Csv
