import TableQuery.Fault

/-! Comma separated text cut into records. A quote is special only as the first character of a
field; inside quotes a doubled quote is one quote and line ends are text. Empty lines and lines of
blanks are no records. -/
namespace TableQuery.Csv

inductive Stage where
  /-- At the start of a line. -/
  | lineStart
  /-- After blanks at the start of a line, which may turn out to be all there is. -/
  | blankLine
  /-- At the start of a field. -/
  | fieldStart
  /-- Inside a field. -/
  | field
  /-- Inside quotes. -/
  | quoted
  /-- After a quote inside quotes. -/
  | afterQuote
  /-- After a carriage return that ends a record. -/
  | lineEnd
  /-- After a carriage return that ends no record. -/
  | emptyEnd
  deriving Repr, DecidableEq

/-- What is read so far: the stage, the current field and the current record in reverse. -/
structure Scan where
  stage : Stage
  field : List Char
  record : List String

def Scan.fresh : Scan := ⟨.lineStart, [], []⟩

def Scan.push (s : Scan) (c : Char) (stage : Stage) : Scan :=
  { s with stage, field := c :: s.field }

def fieldText (cs : List Char) : String := String.ofList (cs.takeWhile fun c => c != '\x00')

def Scan.endField (s : Scan) (stage : Stage) : Scan :=
  ⟨stage, [], fieldText s.field.reverse :: s.record⟩

def Scan.finished (s : Scan) : List String := s.record.reverse

def startLine (c : Char) : Scan :=
  if c == '\n' then .fresh
  else if c == '\r' then { Scan.fresh with stage := .emptyEnd }
  else if c == ' ' || c == '\t' then Scan.fresh.push c .blankLine
  else if c == ',' then Scan.fresh.endField .fieldStart
  else if c == '"' then { Scan.fresh with stage := .quoted }
  else Scan.fresh.push c .field

/-- One character inside a line: the new state, and the record that it ends. -/
def step (s : Scan) (c : Char) : Scan × Option (List String) :=
  let ends (s : Scan) : Scan × Option (List String) :=
    (.fresh, some (s.endField .lineStart).finished)
  match s.stage with
  | .lineStart => (startLine c, none)
  | .emptyEnd => (if c == '\n' then .fresh else startLine c, none)
  | .blankLine =>
    if c == '\n' then (.fresh, none)
    else if c == '\r' then ({ Scan.fresh with stage := .emptyEnd }, none)
    else if c == ' ' || c == '\t' then (s.push c .blankLine, none)
    else if c == ',' then (s.endField .fieldStart, none)
    else (s.push c .field, none)
  | .fieldStart =>
    if c == '\n' then ends s
    else if c == '\r' then (s.endField .lineEnd, none)
    else if c == ',' then (s.endField .fieldStart, none)
    else if c == '"' then ({ s with stage := .quoted }, none)
    else (s.push c .field, none)
  | .field =>
    if c == '\n' then ends s
    else if c == '\r' then (s.endField .lineEnd, none)
    else if c == ',' then (s.endField .fieldStart, none)
    else (s.push c .field, none)
  | .quoted =>
    if c == '"' then ({ s with stage := .afterQuote }, none) else (s.push c .quoted, none)
  | .afterQuote =>
    if c == '\n' then ends s
    else if c == '\r' then (s.endField .lineEnd, none)
    else if c == ',' then (s.endField .fieldStart, none)
    else if c == '"' then (s.push c .quoted, none)
    else (s.push c .field, none)
  | .lineEnd => (if c == '\n' then .fresh else startLine c, some s.finished)

def finish (s : Scan) : Except Fault (Option (List String)) :=
  match s.stage with
  | .lineStart | .emptyEnd | .blankLine => .ok none
  | .quoted => .error .badValue
  | .fieldStart | .field | .afterQuote => .ok (some (s.endField .lineStart).finished)
  | .lineEnd => .ok (some s.finished)

def recordsFrom (s : Scan) : List Char → Except Fault (List (List String))
  | [] => do
    match ← finish s with
    | some record => return [record]
    | none => return []
  | c :: rest => do
    let (next, done) := step s c
    let records ← recordsFrom next rest
    match done with
    | some record => return record :: records
    | none => return records

def records (s : String) : Except Fault (List (List String)) :=
  match s.toList with
  | '\ufeff' :: rest => recordsFrom .fresh rest
  | cs => recordsFrom .fresh cs

/-- Short rows are filled with empty fields up to the length of the row before; a longer row is
refused. -/
def evenRows (expected : Nat) : List (List String) → Except Fault (List (List String))
  | [] => .ok []
  | row :: rest =>
    if row.length > expected then .error .badValue
    else do
      let padded := row ++ List.replicate (expected - row.length) ""
      return padded :: (← evenRows padded.length rest)

/-- The rows below a header, all of one length. The first may be longer than the header. -/
def bodyRows (header : Nat) : List (List String) → Except Fault (List (List String))
  | [] => .ok []
  | first :: rest => evenRows (max header first.length) (first :: rest)

end TableQuery.Csv
