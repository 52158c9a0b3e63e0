import TableQuery.Column.Infer
import TableQuery.Decimal.Reader

/-! The storage type of a column of fields: whole numbers, doubles, truth values, or texts as they
stand. Some spellings mean that an entry is missing. -/
namespace TableQuery.Csv

def missingWords : List String :=
  ["", "#N/A", "#N/A N/A", "#NA", "-1.#IND", "-1.#QNAN", "-NaN", "-nan", "1.#IND", "1.#QNAN",
   "<NA>", "N/A", "NA", "NULL", "NaN", "None", "n/a", "nan", "null"]

def isMissing (field : String) : Bool := missingWords.contains field

/-- A field read as a whole number: its leading digits alone decide that it is too long. -/
inductive WholeReading where
  | value (n : Int)
  | tooLong
  | noNumber

def readWhole (low high : Int) (field : String) : WholeReading :=
  let (negative, body) := Decimal.splitSign (field.toList.dropWhile Decimal.isFieldBlank)
  let digits := body.takeWhile Char.isDigit
  let rest := (body.dropWhile Char.isDigit).dropWhile Decimal.isFieldBlank
  if digits.isEmpty then .noNumber
  else
    let n : Int := Decimal.natOfDigits 0 digits
    let n := if negative then -n else n
    if n < low || high < n then .tooLong
    else if rest.isEmpty then .value n
    else .noNumber

/-- The outcome of reading all fields as whole numbers. The first field that fails decides. -/
inductive WholeColumn where
  | values (ns : List (Option Int))
  | tooLong
  | noNumbers

def readWholes (low high : Int) : List String → WholeColumn
  | [] => .values []
  | field :: rest =>
    if isMissing field then
      match readWholes low high rest with
      | .values ns => .values (none :: ns)
      | other => other
    else
      match readWhole low high field with
      | .value n =>
        match readWholes low high rest with
        | .values ns => .values (some n :: ns)
        | other => other
      | .tooLong => .tooLong
      | .noNumber => .noNumbers

def readTruth? (field : String) : Option Bool :=
  if ["True", "TRUE", "true"].contains field then some true
  else if ["False", "FALSE", "false"].contains field then some false
  else none

/-- All the fields that are not missing, each read by a rule; none if one cannot be. -/
def readAll? {α : Type} (read? : String → Option α) (fields : List String) :
    Option (List (Option α)) :=
  fields.mapM fun f => if isMissing f then some none else (read? f).map some

def texts (fields : List String) : Data :=
  .objects (fields.map fun f => if isMissing f then .float Binary64.nan else .text f)

def allTexts (fields : List String) : Data :=
  .objects (fields.map .text)

def wholes (ns : List (Option Int)) : Data :=
  if ns.all Option.isSome then .ints .int64 (ns.map (·.getD 0))
  else .floats (ns.map fun | some n => Binary64.ofInt n | none => Binary64.nan)

def typedReals (fields : List String) : Data :=
  match readAll? Decimal.readFieldFloat? fields with
  | some xs => .floats (xs.map (·.getD Binary64.nan))
  | none =>
    match readAll? readTruth? fields with
    | some bs =>
      if bs.all Option.isSome then .bools (bs.map (·.getD false))
      else .objects (bs.map fun | some b => .bool b | none => .float Binary64.nan)
    | none => texts fields

/-- Fields with a whole number that is too long for a signed word: unsigned words if all fit and
none is missing or negative, else texts. -/
def typedLong (fields : List String) : Data :=
  match readWholes IntKind.uint64.low IntKind.uint64.high
      (fields.map fun f => if isNegative f then "0" else f) with
  | .values ns =>
    if fields.any isNegative || !ns.all Option.isSome then
      if ns.any (·.any (IntKind.int64.high < ·)) then allTexts fields else texts fields
    else .ints .uint64 (ns.map (·.getD 0))
  | .tooLong => texts fields
  | .noNumbers => typedReals fields
where
  /-- Whether a field starts with a minus sign. -/
  isNegative (f : String) : Bool :=
    (Decimal.splitSign (f.toList.dropWhile Decimal.isFieldBlank)).1

def typed (fields : List String) : Data :=
  if fields.isEmpty then .objects []
  else if fields.all isMissing then .floats (fields.map fun _ => Binary64.nan)
  else
    match readWholes IntKind.int64.low IntKind.int64.high fields with
    | .values ns => wholes ns
    | .tooLong => typedLong fields
    | .noNumbers => typedReals fields

end TableQuery.Csv
