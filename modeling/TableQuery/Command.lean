import TableQuery.Cell.Display
import TableQuery.Text.Blank

/-! Commands: the statements that change or list the tables of a catalog. They are recognised by
their text before it is read as a query, and their arguments are checked when a command is made. -/
namespace TableQuery

/-- The commands. The bare command does nothing. -/
inductive CommandKind where
  | bare | createTable | dropTable | showTables
  deriving Repr, DecidableEq

def CommandKind.name? : CommandKind → Option String
  | .bare => none
  | .createTable => some "CREATE TABLE"
  | .dropTable => some "DROP TABLE"
  | .showTables => some "SHOW TABLES"

structure Command where
  kind : CommandKind
  args : Option (List Cell)

namespace Command

def substituteDefaults (kind : CommandKind) (args : Option (List Cell)) : Option (List Cell) :=
  match kind, args with
  | .createTable, some (path :: .null :: rest) => some (path :: .bool true :: rest)
  | _, args => args

def validate (kind : CommandKind) (args : Option (List Cell)) : Except Fault Unit :=
  match kind, args with
  | .bare, _ => .ok ()
  | .createTable, none => .error .wrongType
  | .createTable, some args =>
    if args.length > 2 then .error (.command (.tooManyArguments "CREATE TABLE"))
    else
      match args with
      | [] => .error .outOfBounds
      | .text _ :: [] => .ok ()
      | .text _ :: .bool _ :: _ => .ok ()
      | .text _ :: flag :: _ => .error (.command (.flagExpected flag.display))
      | path :: _ => .error (.command (.pathExpected path.display))
  | .dropTable, none => .error .wrongType
  | .dropTable, some [] => .error .outOfBounds
  | .dropTable, some (.text _ :: _) => .ok ()
  | .dropTable, some (name :: _) => .error (.command (.nameExpected "DROP TABLE" name.display))
  | .showTables, some (_ :: _) => .error (.command (.noArgumentsExpected "SHOW TABLES"))
  | .showTables, _ => .ok ()

def make (kind : CommandKind) (args : Option (List Cell)) : Except Fault Command := do
  let args := substituteDefaults kind args
  validate kind args
  return ⟨kind, args⟩

def after? (words : String) (cs : List Char) : Option (List Char) :=
  if words.toList.isPrefixOf cs then some (cs.drop words.toList.length) else none

def unquote (cs : List Char) : String :=
  let isMark (c : Char) : Bool := c == ' ' || c == '\'' || c == '"'
  String.ofList (((cs.dropWhile isMark).reverse.dropWhile isMark).reverse)

def isEnd (cs : List Char) : Bool :=
  cs == [] || cs == ['\n']

def isClosed : List Char → Bool
  | ';' :: rest => isEnd rest
  | cs => isEnd cs

/-- The flag with which a table's creation ends here, if it does end here. There may be none. -/
def closingFlag? (cs : List Char) : Option (Option (List Char)) :=
  let closes : List Char → Bool
    | ')' :: rest => isClosed rest
    | _ => false
  if (after? ", True" cs).any closes then some (some "True".toList)
  else if (after? ", False" cs).any closes then some (some "False".toList)
  else if closes cs then some none
  else none

/-- The longest path of at most so many characters after which the creation ends, and its flag. -/
def longestPath? (cs : List Char) : Nat → Option (List Char × Option (List Char))
  | 0 => none
  | n + 1 =>
    match closingFlag? (cs.drop (n + 1)) with
    | some flag => some (cs.take (n + 1), flag)
    | none => longestPath? cs n

/-- The parts of a text in which it differs from other texts of a command, if it has the form of
that command. A part need not be written. A semicolon counts as part of the name of a table that is
dropped. -/
def parts? (kind : CommandKind) (cs : List Char) : Option (List (Option (List Char))) :=
  match kind with
  | .bare => none
  | .createTable => do
    let body ← after? "CREATE TABLE (" cs
    let (path, flag) ← longestPath? body (body.takeWhile fun c => !Text.isBlank c).length
    return [some path, flag]
  | .dropTable => do
    let body ← after? "DROP TABLE " cs
    let name := body.takeWhile fun c => !Text.isBlank c
    if name.isEmpty || !isEnd (body.drop name.length) then none else return [some name]
  | .showTables => do
    let body ← after? "SHOW TABLES" cs
    if isClosed (body.dropWhile Text.isBlank) then return [] else none

def textArgument : Option (List Char) → Cell
  | some part => .text (unquote part)
  | none => .null

/-- A flag is true if anything is written for it. -/
def flagArgument : Option (List Char) → Cell
  | some part => .bool (unquote part != "")
  | none => .null

def arguments : CommandKind → List (Option (List Char)) → Option (List Cell)
  | .createTable, path :: flags => some (textArgument path :: flags.map flagArgument)
  | .dropTable, names => some (names.map textArgument)
  | _, _ => none

def readAs (kind : CommandKind) (s : String) : Except Fault (Option Command) :=
  match parts? kind s.toList with
  | some parts => do return some (← make kind (arguments kind parts))
  | none => .ok none

/-- The command that a text stands for. Its arguments are checked as those of any command. -/
def read (s : String) : Except Fault (Option Command) :=
  [CommandKind.createTable, .dropTable, .showTables].findSomeM? fun kind => readAs kind s

end Command

end TableQuery
