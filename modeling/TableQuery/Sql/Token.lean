import TableQuery.Fault
import TableQuery.Text.Blank
import TableQuery.Text.Word

/-! The words of a query. Tokens are cut off one at a time from the text that is left, so a fault
late in the text is met only by a reader that comes so far. -/
namespace TableQuery.Sql

structure Token where
  kind : String
  text : String
  deriving Repr, DecidableEq

/-- The text that is left to read: the character before it, and how many characters were read. -/
structure Source where
  before : Option Char := none
  position : Nat := 0
  rest : List Char
  deriving Repr, DecidableEq

namespace Source

def ofString (s : String) : Source := { rest := s.toList }

def drop (s : Source) (n : Nat) : Source :=
  match n with
  | 0 => s
  | n + 1 =>
    { before := s.rest[n]?.or s.before, position := s.position + n + 1,
      rest := s.rest.drop (n + 1) }

end Source

/-- The words that are tokens of their own kind, in any case of letters. -/
def keywords : List String :=
  ["SET", "START", "TRANSACTION", "COMMIT", "ROLLBACK", "EXPLAIN", "ALTER", "ISOLATION", "LEVEL",
   "REPEATABLE", "READ", "WRITE", "UNCOMMITTED", "COMMITTED", "SERIALIZABLE", "ONLY", "CONVERT",
   "USING", "ENGINE", "USE", "DESCRIBE", "BEGIN", "SHOW", "SCHEMAS", "SCHEMA", "DATABASES",
   "DATABASE", "TABLES", "TABLE", "VIEW", "FULL", "VARIABLES", "SESSION", "STATUS", "GLOBAL",
   "PROCEDURE", "FUNCTION", "INDEX", "DROP", "CREATE", "WARNINGS", "ENGINES", "CHARSET",
   "CHARACTER", "COLLATION", "PLUGINS", "PERSIST", "PERSIST_ONLY", "DEFAULT", "COLUMNS", "FIELDS",
   "EXTENDED", "PROCESSLIST", "MUTEX", "CODE", "SLAVE", "REPLICA", "REPLICAS", "CHANNEL",
   "TRIGGERS", "KEYS", "STORAGE", "LOGS", "BINARY", "MASTER", "PRIVILEGES", "PROFILES", "HOSTS",
   "OPEN", "INDEXES", "ON", "ASC", "DESC", "WITH", "SELECT", "DISTINCT", "FROM", "AS", "WHERE",
   "LIMIT", "OFFSET", "HAVING", "FOR", "UPDATE", "JOIN", "INNER", "OUTER", "CROSS", "LEFT", "RIGHT",
   "UNION", "ALL", "CASE", "ELSE", "END", "THEN", "WHEN", "INSERT", "DELETE", "INTO", "VALUES",
   "AND", "OR", "NOT", "IS", "LIKE", "IN", "CAST", "BETWEEN", "WINDOW", "OVER", "NULL", "TRUE",
   "FALSE"]

inductive Gap where
  /-- Exactly one blank. -/
  | single
  /-- Any white space, but some. -/
  | wide
  deriving Repr, DecidableEq

def wordPairs : List (String × Gap × String × String) :=
  [("IF", .wide, "EXISTS", "IF_EXISTS"), ("NULLS", .single, "FIRST", "NULLS_FIRST"),
   ("NULLS", .single, "LAST", "NULLS_LAST"), ("GROUP", .single, "BY", "GROUP_BY"),
   ("ORDER", .single, "BY", "ORDER_BY"), ("IS", .wide, "NOT", "IS_NOT"),
   ("PARTITION", .single, "BY", "PARTITION_BY")]

/-- The tokens of signs, where a longer one comes before its beginning. -/
def signs : List (String × String) :=
  [("*", "STAR"), (".", "DOT"), (",", "COMMA"), ("(", "LPAREN"), (")", "RPAREN"),
   ("?", "PARAMETER"), ("+", "PLUS"), ("-", "MINUS"), ("/", "DIVIDE"), ("%", "MODULO"),
   ("=", "EQUALS"), ("!=", "NEQUALS"), (">=", "GEQ"), (">", "GREATER"), ("<=", "LEQ"),
   ("<", "LESS"), ("||", "CONCAT")]

/-- A letter without its case. Four letters outside the basic alphabet have one of it as their other
case. -/
def foldCase (c : Char) : Char :=
  if c == '\u017f' then 'S' else if c == '\u212a' then 'K'
  else if c == '\u0131' || c == '\u0130' then 'I'
  else c.toUpper

def foldWord (cs : List Char) : String := String.ofList (cs.map foldCase)

/-- The length of the gap at the start of a text, if it is one of the kind. -/
def Gap.length? (cs : List Char) : Gap → Option Nat
  | .single => if cs.head? == some ' ' then some 1 else none
  | .wide =>
    match (cs.takeWhile Text.isBlank).length with
    | 0 => none
    | n => some n

/-- The kind and length of a token of two words, whose first word is known. -/
def pairAt? (first : List Char) (rest : List Char) : Option (String × Nat) :=
  wordPairs.findSome? fun (left, gap, right, kind) =>
    if foldWord first != left then none
    else
      match gap.length? rest with
      | none => none
      | some n =>
        let second := (rest.drop n).takeWhile Text.isWord
        if foldWord second == right then some (kind, first.length + n + second.length) else none

/-- The kind and length of a keyword at the start of the text. A keyword stands alone: no part of a
word touches it. -/
def keywordAt? (s : Source) : Option (String × Nat) :=
  if s.before.any Text.isWord then none
  else
    let first := s.rest.takeWhile Text.isWord
    match pairAt? first (s.rest.drop first.length) with
    | some found => some found
    | none =>
      let word := foldWord first
      if keywords.contains word then some (word, first.length) else none

def signAt? (cs : List Char) : Option (String × Nat) :=
  signs.findSome? fun (sign, kind) =>
    if sign.toList.isPrefixOf cs then some (kind, sign.length) else none

def isNameLetter (c : Char) : Bool := (foldCase c).isUpper || c == '_' || c == '$'

/-- The length of one part of a name: letters and digits with a letter among them, or anything
between backquotes. -/
def namePartLength? (cs : List Char) : Option Nat :=
  match cs with
  | '`' :: rest =>
    let body := rest.takeWhile (· != '`')
    if body.isEmpty || body.length == rest.length then none else some (body.length + 2)
  | _ =>
    let run := cs.takeWhile fun c => isNameLetter c || c.isDigit
    if run.any isNameLetter then some run.length else none

def moreNameParts : Nat → List Char → Nat
  | 0, _ => 0
  | fuel + 1, cs =>
    match cs with
    | '.' :: rest =>
      match namePartLength? rest with
      | some n => n + 1 + moreNameParts fuel (rest.drop n)
      | none => 0
    | _ => 0

def nameLength? (cs : List Char) : Option Nat :=
  (namePartLength? cs).map fun n => n + moreNameParts cs.length (cs.drop n)

def numberAt? (cs : List Char) : Option (String × Nat) :=
  let isDigit (c : Char) : Bool := (Text.digitValue? c).isSome
  let whole := (cs.takeWhile isDigit).length
  if whole == 0 then none
  else
    match cs.drop whole with
    | '.' :: rest => some ("FLOAT", whole + 1 + (rest.takeWhile isDigit).length)
    | _ => some ("INTEGER", whole)

def quotedAt? (mark : Char) (cs : List Char) : Option Nat :=
  match cs with
  | c :: rest =>
    let body := rest.takeWhile (· != mark)
    if c == mark && body.length < rest.length then some (body.length + 2) else none
  | [] => none

def Source.tokenAt? (s : Source) : Option (String × Nat) :=
  keywordAt? s
  |>.or (signAt? s.rest)
  |>.or ((nameLength? s.rest).map (("ID", ·)))
  |>.or (numberAt? s.rest)
  |>.or ((quotedAt? '\'' s.rest).map (("QUOTE_STRING", ·)))
  |>.or ((quotedAt? '"' s.rest).map (("DQUOTE_STRING", ·)))

/-- The length of a comment between signs, which ends in its line. -/
def closedComment? : Nat → List Char → Option Nat
  | read, '*' :: '/' :: _ => some (read + 2)
  | _, '\n' :: _ => none
  | read, _ :: rest => closedComment? (read + 1) rest
  | _, [] => none

def skipLength? (cs : List Char) : Option Nat :=
  match cs with
  | [] => none
  | '/' :: '*' :: rest => closedComment? 2 rest
  | '-' :: '-' :: rest => some (2 + (rest.takeWhile (· != '\n')).length)
  | c :: _ => if c == ' ' || c == '\t' || c == '\r' || c == '\n' then some 1 else none

def Source.skip : Nat → Source → Source
  | 0, s => s
  | fuel + 1, s =>
    match skipLength? s.rest with
    | some n => skip fuel (s.drop n)
    | none => s

def Source.next (s : Source) : Except Fault (Option (Token × Source)) :=
  let s := s.skip s.rest.length
  match s.rest with
  | [] => .ok none
  | c :: _ =>
    match s.tokenAt? with
    | some (kind, n) => .ok (some ({ kind, text := String.ofList (s.rest.take n) }, s.drop n))
    | none => .error (.lexical c s.position)

end TableQuery.Sql
