import TableQuery.Sql.Node

/-! Names in queries: how a text is split into parts, and how parts are written. A part that could
be taken for something else is written between backquotes. -/
namespace TableQuery.Sql

def reservedWords : List String :=
  ["ALL", "ALTER", "AND", "AS", "ASC", "BEGIN", "BETWEEN", "BINARY", "BY", "CASE", "CAST",
   "CHANNEL", "CHARACTER", "CHARSET", "CODE", "COLLATION", "COLON", "COLUMNS", "COMMA", "COMMIT",
   "COMMITTED", "CONCAT", "CONVERT", "CREATE", "CROSS", "DATABASE", "DATABASES", "DATASET",
   "DATASETS", "DATASOURCE", "DATASOURCES", "DEFAULT", "DELETE", "DESC", "DESCRIBE", "DISTINCT",
   "DIVIDE", "DOT", "DROP", "ELSE", "END", "ENGINE", "ENGINES", "EQUALS", "EXISTS", "EXPLAIN",
   "EXTENDED", "FALSE", "FIELDS", "FIRST", "FLOAT", "FOR", "FROM", "FULL", "FUNCTION", "GEQ",
   "GLOBAL", "GREATER", "GROUP", "HAVING", "HORIZON", "HOSTS", "ID", "IF", "IN", "INDEX", "INDEXES",
   "INNER", "INSERT", "INTEGER", "INTEGRATION", "INTEGRATIONS", "INTO", "IS", "ISOLATION", "JOIN",
   "KEYS", "LAST", "LATEST", "LBRACE", "LBRACKET", "LEFT", "LEQ", "LESS", "LEVEL", "LIKE", "LIMIT",
   "LOGS", "LPAREN", "MASTER", "MINUS", "MODULO", "MUTEX", "NEQUALS", "NOT", "NULL", "NULLS",
   "OFFSET", "ON", "ONLY", "OPEN", "OR", "ORDER", "OUTER", "OVER", "PARAMETER", "PARAMETERS",
   "PARTITION", "PERSIST", "PLUGINS", "PLUS", "PREDICT", "PREDICTOR", "PREDICTORS", "PRIVILEGES",
   "PROCEDURE", "PROCESSLIST", "PROFILES", "PUBLICATION", "PUBLICATIONS", "RBRACE", "RBRACKET",
   "READ", "REPEATABLE", "REPLACE", "REPLICA", "REPLICAS", "RETRAIN", "RIGHT", "ROLLBACK", "RPAREN",
   "SCHEMA", "SCHEMAS", "SELECT", "SERIALIZABLE", "SESSION", "SET", "SHOW", "SLAVE", "STAR",
   "START", "STATUS", "STORAGE", "STREAM", "STREAMS", "TABLE", "TABLES", "THEN", "TRAIN",
   "TRANSACTION", "TRIGGERS", "TRUE", "UNCOMMITTED", "UNION", "UPDATE", "USE", "USING", "VALUES",
   "VARIABLES", "VIEW", "VIEWS", "WARNINGS", "WHEN", "WHERE", "WINDOW", "WITH", "WRITE"]

/-- A name that starts with a letter or underscore and goes on with letters, digits, underscores. -/
def isPlainName (cs : List Char) : Bool :=
  match cs with
  | [] => false
  | c :: rest => (c.isAlpha || c == '_') && rest.all fun d => d.isAlphanum || d == '_'

def writePart (part : String) : String :=
  let cs := part.toList
  if isPlainName cs && !reservedWords.contains (String.ofList (cs.map Char.toUpper)) then part
  else "`" ++ part ++ "`"

def writeParts (parts : List String) : String :=
  String.intercalate "." (parts.map writePart)

def stripBackquotes (cs : List Char) : List Char :=
  ((cs.dropWhile (· == '`')).reverse.dropWhile (· == '`')).reverse

def quotedLength? (cs : List Char) : Option Nat :=
  match cs with
  | '`' :: rest =>
    let body := rest.takeWhile (· != '`')
    if body.isEmpty || body.length == rest.length then none else some (body.length + 2)
  | _ => none

/-- The pieces between dots, where dots between backquotes do not count. -/
def splitPieces : Nat → List Char → List (List Char)
  | 0, _ => []
  | _, [] => []
  | fuel + 1, c :: rest =>
    match quotedLength? (c :: rest) with
    | some n => (c :: rest).take n :: splitPieces fuel ((c :: rest).drop n)
    | none =>
      if c == '.' then splitPieces fuel rest
      else
        let piece := (c :: rest).takeWhile (· != '.')
        piece :: splitPieces fuel ((c :: rest).drop piece.length)

def splitName (s : String) : List String :=
  (splitPieces (s.toList.length + 1) s.toList).map fun piece =>
    String.ofList (stripBackquotes piece)

def Node.ofName (s : String) : Except Fault Node :=
  match splitName s with
  | [] => .error .emptyName
  | parts => .ok (.name parts {})

end TableQuery.Sql
