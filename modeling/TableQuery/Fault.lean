import TableQuery.Text.Quoted

/-! Why an operation fails. Faults of queries, commands and of the text of a query name their cause
and have a message; a fault of the data alone says only of which kind it is. -/
namespace TableQuery

inductive QueryFault where
  /-- The operands of a function are not of its kinds, or not of its number. -/
  | badInputs (function : String)
  /-- A function gave a result that is not of its kind. -/
  | badOutputs (function : String)
  | unsupportedOperation (name : String)
  /-- Tables were given for a directory that already records some. -/
  | metadataExists (dir : String)
  | notWritable (dir : String)
  /-- Metadata is there and may not be replaced. -/
  | metadataKept
  | noDataFiles (dir : String)
  | tableExists (name : String)
  | unknownTable (name : String)
  | tableNotInScope (name : String)
  | tooManyParts (parts : List String)
  | columnNotFound (name : String)
  /-- A key of a grouping is neither a column nor an expression. -/
  | groupKey (text : String)
  | duplicateColumn (name : String)
  | aggregateArity (text : String)
  | aggregateArgument (text : String)
  | notGrouped (name : String)
  | mixedAggregation
  | havingWithoutGroup
  | joinCondition (op : String)
  /-- A grouping by something that has no values. -/
  | groupExpression (text : String)
  /-- A statement that has a meaning in SQL but none here. -/
  | notExecutable (statement : String)
  /-- A user's own function refused. -/
  | refused (text : String)
  deriving Repr, DecidableEq

def QueryFault.message : QueryFault → String
  | .badInputs f => "Invalid inputs for function " ++ f
  | .badOutputs f => "Invalid outputs produced by function " ++ f
  | .unsupportedOperation name => "Unsupported operation: " ++ name
  | .metadataExists dir =>
    "Table metadata already exists in directory " ++ dir ++
      ", but tables also passed to DataSource constructor. \nEither load the previous metadata " ++
      "by omitting the tables argument, or explicitly overwrite old metadata by using " ++
      "DataSource.create_new(metadata_dir, tables)."
  | .notWritable dir => "Directory " ++ dir ++ " not writable"
  | .metadataKept => "Table metadata already exists, but overwrite is False."
  | .noDataFiles dir => "Directory " ++ dir ++ " does not contain any spreadsheet files"
  | .tableExists name =>
    "Table " ++ name ++ " already exists in data source, use DROP TABLE to remove it if you " ++
      "want to recreate it."
  | .unknownTable name => "Unknown table " ++ name
  | .tableNotInScope name => "Table name " ++ name ++ " not in scope."
  | .tooManyParts parts => "Too many name components: " ++ Text.quoteList parts
  | .columnNotFound name => "Column " ++ name ++ " not found."
  | .groupKey text => "Dont know how to handle group by column: " ++ text
  | .duplicateColumn name =>
    "Duplicate column name " ++ name ++ ". Provide an alias to resolve ambiguity."
  | .aggregateArity text =>
    "Only one argument functions supported for aggregations, found: " ++ text
  | .aggregateArgument text =>
    "The argument of an aggregate function must be a column, found: " ++ text
  | .notGrouped name => "Column " ++ name ++ " not found in GROUP BY clause"
  | .mixedAggregation =>
    "Can't process a mix of aggregation functions and non-aggregation functions with no GROUP " ++
      "BY clause."
  | .havingWithoutGroup => "Can't execute HAVING clause with no GROUP BY clause."
  | .joinCondition op => "Invalid join condition " ++ op
  | .groupExpression text => "Don't know how to aggregate by " ++ text
  | .notExecutable statement =>
    "No idea how to execute query statement <class 'mindsdb_sql.parser.ast." ++ statement ++ "'>"
  | .refused text => text

/-- A rule of commands that a command breaks. The texts are those of the offending arguments. -/
inductive CommandFault where
  | tooManyArguments (command : String)
  | pathExpected (got : String)
  | flagExpected (got : String)
  | nameExpected (command got : String)
  | noArgumentsExpected (command : String)
  deriving Repr, DecidableEq

def CommandFault.message : CommandFault → String
  | .tooManyArguments command => "Too many arguments for command " ++ command
  | .pathExpected got => "First argument must be a file path, got instead: " ++ got ++ "."
  | .flagExpected got =>
    "Second argument (clean_data) must be a boolean, got instead: " ++ got
  | .nameExpected command got =>
    "Expected only argument for " ++ command ++ " to be a string table name, got instead: " ++
      got ++ "."
  | .noArgumentsExpected command => "No arguments expected for command " ++ command

inductive InputFault where
  | noTables
  | unusedTable (name : String)
  deriving Repr, DecidableEq

def InputFault.message : InputFault → String
  | .noTables =>
    "Wrong from_tables value. Expected to be a dict of table names and dataframes, got: \x7b\x7d"
  | .unusedTable name => "Table " ++ name ++ " found in from_tables, but not in the SQL query."

inductive SyntaxFault where
  /-- A token that cannot come here. -/
  | unexpected (kind text : String)
  | unexpectedEnd
  | twoAliases (target : String)
  | duplicateClause (clause : String)
  | requires (clause needed : String)
  | misplaced (clause earlier : String)
  | secondOffset
  | notBoolean (clause text : String)
  | notInteger (clause text : String)
  | notIntegers (first second : String)
  | setNames (word : String)
  deriving Repr, DecidableEq

def SyntaxFault.message : SyntaxFault → String
  | .unexpected kind text => "Syntax error at token " ++ kind ++ ": \"" ++ text ++ "\""
  | .unexpectedEnd => "Syntax error at EOF"
  | .twoAliases target => "Attempt to provide two aliases for " ++ target
  | .duplicateClause clause =>
    "Duplicate " ++ clause ++ " clause. Only one " ++ clause ++ " allowed per SELECT."
  | .requires clause needed => clause ++ " requires " ++ needed
  | .misplaced clause earlier => clause ++ " must go after " ++ earlier
  | .secondOffset => "OFFSET already specified for this query"
  | .notBoolean clause text =>
    clause ++ " must contain an operation that evaluates to a boolean, got: " ++ text
  | .notInteger clause text => clause ++ " must be an integer value, got: " ++ text
  | .notIntegers first second =>
    "LIMIT must have integer arguments, got: " ++ first ++ ", " ++ second
  | .setNames word => "Expected \"SET names\", got \"SET " ++ word ++ "\""

inductive Fault where
  | query (cause : QueryFault)
  | command (cause : CommandFault)
  | input (cause : InputFault)
  | syntactic (cause : SyntaxFault)
  /-- A character that starts no token. -/
  | lexical (character : Char) (index : Nat)
  /-- An operation met a value of a kind it is not defined for. -/
  | wrongType
  /-- A value is of the right kind but not acceptable. -/
  | badValue
  /-- A name is not among the keys of a container. -/
  | missingKey
  /-- A value lacks the feature that was asked of it. -/
  | missingMember
  /-- A position is outside a sequence. -/
  | outOfBounds
  /-- A name is empty. -/
  | emptyName
  | divisionByZero
  | overflow
  /-- The operation is not defined for truth values. -/
  | notImplemented
  | fileNotFound
  | isDirectory
  | notDirectory
  /-- The file system does not let a file be made or taken away. -/
  | notPermitted
  | fileSystem
  /-- A pattern is malformed, or a mask cannot be lined up with a table. -/
  | failure
  deriving Repr, DecidableEq

def Fault.message? : Fault → Option String
  | .query cause => some cause.message
  | .command cause => some cause.message
  | .input cause => some cause.message
  | .syntactic cause => some cause.message
  | .lexical c index =>
    some ("Illegal character " ++ Text.quote (String.ofList [c]) ++ " at index " ++ toString index)
  | _ => none

end TableQuery
