import TableQuery.Grammar.Table
import TableQuery.Sql.Build

/-! The grammar of queries. A word in capitals is a kind of token. A comparison binds more tightly
than a sum or a product does, and a function call is a target of its own and no expression. -/
namespace TableQuery.Sql

structure RuleGroup where
  head : String
  /-- The bodies, and what is made of each. -/
  bodies : List (String × Build)

def ruleGroups : List RuleGroup :=
  [⟨"query",
     [("drop_view", (.part 0)), ("delete", (.part 0)), ("insert", (.part 0)),
      ("select", (.part 0)), ("union", (.part 0)), ("describe", (.part 0)), ("use", (.part 0)),
      ("set", (.part 0)), ("explain", (.part 0)), ("alter_table", (.part 0)),
      ("rollback_transaction", (.part 0)), ("commit_transaction", (.part 0)),
      ("start_transaction", (.part 0)), ("show", (.part 0))]⟩,
   ⟨"explain",
     [("EXPLAIN identifier", (.statement "explain.Explain"))]⟩,
   ⟨"alter_table",
     [("ALTER TABLE identifier id id", (.statement "alter_table.AlterTable"))]⟩,
   ⟨"drop_view",
     [("DROP VIEW IF_EXISTS enumeration", (.statement "drop.DropView")),
      ("DROP VIEW enumeration", (.statement "drop.DropView")),
      ("DROP VIEW IF_EXISTS identifier", (.statement "drop.DropView")),
      ("DROP VIEW identifier", (.statement "drop.DropView"))]⟩,
   ⟨"start_transaction",
     [("START TRANSACTION", (.statement "start_transaction.StartTransaction"))]⟩,
   ⟨"commit_transaction",
     [("COMMIT", (.statement "commit_transaction.CommitTransaction"))]⟩,
   ⟨"rollback_transaction",
     [("ROLLBACK", (.statement "rollback_transaction.RollbackTransaction"))]⟩,
   ⟨"set",
     [("SET id identifier", .setNames), ("SET expr", (.statement "set.Set"))]⟩,
   ⟨"show",
     [("SHOW show_modifier_list show_category", (.statement "show.Show")),
      ("SHOW show_category", (.statement "show.Show")),
      ("show IN identifier", (.statement "show.Show")),
      ("show FROM identifier", (.statement "show.Show")),
      ("show LIKE string", (.statement "show.Show")),
      ("show WHERE expr", (.statement "show.Show"))]⟩, ⟨"show_category", [("SLAVE HOSTS", .nothing),
      ("REPLICAS", .nothing), ("PROFILES", .nothing), ("PRIVILEGES", .nothing),
      ("MASTER LOGS", .nothing), ("BINARY LOGS", .nothing), ("COLLATION", .nothing),
      ("CHARACTER SET", .nothing), ("CHARSET", .nothing), ("ENGINES", .nothing),
      ("WARNINGS", .nothing), ("CREATE TABLE", .nothing), ("INDEX", .nothing),
      ("PROCESSLIST", .nothing), ("STORAGE ENGINES", .nothing), ("STATUS", .nothing),
      ("MASTER STATUS", .nothing), ("TABLE STATUS", .nothing), ("FUNCTION STATUS", .nothing),
      ("PROCEDURE STATUS", .nothing), ("SESSION STATUS", .nothing), ("GLOBAL STATUS", .nothing),
      ("GLOBAL VARIABLES", .nothing), ("SESSION VARIABLES", .nothing), ("KEYS", .nothing),
      ("INDEXES", .nothing), ("VARIABLES", .nothing), ("PLUGINS", .nothing), ("FIELDS", .nothing),
      ("COLUMNS", .nothing), ("TRIGGERS", .nothing), ("OPEN TABLES", .nothing),
      ("TABLES", .nothing), ("DATABASES", .nothing), ("SCHEMAS", .nothing)]⟩, ⟨"show_modifier_list",
      [("show_modifier_list show_modifier", .nothing), ("show_modifier", .nothing)]⟩,
      ⟨"show_modifier", [("FULL", .nothing), ("EXTENDED", .nothing)]⟩, ⟨"delete",
      [("DELETE FROM from_table", (.statement "delete.Delete")),
      ("DELETE FROM from_table WHERE expr", .deleteWhere)]⟩, ⟨"insert",
      [("INSERT INTO from_table VALUES expr_list_set", (.statement "insert.Insert")),
      ("INSERT INTO from_table LPAREN result_columns RPAREN VALUES expr_list_set",
        (.statement "insert.Insert")),
      ("INSERT INTO from_table select", (.statement "insert.Insert")),
      ("INSERT INTO from_table LPAREN result_columns RPAREN select",
        (.statement "insert.Insert"))]⟩,
      ⟨"expr_list_set", [("LPAREN expr_list RPAREN", .nothing),
      ("expr_list_set COMMA expr_list_set", .nothing)]⟩, ⟨"describe",
      [("DESCRIBE identifier", (.statement "describe.Describe"))]⟩, ⟨"use",
      [("USE identifier", (.statement "use.Use"))]⟩, ⟨"union",
      [("select UNION ALL select", (.union true)), ("select UNION select", (.union false))]⟩,
      ⟨"select", [("SELECT result_columns", (.select false)),
      ("SELECT DISTINCT result_columns", (.select true)),
      ("select FROM from_table_aliased", (.clause .source)),
      ("select WHERE expr", (.clause .condition)),
      ("select GROUP_BY expr_list", (.clause .groupBy)), ("select HAVING expr", (.clause .having)),
      ("select ORDER_BY ordering_terms", (.clause .orderBy)),
      ("select LIMIT constant COMMA constant", .limitPair),
      ("select LIMIT constant", (.clause .limit)), ("select OFFSET constant", (.clause .offset)),
      ("ctes select", .withCtes)]⟩, ⟨"ctes",
      [("WITH identifier cte_columns_or_nothing AS LPAREN select RPAREN", .firstCte),
      ("ctes COMMA identifier cte_columns_or_nothing AS LPAREN select RPAREN", .nextCte)]⟩,
      ⟨"cte_columns_or_nothing", [("LPAREN enumeration RPAREN", .listed), ("empty", .noNodes)]⟩,
      ⟨"ordering_terms", [("ordering_term", .oneNode),
      ("ordering_terms COMMA ordering_term", .append)]⟩, ⟨"ordering_term",
      [("identifier", (.orderKey "default")), ("identifier ASC", (.orderKey "ASC")),
      ("identifier DESC", (.orderKey "DESC")),
      ("ordering_term NULLS_LAST", (.orderNulls "NULLS LAST")),
      ("ordering_term NULLS_FIRST", (.orderNulls "NULLS FIRST"))]⟩, ⟨"from_table_aliased",
      [("from_table", (.part 0)), ("from_table identifier", .tableAlias),
      ("from_table AS identifier", .tableAlias),
      ("from_table_aliased join_clause from_table_aliased ON expr", .joinOn),
      ("from_table_aliased COMMA from_table_aliased", .joinAll),
      ("from_table_aliased join_clause from_table_aliased", .join)]⟩, ⟨"from_table",
      [("parameter", (.part 0)), ("identifier", (.part 0)), ("ENGINES", .name), ("PLUGINS", .name),
      ("LPAREN query RPAREN", .parens)]⟩, ⟨"join_clause", [("OUTER JOIN", .words),
      ("CROSS JOIN", .words), ("FULL JOIN", .words), ("INNER JOIN", .words), ("RIGHT JOIN", .words),
      ("LEFT JOIN", .words), ("JOIN", .words)]⟩, ⟨"result_columns", [("result_column", .oneNode),
      ("result_columns COMMA result_column", .append)]⟩, ⟨"result_column",
      [("window_function", (.part 0)), ("function", (.part 0)), ("expr", (.part 0)),
      ("star", (.part 0)), ("LPAREN select RPAREN", .parens),
      ("result_column identifier", .targetAlias), ("result_column AS identifier", .targetAlias)]⟩,
      ⟨"window_function", [("function OVER LPAREN window RPAREN", .window)]⟩, ⟨"window",
      [("empty", .noWindow), ("window ORDER_BY ordering_terms", .windowOrder),
      ("window PARTITION_BY expr_list", .windowPartition)]⟩, ⟨"expr", [("constant", (.part 0)),
      ("parameter", (.part 0)), ("identifier", (.part 0)), ("NOT expr", .unary),
      ("MINUS expr", .unary), ("expr IN expr", .binary), ("expr CONCAT expr", .binary),
      ("expr LIKE expr", .binary), ("expr IS expr", .binary), ("expr NOT expr", .binary),
      ("expr IS_NOT expr", .binary), ("expr OR expr", .binary), ("expr AND expr", .binary),
      ("expr LESS expr", .binary), ("expr LEQ expr", .binary), ("expr GREATER expr", .binary),
      ("expr GEQ expr", .binary), ("expr NEQUALS expr", .binary), ("expr EQUALS expr", .binary),
      ("expr MODULO expr", .binary), ("expr DIVIDE expr", .binary), ("expr STAR expr", .binary),
      ("expr MINUS expr", .binary), ("expr PLUS expr", .binary), ("expr NOT IN expr", .notIn),
      ("LPAREN enumeration RPAREN", .tuple), ("CAST LPAREN expr AS id RPAREN", .cast),
      ("expr BETWEEN expr AND expr", .between), ("LPAREN expr RPAREN", .parens),
      ("LPAREN select RPAREN", .parens)]⟩, ⟨"function",
      [("id LPAREN expr_list_or_nothing RPAREN", (.call false)),
      ("id LPAREN DISTINCT expr_list RPAREN", (.call true))]⟩, ⟨"expr_list_or_nothing",
      [("empty", .noNodes), ("expr_list", (.part 0))]⟩, ⟨"expr_list", [("expr", .oneNode),
      ("enumeration", (.part 0))]⟩, ⟨"star", [("STAR", .star)]⟩, ⟨"enumeration",
      [("expr COMMA expr", .pair), ("enumeration COMMA expr", .append)]⟩, ⟨"constant",
      [("string", .textConstant), ("float", .floatConstant), ("integer", .intConstant),
      ("FALSE", (.boolConstant false)), ("TRUE", (.boolConstant true)), ("NULL", .nullConstant)]⟩,
      ⟨"identifier", [("dquote_string", .name), ("id", .name),
      ("identifier DOT identifier", .joinNames)]⟩, ⟨"string", [("dquote_string", (.part 0)),
      ("quote_string", (.part 0))]⟩, ⟨"parameter", [("PARAMETER", .parameter)]⟩, ⟨"id",
      [("INDEXES", (.part 0)), ("OPEN", (.part 0)), ("HOSTS", (.part 0)), ("PROFILES", (.part 0)),
      ("PRIVILEGES", (.part 0)), ("KEYS", (.part 0)), ("MASTER", (.part 0)), ("LOGS", (.part 0)),
      ("STORAGE", (.part 0)), ("TRIGGERS", (.part 0)), ("CHANNEL", (.part 0)),
      ("REPLICAS", (.part 0)), ("REPLICA", (.part 0)), ("SLAVE", (.part 0)), ("CODE", (.part 0)),
      ("MUTEX", (.part 0)), ("PROCESSLIST", (.part 0)), ("EXTENDED", (.part 0)),
      ("FIELDS", (.part 0)), ("VIEW", (.part 0)), ("STATUS", (.part 0)), ("TABLES", (.part 0)),
      ("CHARSET", (.part 0)), ("ID", (.part 0))]⟩, ⟨"float", [("FLOAT", (.part 0))]⟩, ⟨"integer",
      [("INTEGER", (.part 0))]⟩, ⟨"quote_string", [("QUOTE_STRING", (.unquoted '\''))]⟩,
      ⟨"dquote_string", [("DQUOTE_STRING", (.unquoted '"'))]⟩, ⟨"empty", [("", .nothing)]⟩]

/-- The name whose precedence a rule has in place of its last terminal's. -/
def bindingOf (body : String) : Option String :=
  if body == "NOT expr" || body == "MINUS expr" then some "UNARY" else none

/-- The rules of a group. Of two that fit the one of the earlier group is taken, and in a group the
later one. -/
def RuleGroup.rules (group : RuleGroup) (position : Nat) : List Rule :=
  (group.bodies.zipIdx).map fun ((body, _), i) =>
    { head := group.head
      body := (body.splitOn " ").filter (· != "")
      binding := bindingOf body
      rank := position * 100 + (group.bodies.length - i) }

def grammar : Grammar where
  start := "query"
  rules := (ruleGroups.zipIdx).flatMap fun (group, i) => group.rules i
  levels :=
    [(.left, ["PLUS", "MINUS", "OR"]), (.left, ["STAR", "DIVIDE", "AND"]), (.right, ["UNARY"]),
     (.none, ["LESS", "LEQ", "GREATER", "GEQ", "EQUALS", "NEQUALS", "IN", "BETWEEN", "IS", "IS_NOT",
       "LIKE"])]

/-- What the rules make of their parts; the first rule is the one of the whole text. -/
def builds : Array Build :=
  (Build.part 0 :: ruleGroups.flatMap fun group => group.bodies.map Prod.snd).toArray

def table : MoveTable := grammar.table

end TableQuery.Sql
