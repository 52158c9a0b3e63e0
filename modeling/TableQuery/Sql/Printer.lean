import TableQuery.Cell.Display
import TableQuery.Sql.Name
import TableQuery.Text.Case

/-! The text of a node, which names the columns of an answer and stands in messages. -/
namespace TableQuery.Sql

def Alias.render (a : Alias) : String :=
  let body := writeParts a.parts
  if a.parens then "(" ++ body ++ ")" else body

def renderConstant : Cell → String
  | .text s => "'" ++ s ++ "'"
  | .bool b => if b then "TRUE" else "FALSE"
  | c => c.display

def Tag.wrap (t : Tag) (withAlias : Bool) (body : String) : String :=
  let inner := if t.parens then "(" ++ body ++ ")" else body
  match withAlias, t.alias? with
  | true, some a => inner ++ " AS " ++ a.render
  | _, _ => inner

def renderOperation (form : OpForm) (op : String) (args : List String) : String :=
  let arg (i : Nat) : String := args[i]?.getD ""
  match form with
  | .plain => op ++ "(" ++ String.intercalate "," args ++ ")"
  | .unary => op ++ " " ++ arg 0
  | .binary => arg 0 ++ " " ++ Text.upper op ++ " " ++ arg 1
  | .between => arg 0 ++ " BETWEEN " ++ arg 1 ++ " AND " ++ arg 2
  | .call distinct =>
    op ++ "(" ++ (if distinct then "DISTINCT " else "") ++ String.intercalate ", " args ++ ")"

def renderClause (words : String) (body : Option String) : String :=
  match body with
  | some s => " " ++ words ++ " " ++ s
  | none => ""

/-- Texts one after the other with the words in front, or nothing if there are none. -/
def renderListed (words : String) (texts : List String) : String :=
  if texts.isEmpty then "" else words ++ String.intercalate ", " texts

mutual

/-- The text of a node, with its alias or without. Nodes inside it are written with theirs. -/
def Node.render (withAlias : Bool) : Node → String
  | .name parts t => t.wrap withAlias (writeParts parts)
  | .constant v t => t.wrap withAlias (renderConstant v)
  | .null t => t.wrap withAlias "NULL"
  | .star t => t.wrap withAlias "*"
  | .parameter t => t.wrap withAlias "?"
  | .operation form op args t => t.wrap withAlias (renderOperation form op (Node.renderAll args))
  | .window f partition order t =>
    f.render true ++ " over(" ++ renderListed "PARTITION BY " (Node.renderAll partition) ++ " " ++
      renderListed "ORDER BY " (Node.renderAll order) ++ ") " ++
      (match t.alias? with | some a => a.render | none => "")
  | .cast type arg t => t.wrap withAlias ("CAST(" ++ arg.render true ++ " AS " ++ type ++ ")")
  | .tuple items t =>
    t.wrap withAlias ("(" ++ String.intercalate ", " (Node.renderAll items) ++ ")")
  | .ordering field direction nulls t =>
    t.wrap withAlias (field.render true ++
      (if direction == "default" then "" else " " ++ direction) ++
      (match nulls with | some s => " " ++ s | none => ""))
  | .join kind left right condition implicit t =>
    t.wrap withAlias (
      if implicit then left.render true ++ ", " ++ right.render true
      else left.render true ++ " " ++ kind ++ " " ++ right.render true ++
        (match condition with | some c => " ON " ++ c.render true | none => ""))
  | .select q t => t.wrap withAlias q.render
  | .union left right keepsDuplicates t =>
    t.wrap withAlias (left.render true ++ "\n" ++
      (if keepsDuplicates then "UNION ALL" else "UNION") ++
      "\n" ++ right.render true)
  | .statement _ t => t.wrap withAlias ""

def Node.renderAll : List Node → List String
  | [] => []
  | n :: rest => n.render true :: Node.renderAll rest

def Select.render : Select → String
  | { targets, distinct, source, condition, groupBy, having, orderBy, limit, offset, ctes } =>
    let head :=
      match renderCtes ctes with
      | [] => ""
      | texts => "WITH " ++ String.intercalate ", " texts ++ " "
    head ++ "SELECT" ++ (if distinct then " DISTINCT" else "") ++ " " ++
      String.intercalate ", " (Node.renderAll targets) ++
      renderClause "FROM" (match source with | some n => some (n.render true) | none => none) ++
      renderClause "WHERE" (match condition with | some n => some (n.render true) | none => none) ++
      renderClause "GROUP BY"
        (match groupBy with
         | some ns => some (String.intercalate ", " (Node.renderAll ns))
         | none => none) ++
      renderClause "HAVING" (match having with | some n => some (n.render true) | none => none) ++
      renderClause "ORDER BY"
        (match orderBy with
         | some ns => some (String.intercalate ", " (Node.renderAll ns))
         | none => none) ++
      renderClause "LIMIT" (match limit with | some n => some (n.render true) | none => none) ++
      renderClause "OFFSET" (match offset with | some n => some (n.render true) | none => none)

def renderCtes : List Cte → List String
  | [] => []
  | { name, columns, query } :: rest =>
    let columnTexts := Node.renderAll columns
    (name.render true ++
      (if columnTexts.isEmpty then "" else "( " ++ String.intercalate ", " columnTexts ++ " )") ++
      " AS ( " ++ query.render true ++ " )") :: renderCtes rest

end

def Node.text (n : Node) : String := n.render true

def Node.bareText (n : Node) : String := n.render false

/-- The name under which a target's values are answered: its alias, or its text. -/
def Node.outputName (n : Node) : String :=
  match n.tag.alias? with
  | some a => a.render
  | none => n.bareText

end TableQuery.Sql
