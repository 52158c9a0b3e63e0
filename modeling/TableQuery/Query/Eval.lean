import TableQuery.Catalog
import TableQuery.Query.Grouped
import TableQuery.Query.Join
import TableQuery.Query.Rows
import TableQuery.Sql.Parser

/-! Evaluation of queries. The clauses of a select are carried out in this order: FROM, WHERE, GROUP
BY, targets, HAVING, DISTINCT, OFFSET, ORDER BY, LIMIT. The tables of FROM are in scope until the
select is finished. -/
namespace TableQuery

open Sql

namespace Relation

def columns (r : Relation) : Work (List String) :=
  match r with
  | .frame id => return (← Work.frame id).table.names
  | _ => throw .missingMember

def toGroupSource (r : Relation) : Work GroupSource :=
  match r with
  | .frame id => return .table (← Work.frame id).table
  | .value (.column c _) =>
    return .table ⟨c.labels, match c.name with | some n => [(n, c.data)] | none => []⟩
  | .value (.table t) => return .table t
  | _ => return .other

end Relation

namespace Query

/-- The columns of a name in a table that was handed out. Several of one name are a table. -/
def columnsNamed (id : Nat) (name : String) : Work Value := do
  let f ← Work.frame id
  match f.table.named name with
  | [d] => return .column ⟨f.table.labels, some (f.nameOf name), d⟩ (some ⟨id, name⟩)
  | ds => return .table ⟨f.table.labels, ds.map fun d => (name, d)⟩

def hasColumn (source : Relation) (name : String) : Work Bool :=
  match source with
  | .frame id => return (← Work.frame id).table.has name
  | .absent => return false
  | .value (.column _ _) => return false
  | .value (.table t) => return t.has name
  | .value (.scalar (.text s)) => if occursIn name s then throw .wrongType else return false
  | .value (.scalar _) => throw .wrongType

/-- The column of a table in scope. From now on it has its full name. -/
def scopedColumn (table column : String) (parts : List String) : Work Value := do
  let scope := (← Work.catalog).scope
  match scope.lookup table with
  | none => if table == "" then throw .missingKey else throw (.query (.tableNotInScope table))
  | some (.frame id) =>
    let f ← Work.frame id
    if f.table.has column then
      Work.setFrame id (f.rename column (writeParts parts))
      columnsNamed id column
    else throw (.query (.columnNotFound (writeParts parts)))
  | some _ => throw .missingMember

/-- The column that a name means, of the source, or by two parts of a table in scope. -/
def columnOf (parts : List String) (source : Relation) : Work Value :=
  match parts with
  | [name] => do
    if (← source.columns).contains name then
      match source with
      | .frame id => columnsNamed id name
      | _ => throw .missingMember
    else throw (.query (.columnNotFound (writeParts parts)))
  | [table, column] => do
    let full := table ++ "." ++ column
    if ← hasColumn source full then
      match source with
      | .frame id => columnsNamed id full
      | _ => throw .wrongType
    else scopedColumn table column parts
  | parts => throw (.query (.tooManyParts parts))

def call (op : String) (args : List Value) : Work Value := do
  let name := Text.lower op
  match (← Work.catalog).extensions.lookup name with
  | some f => Work.lift (f args)
  | none => do
    let operator ← Work.lift (Operator.ofName name)
    Work.lift (operator.apply args)

def addToScope (name : String) (r : Relation) : Work Unit :=
  Work.setCatalog fun c => { c with scope := setNamed c.scope name r }

def tableOf (parts : List String) : Work Relation := do
  let name := writeParts parts
  match entryAt? (← Work.catalog).entries (.text name) with
  | none => throw (.query (.unknownTable name))
  | some e =>
    let r ← Work.rowsOf e
    addToScope name r
    return r

def filter (source : Relation) (index : Value) : Work Relation := do
  match index with
  | .scalar _ => throw .missingMember
  | .table _ => throw .badValue
  | .column c _ =>
    match source with
    | .frame id =>
      let t ← Work.lift ((← Work.frame id).table.choose c.data)
      return .frame (← Work.newFrame t)
    | .value (.column s _) =>
      match ← Work.lift c.data.choice with
      | .rows mask =>
        if mask.length == s.length then
          let positions := Table.positionsWhere mask
          return .value (Value.ofColumn
            ⟨positions.filterMap (s.labels[·]?), s.name, s.data.pick positions⟩)
        else throw .badValue
      | .names _ => throw .missingKey
    | _ => throw .wrongType

/-- The rows of a grouped answer that HAVING chooses. A text may name a column, which is no table.
-/
def filterGroups (t : Table) (index : Value) : Except Fault Table :=
  match index with
  | .scalar (.text s) => if t.has s then .error .missingMember else .error .missingKey
  | .scalar _ => .error .missingKey
  | .table _ => .error .badValue
  | .column c _ => t.chooseByLabel c

def addKey (source : Relation) (name : String) (v : Value) : Work Unit := do
  match source with
  | .frame id =>
    let f ← Work.frame id
    let d ← Work.lift <| match v with
      | .column c _ =>
        if Cell.sameAll c.labels f.table.labels then .ok c.data
        else .ok (c.data.relabel c.labels f.table.labels)
      | .scalar c => .ok ((Data.infer (c :: List.replicate f.table.height c)).pick
          ((List.range f.table.height).map (· + 1)))
      | .table u =>
        match u.columns with
        | [(_, d)] => .ok (d.relabel u.labels f.table.labels)
        | _ => .error .badValue
    Work.setFrame id (f.setColumn name d)
  | _ => throw .wrongType

def groupSource (source : Relation) (keys : List String) : Work GroupSource :=
  match source with
  | .frame id => do return .grouping (← Work.lift ((← Work.frame id).table.groupBy keys))
  | _ => throw .missingMember

def boundOf (v : Value) : Except Fault (Option Int) :=
  match v with
  | .scalar .null => .ok none
  | .scalar (.int n) => .ok (some n)
  | _ => .error .wrongType

def sortFields : List Node → Except Fault (List (String × Bool))
  | [] => .ok []
  | key :: rest =>
    match key with
    | .ordering (.name parts _) direction _ _ =>
      return (writeParts parts, direction != "DESC") :: (← sortFields rest)
    | _ => .error .missingMember

/-- The two tables of a join. A table without rows of its own cannot be joined, nor can a column
without a name. -/
def joinSide (r : Relation) : Work Table :=
  match r with
  | .frame id => return (← Work.frame id).table
  | .value (.column c _) =>
    match c.name with
    | some n => return ⟨c.labels, [(n, c.data)]⟩
    | none => throw .badValue
  | .value (.table t) => return t
  | _ => throw .wrongType

def leafValue : Node → Work Value
  | .constant v _ => return Value.ofCell v
  | .null _ => return .scalar .null
  | n => throw (.query (.notExecutable n.className))

def tupleValue (values : List Value) : Value :=
  Value.ofColumn (Column.ofData (Data.infer (values.map Value.toCell)) none)

def sideName (n : Node) : String := n.settled.outputName

def starTargets (source : Relation) : List String → Work (List (String × Value))
  | [] => return []
  | name :: rest => do
    if name == "" then throw .emptyName
    let parts := splitName name
    let v ← columnOf parts source
    return (writeParts parts, v) :: (← starTargets source rest)

def withAlias (t : Tag) (r : Relation) : Work Relation := do
  match t.alias? with
  | some a => addToScope a.render r
  | none => pure ()
  return r

def isStar : Node → Bool
  | .star _ => true
  | _ => false

def groupsWhole : List Node → Bool
  | [key] => key.isTrueConstant
  | _ => false

/-- The keys that a select is grouped by. Targets that are all aggregates group the rows as a whole.
-/
def groupKeys (targets : List Node) (groupBy : Option (List Node)) : Except Fault (List Node) :=
  match groupBy with
  | some keys => .ok keys
  | none =>
    match implicitGrouping targets with
    | .none => .ok []
    | .all => .ok [.constant (.bool true) {}]
    | .mixed => .error (.query .mixedAggregation)

def starColumns (rows : Relation) (targets : List Node) : Work (Option (List String)) :=
  if targets.any isStar then return some (← rows.columns) else return none

/-- The answer of a grouped select. Without groups of their own the rows are one group. -/
def groupedTable (rows : Relation) (targets keys : List Node) (groups : Option GroupSource) :
    Work Table := do
  let groups ← match groups with
    | some g => pure g
    | none => rows.toGroupSource
  let extensions := (← Work.catalog).extensions
  Work.lift (groupTargets extensions targets groups keys)

/-- The rows of an answer in the order of the ORDER BY clause, if there is one. -/
def ordered (orderBy : Option (List Node)) (t : Table) : Except Fault Table :=
  match orderBy with
  | some keys => if keys.isEmpty then .ok t else do t.sortBy (← sortFields keys)
  | none => .ok t

mutual

/-- The value of a statement. A select gives a table, or what it reduces to. -/
def eval (reduce : Bool) : Node → Work Value
  | .select q _ => do
    let t ← evalSelect q
    return if reduce then t.reduced else .table t
  | .tuple items _ => return tupleValue (← evalItems items)
  | n => leafValue n

def evalItems : List Node → Work (List Value)
  | [] => return []
  | n :: rest => do
    let v ← eval false n
    return v :: (← evalItems rest)

def evalExpr (source : Relation) : Node → Work Value
  | .name parts _ => columnOf parts source
  | .operation _ op args _ => do
    let values ← evalArgs source args
    call op values
  | .cast type arg _ => do
    let v ← evalExpr source arg
    Work.lift (v.cast type)
  | .select q _ => return (← evalSelect q).reduced
  | .tuple items _ => return tupleValue (← evalItems items)
  | n => leafValue n

def evalArgs (source : Relation) : List Node → Work (List Value)
  | [] => return []
  | n :: rest => do
    let v ← evalExpr source n
    return v :: (← evalArgs source rest)

def evalCondition (source : Relation) : Node → Work Value
  | .operation _ op args _ => do
    let values ← evalArgs source args
    call op values
  | _ => throw .missingMember

/-- The values of targets under their names. The first star stands for the columns of the source. -/
def evalTargets (source : Relation) (columns : Option (List String)) :
    List Node → Work (List (String × Value))
  | [] => return []
  | n :: rest => do
    match columns, isStar n with
    | some names, true =>
      let vs ← starTargets source names
      return vs ++ (← evalTargets source none rest)
    | columns, _ =>
      let v ← evalExpr source n
      return (n.outputName, v) :: (← evalTargets source columns rest)

/-- The names of the keys of a grouping. The values of an expression become a column of the source.
-/
def evalKeys (source : Relation) : List Node → Work (List String)
  | [] => return []
  | n :: rest => do
    match n with
    | .name parts _ =>
      let v ← columnOf parts source
      match v with
      | .column c _ =>
        let name := c.name.getD ""
        return name :: (← evalKeys source rest)
      | _ => throw .missingMember
    | .operation _ op args _ =>
      let values ← evalArgs source args
      let v ← call op values
      let name := match n.tag.alias? with | some a => a.render | none => n.settled.text
      addKey source name v
      return name :: (← evalKeys source rest)
    | n => throw (.query (.groupExpression n.text))

def evalSide : Node → Work Relation
  | .name parts _ => tableOf parts
  | .select q _ => do
    let t ← evalSelect q
    return .frame (← Work.newFrame t)
  | .tuple items _ => return .value (tupleValue (← evalItems items))
  | n => return .value (← leafValue n)

def evalSource : Node → Work Relation
  | .join kind left right condition _ t => do
    let kind ← Work.lift (JoinKind.ofWords kind)
    let l ← evalSide left
    let r ← evalSide right
    let (a, b) ← Work.lift (conditionSides condition)
    let leftName := sideName left
    let rightName := sideName right
    let (leftOn, rightOn) ← Work.lift (joinColumns leftName rightName a b)
    let lt ← joinSide l
    let rt ← joinSide r
    let joined ← Work.lift (joinTables kind leftName rightName leftOn rightOn lt rt)
    withAlias t (.frame (← Work.newFrame joined))
  | .name parts t => do withAlias t (← tableOf parts)
  | .select q t => do
    let answer ← evalSelect q
    withAlias t (.frame (← Work.newFrame answer))
  | .tuple items t => do withAlias t (.value (tupleValue (← evalItems items)))
  | n => do withAlias n.tag (.value (← leafValue n))

def evalFrom : Option Node → Work Relation
  | some n => evalSource n
  | none => return .absent

def evalWhere (rows : Relation) : Option Node → Work Relation
  | some n => do filter rows (← evalCondition rows n)
  | none => return rows

/-- The groups that a GROUP BY clause makes of the rows, unless they are one group as a whole. -/
def evalGroups (rows : Relation) : Option (List Node) → Work (Option GroupSource)
  | some ns =>
    if groupsWhole ns || ns.isEmpty then return none
    else do
      let names ← evalKeys rows ns
      return some (← groupSource rows names)
  | none => return none

def evalHaving (isGrouped : Bool) (table : Table) : Option Node → Work Table
  | some n => do
    if !isGrouped then throw (.query .havingWithoutGroup)
    let id ← Work.newFrame table
    let index ← evalCondition (.frame id) n
    Work.lift (filterGroups table index)
  | none => return table

def evalBound : Option Node → Work (Option Int)
  | some n => do Work.lift (boundOf (← eval false n))
  | none => return none

def evalSelect : Select → Work Table
  | { targets, distinct, source, condition, groupBy, having, orderBy, limit, offset, .. } => do
    let rows ← evalFrom source
    let rows ← evalWhere rows condition
    let keys ← Work.lift (groupKeys targets groupBy)
    let groups ← evalGroups rows groupBy
    let table ←
      if keys.isEmpty then do
        let columns ← starColumns rows targets
        let values ← evalTargets rows columns targets
        Work.lift (Table.ofValues values)
      else groupedTable rows targets keys groups
    let table ← evalHaving (!keys.isEmpty) table having
    let table ← Work.lift (if distinct then table.distinct else .ok table)
    let first ← evalBound offset
    let table ← Work.lift (ordered orderBy (table.afterBound first))
    let last ← evalBound limit
    Work.setCatalog fun c => { c with scope := [] }
    return (table.beforeBound last).bareNames

end

end Query

def Work.query (sql : String) : Work Value := do
  match ← Work.lift (Command.read sql) with
  | some command => Work.execute command
  | none => do Query.eval true (← Work.lift (Sql.parse sql))

end TableQuery
