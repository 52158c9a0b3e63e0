import TableQuery.Proofs.NamedValues
import TableQuery.Proofs.Naming
import TableQuery.Proofs.Slices

/-! What a select of one table reads. Reading a column may give it another name for later readers,
so runs are compared up to these names: `Gives` says what a step answers in all workspaces with the
same tables, and `valueOf` what an expression comes to. -/
namespace TableQuery

open List Work Table Extension Workspace Bool

namespace Sql.Node

mutual

def isFlat : Node → Bool
  | .operation _ _ args _ => areFlat args
  | .cast _ arg _ => arg.isFlat
  | .tuple items _ => areFlat items
  | .select _ _ => false
  | _ => true

def areFlat : List Node → Bool
  | [] => true
  | n :: rest => n.isFlat && areFlat rest

end

mutual

def references : Node → List (List String)
  | .name parts _ => [parts]
  | .operation _ _ args _ => referencesOf args
  | .cast _ arg _ => arg.references
  | _ => []

def referencesOf : List Node → List (List String)
  | [] => []
  | n :: rest => n.references ++ referencesOf rest

end

def isLiteral : Node → Bool
  | .constant _ _ => true
  | .null _ => true
  | .tuple _ _ => true
  | _ => false

/-- Whether an operator asks if its operands are one and the same. -/
def isIdentity (op : String) : Bool :=
  match Operator.ofName (Text.lower op) with
  | .ok .is => true
  | .ok .isNot => true
  | _ => false

mutual

/-- Whether values are tested for identity with written values only. -/
def testsLiterals : Node → Bool
  | .operation _ op args _ => (!isIdentity op || args.any isLiteral) && allTestLiterals args
  | .cast _ arg _ => arg.testsLiterals
  | _ => true

/-- Whether values are tested for identity with written values only, in all of some expressions. -/
def allTestLiterals : List Node → Bool
  | [] => true
  | n :: rest => n.testsLiterals && allTestLiterals rest

end

theorem mem_referencesOf {ns : List Node} {parts : List String} :
    parts ∈ referencesOf ns ↔ ∃ n ∈ ns, parts ∈ n.references := by
  induction ns with
  | nil => simp [referencesOf]
  | cons n rest ih => simp [referencesOf, ih]

end Sql.Node

/-- A function that does not see the names of columns, nor where they were read from. -/
def Extension.SeesNoNames (f : Extension) : Prop :=
  ∀ keep args, Value.nameless keep <$> f (args.map (Value.nameless keep)) =
    Value.nameless keep <$> f args

def Extension.NoneSeesNames (extensions : List (String × Extension)) : Prop :=
  ∀ name f, extensions.lookup name = some f → f.SeesNoNames

namespace Workspace

variable {v w : Workspace}

/-- The same tables were handed out and are in scope. Readers may see other names of columns. -/
structure SameTables (v w : Workspace) : Prop where
  catalog : v.catalog = w.catalog
  tables : v.frames.map (·.table) = w.frames.map (·.table)

theorem SameTables.tableAt (h : v.SameTables w) (id : Nat) : v.tableAt id = w.tableAt id := by
  have hTables := congrArg (·[id]?) h.tables
  unfold Workspace.tableAt
  cases hv : v.frames[id]? <;> cases hw : w.frames[id]? <;> simp_all

theorem SameTables.size (h : v.SameTables w) : v.frames.size = w.frames.size := by
  simpa using congrArg Array.size h.tables

theorem sameTables_rename (w : Workspace) (id : Nat) (column name : String) :
    { w with
      frames := w.frames.set! id ((w.frames[id]?.getD default).rename column name) }.SameTables
      w := by
  refine ⟨rfl, ?_⟩
  apply Array.ext_getElem?
  intro i
  rw [Array.set!_eq_setIfInBounds, Array.getElem?_map, Array.getElem?_map,
    Array.getElem?_setIfInBounds]
  split
  · rename_i hId
    subst hId
    split
    · rename_i hSize
      rw [Array.getElem?_eq_getElem hSize]
      rfl
    · rename_i hSize
      rw [Array.getElem?_eq_none (Nat.le_of_not_lt hSize)]
  · rfl

end Workspace

namespace Work

variable {α β γ δ : Type}
variable {w : Workspace}

/-- In all workspaces with the same tables a step has the same answer, as far as one looks at it,
and leaves the same tables. -/
def Gives (w : Workspace) (look : α → β) (x : Work α) (answer : Option β) : Prop :=
  ∀ v, v.SameTables w → (Work.run x v).2.SameTables w ∧ (Work.run x v).1.toOption.map look = answer

theorem gives_pure (w : Workspace) (look : α → β) (a : α) : Gives w look (pure a) (some (look a)) :=
  fun _ h => ⟨h, rfl⟩

theorem gives_throw (w : Workspace) (look : α → β) (f : Fault) : Gives w look (throw f) none :=
  fun _ h => ⟨h, rfl⟩

theorem gives_lift (w : Workspace) (look : α → β) (e : Except Fault α) :
    Gives w look (lift e) (e.toOption.map look) := by
  intro v h
  rw [run_lift]
  exact ⟨h, rfl⟩

theorem Gives.bind {look : α → β} {look' : γ → δ} {x : Work α} {f : α → Work γ}
    {answer : Option β} {next : β → Option δ} (hx : Gives w look x answer)
    (hf : ∀ a v v', run x v = (.ok a, v') → Gives w look' (f a) (next (look a))) :
    Gives w look' (x >>= f) (answer.bind next) := by
  intro v hv
  obtain ⟨hTables, hAnswer⟩ := hx v hv
  rw [run_bind]
  rcases hRun : run x v with ⟨_ | a, v'⟩
  · rw [hRun] at hTables hAnswer
    exact ⟨hTables, by rw [← hAnswer]; rfl⟩
  · rw [hRun] at hTables hAnswer
    obtain ⟨hTables', hAnswer'⟩ := hf a v v' hRun v' hTables
    exact ⟨hTables', by rw [← hAnswer]; exact hAnswer'⟩

/-- What a step gives can be looked at more coarsely. -/
theorem Gives.map {look : α → β} {x : Work α} {answer : Option β} (hx : Gives w look x answer)
    {f : α → γ} {look' : γ → δ} {g : β → δ} (h : ∀ a, look' (f a) = g (look a)) :
    Gives w look' (x >>= fun a => pure (f a)) (answer.map g) := by
  rw [Option.map_eq_bind]
  refine hx.bind fun a _ _ _ => ?_
  rw [Function.comp_apply, ← h a]
  exact gives_pure w look' (f a)

def Still (x : Work α) : Prop := ∃ r, ∀ w, Work.run x w = (r, w)

theorem still_pure (a : α) : Still (pure a) := ⟨.ok a, fun _ => rfl⟩

theorem still_throw (f : Fault) : Still (throw f : Work α) := ⟨.error f, fun _ => rfl⟩

theorem Still.bind {x : Work α} {f : α → Work β} (hx : Still x) (hf : ∀ a, Still (f a)) :
    Still (x >>= f) := by
  obtain ⟨r, hr⟩ := hx
  cases r with
  | error e => exact ⟨.error e, fun w => run_bind_error (hr w)⟩
  | ok a =>
    obtain ⟨s, hs⟩ := hf a
    exact ⟨s, fun w => (run_bind_ok (hr w)).trans (hs w)⟩

theorem Still.gives {x : Work α} (hx : Still x) (w : Workspace) (look : α → β) :
    Gives w look x ((run x (.ofTables [])).1.toOption.map look) := by
  obtain ⟨r, hr⟩ := hx
  intro v hv
  rw [hr v, hr]
  exact ⟨hv, rfl⟩

end Work

namespace Query

open Sql Work

variable {keep : Bool} {source r : Relation} {w w' : Workspace} {id kept : Nat}
  {parts : List String} {tag : Tag} {condition : Option Node}

/-- The columns of a name in a table that was handed out, without the name that readers see. -/
def stored (keep : Bool) (w : Workspace) (id : Nat) (name : String) : Value :=
  match (w.tableAt id).named name with
  | [d] => Value.nameless keep (.column ⟨(w.tableAt id).labels, none, d⟩ (some ⟨id, name⟩))
  | ds => .table ⟨(w.tableAt id).labels, ds.map fun d => (name, d)⟩

def reading (keep : Bool) (w : Workspace) (id : Nat) : List String → Option Value
  | [name] => if (w.tableAt id).has name then some (stored keep w id name) else none
  | [table, column] =>
    if (w.tableAt id).has (table ++ "." ++ column) then
      some (stored keep w id (table ++ "." ++ column))
    else
      match w.catalog.scope.lookup table with
      | some (.frame other) =>
        if (w.tableAt other).has column then some (stored keep w other column) else none
      | _ => none
  | _ => none

theorem gives_columnsNamed (keep : Bool) (w : Workspace) (id : Nat) (name : String) :
    Gives w (Value.nameless keep) (columnsNamed id name) (some (stored keep w id name)) := by
  intro v hv
  have hTable := hv.tableAt id
  unfold tableAt at hTable
  unfold columnsNamed stored tableAt
  rw [run_bind_ok (run_frame id v), ← hTable]
  cases (v.frames[id]?.getD default).table.named name with
  | nil => exact ⟨hv, rfl⟩
  | cons d rest => cases rest <;> exact ⟨hv, rfl⟩

theorem gives_scopedColumn (keep : Bool) (w : Workspace) (table column : String)
    (parts : List String) :
    Gives w (Value.nameless keep) (scopedColumn table column parts)
      (match w.catalog.scope.lookup table with
      | some (.frame other) =>
        if (w.tableAt other).has column then some (stored keep w other column) else none
      | _ => none) := by
  intro v hv
  rw [run_scopedColumn, hv.catalog]
  rcases w.catalog.scope.lookup table with _ | _ | other | _
  · exact ⟨hv, rfl⟩
  · exact ⟨hv, rfl⟩
  · dsimp only
    rw [hv.tableAt other]
    split
    · have hRenamed := sameTables_rename v other column (writeParts parts)
      exact gives_columnsNamed keep w other column _ ⟨rfl, hRenamed.tables.trans hv.tables⟩
    · exact ⟨hv, rfl⟩
  · exact ⟨hv, rfl⟩

theorem gives_columnOf (keep : Bool) (w : Workspace) (id : Nat) (parts : List String) :
    Gives w (Value.nameless keep) (columnOf parts (.frame id)) (reading keep w id parts) := by
  intro v hv
  match parts with
  | [] => exact ⟨hv, rfl⟩
  | [name] =>
    rw [run_columnOf_bare, reading, hv.tableAt id]
    split
    · exact gives_columnsNamed keep w id name v hv
    · exact ⟨hv, rfl⟩
  | [table, column] =>
    rw [run_columnOf_qualified, reading, hv.tableAt id]
    split
    · exact gives_columnsNamed keep w id _ v hv
    · exact gives_scopedColumn keep w table column _ v hv
  | _ :: _ :: _ :: _ => exact ⟨hv, rfl⟩

/-- A call of one of some functions, or of an operator. -/
def callAmong (extensions : List (String × Extension)) (op : String) (args : List Value) :
    Except Fault Value :=
  match extensions.lookup (Text.lower op) with
  | some f => f args
  | none => do (← Operator.ofName (Text.lower op)).apply args

theorem run_call (op : String) (args : List Value) (w : Workspace) :
    run (call op args) w = (callAmong w.catalog.extensions op args, w) := by
  unfold call callAmong
  rw [run_bind_ok (run_catalog w)]
  cases w.catalog.extensions.lookup (Text.lower op) with
  | some f => exact run_lift (f args) w
  | none =>
    cases Operator.ofName (Text.lower op) with
    | error e => rfl
    | ok operator => exact run_lift (operator.apply args) w

/-- What a call gives does not depend on names. -/
theorem callAmong_nameless {extensions : List (String × Extension)}
    (hExtensions : NoneSeesNames extensions) {op : String} {args : List Value}
    (h : keep = true ∨ Node.isIdentity op = false ∨ ∃ v ∈ args, v.origin? = none) :
    Value.nameless keep <$> callAmong extensions op (args.map (Value.nameless keep)) =
      Value.nameless keep <$> callAmong extensions op args := by
  unfold callAmong
  split
  · rename_i f hFound
    exact hExtensions _ f hFound keep args
  · cases hOperator : Operator.ofName (Text.lower op) with
    | error e => rfl
    | ok operator =>
      have hApplied : operator.apply (args.map (Value.nameless keep)) =
          Value.nameless keep <$> operator.apply args := by
        refine Operator.apply_nameless keep operator (h.imp_right (Or.imp_left fun hOp => ?_))
        unfold Node.isIdentity at hOp
        rw [hOperator] at hOp
        constructor <;> (rintro rfl; cases hOp)
      change Value.nameless keep <$> operator.apply _ = Value.nameless keep <$> operator.apply _
      rw [hApplied, Functor.map_map]
      simp only [Value.nameless_nameless]

mutual

theorem still_eval {n : Node} (h : n.isFlat = true) (reduce : Bool) : Still (eval reduce n) := by
  cases n with
  | select q t => cases h
  | tuple items t =>
    exact (still_evalItems h).bind fun _ => still_pure _
  | constant v t => exact still_pure _
  | null t => exact still_pure _
  | _ => exact still_throw _

theorem still_evalItems {ns : List Node} (h : Node.areFlat ns = true) : Still (evalItems ns) := by
  cases ns with
  | nil => exact still_pure _
  | cons n rest =>
    rw [Node.areFlat, and_eq_true] at h
    exact (still_eval h.1 false).bind fun _ => (still_evalItems h.2).bind fun _ => still_pure _

end

def writtenValue (keep : Bool) (n : Node) : Option Value :=
  (Work.run (evalExpr .absent n) (.ofTables [])).1.toOption.map (Value.nameless keep)

mutual

/-- The value of an expression without selects, as its references and the user's functions determine
it. -/
def valueOf (keep : Bool) (extensions : List (String × Extension))
    (read : List String → Option Value) : Node → Option Value
  | .name parts _ => read parts
  | .operation _ op args _ =>
    (valuesOf keep extensions read args).bind fun values =>
      (callAmong extensions op values).toOption.map (Value.nameless keep)
  | .cast type arg _ =>
    (valueOf keep extensions read arg).bind fun v =>
      (v.cast type).toOption.map (Value.nameless keep)
  | n => writtenValue keep n

def valuesOf (keep : Bool) (extensions : List (String × Extension))
    (read : List String → Option Value) : List Node → Option (List Value)
  | [] => some []
  | n :: rest =>
    (valueOf keep extensions read n).bind fun v => (valuesOf keep extensions read rest).map (v :: ·)

end

theorem toOption_map {ε α β : Type} (f : α → β) (x : Except ε α) :
    (f <$> x).toOption = x.toOption.map f := by
  cases x <;> rfl

/-- A written value was read from nowhere. -/
theorem origin?_of_isLiteral {n : Node} (hLiteral : n.isLiteral = true)
    {v : Value} (h : run (evalExpr source n) w = (.ok v, w')) : v.origin? = none := by
  cases n with
  | constant c t =>
    cases h
    cases c <;> rfl
  | null t =>
    cases h
    rfl
  | tuple items t =>
    obtain ⟨values, w₁, _, h⟩ := run_bind_eq_ok h
    cases h
    rfl
  | _ => cases hLiteral

theorem exists_origin?_of_isLiteral {ns : List Node} (hLiteral : ns.any Node.isLiteral = true)
    {values : List Value} (h : run (evalArgs source ns) w = (.ok values, w')) :
    ∃ v ∈ values, v.origin? = none := by
  induction ns generalizing w values with
  | nil => cases hLiteral
  | cons n rest ih =>
    obtain ⟨v, w₁, hFirst, h⟩ := run_bind_eq_ok h
    obtain ⟨others, w₂, hRest, h⟩ := run_bind_eq_ok h
    cases h
    rw [any_cons, or_eq_true] at hLiteral
    rcases hLiteral with hLiteral | hLiteral
    · exact ⟨v, mem_cons_self, origin?_of_isLiteral hLiteral hFirst⟩
    · obtain ⟨u, hu, hOrigin⟩ := ih hLiteral hRest
      exact ⟨u, mem_cons_of_mem v hu, hOrigin⟩

section Evaluation

theorem gives_call (hExtensions : NoneSeesNames w.catalog.extensions) {op : String}
    {args : List Value}
    (h : keep = true ∨ Node.isIdentity op = false ∨ ∃ v ∈ args, v.origin? = none) :
    Gives w (Value.nameless keep) (call op args)
      ((callAmong w.catalog.extensions op (args.map (Value.nameless keep))).toOption.map
        (Value.nameless keep)) := by
  intro v hv
  rw [run_call, hv.catalog, ← toOption_map, ← toOption_map, callAmong_nameless hExtensions h]
  exact ⟨hv, rfl⟩

mutual

theorem gives_evalExpr (hExtensions : NoneSeesNames w.catalog.extensions) (id : Nat) {n : Node}
    (hFlat : n.isFlat = true) (hTests : keep = true ∨ n.testsLiterals = true) :
    Gives w (Value.nameless keep) (evalExpr (.frame id) n)
      (valueOf keep w.catalog.extensions (reading keep w id) n) := by
  cases n with
  | name parts t => exact gives_columnOf keep w id parts
  | operation form op args t =>
    rw [Node.testsLiterals, and_eq_true, or_eq_true, not_eq_true'] at hTests
    refine (gives_evalArgs hExtensions id hFlat (hTests.imp_right And.right)).bind
      fun values v v' hRun => gives_call hExtensions (hTests.imp_right fun h => ?_)
    exact h.1.imp_right fun hLiteral => exists_origin?_of_isLiteral hLiteral hRun
  | cast type arg t =>
    refine (gives_evalExpr (n := arg) hExtensions id hFlat hTests).bind fun u _ _ _ => ?_
    rw [Value.cast_nameless, toOption_map, Option.map_map]
    have hTwice : Value.nameless keep ∘ Value.nameless keep = Value.nameless keep :=
      funext (Value.nameless_nameless keep)
    rw [hTwice]
    exact gives_lift _ _ _
  | select q t => cases hFlat
  | tuple items t =>
    have hStill : Still (evalExpr .absent (.tuple items t)) := by
      exact (still_evalItems hFlat).bind fun _ => still_pure _
    exact hStill.gives w _
  | constant v t => exact (still_pure (Value.ofCell v)).gives w _
  | null t => exact (still_pure (Value.scalar .null)).gives w _
  | _ => exact (still_throw _).gives w _

theorem gives_evalArgs (hExtensions : NoneSeesNames w.catalog.extensions) (id : Nat)
    {ns : List Node} (hFlat : Node.areFlat ns = true)
    (hTests : keep = true ∨ Node.allTestLiterals ns = true) :
    Gives w (map (Value.nameless keep)) (evalArgs (.frame id) ns)
      (valuesOf keep w.catalog.extensions (reading keep w id) ns) := by
  cases ns with
  | nil => exact gives_pure _ _ _
  | cons n rest =>
    rw [Node.areFlat, and_eq_true] at hFlat
    rw [Node.allTestLiterals, and_eq_true] at hTests
    refine (gives_evalExpr hExtensions id hFlat.1 (hTests.imp_right And.left)).bind
      fun u _ _ _ => ?_
    exact (gives_evalArgs hExtensions id hFlat.2 (hTests.imp_right And.right)).map fun _ => rfl

end

/-- The columns that a star stands for, as readings. -/
def starOf (read : List String → Option Value) : List String → Option (List (String × Value))
  | [] => some []
  | name :: rest =>
    if name == "" then none
    else
      (read (splitName name)).bind fun v =>
        (starOf read rest).map ((writeParts (splitName name), v) :: ·)

def targetsOf (keep : Bool) (extensions : List (String × Extension))
    (read : List String → Option Value) :
    Option (List String) → List Node → Option (List (String × Value))
  | _, [] => some []
  | columns, n :: rest =>
    match columns, isStar n with
    | some names, true =>
      (starOf read names).bind fun vs => (targetsOf keep extensions read none rest).map (vs ++ ·)
    | columns, _ =>
      (valueOf keep extensions read n).bind fun v =>
        (targetsOf keep extensions read columns rest).map ((n.outputName, v) :: ·)

def namelessValues (keep : Bool) (values : List (String × Value)) : List (String × Value) :=
  values.map fun p => (p.1, p.2.nameless keep)

theorem gives_starTargets (id : Nat) (names : List String) :
    Gives w (namelessValues keep) (starTargets (.frame id) names)
      (starOf (reading keep w id) names) := by
  induction names with
  | nil => exact gives_pure _ _ _
  | cons name rest ih =>
    unfold starTargets starOf
    split
    · exact gives_throw _ _ _
    · exact (gives_columnOf keep w id _).bind fun u _ _ _ => ih.map fun _ => rfl

theorem gives_evalTargets (hExtensions : NoneSeesNames w.catalog.extensions) (id : Nat)
    (columns : Option (List String)) {ns : List Node} (hFlat : Node.areFlat ns = true)
    (hTests : keep = true ∨ Node.allTestLiterals ns = true) :
    Gives w (namelessValues keep) (evalTargets (.frame id) columns ns)
      (targetsOf keep w.catalog.extensions (reading keep w id) columns ns) := by
  induction ns generalizing columns with
  | nil => exact gives_pure _ _ _
  | cons n rest ih =>
    rw [Node.areFlat, and_eq_true] at hFlat
    rw [Node.allTestLiterals, and_eq_true] at hTests
    have hRest (columns : Option (List String)) := ih columns hFlat.2 (hTests.imp_right And.right)
    have hFirst := gives_evalExpr hExtensions id hFlat.1 (hTests.imp_right And.left)
    unfold evalTargets targetsOf
    cases columns with
    | none => exact hFirst.bind fun u _ _ _ => (hRest none).map fun _ => rfl
    | some names =>
      cases isStar n with
      | true =>
        exact (gives_starTargets id names).bind fun vs _ _ _ =>
          (hRest none).map fun _ => map_append
      | false => exact hFirst.bind fun u _ _ _ => (hRest (some names)).map fun _ => rfl

/-- The value of a condition, as readings determine it. -/
def conditionOf (keep : Bool) (extensions : List (String × Extension))
    (read : List String → Option Value) (n : Node) : Option Value :=
  if n.isOperation then valueOf keep extensions read n else none

theorem gives_evalCondition (keep : Bool) (hExtensions : NoneSeesNames w.catalog.extensions)
    (id : Nat) {n : Node} (hFlat : n.isFlat = true)
    (hTests : keep = true ∨ n.testsLiterals = true) :
    Gives w (Value.nameless keep) (evalCondition (.frame id) n)
      (conditionOf keep w.catalog.extensions (reading keep w id) n) := by
  have hExpr := gives_evalExpr hExtensions id hFlat hTests
  cases n with
  | operation form op args t =>
    exact hExpr
  | _ => exact gives_throw _ _ _

end Evaluation

theorem run_filter (id : Nat) (c : Column) (origin : Option Origin) (w : Workspace) :
    run (filter (.frame id) (.column c origin)) w =
      match (w.tableAt id).choose c.data with
      | .ok t => (.ok (.frame w.frames.size), { w with frames := w.frames.push { table := t } })
      | .error e => (.error e, w) := by
  unfold filter
  rw [run_bind_ok (run_frame id w), run_bind]
  unfold tableAt
  cases (w.frames[id]?.getD default).table.choose c.data <;> rfl

/-- The rows that a condition's value chooses depend on its entries only. -/
theorem run_filter_of_nameless {u u' : Value} (hValue : u'.nameless true = u.nameless true)
    {v v' : Workspace} (hv : v'.SameTables v) {y : Workspace}
    (h : run (filter (.frame id) u) v = (.ok r, y)) :
    ∃ y', run (filter (.frame id) u') v' = (.ok r, y') ∧ y'.SameTables y := by
  cases u with
  | scalar c => cases h
  | table t => cases h
  | column c origin =>
    cases u' with
    | scalar c' => cases hValue
    | table t' => cases hValue
    | column c' origin' =>
      have hData : c'.nameless.data = c.nameless.data :=
        congrArg Column.data (Value.column.inj hValue).1
      replace hData : c'.data = c.data := hData
      rw [run_filter] at h
      rw [run_filter, hData, hv.tableAt id, hv.size]
      cases hChosen : (v.tableAt id).choose c.data with
      | error e =>
        rw [hChosen] at h
        cases h
      | ok t =>
        rw [hChosen] at h
        cases h
        exact ⟨_, rfl, hv.catalog, by simp [hv.tables]⟩

def tableRows (distinct : Bool) (values : List (String × Value)) : Option (List (List Cell)) :=
  (Table.ofValues values >>= fun t => if distinct then t.distinct else .ok t).toOption.map
    Table.rows

/-- The rows of an answer do not depend on the names of its columns. -/
theorem map_rows_of_sameEntries {t u : Table} (h : t.SameEntries u) (distinct : Bool) :
    (if distinct then t.distinct else .ok t).toOption.map rows =
      (if distinct then u.distinct else .ok u).toOption.map rows := by
  cases distinct with
  | false => exact congrArg some h.rows
  | true =>
    have hDistinct := congrArg Except.toOption h.distinct
    rw [toOption_map, toOption_map] at hDistinct
    exact hDistinct

theorem ofValues_nameless (keep : Bool) (values : List (String × Value)) :
    ofValues (namelessValues keep values) = ofValues values := by
  have hColumns : columnsOf (namelessValues keep values) = columnsOf values := by
    unfold columnsOf namelessValues
    rw [foldl_map]
    congr 1
    funext columns p
    obtain ⟨name, v⟩ := p
    cases v <;> rfl
  have hScalars (t : Table) : t.addScalars (namelessValues keep values) = t.addScalars values := by
    unfold addScalars namelessValues
    rw [foldlM_map]
    congr 1
    funext t p
    obtain ⟨name, v⟩ := p
    cases v <;> rfl
  have hNames : (namelessValues keep values).map (·.1) = values.map (·.1) := by
    simp [namelessValues]
  unfold ofValues
  rw [hColumns, hNames]
  simp only [hScalars]

def answered (q : Select) (w : Workspace) : Option (List (List Cell)) :=
  (Work.run (evalSelect q) w).1.toOption.map Table.rows

def tableSelect (parts : List String) (tag : Tag) (targets : List Node) (condition : Option Node)
    (distinct : Bool) : Select :=
  { targets, distinct, source := some (.name parts tag), condition }

/-- A select of a table answers the table of what its targets read. -/
theorem answered_tableSelect {targets : List Node} {distinct : Bool} {w₁ w₂ : Workspace}
    (hSource : run (evalSource (.name parts tag)) w = (.ok (.frame id), w₁))
    (hWhere : run (evalWhere (.frame id) condition) w₁ = (.ok (.frame kept), w₂))
    (hExtensions : NoneSeesNames w₂.catalog.extensions) (hFlat : Node.areFlat targets = true)
    (hTests : keep = true ∨ Node.allTestLiterals targets = true)
    (hGroups : implicitGrouping targets = .none) :
    answered (tableSelect parts tag targets condition distinct) w =
      (targetsOf keep w₂.catalog.extensions (reading keep w₂ kept)
        (if targets.any isStar then some (w₂.tableAt kept).names else none) targets).bind
        (tableRows distinct) := by
  have hColumns : run (starColumns (.frame kept) targets) w₂ =
      (.ok (if targets.any isStar then some (w₂.tableAt kept).names else none), w₂) := by
    unfold starColumns
    split <;> rfl
  obtain ⟨_, hValues⟩ := gives_evalTargets hExtensions kept
    (if targets.any isStar then some (w₂.tableAt kept).names else none) hFlat hTests w₂ ⟨rfl, rfl⟩
  have hKeys : groupKeys targets none = .ok [] := by
    unfold groupKeys
    rw [hGroups]
  have hRows : run (evalRows (tableSelect parts tag targets condition distinct)) w =
      run (do
        let values ← evalTargets (.frame kept)
          (if targets.any isStar then some (w₂.tableAt kept).names else none) targets
        lift (ofValues values >>= fun t => if distinct then t.distinct else .ok t)) w₂ := by
    unfold evalRows tableSelect
    rw [run_bind_ok (x := evalFrom (some (.name parts tag))) hSource, run_bind_ok hWhere, hKeys,
      run_bind_ok (run_lift_ok _ _)]
    simp only [evalGroups, pure_bind, isEmpty_nil, if_true, evalHaving]
    rw [run_bind_ok hColumns]
    refine congrArg (fun x => run x w₂) (bind_congr fun values => ?_)
    cases ofValues values <;> rfl
  unfold answered
  rw [evalSelect_eq, run_bind, hRows, run_bind]
  rcases hRun : run (evalTargets (.frame kept)
    (if targets.any isStar then some (w₂.tableAt kept).names else none) targets) w₂ with
    ⟨_ | values, w₃⟩
  · rw [hRun] at hValues
    rw [← hValues]
    rfl
  · rw [hRun] at hValues
    rw [← hValues]
    dsimp only
    rw [run_lift]
    change _ = tableRows distinct (namelessValues keep values)
    rw [tableRows, ofValues_nameless]
    cases ofValues values >>= fun t => if distinct then t.distinct else .ok t with
    | error e => rfl
    | ok t =>
      exact congrArg some (rows_bareNames t)

section Readings

variable (keep : Bool) (extensions : List (String × Extension))
  {read read' : List String → Option Value}
variable {values : List (String × Value)}

mutual

/-- The value of an expression depends on what its references read. -/
theorem valueOf_congr {n : Node} (h : ∀ parts ∈ n.references, read parts = read' parts) :
    valueOf keep extensions read n = valueOf keep extensions read' n := by
  cases n with
  | name parts t => exact h parts mem_cons_self
  | operation form op args t => rw [valueOf, valueOf, valuesOf_congr h]
  | cast type arg t => rw [valueOf, valueOf, valueOf_congr (n := arg) h]
  | _ => rfl

theorem valuesOf_congr {ns : List Node}
    (h : ∀ parts ∈ Node.referencesOf ns, read parts = read' parts) :
    valuesOf keep extensions read ns = valuesOf keep extensions read' ns := by
  cases ns with
  | nil => rfl
  | cons n rest =>
    rw [valuesOf, valuesOf, valueOf_congr fun parts hp => h parts (mem_append_left _ hp),
      valuesOf_congr fun parts hp => h parts (mem_append_right _ hp)]

end

def outputNames : Option (List String) → List Node → List String
  | _, [] => []
  | columns, n :: rest =>
    match columns, isStar n with
    | some names, true =>
      names.map (fun name => writeParts (splitName name)) ++ outputNames none rest
    | columns, _ => n.outputName :: outputNames columns rest

theorem map_fst_starOf {names : List String} (h : starOf read names = some values) :
    values.map (·.1) = names.map fun name => writeParts (splitName name) := by
  induction names generalizing values with
  | nil =>
    cases h
    rfl
  | cons name rest ih =>
    rw [starOf] at h
    split at h
    · cases h
    · obtain ⟨v, _, h⟩ := Option.bind_eq_some_iff.1 h
      obtain ⟨others, hOthers, rfl⟩ := Option.map_eq_some_iff.1 h
      simp [ih hOthers]

theorem map_fst_targetsOf {columns : Option (List String)} {ns : List Node}
    (h : targetsOf keep extensions read columns ns = some values) :
    values.map (·.1) = outputNames columns ns := by
  induction ns generalizing columns values with
  | nil =>
    cases h
    rfl
  | cons n rest ih =>
    have hFirst {columns : Option (List String)}
        (h : ((valueOf keep extensions read n).bind
          fun v => (targetsOf keep extensions read columns rest).map ((n.outputName, v) :: ·)) =
          some values) : values.map (·.1) = n.outputName :: outputNames columns rest := by
      obtain ⟨v, _, h⟩ := Option.bind_eq_some_iff.1 h
      obtain ⟨others, hOthers, rfl⟩ := Option.map_eq_some_iff.1 h
      rw [map_cons, ih hOthers]
    unfold targetsOf at h
    unfold outputNames
    cases columns with
    | none => exact hFirst h
    | some names =>
      cases hStar : isStar n with
      | false =>
        rw [hStar] at h
        exact hFirst h
      | true =>
        rw [hStar] at h
        obtain ⟨starred, hStarred, h⟩ := Option.bind_eq_some_iff.1 h
        obtain ⟨others, hOthers, rfl⟩ := Option.map_eq_some_iff.1 h
        rw [map_append, map_fst_starOf hStarred, ih hOthers]

end Readings

theorem tableRows_equalAlike {values others : List (String × Value)}
    (hNames : EqualAlike (values.map (·.1)) (others.map (·.1)))
    (hSame : values.map (·.2) = others.map (·.2)) (distinct : Bool) :
    tableRows distinct others = tableRows distinct values := by
  obtain ⟨f, hf⟩ := ofValues_equalAlike hNames hSame
  unfold tableRows
  rw [hf]
  cases ofValues values with
  | error e => rfl
  | ok t =>
    have hSame : (renamed f t).SameEntries t := ⟨rfl, by simp [renamed]⟩
    exact map_rows_of_sameEntries hSame distinct

/-- The same values under names that are equal at the same places give the same rows. -/
theorem bind_tableRows {given other : Option (List (String × Value))}
    (hValues : given.map (map (·.2)) = other.map (map (·.2)))
    (hNames : ∀ values ∈ given, ∀ others ∈ other, EqualAlike (values.map (·.1)) (others.map (·.1)))
    (distinct : Bool) : other.bind (tableRows distinct) = given.bind (tableRows distinct) := by
  cases given with
  | none =>
    cases other with
    | none => rfl
    | some others => cases hValues
  | some values =>
    cases other with
    | none => cases hValues
    | some others =>
      exact tableRows_equalAlike (hNames values rfl others rfl) (Option.some.inj hValues) distinct

section Columns

variable {ι : Type} {name name' : ι → String} {column column' : ι → Column}
  {origin origin' : ι → Option Origin} {is : List ι}
variable {height : Nat}

/-- Targets that are references to columns give these columns. -/
theorem targetsOf_columns (keep : Bool) (extensions : List (String × Extension))
    {read : List String → Option Value} (node : ι → Node)
    (h : ∀ i ∈ is, ∃ parts tag, node i = .name parts tag ∧
        read parts = some (.column (column i) (origin i))) :
    targetsOf keep extensions read none (is.map node) =
      some (columnValues (fun i => (node i).outputName) column origin is) := by
  induction is with
  | nil => rfl
  | cons i rest ih =>
    obtain ⟨parts, tag, hNode, hRead⟩ := h i mem_cons_self
    have hValue : valueOf keep extensions read (node i) = some (.column (column i) (origin i)) := by
      rw [hNode]
      exact hRead
    rw [map_cons, targetsOf, hValue, ih fun j hj => h j (mem_cons_of_mem i hj)]
    · rfl
    · intro names hNames
      cases hNames

variable (hSame : ∀ i ∈ is, ∀ j ∈ is, name i = name j → (column i).data = (column j).data)
include hSame

theorem tableRows_columns (hNonempty : is ≠ [])
    (hLength : ∀ i ∈ is, (column i).data.length = height) (distinct : Bool) :
    tableRows distinct (columnValues name column origin is) =
      ((fun t : Table => if distinct then t.distinct else .ok t) ⟨Column.freshLabels height,
        is.map fun i => (name i, (column i).data.anew)⟩).toOption.map rows := by
  rw [tableRows, ofValues_columns hSame hLength fun hEmpty => absurd hEmpty hNonempty]
  rfl

/-- The same columns under other names give the same rows. -/
theorem tableRows_columns_congr
    (hSame' : ∀ i ∈ is, ∀ j ∈ is, name' i = name' j → (column' i).data = (column' j).data)
    (hNonempty : is ≠ []) (hLength' : ∀ i ∈ is, (column' i).data.length = height)
    (hData : ∀ i ∈ is, (column i).data = (column' i).data) (distinct : Bool) :
    tableRows distinct (columnValues name column origin is) =
      tableRows distinct (columnValues name' column' origin' is) := by
  have hLength : ∀ i ∈ is, (column i).data.length = height := fun i hi => hData i hi ▸ hLength' i hi
  have hEntries : SameEntries
      ⟨Column.freshLabels height, is.map fun i => (name i, (column i).data.anew)⟩
      ⟨Column.freshLabels height, is.map fun i => (name' i, (column' i).data.anew)⟩ := by
    refine ⟨rfl, ?_⟩
    rw [map_map, map_map]
    exact map_congr_left fun i hi => congrArg Data.anew (hData i hi)
  rw [tableRows_columns hSame hNonempty hLength, tableRows_columns hSame' hNonempty hLength']
  exact map_rows_of_sameEntries hEntries distinct

theorem length_tableRows_columns (hNonempty : is ≠ [])
    (hLength : ∀ i ∈ is, (column i).data.length = height) {rows : List (List Cell)}
    (h : tableRows false (columnValues name column origin is) = some rows) :
    rows.length = height := by
  rw [tableRows_columns hSame hNonempty hLength] at h
  cases h
  rw [Table.length_rows, Table.height, Column.length_freshLabels]

end Columns

section Places

variable {v : Workspace} {other : Nat}

/-- Without the place that it was read from, what is stored depends on the table only. -/
theorem stored_eq (h : v.tableAt id = w.tableAt other) (hId : keep = true → id = other)
    (name : String) : stored keep v id name = stored keep w other name := by
  unfold stored
  rw [h]
  cases keep with
  | true => rw [hId rfl]
  | false => rfl

theorem stored_congr (h : v.tableAt id = w.tableAt id) (name : String) :
    stored keep v id name = stored keep w id name :=
  stored_eq h (fun _ => rfl) name

theorem reading_sameTables (h : v.SameTables w) : reading keep v id = reading keep w id := by
  unfold reading
  simp only [h.tableAt, h.catalog, stored_congr (h.tableAt _)]

/-- A qualified reference reads the table in scope, unless a column of the source is called so. -/
theorem reading_qualified {table column : String}
    (hSource : (w.tableAt id).has (table ++ "." ++ column) = false)
    (hScope : w.catalog.scope.lookup table = some (.frame other)) :
    reading keep w id [table, column] = reading keep w other [column] := by
  simp only [reading, hSource, hScope]
  rfl

theorem reading_congr (h : v.tableAt id = w.tableAt other) (hId : keep = true → id = other)
    (column : String) : reading keep v id [column] = reading keep w other [column] := by
  simp only [reading, h, stored_eq h hId]

end Places

/-- A WHERE clause changes neither the catalog nor its table. -/
theorem unchanged_of_run_evalWhere (hExtensions : NoneSeesNames w.catalog.extensions)
    (hFlat : ∀ n ∈ condition, n.isFlat = true) (hId : id < w.frames.size)
    (h : run (evalWhere (.frame id) condition) w = (.ok (.frame kept), w')) :
    w'.catalog = w.catalog ∧ w'.tableAt id = w.tableAt id := by
  cases condition with
  | none =>
    cases h
    exact ⟨rfl, rfl⟩
  | some n =>
    obtain ⟨u, v, hCondition, h⟩ := run_bind_eq_ok h
    obtain ⟨hTables, _⟩ :=
      gives_evalCondition true hExtensions id (hFlat n rfl) (.inl rfl) w ⟨rfl, rfl⟩
    rw [hCondition] at hTables
    cases u with
    | scalar c => cases h
    | table t => cases h
    | column c origin =>
      rw [run_filter] at h
      split at h
      · cases h
        have hSize : id < v.frames.size := hTables.size ▸ hId
        exact ⟨hTables.catalog, (tableAt_push_of_lt hSize _).trans (hTables.tableAt id)⟩
      · cases h

/-- A FROM clause puts its table in scope under its name and its alias. -/
theorem lookup_of_run_evalSource (h : run (evalSource (.name parts tag)) w = (.ok r, w'))
    {name : String} (hName : name = writeParts parts ∨ tag.alias?.map Alias.render = some name) :
    w'.catalog.scope.lookup name = some r := by
  obtain ⟨fetched, w₁, hTable, h⟩ := run_bind_eq_ok h
  have hScope := scope_of_run_tableOf hTable
  unfold withAlias at h
  cases hAlias : tag.alias? with
  | none =>
    rw [hAlias] at h hName
    cases h
    rw [hScope, lookup_setNamed, if_pos (hName.resolve_right (by simp))]
  | some a =>
    rw [hAlias] at h hName
    cases h
    rw [lookup_setNamed, hScope, lookup_setNamed]
    split
    · rfl
    · rename_i hOther
      exact if_pos (hName.resolve_right fun hEqual => hOther (Option.some.inj hEqual).symm)

end Query

end TableQuery
