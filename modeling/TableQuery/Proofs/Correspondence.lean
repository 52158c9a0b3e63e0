import TableQuery.Proofs.Scope

/-! Two runs of one query in workspaces that differ. A correspondence says at each stage of the runs
which tables belong together, and `Select.uses` collects what a query needs. If the steps which
touch the workspace keep it, every query all of whose uses it permits has one outcome
(`agree_evalSelect`). -/
namespace TableQuery

open List Work Workspace Table

variable {e : Entry}
variable {α : Type}

namespace Sql

inductive Use where
  /-- A reference to a column. -/
  | reference (parts : List String)
  /-- A call of an operator or of a user's function. -/
  | operation (op : String) (args : List Node)
  /-- A star in a select from a table, or from something else. -/
  | star (fromTable : Bool)
  /-- The name of a column that is added for a key of a grouping. -/
  | keyColumn (name : String)
  /-- A key of a grouping of a table with all its rows. -/
  | tableKey (key : Node)

def Node.keyColumn (n : Node) : String :=
  match n.tag.alias? with
  | some a => a.render
  | none => n.settled.text

namespace Select

def isFromTable : Option Node → Bool
  | some (.name _ _) => true
  | _ => false

def groupingUses (ofTable : Bool) : Option (List Node) → List Use
  | some keys =>
    (keys.filter Node.isOperation).map (fun key => .keyColumn key.keyColumn) ++
      if ofTable then keys.map .tableKey else []
  | none => []

def isUngrouped (targets : List Node) (groupBy : Option (List Node)) : Bool :=
  match Query.groupKeys targets groupBy with
  | .ok [] => true
  | _ => false

end Select

mutual

def Node.uses : Node → List Use
  | .name parts _ => [.reference parts]
  | .operation _ op args _ => .operation op args :: Node.usesOfAll args
  | .cast _ arg _ => arg.uses
  | .tuple items _ => Node.usesOfAll items
  | .select q _ => q.uses
  | _ => []

def Node.usesOfAll : List Node → List Use
  | [] => []
  | n :: rest => n.uses ++ Node.usesOfAll rest

def Node.usesOfAny : Option Node → List Use
  | some n => n.uses
  | none => []

def Node.usesOfKeys : Option (List Node) → List Use
  | some keys => Node.usesOfAll keys
  | none => []

def Node.sourceUses : Node → List Use
  | .join _ left right _ _ _ => left.sourceUses ++ right.sourceUses
  | .tuple items _ => Node.usesOfAll items
  | .select q _ => q.uses
  | _ => []

def Node.fromUses : Option Node → List Use
  | some n => n.sourceUses
  | none => []

def Select.uses : Select → List Use
  | { targets, source, condition, groupBy, having, limit, offset, .. } =>
    Node.fromUses source ++ Node.usesOfAny condition ++ Node.usesOfKeys groupBy ++
      Select.groupingUses (Select.isFromTable source && condition.isNone) groupBy ++
      (if Select.isUngrouped targets groupBy then
        (if targets.any Query.isStar then [.star (Select.isFromTable source)] else []) ++
          Node.usesOfAll targets
      else []) ++
      Node.usesOfAny having ++ Node.usesOfAny offset ++ Node.usesOfAny limit

end

/-- A name that stands for itself where a star does: if it is split in two at a dot, it is written
so. -/
def IsRegular (name : String) : Prop :=
  ∀ table column, splitName name = [table, column] → table ++ "." ++ column = name

end Sql

/-- Two outcomes: the same fault, or answers that are related. -/
inductive SameOutcome {α β : Type} (P : α → β → Prop) : Except Fault α → Except Fault β → Prop where
  | ok {a : α} {b : β} : P a b → SameOutcome P (.ok a) (.ok b)
  | error (f : Fault) : SameOutcome P (.error f) (.error f)

theorem SameOutcome.eq {x y : Except Fault α} (h : SameOutcome Eq x y) : x = y := by
  cases h with
  | ok h => rw [h]
  | error f => rfl

theorem SameOutcome.of_eq {P : α → α → Prop} {x : Except Fault α} (h : ∀ a, x = .ok a → P a a) :
    SameOutcome P x x := by
  cases x with
  | error f => exact .error f
  | ok a => exact .ok (h a rfl)

theorem SameOutcome.mono {β : Type} {P Q : α → β → Prop} {x : Except Fault α} {y : Except Fault β}
    (h : SameOutcome P x y) (hPQ : ∀ a b, P a b → Q a b) : SameOutcome Q x y := by
  cases h with
  | ok h => exact .ok (hPQ _ _ h)
  | error f => exact .error f

/-- Values that differ in their names and places only. -/
theorem Value.nameless_eq_cases {v v' : Value} (h : v.nameless false = v'.nameless false) :
    (∃ c, v = .scalar c ∧ v' = .scalar c) ∨ (∃ t, v = .table t ∧ v' = .table t) ∨
    ∃ labels name name' data origin origin', v = .column ⟨labels, name, data⟩ origin ∧
      v' = .column ⟨labels, name', data⟩ origin' := by
  cases v with
  | scalar c =>
    cases v' with
    | scalar c' =>
      cases h
      exact .inl ⟨c, rfl, rfl⟩
    | _ => cases h
  | table t =>
    cases v' with
    | table t' =>
      cases h
      exact .inr (.inl ⟨t, rfl, rfl⟩)
    | _ => cases h
  | column c origin =>
    cases v' with
    | column c' origin' =>
      obtain ⟨labels, name, data⟩ := c
      obtain ⟨labels', name', data'⟩ := c'
      cases (Value.column.inj h).1
      exact .inr (.inr ⟨labels, name, name', data, origin, origin', rfl, rfl⟩)
    | _ => cases h

/-- What a table reduces to was read from nowhere. -/
theorem origin?_reduced (t : Table) : t.reduced.origin? = none := by
  unfold reduced
  split
  · split
    · rename_i d _ _
      cases d.singleCell <;> rfl
    · rfl
  · rfl

def Work.CanAnswer {α : Type} (x : Work α) (a : α) : Prop := ∃ w w', Work.run x w = (.ok a, w')

def Workspace.FetchesOnly (P : String → Prop) (w : Workspace) : Prop :=
  ∀ e ∈ w.catalog.entries, ∀ t, e.2.fetch w.drive = .ok (some t) → ∀ column ∈ t.names, P column

/-- An entry that was looked up is there. -/
theorem mem_of_entryAt? {entries : List (Document × Entry)} {key : Document}
    (h : entryAt? entries key = some e) : ∃ key, (key, e) ∈ entries := by
  obtain ⟨found, hFound, rfl⟩ := Option.map_eq_some_iff.1 h
  exact ⟨found.1, mem_of_find?_eq_some hFound⟩

open Sql

structure Correspondence where
  /-- What is known about the tables that belong together. -/
  Stage : Type
  /-- More is known. -/
  Later : Stage → Stage → Prop
  State : Stage → Workspace → Workspace → Prop
  /-- Rows that belong together. -/
  Source : Stage → Relation → Relation → Prop
  /-- Rows that belong together and that no other query sees. -/
  Own : Stage → Relation → Relation → Prop
  /-- Rows whose columns a star may stand for. -/
  Plain : Stage → Relation → Relation → Prop
  /-- Values that belong together. -/
  Alike : Value → Value → Prop
  Permits : Use → Prop

namespace Correspondence

variable (C : Correspondence) {β γ δ : Type}

def Ends (s : C.Stage) (P : C.Stage → α → β → Prop) (x : Except Fault α × Workspace)
    (y : Except Fault β × Workspace) : Prop :=
  ∃ s', C.Later s s' ∧ C.State s' x.2 y.2 ∧ SameOutcome (P s') x.1 y.1

def Agree (s : C.Stage) (P : C.Stage → α → β → Prop) (x : Work α) (y : Work β) : Prop :=
  ∀ v w, C.State s v w → C.Ends s P (Work.run x v) (Work.run y w)

def Allows (uses : List Use) : Prop := ∀ u ∈ uses, C.Permits u

def Starrable (name : String) : Prop := IsRegular name ∨ C.Permits (.reference (splitName name))

/-- A column that a star stands for can be read: its name may be asked for, or it is there. -/
def Shown (w : Workspace) (id : Nat) (name : String) : Prop :=
  C.Permits (.reference (splitName name)) ∨ IsRegular name ∧ (w.tableAt id).has name = true

/-- The names of the columns of a table, where stars over tables are permitted. -/
def AllStarrable (names : List String) : Prop :=
  C.Permits (.star true) → ∀ name ∈ names, C.Starrable name

def Keyable (s : C.Stage) (r r' : Relation) (key : Node) : Prop :=
  C.Own s r r' ∨ C.Source s r r' ∧ C.Plain s r r' ∧ C.Permits (.tableKey key)

/-- The rows of a select, from a table or not, with all of them or not. -/
structure Rows (fromTable whole : Bool) (s : C.Stage) (r r' : Relation) : Prop where
  source : C.Source s r r'
  own : (fromTable && whole) = false → C.Own s r r'
  plain : fromTable = true → C.Plain s r r'

end Correspondence

namespace Query

variable {name : String} {r : Relation} {w w' : Workspace}

def keyName (parts : List String) (source : Relation) : Work String := do
  match ← columnOf parts source with
  | .column c _ => return c.name.getD ""
  | _ => throw .missingMember

theorem evalKeys_name (source : Relation) (parts : List String) (tag : Tag) (rest : List Node) :
    evalKeys source (.name parts tag :: rest) = (do
      let name ← keyName parts source
      return name :: (← evalKeys source rest)) := by
  rw [keyName, bind_assoc]
  refine bind_congr fun v => ?_
  cases v <;> rfl

def keyData (t : Table) (v : Value) : Except Fault Data :=
  match v with
  | .column c _ =>
    if Cell.sameAll c.labels t.labels then .ok c.data else .ok (c.data.relabel c.labels t.labels)
  | .scalar c =>
    .ok ((Data.infer (c :: List.replicate t.height c)).pick ((List.range t.height).map (· + 1)))
  | .table u =>
    match u.columns with
    | [(_, d)] => .ok (d.relabel u.labels t.labels)
    | _ => .error .badValue

theorem run_addKey (id : Nat) (name : String) (v : Value) (w : Workspace) :
    run (addKey (.frame id) name v) w =
      match keyData (w.tableAt id) v with
      | .ok d => (.ok (),
          { w with frames := w.frames.set! id ((w.frames[id]?.getD default).setColumn name d) })
      | .error e => (.error e, w) := by
  have hLift : run (addKey (.frame id) name v) w =
      run (do
        let d ← lift (keyData (w.tableAt id) v)
        setFrame id ((w.frames[id]?.getD default).setColumn name d)) w := by
    cases v <;> rfl
  rw [hLift, run_bind]
  cases keyData (w.tableAt id) v <;> rfl

def targetTable (targets keys : List Node) (groups : Option GroupSource) (rows : Relation) :
    Work Table :=
  if keys.isEmpty then do
    Work.lift (Table.ofValues (← evalTargets rows (← starColumns rows targets) targets))
  else groupedTable rows targets keys groups

def afterFrom (q : Select) (rows : Relation) : Work Table := do
  let rows ← evalWhere rows q.condition
  let keys ← Work.lift (groupKeys q.targets q.groupBy)
  let groups ← evalGroups rows q.groupBy
  let table ← targetTable q.targets keys groups rows
  let table ← evalHaving (!keys.isEmpty) table q.having
  let table ← Work.lift (if q.distinct then table.distinct else .ok table)
  let first ← evalBound q.offset
  let table ← Work.lift (ordered q.orderBy (table.afterBound first))
  let last ← evalBound q.limit
  Work.setCatalog fun c => { c with scope := [] }
  return (table.beforeBound last).bareNames

theorem evalSelect_eq_afterFrom (q : Select) :
    evalSelect q = evalFrom q.source >>= afterFrom q := by
  obtain ⟨targets, distinct, source, condition, groupBy, having, orderBy, limit, offset, ctes⟩ := q
  refine bind_congr fun rows =>
    bind_congr fun rows => bind_congr fun keys => bind_congr fun groups => ?_
  cases keys with
  | nil => simp only [targetTable, isEmpty_nil, if_true, bind_assoc]
  | cons key rest => rfl

def inScope (name : String) (r : Relation) (w : Workspace) : Workspace :=
  { w with catalog := { w.catalog with scope := setNamed w.catalog.scope (writeParts [name]) r } }

section Rows

variable (hEntry : entryAt? w.catalog.entries (.text (writeParts [name])) = some e)
  (hRows : run (rowsOf e) w = (.ok r, w'))
include hEntry hRows

theorem run_evalFrom_of_rowsOf :
    run (evalFrom (some (.name [name] {}))) w = (.ok r, inScope name r w') := by
  have hTable : run (tableOf [name]) w = (.ok r, inScope name r w') := by
    unfold tableOf
    rw [run_bind_ok (run_catalog w), hEntry]
    rw [run_bind_ok hRows]
    rfl
  rw [evalFrom, evalSource, run_bind_ok hTable]
  rfl

/-- A select from a table goes on with the rows of the table, which are in scope. -/
theorem run_evalSelect_of_rowsOf {q : Select} (hSource : q.source = some (.name [name] {})) :
    run (evalSelect q) w = run (afterFrom q r) (inScope name r w') := by
  rw [evalSelect_eq_afterFrom, hSource, run_bind_ok (run_evalFrom_of_rowsOf hEntry hRows)]

end Rows

/-- A star stands for the columns of a table that was handed out. -/
theorem starColumns_eq_ok {targets : List Node} {columns : Option (List String)}
    (h : run (starColumns r targets) w = (.ok columns, w')) :
    w' = w ∧
    ∀ names ∈ columns, targets.any isStar = true ∧
      ∃ i, r = .frame i ∧ names = (w.tableAt i).names := by
  unfold starColumns at h
  split at h
  · rename_i hAny
    cases r with
    | frame i =>
      cases h
      refine ⟨rfl, fun names hNames => ⟨hAny, i, rfl, ?_⟩⟩
      cases hNames
      rfl
    | _ => cases h
  · cases h
    exact ⟨rfl, nofun⟩

theorem outlastsFetches_has (id : Nat) (name : String) :
    OutlastsFetches fun w => (w.tableAt id).has name = true where
  newFrame t h := by
    rwa [tableAt_push_of_lt (lt_size_of_named (has_eq_true_iff.1 h))]
  cache _ h := h

/-- A column of a table that was handed out stays there. -/
theorem outlastsQueries_has (id : Nat) (name : String) :
    OutlastsQueries fun w => (w.tableAt id).has name = true where
  newFrame := (outlastsFetches_has id name).newFrame
  rowsOf := maintains_rowsOf (outlastsFetches_has id name)
  rename other column new h := by
    rwa [tableAt_rename]
  setColumn other column d h := by
    have hSize := lt_size_of_named (has_eq_true_iff.1 h)
    unfold tableAt at h ⊢
    rw [Array.set!_eq_setIfInBounds, Array.getElem?_setIfInBounds]
    split
    · rename_i hId
      subst hId
      rw [if_pos hSize]
      exact has_setColumn h d
    · exact h
  scope _ h := h

/-- No expression takes a column from a table. -/
def ColumnsStay : Prop :=
  ∀ id name source n, Maintains (fun w => (w.tableAt id).has name = true) (evalExpr source n)

/-- The columns that a source is left with are among its own. -/
theorem mem_names_of_choose {t chosen : Table} {d : Data} (h : t.choose d = .ok chosen)
    (hName : name ∈ chosen.names) : name ∈ t.names := by
  obtain ⟨choice, _, h⟩ := bind_eq_ok h
  cases choice with
  | rows mask =>
    dsimp only at h
    split at h
    · cases h
      rwa [Table.filterRows, Table.names_pickRows] at hName
    · cases h
  | names names =>
    obtain ⟨texts, _, h⟩ := bind_eq_ok h
    unfold Table.selectNames? at h
    split at h
    · rename_i found hFound
      cases h
      split at hFound
      · cases hFound
        simp only [Table.names, mem_map, mem_flatMap] at hName
        obtain ⟨_, ⟨n, hn, d, hd, rfl⟩, rfl⟩ := hName
        exact Table.mem_names_iff.2 (ne_nil_of_mem hd)
      · cases hFound
    · cases h

end Query

namespace Correspondence

open Query

structure ReadsAlike (C : Correspondence) : Prop where
  later_refl (s : C.Stage) : C.Later s s
  later_trans {s s' s'' : C.Stage} : C.Later s s' → C.Later s' s'' → C.Later s s''
  source_mono {s s' : C.Stage} {r r' : Relation} : C.Later s s' → C.Source s r r' → C.Source s' r r'
  source_cases {s : C.Stage} {r r' : Relation} : C.Source s r r' →
    (∃ i j, r = .frame i ∧ r' = .frame j) ∨ (r = .absent ∧ r' = .absent) ∨ ∃ v, r = .value v ∧
      r' = .value v
  tableAt_eq {s : C.Stage} {v w : Workspace} {i j : Nat} : C.State s v w →
    C.Source s (.frame i) (.frame j) → v.tableAt i = w.tableAt j
  columnsNamed {s : C.Stage} {i j : Nat} : C.Source s (.frame i) (.frame j) → ∀ name,
    C.Agree s (fun _ => C.Alike) (columnsNamed i name) (columnsNamed j name)
  scopedColumn (s : C.Stage) {table column : String} : C.Permits (.reference [table, column]) →
    C.Agree s (fun _ => C.Alike) (scopedColumn table column [table, column])
      (scopedColumn table column [table, column])

structure Lawful (C : Correspondence) : Prop extends C.ReadsAlike where
  own_mono {s s' : C.Stage} {r r' : Relation} : C.Later s s' → C.Own s r r' → C.Own s' r r'
  plain_mono {s s' : C.Stage} {r r' : Relation} : C.Later s s' → C.Plain s r r' → C.Plain s' r r'
  source_of_own {s : C.Stage} {r r' : Relation} : C.Own s r r' → C.Source s r r'
  own_absent (s : C.Stage) : C.Own s .absent .absent
  own_value (s : C.Stage) (v : Value) : C.Own s (.value v) (.value v)
  plain_value (s : C.Stage) (v : Value) : C.Plain s (.value v) (.value v)
  starrable {s : C.Stage} {v w : Workspace} {i j : Nat} : C.State s v w →
    C.Plain s (.frame i) (.frame j) → C.AllStarrable (v.tableAt i).names
  starrable_of_permits : C.Permits (.star false) → ∀ name, C.Starrable name
  steady : (∀ parts, C.Permits (.reference parts)) ∨ ColumnsStay
  extensions_eq {s : C.Stage} {v w : Workspace} : C.State s v w →
    v.catalog.extensions = w.catalog.extensions
  alike_self {v : Value} : v.origin? = none → C.Alike v v
  nameless_eq {v v' : Value} : C.Alike v v' → v.nameless false = v'.nameless false
  cast {v v' : Value} : C.Alike v v' → ∀ type, SameOutcome C.Alike (v.cast type) (v'.cast type)
  call (s : C.Stage) {op : String} {args : List Node} {r r' : Relation}
    {values values' : List Value} :
    C.Permits (.operation op args) → List.Forall₂ C.Alike values values' →
    (evalArgs r args).CanAnswer values → (evalArgs r' args).CanAnswer values' →
    C.Agree s (fun _ => C.Alike) (call op values) (call op values')
  tableOf (s : C.Stage) (parts : List String) :
    C.Agree s (fun s r r' => C.Source s r r' ∧ C.Plain s r r') (tableOf parts) (tableOf parts)
  newFrame (s : C.Stage) (t : Table) :
    C.Agree s (fun s i j => C.Own s (.frame i) (.frame j) ∧
      (C.AllStarrable t.names → C.Plain s (.frame i) (.frame j)))
      (Work.newFrame t) (Work.newFrame t)
  addToScope {s : C.Stage} {r r' : Relation} : C.Source s r r' → ∀ name,
    C.Agree s (fun _ _ _ => True) (addToScope name r) (addToScope name r')
  clearScope (s : C.Stage) :
    C.Agree s (fun _ _ _ => True) (Work.setCatalog fun c => { c with scope := [] })
      (Work.setCatalog fun c => { c with scope := [] })
  keyName {s : C.Stage} {r r' : Relation} {parts : List String} {tag : Tag} :
    C.Permits (.reference parts) → C.Keyable s r r' (.name parts tag) →
    C.Agree s (fun _ => Eq) (keyName parts r) (keyName parts r')
  addKey {s : C.Stage} {r r' : Relation} {key : Node} {v v' : Value} :
    C.Permits (.keyColumn key.keyColumn) → key.isOperation = true → C.Keyable s r r' key →
      C.Alike v v' →
    C.Agree s (fun _ _ _ => True) (addKey r key.keyColumn v) (addKey r' key.keyColumn v')

variable {C : Correspondence} {β γ δ : Type}

theorem Agree.mono {s : C.Stage} {P Q : C.Stage → α → β → Prop} {x : Work α} {y : Work β}
    (h : C.Agree s P x y) (hPQ : ∀ s' a b, C.Later s s' → P s' a b → Q s' a b) :
    C.Agree s Q x y := by
  intro v w hState
  obtain ⟨s', hLater, hState', hOutcome⟩ := h v w hState
  exact ⟨s', hLater, hState', hOutcome.mono fun a b => hPQ s' a b hLater⟩

namespace ReadsAlike

variable (hC : C.ReadsAlike)
variable {s : C.Stage} {r r' : Relation}
variable {v w : Workspace} {parts : List String}
include hC

/-- The second of two steps starts where the first ended. -/
theorem ends_bind {P : C.Stage → α → β → Prop} {Q : C.Stage → γ → δ → Prop} {x : Work α}
    {y : Work β} {f : α → Work γ} {g : β → Work δ} (hx : C.Ends s P (run x v) (run y w))
    (hf : ∀ s' a b v' w', C.Later s s' → C.State s' v' w' → P s' a b → run x v = (.ok a, v') →
      run y w = (.ok b, w') → C.Ends s' Q (run (f a) v') (run (g b) w')) :
    C.Ends s Q (run (x >>= f) v) (run (y >>= g) w) := by
  obtain ⟨s', hLater, hState, hOutcome⟩ := hx
  rw [run_bind, run_bind]
  rcases hv : run x v with ⟨a, v'⟩
  rcases hw : run y w with ⟨b, w'⟩
  rw [hv, hw] at hState hOutcome
  cases hOutcome with
  | error e => exact ⟨s', hLater, hState, .error e⟩
  | ok hab =>
    obtain ⟨s'', hLater', hState', hOutcome'⟩ := hf s' _ _ v' w' hLater hState hab hv hw
    exact ⟨s'', hC.later_trans hLater hLater', hState', hOutcome'⟩

theorem agree_bind {P : C.Stage → α → β → Prop} {Q : C.Stage → γ → δ → Prop} {x : Work α}
    {y : Work β} {f : α → Work γ} {g : β → Work δ} (hx : C.Agree s P x y)
    (hf : ∀ s' a b, C.Later s s' → P s' a b → C.Agree s' Q (f a) (g b)) :
    C.Agree s Q (x >>= f) (y >>= g) := by
  intro v w hState
  refine hC.ends_bind (hx v w hState) fun s' a b v' w' hLater hState' hab _ _ => ?_
  exact hf s' a b hLater hab v' w' hState'

/-- Where the first steps answer the same, the second ones go on with it. -/
theorem agree_then {Q : C.Stage → γ → δ → Prop} {x y : Work α} {f : α → Work γ} {g : α → Work δ}
    (hx : C.Agree s (fun _ => Eq) x y) (hf : ∀ s' a, C.Later s s' → C.Agree s' Q (f a) (g a)) :
    C.Agree s Q (x >>= f) (y >>= g) :=
  hC.agree_bind hx fun s' a _ hLater hab => hab ▸ hf s' a hLater

theorem ends_of_outcome {P : C.Stage → α → β → Prop}
    (hState : C.State s v w) {x : Except Fault α} {y : Except Fault β} (h : SameOutcome (P s) x y) :
    C.Ends s P (x, v) (y, w) :=
  ⟨s, hC.later_refl s, hState, h⟩

theorem agree_pure {P : C.Stage → α → β → Prop} {a : α} {b : β} (h : P s a b) :
    C.Agree s P (pure a) (pure b) :=
  fun _ _ hState => hC.ends_of_outcome hState (.ok h)

theorem agree_throw (s : C.Stage) (P : C.Stage → α → β → Prop) (f : Fault) :
    C.Agree s P (throw f) (throw f) :=
  fun _ _ hState => hC.ends_of_outcome hState (.error f)

theorem agree_lift {P : C.Stage → α → β → Prop} {x : Except Fault α} {y : Except Fault β}
    (h : SameOutcome (P s) x y) : C.Agree s P (lift x) (lift y) := by
  intro v w hState
  rw [run_lift, run_lift]
  exact hC.ends_of_outcome hState h

theorem agree_lift_self (s : C.Stage) (x : Except Fault α) :
    C.Agree s (fun _ => Eq) (lift x) (lift x) :=
  hC.agree_lift (.of_eq fun _ _ => rfl)

/-- A step that has nothing to do with the workspace. -/
theorem agree_still (s : C.Stage) {x : Work α} (hx : Still x) : C.Agree s (fun _ => Eq) x x := by
  obtain ⟨r, hr⟩ := hx
  intro v w hState
  rw [hr, hr]
  exact hC.ends_of_outcome hState (.of_eq fun _ _ => rfl)

/-- Tables that belong together are equal. -/
theorem agree_frame {i j : Nat} (h : C.Source s (.frame i) (.frame j)) :
    C.Agree s (fun _ f g => f.table = g.table) (frame i) (frame j) :=
  fun _ _ hState => hC.ends_of_outcome hState (.ok (hC.tableAt_eq hState h))

/-- Rows that were not handed out are the same on both sides. -/
theorem agree_columns (h : C.Source s r r') : C.Agree s (fun _ => Eq) r.columns r'.columns := by
  rcases hC.source_cases h with ⟨i, j, rfl, rfl⟩ | ⟨rfl, rfl⟩ | ⟨u, rfl, rfl⟩
  · exact hC.agree_bind (hC.agree_frame h) fun _ f g _ hTable =>
      hC.agree_pure (congrArg names hTable)
  · exact hC.agree_throw s _ _
  · exact hC.agree_throw s _ _

theorem agree_hasColumn (h : C.Source s r r') (name : String) :
    C.Agree s (fun _ => Eq) (hasColumn r name) (hasColumn r' name) := by
  rcases hC.source_cases h with ⟨i, j, rfl, rfl⟩ | ⟨rfl, rfl⟩ | ⟨u, rfl, rfl⟩
  · exact hC.agree_bind (hC.agree_frame h) fun _ f g _ hTable =>
      hC.agree_pure (congrArg (fun t : Table => t.has name) hTable)
  · exact hC.agree_pure rfl
  · refine hC.agree_still s ?_
    cases u with
    | column c origin => exact still_pure _
    | table t => exact still_pure _
    | scalar c =>
      cases c with
      | text x =>
        unfold hasColumn
        dsimp only
        split
        · exact still_throw _
        · exact still_pure _
      | _ => exact still_throw _

/-- A reference comes to a column of the source or to one of a table in scope. -/
theorem agree_columnOf_of (h : C.Source s r r') {P : Value → Value → Prop}
    (hColumns : ∀ s' i j name, C.Later s s' → r = .frame i → r' = .frame j →
      (parts = [name] ∨ ∃ table column, parts = [table, column] ∧ name = table ++ "." ++ column) →
      C.Agree s' (fun _ => P) (Query.columnsNamed i name) (Query.columnsNamed j name))
    (hScoped : ∀ s' table column, parts = [table, column] →
      C.Agree s' (fun _ => P) (Query.scopedColumn table column [table, column])
        (Query.scopedColumn table column [table, column])) :
    C.Agree s (fun _ => P) (columnOf parts r) (columnOf parts r') := by
  unfold columnOf
  split
  · rename_i name
    refine hC.agree_then (hC.agree_columns h) fun s' names hLater => ?_
    split
    · rcases hC.source_cases h with ⟨i, j, rfl, rfl⟩ | ⟨rfl, rfl⟩ | ⟨u, rfl, rfl⟩
      · exact hColumns s' i j name hLater rfl rfl (Or.inl rfl)
      · exact hC.agree_throw s' _ _
      · exact hC.agree_throw s' _ _
    · exact hC.agree_throw s' _ _
  · rename_i table column
    refine hC.agree_then (hC.agree_hasColumn h _) fun s' found hLater => ?_
    split
    · rcases hC.source_cases h with ⟨i, j, rfl, rfl⟩ | ⟨rfl, rfl⟩ | ⟨u, rfl, rfl⟩
      · exact hColumns s' i j _ hLater rfl rfl (Or.inr ⟨table, column, rfl, rfl⟩)
      · exact hC.agree_throw s' _ _
      · exact hC.agree_throw s' _ _
    · exact hScoped s' table column rfl
  · exact hC.agree_throw s _ _

/-- A reference is read alike if what it asks of the scope is permitted. -/
theorem agree_columnOf (h : C.Source s r r') (hParts : C.Permits (.reference parts)) :
    C.Agree s (fun _ => C.Alike) (columnOf parts r) (columnOf parts r') := by
  refine hC.agree_columnOf_of h ?_ ?_
  · rintro s' i j name hLater rfl rfl _
    exact hC.columnsNamed (hC.source_mono hLater h) name
  · rintro s' table column rfl
    exact hC.scopedColumn s' hParts

end ReadsAlike

end Correspondence

end TableQuery
