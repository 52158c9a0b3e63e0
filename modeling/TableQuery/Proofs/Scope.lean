import TableQuery.Proofs.Readings

/-! The tables in scope while a select is evaluated. A select that answers takes all of them away,
so a name of an enclosing select is lost with the first subquery. -/
namespace TableQuery

open Work

namespace Query

open Sql Work

variable {w w' : Workspace} {source : Relation}
variable {α : Type} {isFlat : Bool}

/-- A select that answers leaves nothing in scope. -/
theorem scope_of_run_evalSelect {q : Select} {t : Table}
    (h : run (evalSelect q) w = (.ok t, w')) : w'.catalog.scope = [] := by
  rw [evalSelect_eq] at h
  obtain ⟨rows, w₁, _, h⟩ := run_bind_eq_ok h
  obtain ⟨first, w₂, _, h⟩ := run_bind_eq_ok h
  obtain ⟨arranged, w₃, _, h⟩ := run_bind_eq_ok h
  obtain ⟨last, w₄, _, h⟩ := run_bind_eq_ok h
  cases h
  rfl

/-- References change no table and nothing of the catalog. -/
theorem maintains_sameTables_columnOf (w : Workspace) (parts : List String) (source : Relation) :
    Maintains (·.SameTables w) (columnOf parts source) := by
  unfold columnOf
  split
  · refine (maintains_columns source).bind fun names => ?_
    split
    · split
      · exact maintains_columnsNamed _ _
      · exact maintains_throw _
    · exact maintains_throw _
  · refine (maintains_hasColumn source _).bind fun found => ?_
    split
    · split
      · exact maintains_columnsNamed _ _
      · exact maintains_throw _
    · exact fun v hv => (gives_scopedColumn true w _ _ _ v hv).1
  · exact maintains_throw _

theorem maintains_sameTables_starTargets (w : Workspace) (source : Relation) (names : List String) :
    Maintains (·.SameTables w) (starTargets source names) := by
  induction names with
  | nil => exact maintains_pure _
  | cons name rest ih =>
    unfold starTargets
    split
    · exact maintains_throw _
    · exact (maintains_sameTables_columnOf w _ source).bind
        fun _ => ih.bind fun _ => maintains_pure _

/-- Without a subquery all tables and names are as they were; with one there are no names any more.
-/
def Leaves (isFlat : Bool) (w w' : Workspace) : Prop :=
  if isFlat then w'.SameTables w else w'.catalog.scope = []

theorem leaves_true : Leaves true w w' ↔ w'.SameTables w := Iff.rfl

theorem leaves_false : Leaves false w w' ↔ w'.catalog.scope = [] := Iff.rfl

theorem Leaves.trans {first second : Bool} {w₁ w₂ : Workspace} (h₁ : Leaves first w w₁)
    (h₂ : Leaves second w₁ w₂) : Leaves (first && second) w w₂ := by
  cases second with
  | false =>
    rw [Bool.and_false]
    exact h₂
  | true =>
    cases first with
    | false =>
      exact (congrArg Catalog.scope h₂.catalog).trans h₁
    | true =>
      exact ⟨h₂.catalog.trans h₁.catalog, h₂.tables.trans h₁.tables⟩

theorem leaves_of_maintains {x : Work α} {a : α}
    (hx : Maintains (·.SameTables w) x) (h : run x w = (.ok a, w')) : Leaves true w w' := by
  have hSame := hx w ⟨rfl, rfl⟩
  rw [h] at hSame
  exact hSame

/-- A step that does nothing to the workspace, after a part was evaluated. -/
theorem Leaves.still {x : Work α} {w₁ w₂ : Workspace} {a : α} (h₁ : Leaves isFlat w w₁)
    (hx : ∀ I, Maintains I x) (h : run x w₁ = (.ok a, w₂)) : Leaves isFlat w w₂ := by
  have hAfter := h₁.trans (leaves_of_maintains (hx _) h)
  rwa [Bool.and_true] at hAfter

mutual

theorem leaves_eval {reduce : Bool} {n : Node} {w w' : Workspace} {v : Value}
    (h : run (eval reduce n) w = (.ok v, w')) : Leaves n.isFlat w w' := by
  cases n with
  | select q t =>
    obtain ⟨answer, w₁, hSelect, h⟩ := run_bind_eq_ok h
    cases h
    exact scope_of_run_evalSelect hSelect
  | tuple items t =>
    obtain ⟨values, w₁, hItems, h⟩ := run_bind_eq_ok h
    cases h
    exact leaves_evalItems hItems
  | operation form op args t => cases h
  | cast type arg t => cases h
  | _ =>
    refine leaves_of_maintains ?_ h
    exact maintains_leafValue _

theorem leaves_evalItems {ns : List Node} {w w' : Workspace} {values : List Value}
    (h : run (evalItems ns) w = (.ok values, w')) : Leaves (Node.areFlat ns) w w' := by
  cases ns with
  | nil => exact leaves_of_maintains (maintains_pure _) h
  | cons n rest =>
    obtain ⟨v, w₁, hFirst, h⟩ := run_bind_eq_ok h
    obtain ⟨others, w₂, hRest, h⟩ := run_bind_eq_ok h
    cases h
    exact (leaves_eval hFirst).trans (leaves_evalItems hRest)

end

mutual

theorem leaves_evalExpr {source : Relation} {n : Node} {w w' : Workspace} {v : Value}
    (h : run (evalExpr source n) w = (.ok v, w')) : Leaves n.isFlat w w' := by
  cases n with
  | name parts t => exact leaves_of_maintains (maintains_sameTables_columnOf w parts source) h
  | operation form op args t =>
    obtain ⟨values, w₁, hArgs, h⟩ := run_bind_eq_ok h
    exact (leaves_evalArgs hArgs).still (fun _ => maintains_call op values) h
  | cast type arg t =>
    obtain ⟨u, w₁, hArg, h⟩ := run_bind_eq_ok h
    exact (leaves_evalExpr (n := arg) hArg).still (fun _ => maintains_lift _) h
  | select q t =>
    obtain ⟨answer, w₁, hSelect, h⟩ := run_bind_eq_ok h
    cases h
    exact scope_of_run_evalSelect hSelect
  | tuple items t =>
    obtain ⟨values, w₁, hItems, h⟩ := run_bind_eq_ok h
    cases h
    exact leaves_evalItems hItems
  | _ =>
    refine leaves_of_maintains ?_ h
    exact maintains_leafValue _

theorem leaves_evalArgs {source : Relation} {ns : List Node} {w w' : Workspace}
    {values : List Value} (h : run (evalArgs source ns) w = (.ok values, w')) :
    Leaves (Node.areFlat ns) w w' := by
  cases ns with
  | nil => exact leaves_of_maintains (maintains_pure _) h
  | cons n rest =>
    obtain ⟨v, w₁, hFirst, h⟩ := run_bind_eq_ok h
    obtain ⟨others, w₂, hRest, h⟩ := run_bind_eq_ok h
    cases h
    exact (leaves_evalExpr hFirst).trans (leaves_evalArgs hRest)

end

theorem leaves_evalCondition {n : Node} {v : Value}
    (h : run (evalCondition source n) w = (.ok v, w')) : Leaves n.isFlat w w' := by
  cases n with
  | operation form op args t => exact leaves_evalExpr h
  | _ => cases h

theorem leaves_evalTargets {columns : Option (List String)} {ns : List Node}
    {values : List (String × Value)}
    (h : run (evalTargets source columns ns) w = (.ok values, w')) :
    Leaves (Node.areFlat ns) w w' := by
  induction ns generalizing columns w values with
  | nil => exact leaves_of_maintains (maintains_pure _) h
  | cons n rest ih =>
    unfold evalTargets at h
    split at h
    · rename_i names hStar
      obtain ⟨starred, w₁, hStarred, h⟩ := run_bind_eq_ok h
      obtain ⟨others, w₂, hRest, h⟩ := run_bind_eq_ok h
      cases h
      have hFlat : n.isFlat = true := by
        cases n with
        | star t => rfl
        | _ => cases hStar
      rw [Node.areFlat, hFlat]
      exact (leaves_of_maintains (maintains_sameTables_starTargets w source names) hStarred).trans
        (ih hRest)
    · obtain ⟨v, w₁, hFirst, h⟩ := run_bind_eq_ok h
      obtain ⟨others, w₂, hRest, h⟩ := run_bind_eq_ok h
      cases h
      exact (leaves_evalExpr hFirst).trans (ih hRest)

/-- A part of a select was evaluated with names in scope. The truth value says that there is no
subquery in it. -/
inductive Evaluated : Bool → Workspace → Workspace → Prop where
  | arguments {source : Relation} {ns : List Node} {values : List Value} {w w' : Workspace} :
      Work.run (evalArgs source ns) w = (.ok values, w') → Evaluated (Node.areFlat ns) w w'
  | condition {source : Relation} {n : Node} {v : Value} {w w' : Workspace} :
      Work.run (evalCondition source n) w = (.ok v, w') → Evaluated n.isFlat w w'
  | targets {source : Relation} {columns : Option (List String)} {ns : List Node}
      {values : List (String × Value)} {w w' : Workspace} :
      Work.run (evalTargets source columns ns) w = (.ok values, w') →
        Evaluated (Node.areFlat ns) w w'
  | side {q : Select} {tag : Tag} {r : Relation} {w w' : Workspace} :
      Work.run (evalSide (.select q tag)) w = (.ok r, w') → Evaluated false w w'

theorem Evaluated.leaves (h : Evaluated isFlat w w') : Leaves isFlat w w' := by
  cases h with
  | arguments h => exact leaves_evalArgs h
  | condition h => exact leaves_evalCondition h
  | targets h => exact leaves_evalTargets h
  | side h =>
    obtain ⟨answer, w₁, hSelect, h⟩ := run_bind_eq_ok h
    have hScope := scope_of_run_evalSelect hSelect
    cases h
    exact hScope

/-- What a reference comes to, up to the name that its column has for readers. -/
def resolved (w : Workspace) (source : Relation) (parts : List String) : Except Fault Value :=
  Value.nameless true <$> (Work.run (columnOf parts source) w).1

def scopedReading (w : Workspace) (table column : String) : Except Fault Value :=
  match w.catalog.scope.lookup table with
  | none => .error (if table == "" then .missingKey else .query (.tableNotInScope table))
  | some (.frame id) =>
    if (w.tableAt id).has column then .ok (stored true w id column)
    else .error (.query (.columnNotFound (writeParts [table, column])))
  | some _ => .error .missingMember

theorem nameless_run_columnsNamed (w : Workspace) (id : Nat) (name : String) :
    Value.nameless true <$> (run (columnsNamed id name) w).1 = .ok (stored true w id name) := by
  unfold columnsNamed stored Workspace.tableAt
  rw [run_bind_ok (run_frame id w)]
  cases (w.frames[id]?.getD default).table.named name with
  | nil => rfl
  | cons d rest => cases rest <;> rfl

theorem nameless_run_scopedColumn (w : Workspace) (table column : String) :
    Value.nameless true <$> (run (scopedColumn table column [table, column]) w).1 =
      scopedReading w table column := by
  rw [run_scopedColumn, scopedReading]
  rcases w.catalog.scope.lookup table with _ | _ | id | _
  · rfl
  · rfl
  · dsimp only
    split
    · rw [nameless_run_columnsNamed, stored_congr (Workspace.tableAt_rename w id column _ id)]
    · rfl
  · rfl

/-- Whether a source has a column depends on its table only. -/
theorem run_hasColumn_congr (hSource : ∀ id, source = .frame id → w'.tableAt id = w.tableAt id)
    (name : String) : (run (hasColumn source name) w').1 = (run (hasColumn source name) w).1 := by
  unfold hasColumn
  split
  · rename_i id
    exact congrArg (fun t : Table => Except.ok (t.has name)) (hSource id rfl)
  · rfl
  · rfl
  · rfl
  · split <;> rfl
  · rfl

/-- A qualified reference is answered by the source if it can, and by what is in scope otherwise. -/
theorem resolved_qualified (w : Workspace) (source : Relation) (table column : String) :
    resolved w source [table, column] =
      match (run (hasColumn source (table ++ "." ++ column)) w).1 with
      | .error e => .error e
      | .ok false => scopedReading w table column
      | .ok true =>
        match source with
        | .frame id => .ok (stored true w id (table ++ "." ++ column))
        | _ => .error .wrongType := by
  have hUnchanged : (run (hasColumn source (table ++ "." ++ column)) w).2 = w :=
    maintains_hasColumn (I := (· = w)) source _ w rfl
  unfold resolved columnOf
  rw [run_bind]
  rcases hRun : run (hasColumn source (table ++ "." ++ column)) w with ⟨e | found, v⟩
  · rfl
  · rw [hRun] at hUnchanged
    cases hUnchanged
    cases found with
    | false => exact nameless_run_scopedColumn _ table column
    | true =>
      cases source with
      | frame id => exact nameless_run_columnsNamed _ id _
      | _ => rfl

/-- Where nothing is in scope a qualified reference fails in a way of its own. -/
theorem scopedReading_ne {table column : String} {r : Relation}
    (hName : w.catalog.scope.lookup table = some r) (hEmpty : w'.catalog.scope = []) :
    scopedReading w' table column ≠ scopedReading w table column := by
  unfold scopedReading
  rw [hName, hEmpty]
  dsimp only [List.lookup_nil]
  cases r with
  | frame id =>
    dsimp only
    by_cases hColumn : (w.tableAt id).has column = true
    · rw [if_pos hColumn]
      exact nofun
    · split <;> exact nofun
  | _ =>
    split <;> exact nofun

/-- A name of an enclosing select is in scope after a part of it exactly if there is no subquery in
that part, and exactly then a reference that it qualifies comes to the same as before. -/
theorem name_in_scope_iff {isFlat : Bool} {w w' : Workspace} (h : Evaluated isFlat w w')
    {name : String} {r : Relation} (hName : w.catalog.scope.lookup name = some r) :
    (w'.catalog.scope.lookup name = some r ↔ isFlat = true) ∧
    ∀ source column, (∀ id, source = .frame id → w'.tableAt id = w.tableAt id) →
      (resolved w' source [name, column] = resolved w source [name, column] ↔
        isFlat = true ∨ (Work.run (hasColumn source (name ++ "." ++ column)) w).1 ≠ .ok false) := by
  have hLeaves := h.leaves
  refine ⟨?_, fun source column hSource => ?_⟩
  · cases isFlat with
    | true =>
      rw [leaves_true] at hLeaves
      simp [hLeaves.catalog, hName]
    | false =>
      rw [leaves_false] at hLeaves
      simp [hLeaves]
  · have hAsked := run_hasColumn_congr hSource (name ++ "." ++ column)
    rw [resolved_qualified, resolved_qualified, hAsked]
    rcases (run (hasColumn source (name ++ "." ++ column)) w).1 with e | found
    · simp
    · cases found with
      | true =>
        refine iff_of_true ?_ (Or.inr nofun)
        cases source with
        | frame id => exact congrArg Except.ok (stored_congr (hSource id rfl) _)
        | _ => rfl
      | false =>
        dsimp only
        cases isFlat with
        | true =>
          rw [leaves_true] at hLeaves
          refine iff_of_true ?_ (Or.inl rfl)
          unfold scopedReading
          simp only [hLeaves.catalog, hLeaves.tableAt, stored_congr (hLeaves.tableAt _)]
        | false =>
          rw [leaves_false] at hLeaves
          exact iff_of_false (scopedReading_ne hName hLeaves) (by simp)

/-- `t.v IN (SELECT v FROM u)`. -/
def memberCondition : Node :=
  .operation .binary "in" [.name ["t", "v"] {},
    .select { targets := [.name ["v"] {}], source := some (.name ["u"] {}) } {}] {}

def twoTables : Workspace :=
  .ofTables [("t", threeRows), ("u", ⟨Column.freshLabels 2, [("v", .ints .int64 [20, 30])]⟩)]

def twoTablesFetched : Workspace := (Work.run (evalSource (.name ["t"] {})) twoTables).2

/-- A condition with a subquery: the name is lost, and a reference no longer comes to the column. -/
theorem name_in_scope_iff_member :
    let w' := (run (evalCondition (.frame 0) memberCondition) twoTablesFetched).2
    twoTablesFetched.catalog.scope.lookup "t" = some (.frame 0) ∧
      w'.tableAt 0 = twoTablesFetched.tableAt 0 ∧
    (w'.catalog.scope.lookup "t" = some (.frame 0) ↔ false = true) ∧
    (resolved w' (.frame 0) ["t", "v"] = resolved twoTablesFetched (.frame 0) ["t", "v"] ↔
      false = true ∨
        (run (hasColumn (.frame 0) ("t" ++ "." ++ "v")) twoTablesFetched).1 ≠ .ok false) := by
  intro w'
  have hRun : run (evalCondition (.frame 0) memberCondition) twoTablesFetched =
      (.ok (.ofColumn ⟨Column.freshLabels 3, some "t.v", .bools [false, true, true]⟩), w') := rfl
  have hName : twoTablesFetched.catalog.scope.lookup "t" = some (.frame 0) := rfl
  obtain ⟨hBound, hReference⟩ := name_in_scope_iff (.condition hRun) hName
  refine ⟨hName, rfl, hBound, hReference (.frame 0) "v" ?_⟩
  intro id hId
  cases hId
  rfl

/-- `SELECT t.v FROM t WHERE t.v IN (SELECT v FROM u)` fails, and with the values written out it
answers. -/
theorem subquery_loses_name :
    (Work.run (evalSelect (tableSelect ["t"] {} [.name ["t", "v"] {}] (some memberCondition) false))
      twoTables).1 = .error (.query (.tableNotInScope "t")) ∧
    ∃ answer,
      (Work.run (evalSelect (tableSelect ["t"] {} [.name ["t", "v"] {}]
        (some (.operation .binary "in"
          [.name ["t", "v"] {}, .tuple [.constant (.int 20) {}, .constant (.int 30) {}] {}] {}))
        false)) twoTables).1 = .ok answer :=
  ⟨rfl, _, rfl⟩

end Query

end TableQuery
