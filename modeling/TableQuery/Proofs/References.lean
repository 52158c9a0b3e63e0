import TableQuery.Proofs.Upkeep

/-! What references to columns read. A qualified name is a column of the source that is called so,
dot and all; only if there is none it is a column of the table that is in scope under the first
part. -/
namespace TableQuery

open Work Workspace Array

def Workspace.tableAt (w : Workspace) (id : Nat) : Table := (w.frames[id]?.getD default).table

namespace Table

variable {t : Table} {name : String}

theorem has_eq_false_iff : t.has name = false ↔ t.named name = [] := by
  simp [has, named]

theorem has_eq_true_iff : t.has name = true ↔ t.named name ≠ [] := by
  rw [Ne, ← has_eq_false_iff, Bool.not_eq_false]

theorem contains_names (t : Table) (name : String) : t.names.contains name = t.has name := by
  rw [Bool.eq_iff_iff]
  simp [names, has]

theorem mem_names_iff : name ∈ t.names ↔ t.named name ≠ [] := by
  rw [← has_eq_true_iff]
  simp [names, has]

end Table

namespace Workspace

variable {w : Workspace} {id : Nat}

def withScope (scope : List (String × Relation)) (w : Workspace) : Workspace :=
  { w with catalog := { w.catalog with scope } }

theorem tableAt_push_of_lt (h : id < w.frames.size) (f : Frame) :
    { w with frames := w.frames.push f }.tableAt id = w.tableAt id := by
  simp [tableAt, getElem?_push_lt h, getElem?_eq_getElem h]

theorem tableAt_push_size (w : Workspace) (t : Table) :
    { w with frames := w.frames.push { table := t } }.tableAt w.frames.size = t := by
  simp [tableAt]

/-- A number under which no table was handed out has no columns. -/
theorem lt_size_of_named {name : String} (h : (w.tableAt id).named name ≠ []) :
    id < w.frames.size := by
  by_contra hId
  have hFrame : w.frames[id]? = none := getElem?_eq_none (Nat.le_of_not_lt hId)
  rw [tableAt, hFrame] at h
  exact h rfl

/-- A name in place of a column's own changes no table. -/
theorem tableAt_rename (w : Workspace) (id : Nat) (column name : String) (other : Nat) :
    { w with frames := w.frames.set! id ((w.frames[id]?.getD default).rename column name) }.tableAt
      other = w.tableAt other := by
  unfold tableAt
  rw [set!_eq_setIfInBounds, getElem?_setIfInBounds]
  split
  · rename_i hId
    subst hId
    split
    · rfl
    · rename_i hSize
      rw [getElem?_eq_none (Nat.le_of_not_lt hSize)]
  · rfl

end Workspace

theorem lookup_setNamed {α : Type} (pairs : List (String × α)) (name : String) (a : α)
    (other : String) :
    (setNamed pairs name a).lookup other = if other = name then some a else pairs.lookup other := by
  induction pairs with
  | nil =>
    by_cases hOther : other = name
    · simp [setNamed, hOther]
    · simp [setNamed, hOther]
  | cons p rest ih =>
    by_cases hName : p.1 = name
    · rw [setNamed, if_pos (by simpa using hName), List.lookup_cons, List.lookup_cons, hName]
      by_cases hOther : other = name
      · simp [hOther]
      · simp [hOther, beq_eq_false_iff_ne.2 hOther]
    · rw [setNamed, if_neg (by simpa using hName), List.lookup_cons, List.lookup_cons, ih]
      by_cases hOther : other = p.1
      · simp [hOther, hName]
      · simp [beq_eq_false_iff_ne.2 hOther]

namespace Query

variable {parts : List String} {w w' : Workspace} {id : Nat} {name table column : String} {d : Data}

/-- A table that is handed out is put in scope under its name. -/
theorem scope_of_run_tableOf {r : Relation} (h : run (tableOf parts) w = (.ok r, w')) :
    w'.catalog.scope = setNamed w.catalog.scope (Sql.writeParts parts) r := by
  unfold tableOf at h
  rw [run_bind_ok (run_catalog w)] at h
  split at h
  · cases h
  · rename_i e _
    obtain ⟨r, w₁, hRows, h⟩ := run_bind_eq_ok h
    cases h
    have hScope := maintains_rowsOf (I := fun v => v.catalog.scope = w.catalog.scope)
      ⟨fun _ h => h, fun _ h => h⟩ e w rfl
    rw [hRows] at hScope
    exact congrArg (setNamed · _ _) hScope

/-- An alias changes what is in scope and nothing else. -/
theorem run_withAlias (tag : Sql.Tag) (r : Relation) (w : Workspace) :
    ∃ scope, run (withAlias tag r) w = (.ok r, w.withScope scope) := by
  unfold withAlias
  cases tag.alias? with
  | none => exact ⟨w.catalog.scope, rfl⟩
  | some a => exact ⟨_, rfl⟩

/-- A reference reads some data: its value over the source is a column with that data. -/
def Reads (w : Workspace) (source : Relation) (parts : List String) (d : Data) : Prop :=
  ∃ c origin w', Work.run (evalExpr source (.name parts {})) w = (.ok (.column c origin), w') ∧
    c.data = d

theorem run_columnsNamed_one (h : (w.tableAt id).named name = [d]) :
    run (columnsNamed id name) w =
      (.ok (.column ⟨(w.tableAt id).labels, some ((w.frames[id]?.getD default).nameOf name), d⟩
          (some ⟨id, name⟩)),
        w) := by
  unfold columnsNamed
  rw [run_bind_ok (run_frame id w)]
  unfold tableAt at h
  rw [h]
  rfl

/-- The columns of a name are a column only if there is just one. -/
theorem named_of_run_columnsNamed {c : Column} {origin : Option Origin}
    (h : run (columnsNamed id name) w = (.ok (.column c origin), w')) :
    (w.tableAt id).named name = [c.data] := by
  unfold columnsNamed at h
  rw [run_bind_ok (run_frame id w)] at h
  split at h
  · rename_i d hNamed
    cases h
    exact hNamed
  · cases h

theorem run_columnOf_bare (w : Workspace) (id : Nat) (name : String) :
    run (columnOf [name] (.frame id)) w =
      if (w.tableAt id).has name then run (columnsNamed id name) w
        else (.error (.query (.columnNotFound (Sql.writeParts [name]))), w) := by
  have hColumns : run (Relation.columns (.frame id)) w = (.ok (w.tableAt id).names, w) := rfl
  unfold columnOf
  rw [run_bind_ok hColumns, Table.contains_names]
  split <;> rfl

theorem run_columnOf_qualified (w : Workspace) (id : Nat) (table column : String) :
    run (columnOf [table, column] (.frame id)) w =
      if (w.tableAt id).has (table ++ "." ++ column)
        then run (columnsNamed id (table ++ "." ++ column)) w
        else run (scopedColumn table column [table, column]) w := by
  have hAsked : run (hasColumn (.frame id) (table ++ "." ++ column)) w =
      (.ok ((w.tableAt id).has (table ++ "." ++ column)), w) := rfl
  unfold columnOf
  rw [run_bind_ok hAsked]
  split <;> rfl

/-- A column of a table in scope is read from the table as it was put there, under its full name. -/
theorem run_scopedColumn (w : Workspace) (table column : String) (parts : List String) :
    run (scopedColumn table column parts) w =
      match w.catalog.scope.lookup table with
      | none => (.error (if table == "" then .missingKey else .query (.tableNotInScope table)), w)
      | some (.frame id) =>
        if (w.tableAt id).has column then
          run (columnsNamed id column)
            { w with
              frames := w.frames.set! id
                ((w.frames[id]?.getD default).rename column (Sql.writeParts parts)) }
        else (.error (.query (.columnNotFound (Sql.writeParts parts))), w)
      | some _ => (.error .missingMember, w) := by
  unfold scopedColumn
  rw [run_bind_ok (run_catalog w)]
  dsimp only
  rcases w.catalog.scope.lookup table with _ | _ | id | _
  · cases table == "" <;> rfl
  · rfl
  · rw [run_bind_ok (run_frame id w)]
    split
    · exact (if_pos ‹_›).symm
    · exact (if_neg ‹_›).symm
  · rfl

theorem run_scopedColumn_of_has (parts : List String)
    (hScope : w.catalog.scope.lookup table = some (.frame id))
    (hColumn : (w.tableAt id).has column = true) :
    run (scopedColumn table column parts) w =
      run (columnsNamed id column)
        { w with
          frames :=
            w.frames.set! id
              ((w.frames[id]?.getD default).rename column (Sql.writeParts parts)) } := by
  rw [run_scopedColumn, hScope]
  exact if_pos hColumn

/-- A qualified name that is no column of the source has a value only if its table is in scope and
has the column. -/
theorem scoped_of_run {v : Value} (h : run (scopedColumn table column parts) w = (.ok v, w')) :
    ∃ id, w.catalog.scope.lookup table = some (.frame id) ∧ (w.tableAt id).has column = true := by
  rw [run_scopedColumn] at h
  split at h
  · cases h
  · rename_i id hScope
    split at h
    · exact ⟨id, hScope, ‹_›⟩
    · cases h
  · cases h

theorem reads_qualified_iff :
    Reads w (.frame id) [table, column] d ↔
      (w.tableAt id).named (table ++ "." ++ column) = [d] ∨
      (w.tableAt id).named (table ++ "." ++ column) = [] ∧
      ∃ other, w.catalog.scope.lookup table = some (.frame other) ∧
        (w.tableAt other).named column = [d] := by
  constructor
  · rintro ⟨c, origin, w', hRun, rfl⟩
    rw [evalExpr, run_columnOf_qualified] at hRun
    split at hRun
    · exact Or.inl (named_of_run_columnsNamed hRun)
    · rename_i hOwn
      obtain ⟨other, hScope, hColumn⟩ := scoped_of_run hRun
      rw [run_scopedColumn_of_has _ hScope hColumn] at hRun
      have hNamed := named_of_run_columnsNamed hRun
      rw [tableAt_rename] at hNamed
      exact Or.inr ⟨Table.has_eq_false_iff.1 (by simpa using hOwn), other, hScope, hNamed⟩
  · rintro (hOwn | ⟨hOwn, other, hScope, hNamed⟩)
    · have hHas : (w.tableAt id).has (table ++ "." ++ column) = true :=
        Table.has_eq_true_iff.2 (by simp [hOwn])
      have hRun : run (evalExpr (.frame id) (.name [table, column] {})) w =
          run (columnsNamed id (table ++ "." ++ column)) w := by
        rw [evalExpr, run_columnOf_qualified, if_pos hHas]
      exact ⟨_, _, _, hRun.trans (run_columnsNamed_one hOwn), rfl⟩
    · have hHas : (w.tableAt other).has column = true := Table.has_eq_true_iff.2 (by simp [hNamed])
      have hRun : run (evalExpr (.frame id) (.name [table, column] {})) w =
          run (scopedColumn table column [table, column]) w := by
        rw [evalExpr, run_columnOf_qualified, if_neg (by simp [Table.has_eq_false_iff.2 hOwn])]
      rw [← tableAt_rename w other column (Sql.writeParts [table, column]) other] at hNamed
      exact ⟨_, _, _,
        hRun.trans ((run_scopedColumn_of_has _ hScope hHas).trans (run_columnsNamed_one hNamed)),
        rfl⟩

end Query

end TableQuery
