import TableQuery.Proofs.KeyedTables
import TableQuery.Proofs.Projection

/-! The number of rows of an answer without groups. Columns set it, and scalars fill the rows that
there are; but where there are none, a scalar makes a row of its own. -/
namespace TableQuery

open List Work

open Sql

namespace Table

variable {n : Nat} {t : Table} {values : List (String × Value)}

/-- Values that fit some rows are a table of these rows, or of at least one if there is a scalar,
and of one if there are only scalars. -/
theorem height_ofValues (hFits : ∀ p ∈ values, p.2.Fits n) (hSome : values ≠ []) :
    ∃ t, ofValues values = .ok t ∧ t.height =
      if values.all (·.2.isColumn) then n else if values.any (·.2.isColumn) then max n 1 else 1 :=
  ⟨_, ofValues_eq hFits fun hNone => absurd hNone hSome, Column.length_freshLabels _⟩

end Table

namespace Query

theorem height_of_ordered {orderBy : Option (List Node)} {t s : Table}
    (h : ordered orderBy t = .ok s) : s.height = t.height := by
  unfold ordered at h
  split at h
  · split at h
    · cases h
      rfl
    · obtain ⟨fields, -, h⟩ := bind_eq_ok h
      obtain ⟨keys, -, rfl⟩ := sortBy_eq_ok h
      rw [Table.height_pickRows fun p hp => mem_range.1 (mem_mergeSort.1 hp), length_mergeSort,
        length_range]
  · cases h
    rfl

section Counts

variable {q : Select} (hGroupBy : q.groupBy = none) (hKeys : groupKeys q.targets none = .ok [])
  (hHaving : q.having = none) (hDistinct : q.distinct = false) {w v v' : Workspace} {i : Nat}
  {values : List (String × Value)}
  (hRows : Work.run (do evalWhere (← evalFrom q.source) q.condition) w = (.ok (.frame i), v))
  (hValues : Work.run (do evalTargets (.frame i) (← starColumns (.frame i) q.targets) q.targets) v =
    (.ok values, v'))
include hGroupBy hKeys hHaving hDistinct hRows hValues

/-- Without groups the rows of a select are the table of its targets. -/
theorem run_evalRows_ungrouped : run (evalRows q) w = (Table.ofValues values, v') := by
  obtain ⟨rows, w₁, hFrom, hWhere⟩ := run_bind_eq_ok hRows
  obtain ⟨columns, w₂, hColumns, hTargets⟩ := run_bind_eq_ok hValues
  unfold evalRows
  rw [run_bind_ok hFrom, run_bind_ok hWhere, hGroupBy, hKeys, run_bind_ok (run_lift_ok _ _),
    hHaving, hDistinct]
  simp only [evalGroups, pure_bind, isEmpty_nil, if_true, evalHaving]
  rw [run_bind_ok hColumns, run_bind_ok hTargets, run_bind]
  cases Table.ofValues values <;> rfl

/-- An answer without groups has as many rows as pass WHERE exactly if there is one such row, or
there are columns and, where no row passes, nothing else: a scalar makes a row. -/
theorem ungrouped_row_count_iff (hLimit : q.limit = none) (hOffset : q.offset = none)
    (hSome : values ≠ []) (hFits : ∀ p ∈ values, p.2.Fits (v.tableAt i).height) :
    (q.orderBy = none → ∃ u, (Work.run (evalSelect q) w).1 = .ok u) ∧
    ∀ u, (Work.run (evalSelect q) w).1 = .ok u →
      (u.height =
        if values.all (·.2.isColumn) then (v.tableAt i).height
          else if values.any (·.2.isColumn) then max (v.tableAt i).height 1 else 1) ∧
      (u.height = (v.tableAt i).height ↔
        (v.tableAt i).height = 1 ∨
        (∃ p ∈ values, p.2.isColumn = true) ∧
        ((v.tableAt i).height = 0 → ∀ p ∈ values, p.2.isColumn = true)) := by
  obtain ⟨t, ht, hHeight⟩ := Table.height_ofValues hFits hSome
  have hRun := run_evalRows_ungrouped hGroupBy hKeys hHaving hDistinct hRows hValues
  rw [ht] at hRun
  have hAnswer : run (evalSelect q) w = run (arrangeRows q t) v' := by
    rw [evalSelect_eq, run_bind_ok hRun]
  rw [hAnswer, run_arrangeRows hLimit hOffset]
  refine ⟨fun hOrder => ?_, fun u hu => ?_⟩
  · rw [hOrder]
    exact ⟨_, rfl⟩
  · cases hOrdered : ordered q.orderBy t with
    | error f =>
      rw [hOrdered] at hu
      cases hu
    | ok s =>
      rw [hOrdered] at hu
      cases hu
      have hCount := (height_of_ordered hOrdered).trans hHeight
      refine ⟨hCount, ?_⟩
      change s.height = _ ↔ _
      rw [hCount, ← any_eq_true, ← all_eq_true]
      have hAny (h : values.all (·.2.isColumn) = true) : values.any (·.2.isColumn) = true := by
        obtain ⟨p, hp⟩ := exists_mem_of_ne_nil values hSome
        exact any_eq_true.2 ⟨p, hp, all_eq_true.1 h p hp⟩
      cases hAll : values.all (·.2.isColumn) with
      | true => simp [hAny hAll]
      | false => cases values.any (·.2.isColumn) <;> simp <;> omega

end Counts

/-- `SELECT target, 1 FROM t WHERE v > bound`. -/
def withOne (target : Node) (bound : Int) : Select where
  targets := [target, .constant (.int 1) {}]
  source := some (.name ["t"] {})
  condition := some (.operation .binary ">" [.name ["v"] {}, .constant (.int bound) {}] {})

/-- A column and a constant over the two rows that pass. -/
theorem ungrouped_row_count_two :
    ∃ u,
      (Work.run (evalSelect (withOne (.name ["v"] {}) 10)) (.ofTables [("t", threeRows)])).1 =
        .ok u ∧
      u.height = 2 := by
  let q := withOne (.name ["v"] {}) 10
  let w : Workspace := .ofTables [("t", threeRows)]
  let v : Workspace := (run (do evalWhere (← evalFrom q.source) q.condition) w).2
  have hRows : run (do evalWhere (← evalFrom q.source) q.condition) w = (.ok (.frame 1), v) :=
    Prod.ext rfl rfl
  have hValues :
      run (do evalTargets (.frame 1) (← starColumns (.frame 1) q.targets) q.targets) v =
      (.ok [("v", .column ⟨[.int 1, .int 2], some "v", .ints .int64 [20, 30]⟩ (some ⟨1, "v"⟩)),
          ("1", .scalar (.int 1))],
        v) := Prod.ext rfl rfl
  obtain ⟨hAnswer, hCount⟩ := ungrouped_row_count_iff rfl rfl rfl rfl hRows hValues rfl rfl
    (cons_ne_nil _ _) (forall_mem_cons.2 ⟨rfl, forall_mem_singleton.2 trivial⟩)
  obtain ⟨u, hu⟩ := hAnswer rfl
  exact ⟨u, hu, (hCount u hu).1⟩

/-- Where no row passes, a constant makes one; and constants alone make one row of the two that
pass. -/
theorem scalar_makes_its_own_row :
    (∃ u,
      (Work.run (evalSelect (withOne (.name ["v"] {}) 100)) (.ofTables [("t", threeRows)])).1 =
        .ok u ∧
      u.height = 1) ∧
    ∃ u,
      (Work.run (evalSelect (withOne (.constant (.int 2) {}) 10))
        (.ofTables [("t", threeRows)])).1 = .ok u ∧
      u.height = 1 :=
  ⟨⟨_, rfl, rfl⟩, ⟨_, rfl, rfl⟩⟩

end Query

end TableQuery
