import TableQuery.Proofs.RowCounts

/-! Targets that share a name. Under one name there is only one column: that of the last target that
is no column, or else of the last one. -/
namespace TableQuery

open Sql

namespace Table

/-- The columns show the values of targets, each its own, up to the types that are inferred. -/
def ShowsEach (u : Table) (values : List (String × Value)) : Prop :=
  List.Forall₂ (fun p c => c.2 = p.2.shownIn u.height ∧
    List.Forall₂ Cell.ShownAs (p.2.inRows u.height) c.2.cells) values u.columns

variable {n : Nat} {values : List (String × Value)}

/-- Where there are rows, or only columns, or only scalars, the value that counts is shown in each
row. -/
theorem shownAmong_eq (hRows : n = 0 → ∀ p ∈ values, ∀ q ∈ values, p.2.isColumn = q.2.isColumn)
    {p : String × Value} (hp : p ∈ values) :
    shownAmong n (rowsAmong n values) p.2 = p.2.shownIn (rowsAmong n values) := by
  unfold shownAmong
  cases hColumn : p.2.isColumn with
  | false => rfl
  | true =>
    have hHeight : rowsAmong n values = n := by
      rw [rowsAmong, List.any_eq_true.2 ⟨p, hp, hColumn⟩, if_pos rfl]
      cases n with
      | zero => rw [if_pos (List.all_eq_true.2 fun q hq => (hRows rfl q hq p hp).trans hColumn)]
      | succ k => rw [Nat.max_eq_left (Nat.succ_pos k), ite_self]
    simp [hHeight]

/-- Each value is shown at its place exactly if values of one name show the same. -/
theorem showsEach_iff (hRows : n = 0 → ∀ p ∈ values, ∀ q ∈ values, p.2.isColumn = q.2.isColumn)
    {u : Table} (hHeight : u.height = rowsAmong n values) {name : String × Value → String}
    (hColumns : u.columns =
      values.map fun p => (name p, shownAmong n u.height ((decisive? values p.1).getD p.2))) :
    u.ShowsEach values ↔
      ∀ p ∈ values, ∀ q ∈ values, p.1 = q.1 → p.2.shownIn u.height = q.2.shownIn u.height := by
  rw [ShowsEach, hColumns, List.forall₂_map_right_iff, List.forall₂_same]
  constructor
  · intro h p hp q hq hName
    rw [← (h p hp).1, ← (h q hq).1]
    obtain ⟨counts, hCounts, -⟩ := exists_decisive? hp
    rw [← hName, hCounts]
    rfl
  · intro h p hp
    obtain ⟨counts, hCounts, hMem⟩ := exists_decisive? hp
    have hShown : shownAmong n u.height counts = counts.shownIn u.height :=
      hHeight ▸ shownAmong_eq hRows hMem
    rw [hCounts, Option.getD_some, hShown, ← h p hp _ hMem rfl]
    exact ⟨rfl, p.2.forall₂_shownIn u.height⟩

end Table

namespace Query

/-- An answer without groups has under each name the values of the last target of the name that is
no column, or else of the last one. So targets show their own values exactly if those of one name
show the same. -/
theorem shared_names_show_own_iff {targets : List Node} {source condition : Option Node}
    (hKeys : groupKeys targets none = .ok []) {w v v' : Workspace} {i : Nat}
    (hSource : Work.run (do evalWhere (← evalFrom source) condition) w = (.ok (.frame i), v))
    {values : List (String × Value)}
    (hValues : Work.run (do evalTargets (.frame i) (← starColumns (.frame i) targets) targets) v =
      (.ok values, v')) (hSome : values ≠ [])
    (hFits : ∀ p ∈ values, p.2.Fits (v.tableAt i).height) :
    ∃ u, (Work.run (evalSelect { targets, source, condition }) w).1 = .ok u ∧
      u.columns =
        values.map (fun p => (bareName p.1,
            Table.shownAmong (v.tableAt i).height u.height
              ((Table.decisive? values p.1).getD p.2))) ∧
      (((v.tableAt i).height = 0 → ∀ p ∈ values, ∀ q ∈ values, p.2.isColumn = q.2.isColumn) →
        (u.ShowsEach values ↔
          ∀ p ∈ values, ∀ q ∈ values, p.1 = q.1 →
              p.2.shownIn u.height = q.2.shownIn u.height)) := by
  let q : Select := { targets, source, condition }
  let height := Table.rowsAmong (v.tableAt i).height values
  have hRun := run_evalRows_ungrouped (q := q) rfl hKeys rfl rfl hSource hValues
  rw [Table.ofValues_eq hFits fun hNone => absurd hNone hSome] at hRun
  obtain ⟨u, hu, hHeight, hColumns⟩ : ∃ u, (Work.run (evalSelect q) w).1 = .ok u ∧
      u.height = height ∧
      u.columns =
        values.map fun p => (bareName p.1,
            Table.shownAmong (v.tableAt i).height height
              ((Table.decisive? values p.1).getD p.2)) := by
    rw [evalSelect_eq, Work.run_bind_ok hRun, run_arrangeRows rfl rfl]
    exact ⟨_, rfl, Column.length_freshLabels height, List.map_map⟩
  rw [← hHeight] at hColumns
  exact ⟨u, hu, hColumns, fun hRows => Table.showsEach_iff hRows hHeight hColumns⟩

/-- `SELECT v AS x, other AS x FROM t`. -/
def bothNamed (other : Node) : List Node :=
  [Node.aliased (.name ["v"] {}) { parts := ["x"] }, other.aliased { parts := ["x"] }]

/-- `v + 1`. -/
def nextOne : Node := .operation .binary "+" [.name ["v"] {}, .constant (.int 1) {}] {}

/-- Two columns under one name over three rows: not both are shown. -/
theorem shared_names_show_own_iff_next :
    ∃ values u,
      Work.run (evalTargets (.frame 0) none (bothNamed nextOne)) threeRead =
        (.ok values, threeRead) ∧
      (Work.run (evalSelect { targets := bothNamed nextOne, source := some (.name ["t"] {}) })
        (.ofTables [("t", threeRows)])).1 = .ok u ∧
      ¬ u.ShowsEach values := by
  let values : List (String × Value) :=
    [("x", .column ⟨Column.freshLabels 3, some "v", .ints .int64 [10, 20, 30]⟩ (some ⟨0, "v"⟩)),
      ("x", .column ⟨Column.freshLabels 3, some "v", .ints .int64 [11, 21, 31]⟩ none)]
  have hSource : Work.run (do evalWhere (← evalFrom (some (.name ["t"] {}))) none)
      (.ofTables [("t", threeRows)]) = (.ok (.frame 0), threeRead) := Prod.ext rfl rfl
  have hValues : Work.run (evalTargets (.frame 0) none (bothNamed nextOne)) threeRead =
      (.ok values, threeRead) := Prod.ext rfl rfl
  have hColumns : ∀ p ∈ values, p.2.isColumn = true :=
    List.forall_mem_cons.2 ⟨rfl, List.forall_mem_singleton.2 rfl⟩
  have hKeys : groupKeys (bothNamed nextOne) none = .ok [] := rfl
  obtain ⟨u, hu, -, hOwn⟩ := shared_names_show_own_iff hKeys hSource hValues
    (List.cons_ne_nil _ _) (List.forall_mem_cons.2 ⟨rfl, List.forall_mem_singleton.2 rfl⟩)
  refine ⟨values, u, hValues, hu, fun hEach => ?_⟩
  have hSame := (hOwn fun _ p hp q hq => (hColumns p hp).trans (hColumns q hq).symm).1 hEach _
    List.mem_cons_self _ (List.mem_cons_of_mem _ List.mem_cons_self) rfl
  have hInts : Data.ints .int64 [10, 20, 30] = .ints .int64 [11, 21, 31] := hSame
  cases hInts

/-- `SELECT v AS x, v + 1 AS x` shows `v + 1` twice, and `SELECT v AS x, 1 AS x` shows `1` twice. -/
theorem last_of_a_name_is_shown_twice :
    (Work.run (evalSelect { targets := bothNamed nextOne, source := some (.name ["t"] {}) })
      (.ofTables [("t", threeRows)])).1 =
      .ok ⟨Column.freshLabels 3,
        [("x", .ints .int64 [11, 21, 31]), ("x", .ints .int64 [11, 21, 31])]⟩ ∧
    (Work.run
      (evalSelect { targets := bothNamed (.constant (.int 1) {}), source := some (.name ["t"] {}) })
      (.ofTables [("t", threeRows)])).1 =
      .ok ⟨Column.freshLabels 3, [("x", .ints .int64 [1, 1, 1]), ("x", .ints .int64 [1, 1, 1])]⟩ :=
  ⟨rfl, rfl⟩

end Query

end TableQuery
