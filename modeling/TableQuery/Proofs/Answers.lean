import Mathlib.Tactic.SplitIfs
import TableQuery.Proofs.Rows
import TableQuery.Proofs.Work
import TableQuery.Query.Eval

/-! Answers of selects are rectangular: the values of targets are checked for one length, and the
keys and aggregates of a grouping have one entry for each group. -/
namespace TableQuery

open List Work Data Table Prod

variable {g : Grouping} {t : Table} {targets : List Sql.Node} {source : GroupSource}

namespace Data

@[simp] theorem length_infer (cells : List Cell) : (infer cells).length = cells.length := by
  unfold infer
  split <;> simp [length]

@[simp] theorem length_inferEntries (cells : List Cell) :
    (inferEntries cells).length = cells.length := by
  cases cells with
  | nil => rfl
  | cons c rest => exact length_infer (c :: rest)

@[simp] theorem length_anew (d : Data) : d.anew.length = d.length := by
  unfold anew
  split
  · split
    · rw [length_inferEntries, length_cells]
    · simp [length]
  · rw [length_inferEntries, length_cells]

@[simp] theorem length_freeCells (d : Data) : d.freeCells.length = d.length := by
  cases d <;> simp [freeCells, cells, length]

@[simp] theorem length_reindex (d : Data) (ps : List (Option Nat)) :
    (d.reindex ps).length = ps.length := by
  have hWhole {α : Type} (xs : List α) (h : ps.all (fun p => p.any (· < xs.length)) = true) :
      (ps.filterMap fun p => p.bind (xs[·]?)).length = ps.length := by
    rw [filterMap_length_eq_length]
    intro p hp
    cases p with
    | none => simpa using all_eq_true.mp h none hp
    | some i =>
      have hi : i < xs.length := by simpa using all_eq_true.mp h (some i) hp
      simp [hi]
  unfold reindex
  cases d with
  | ints k xs =>
    dsimp only
    split
    · exact hWhole xs ‹_›
    · simp [length]
  | bools xs =>
    dsimp only
    split
    · exact hWhole xs ‹_›
    · simp [length]
  | _ => simp [length]

@[simp] theorem length_relabel (d : Data) (labels target : List Cell) :
    (d.relabel labels target).length = target.length := by
  simp [relabel]

section Aggregates

variable {d e : Data} {groups : List (List Nat)}
variable {α : Type}

@[simp] theorem length_split (xs : List α) : (split xs groups).length = groups.length := by
  simp [split]

@[simp] theorem length_splitPresent (xs : List (Option α)) :
    (splitPresent xs groups).length = groups.length := by
  simp [splitPresent]

@[simp] theorem length_splitNumbers (xs : List Float) :
    (splitNumbers xs groups).length = groups.length := by
  simp [splitNumbers]

theorem length_objects_of_mapM {f : List Cell → Except Fault Cell} {gs : List (List Cell)}
    (h : (do return .objects (← gs.mapM f)) = Except.ok e) : e.length = gs.length := by
  cases hCells : gs.mapM f with
  | error fault =>
    rw [hCells] at h
    cases h
  | ok cells =>
    rw [hCells] at h
    cases h
    exact length_of_mapM_eq_ok hCells

theorem length_sums (h : d.sums groups = .ok e) : e.length = groups.length := by
  cases d with
  | objects xs => simpa using length_objects_of_mapM h
  | _ =>
    cases h
    simp [length]

theorem length_means (h : d.means groups = .ok e) : e.length = groups.length := by
  cases d with
  | objects xs => simpa using length_objects_of_mapM h
  | texts xs => cases h
  | _ =>
    cases h
    simp [length]

theorem length_extremes {greatest : Bool} (h : extremes greatest d groups = .ok e) :
    e.length = groups.length := by
  cases d with
  | objects xs => simpa using length_objects_of_mapM h
  | _ =>
    cases h
    simp [length]

/-- An aggregate has one entry for each group. -/
theorem length_aggregate {f : Aggregate} (h : aggregate f d groups = .ok e) :
    e.length = groups.length := by
  cases f with
  | sum => exact length_sums h
  | mean => exact length_means h
  | count =>
    cases h
    cases d <;> simp [counts, length]
  | countDistinct =>
    cases h
    simp [distinctCounts, length]
  | max => exact length_extremes h
  | min => exact length_extremes h

end Aggregates

section Casts

variable {d : Data}

theorem length_toTexts : d.toTexts.length = d.length := by
  simp [toTexts]

theorem length_toMarkedInts {k : IntKind} {xs : List (Option Int)} (h : d.toMarkedInts k = .ok xs) :
    xs.length = d.length := by
  cases d with
  | ints => exact length_of_mapM_eq_ok h
  | floats ys =>
    have hLength : xs.length = (markNaN ys).length := length_of_mapM_eq_ok h
    simpa [markNaN, length] using hLength
  | objects =>
    unfold toMarkedInts at h
    dsimp only at h
    split at h
    · cases h
    · exact length_of_mapM_eq_ok h
  | texts => exact length_of_mapM_eq_ok h
  | _ =>
    cases h
    simp [length]

theorem length_toMarkedFloats {xs : List (Option Float)} (h : d.toMarkedFloats = .ok xs) :
    xs.length = d.length := by
  cases d with
  | texts => exact length_of_mapM_eq_ok h
  | objects =>
    unfold toMarkedFloats at h
    dsimp only at h
    split at h
    · cases h
    · exact length_of_mapM_eq_ok h
  | _ =>
    cases h
    simp [markNaN, length]

theorem length_toMarkedBools {xs : List (Option Bool)} (h : d.toMarkedBools = .ok xs) :
    xs.length = d.length := by
  cases d with
  | ints => exact length_of_mapM_eq_ok h
  | floats => exact length_of_mapM_eq_ok h
  | objects =>
    unfold toMarkedBools at h
    dsimp only at h
    split at h
    · cases h
    · exact length_of_mapM_eq_ok h
  | texts =>
    unfold toMarkedBools at h
    dsimp only at h
    split at h
    · cases h
      simp [length]
    · cases h
  | _ =>
    cases h
    simp [length]

end Casts

end Data

namespace Grouping

variable {name : String} {P : Nat → Prop}

theorem length_castBack (source : Data) (results : List Cell) :
    (castBack source results).length = results.length := by
  unfold castBack
  dsimp only
  split
  · split
    · rename_i xs hxs
      split
      · exact (length_toMarkedInts hxs).trans (length_infer results)
      · exact length_infer results
    · exact length_infer results
  · split
    · rename_i xs hxs
      split
      · exact (length_toMarkedFloats hxs).trans (length_infer results)
      · exact length_infer results
    · exact length_infer results
  · split
    · rename_i xs hxs
      exact (length_toMarkedBools hxs).trans (length_infer results)
    · exact length_infer results
  · split
    · exact length_toTexts.trans (length_infer results)
    · exact length_infer results
  · exact length_infer results

theorem length_runCustom {d e : Data} {f : Column → Except Fault Value}
    (h : g.runCustom name d f = .ok e) : e.length = g.groups.length := by
  unfold runCustom at h
  split at h
  · rename_i hEmpty
    cases h
    rw [length_pick (by simp), isEmpty_iff.mp hEmpty]
    rfl
  · cases hResults : g.groups.mapM fun rows => do
        resultCell (← f ⟨rows.filterMap (g.table.labels[·]?), some name, d.pick rows⟩) with
    | error fault =>
      rw [hResults] at h
      cases h
    | ok results =>
      rw [hResults] at h
      cases h
      rw [length_castBack, length_of_mapM_eq_ok hResults]

theorem length_aggregateColumn {f : Aggregator} {e : Data}
    (h : g.aggregateColumn name f = .ok e) : e.length = g.groups.length := by
  unfold aggregateColumn at h
  cases f with
  | known f =>
    dsimp only at h
    split at h
    · cases h
    · exact length_aggregate h
    · cases h
  | custom f =>
    dsimp only at h
    split at h
    · cases h
    · exact length_runCustom h
    · cases h

/-- Groups under way have at least one row each, and all their rows have a property. -/
def BucketsOf (P : Nat → Prop) (buckets : List Bucket) : Prop :=
  ∀ b ∈ buckets, b.2 ≠ [] ∧ ∀ i ∈ b.2, P i

theorem BucketsOf.insertRow {buckets : List Bucket} (h : BucketsOf P buckets)
    (keys : List Cell) {i : Nat} (hi : P i) : BucketsOf P (insertRow keys i buckets) := by
  induction buckets with
  | nil =>
    intro b hb
    cases mem_singleton.mp hb
    simpa using hi
  | cons bucket rest ih =>
    have hRest : BucketsOf P rest := fun b hb => h b (mem_cons_of_mem _ hb)
    have hFirst := h bucket mem_cons_self
    unfold Grouping.insertRow
    split
    · intro b hb
      rcases mem_cons.mp hb with rfl | hb
      · exact ⟨by simp, by simpa using ⟨hi, hFirst.2⟩⟩
      · exact hRest b hb
    · intro b hb
      rcases mem_cons.mp hb with rfl | hb
      · exact hFirst
      · exact ih hRest b hb

/-- A group has at least one row, and all its rows are among those that are grouped. -/
theorem mem_ofKeyedRows {rows : List (List Cell × Nat)} (h : ∀ r ∈ rows, P r.2) :
    ∀ g ∈ ofKeyedRows rows, g ≠ [] ∧ ∀ i ∈ g, P i := by
  have hBuckets : BucketsOf P
      (rows.foldl (fun buckets r => Grouping.insertRow r.1 r.2 buckets) []) :=
    foldlRecOn rows _ (by simp [BucketsOf]) fun buckets hBuckets r hr =>
      hBuckets.insertRow r.1 (h r hr)
  intro g hg
  obtain ⟨b, hb, rfl⟩ := mem_map.mp hg
  have hBucket := hBuckets b ((mergeSort_perm _ _).mem_iff.mp hb)
  simpa using hBucket

theorem isSome_of_mapM_eq_some {α β : Type} {f : α → Option β} {xs : List α} {ys : List β}
    (h : xs.mapM f = some ys) : ∀ x ∈ xs, (f x).isSome := by
  induction xs generalizing ys with
  | nil => simp
  | cons x xs ih =>
    rw [mapM_cons] at h
    cases hx : f x with
    | none =>
      rw [hx] at h
      cases h
    | some y =>
      cases hxs : xs.mapM f with
      | none =>
        rw [hx, hxs] at h
        cases h
      | some zs =>
        simp only [mem_cons, forall_eq_or_imp, hx, Option.isSome_some, true_and]
        exact ih hxs

/-- A row that is grouped has an entry in every key. -/
theorem lt_length_of_mem_keyedRows {height : Nat} {columns : List Data} {r : List Cell × Nat}
    (h : r ∈ keyedRows height columns) : ∀ d ∈ columns, r.2 < d.length := by
  obtain ⟨i, _, hr⟩ := mem_filterMap.mp h
  split at hr
  · rename_i entries hEntries
    split at hr
    · cases hr
    · cases hr
      intro d hd
      have hSome : (d.cells.zip d.missing)[i]?.isSome :=
        isSome_of_mapM_eq_some hEntries _ (mem_map.mpr ⟨d, hd, rfl⟩)
      simpa [isSome_getElem?] using hSome
  · cases hr

end Grouping

namespace Data

theorem length_keyEntries {d : Data} {groups : List (List Nat)}
    (h : ∀ g ∈ groups, g ≠ [] ∧ ∀ i ∈ g, i < d.length) :
    (d.keyEntries groups).length = groups.length := by
  have hHeads : (groups.filterMap head?).length = groups.length := by
    rw [filterMap_length_eq_length]
    intro g hg
    simpa using (h g hg).1
  have hPick : (d.pick (groups.filterMap head?)).length = groups.length := by
    rw [length_pick, hHeads]
    intro i hi
    obtain ⟨g, hg, hi⟩ := mem_filterMap.mp hi
    exact (h g hg).2 i (mem_of_mem_head? hi)
  unfold keyEntries
  split
  · rename_i xs hxs
    rw [length_infer, ← hPick, hxs]
    rfl
  · exact hPick

end Data

def Grouping.Whole (g : Grouping) : Prop := ∀ key ∈ g.keys, key.2.length = g.groups.length

namespace Table

theorem whole_groupByColumns (t : Table) (columns : List (String × Data)) :
    (t.groupByColumns columns).Whole := by
  intro key hKey
  obtain ⟨⟨name, d⟩, hd, rfl⟩ := mem_map.mp hKey
  apply length_keyEntries
  apply Grouping.mem_ofKeyedRows
  intro r hr
  exact Grouping.lt_length_of_mem_keyedRows hr d (mem_map.mpr ⟨(name, d), hd, rfl⟩)

theorem whole_groupBy {keys : List String} (h : t.groupBy keys = .ok g) : g.Whole := by
  unfold groupBy at h
  split at h
  · cases h
    exact whole_groupByColumns _ _
  · cases hColumns : keys.mapM fun k => (do return (k, ← t.column k) : Except Fault _) with
    | error fault =>
      rw [hColumns] at h
      cases h
    | ok columns =>
      rw [hColumns] at h
      cases h
      exact whole_groupByColumns _ _

end Table

theorem Grouping.Whole.aggregates (hg : g.Whole) {asked : List (String × String × Aggregator)}
    (h : g.aggregates asked = .ok t) : t.Rectangular := by
  unfold Grouping.aggregates at h
  dsimp only at h
  split at h
  · cases h
  split at h
  · cases h
  obtain ⟨results, hResults, h⟩ := bind_eq_ok h
  split at h
  · cases h
  cases h
  intro c hc
  rcases mem_append.mp hc with hc | hc
  · simpa [height] using hg c hc
  · obtain ⟨⟨name, column, f⟩, _, hColumn⟩ := exists_mem_left (mapM_eq_ok_iff.1 hResults) hc
    obtain ⟨d, hd, hColumn⟩ := bind_eq_ok hColumn
    cases hColumn
    simpa [height] using length_aggregateColumn hd

theorem mem_setNamed {α : Type} {pairs : List (String × α)} {name : String} {a : α}
    {c : String × α} (h : c ∈ setNamed pairs name a) : c.2 = a ∨ c ∈ pairs := by
  induction pairs with
  | nil =>
    cases mem_singleton.mp h
    exact .inl rfl
  | cons p rest ih =>
    unfold setNamed at h
    split at h
    · rcases mem_cons.mp h with rfl | h
      · exact .inl rfl
      · exact .inr (mem_cons_of_mem _ h)
    · rcases mem_cons.mp h with rfl | h
      · exact .inr mem_cons_self
      · exact (ih h).imp_right (mem_cons_of_mem _)

/-- The columns of a grouped answer are columns of the groups. -/
theorem forall_answerColumns {columns : List (String × Data)}
    {P : Data → Prop} (h : ∀ c ∈ columns, P c.2) : ∀ c ∈ answerColumns targets columns, P c.2 := by
  refine foldlRecOn (motive := fun answer : List (String × Data) => ∀ c ∈ answer, P c.2) columns _
    (by simp) ?_
  intro answer hAnswer column hColumn
  dsimp only
  split
  · exact hAnswer
  · intro c hc
    rcases mem_setNamed hc with hc | hc
    · rw [hc]
      exact h column hColumn
    · exact hAnswer c hc

namespace Table

variable {u : Table}
variable {values : List (String × Value)}

theorem Rectangular.setColumn (ht : t.Rectangular) (name : String) {d : Data}
    (hd : d.length = t.height) : (t.setColumn name d).Rectangular := by
  unfold Table.setColumn
  split
  · intro c hc
    obtain ⟨e, he, rfl⟩ := mem_map.mp hc
    split
    · exact hd
    · exact ht e he
  · intro c hc
    rcases mem_append.mp hc with hc | hc
    · exact ht c hc
    · cases mem_singleton.mp hc
      exact hd

theorem Rectangular.selectNames? (ht : t.Rectangular) {names : List String}
    (h : t.selectNames? names = some u) : u.Rectangular := by
  unfold Table.selectNames? at h
  split at h
  · cases h
    intro c hc
    obtain ⟨n, _, hc⟩ := mem_flatMap.mp hc
    obtain ⟨d, hd, rfl⟩ := mem_map.mp hc
    obtain ⟨e, he, rfl⟩ := mem_map.mp hd
    exact ht e (mem_of_mem_filter he)
  · cases h

theorem rectangular_startWith (t : Table) (name : String) (v : Value) :
    (t.startWith name v).Rectangular := by
  apply Rectangular.setColumn
  · intro c hc
    obtain ⟨d, _, rfl⟩ := mem_map.mp hc
    simp [height]
  · simp [height]

theorem Rectangular.addScalar (ht : t.Rectangular) {name : String} {v : Value}
    (h : t.addScalar name v = .ok u) : u.Rectangular := by
  unfold Table.addScalar at h
  split at h
  · cases h
    exact rectangular_startWith _ _ _
  · unfold fillWith at h
    split at h
    · split at h
      · cases h
        exact ht.setColumn _ (by simp [height])
      · cases h
    · split at h
      · rename_i hLength
        cases h
        exact ht.setColumn _ (by simpa using hLength)
      · cases h
    · cases h
      exact ht.setColumn _ (by simp)

theorem Rectangular.addScalars (ht : t.Rectangular) (h : t.addScalars values = .ok u) :
    u.Rectangular := by
  induction values generalizing t with
  | nil =>
    cases h
    exact ht
  | cons value rest ih =>
    unfold addScalars at h
    obtain ⟨next, hNext, h⟩ := bind_eq_ok h
    refine ih ?_ h
    dsimp only at hNext
    split at hNext
    · cases hNext
      exact ht
    · exact ht.addScalar hNext

/-- The table of some values is rectangular. -/
theorem rectangular_ofValues (h : ofValues values = .ok t) : t.Rectangular := by
  unfold ofValues at h
  dsimp only at h
  split_ifs at h with hLengths
  · cases h
  · obtain ⟨filled, hFilled, h⟩ := bind_eq_ok h
    have hColumns : Rectangular ⟨Column.freshLabels (heightOf (columnsOf values)),
        columnsOf values⟩ := by
      intro c hc
      simp only [Bool.not_eq_true', Bool.not_eq_false, all_eq_true, beq_iff_eq] at hLengths
      simpa [height] using hLengths c hc
    split at h
    · cases h
      exact (hColumns.addScalars hFilled).selectNames? ‹_›
    · cases h

theorem Rectangular.distinct (ht : t.Rectangular) (h : t.distinct = .ok u) : u.Rectangular := by
  unfold Table.distinct at h
  split at h
  · cases h
    exact ht
  · split at h
    · cases h
      exact ht.pickRows _
    · cases h

theorem Rectangular.chooseColumns (ht : t.Rectangular) {names : List Cell}
    (h : t.chooseColumns names = .ok u) : u.Rectangular := by
  obtain ⟨texts, _, h⟩ := bind_eq_ok h
  split at h
  · cases h
    exact ht.selectNames? ‹_›
  · cases h

theorem Rectangular.chooseByLabel (ht : t.Rectangular) {c : Column}
    (h : t.chooseByLabel c = .ok u) : u.Rectangular := by
  obtain ⟨choice, _, h⟩ := bind_eq_ok h
  split at h
  · split at h
    · cases h
      exact ht.pickRows _
    · split at h
      · cases h
        exact ht.pickRows _
      · cases h
  · exact ht.chooseColumns h

end Table

/-- The keys of a grouping, where there is one, have one entry for each group. -/
def GroupSource.Whole : GroupSource → Prop
  | .grouping g => g.Whole
  | _ => True

theorem GroupSource.Whole.grouped (hSource : source.Whole) (h : source.grouped = .ok g) :
    g.Whole := by
  cases source with
  | grouping _ =>
    cases h
    exact hSource
  | table _ => exact whole_groupBy h
  | other => cases h

/-- The answer of a grouped select is rectangular. -/
theorem GroupSource.Whole.groupTargets (hSource : source.Whole)
    {extensions : List (String × Extension)} {keys : List Sql.Node}
    (h : groupTargets extensions targets source keys = .ok t) : t.Rectangular := by
  obtain ⟨_, _, h⟩ := bind_eq_ok h
  obtain ⟨asked, _, h⟩ := bind_eq_ok h
  obtain ⟨g, hGrouped, h⟩ := bind_eq_ok h
  obtain ⟨all, hAll, h⟩ := bind_eq_ok h
  have hRectangular := (hSource.grouped hGrouped).aggregates hAll
  cases h
  intro c hc
  rw [if_neg (by simpa using ne_nil_of_mem hc)]
  exact forall_answerColumns (P := fun d => d.length = all.height) hRectangular c hc

namespace Query

open Sql

variable {w w' : Workspace} {groups : Option GroupSource} {rows : Relation}
variable {targets keys : List Node}

theorem whole_of_evalGroups {groupBy : Option (List Node)}
    (h : run (evalGroups rows groupBy) w = (.ok groups, w')) : ∀ g ∈ groups, g.Whole := by
  cases groupBy with
  | none =>
    cases h
    simp
  | some keys =>
    rw [evalGroups] at h
    split_ifs at h
    · cases h
      simp
    · obtain ⟨names, w₁, _, h⟩ := run_bind_eq_ok h
      obtain ⟨source, w₂, hSource, h⟩ := run_bind_eq_ok h
      cases h
      intro g hg
      cases hg
      unfold groupSource at hSource
      split at hSource
      · obtain ⟨f, w₃, _, hSource⟩ := run_bind_eq_ok hSource
        obtain ⟨grouping, w₄, hGrouping, hSource⟩ := run_bind_eq_ok hSource
        rw [run_lift] at hGrouping
        cases hSource
        exact whole_groupBy (congrArg fst hGrouping)
      · cases hSource

theorem groupTargets_of_groupedTable
    (h : run (groupedTable rows targets keys groups) w = (.ok t, w')) :
    ∃ extensions source, ((∀ g ∈ groups, g.Whole) → source.Whole) ∧
      groupTargets extensions targets source keys = .ok t := by
  have hTargets {source : GroupSource} {v : Workspace}
      (h : run (do
        let extensions := (← catalog).extensions
        lift (groupTargets extensions targets source keys)) v = (.ok t, w')) :
      ∃ extensions, groupTargets extensions targets source keys = .ok t := by
    obtain ⟨c, v₁, _, h⟩ := run_bind_eq_ok h
    rw [run_lift] at h
    exact ⟨_, congrArg fst h⟩
  cases groups with
  | some g =>
    obtain ⟨extensions, hMade⟩ := hTargets h
    exact ⟨extensions, g, fun hGroups => hGroups g rfl, hMade⟩
  | none =>
    obtain ⟨source, w₁, hSource, h⟩ := run_bind_eq_ok h
    obtain ⟨extensions, hMade⟩ := hTargets h
    refine ⟨extensions, source, fun _ => ?_, hMade⟩
    unfold Relation.toGroupSource at hSource
    split at hSource
    all_goals
      cases hSource
      trivial

theorem rectangular_of_groupedTable (hGroups : ∀ g ∈ groups, g.Whole)
    (h : run (groupedTable rows targets keys groups) w = (.ok t, w')) : t.Rectangular := by
  obtain ⟨extensions, source, hSource, hTargets⟩ := groupTargets_of_groupedTable h
  exact (hSource hGroups).groupTargets hTargets

theorem rectangular_of_evalHaving {isGrouped : Bool} {u : Table} (ht : t.Rectangular)
    {having : Option Node} (h : run (evalHaving isGrouped t having) w = (.ok u, w')) :
    u.Rectangular := by
  cases having with
  | none =>
    cases h
    exact ht
  | some condition =>
    rw [evalHaving] at h
    split_ifs at h
    · cases h
    · obtain ⟨_, w₁, _, h⟩ := run_bind_eq_ok h
      obtain ⟨index, w₂, _, h⟩ := run_bind_eq_ok h
      rw [run_lift] at h
      have hFilter : filterGroups t index = .ok u := congrArg fst h
      unfold filterGroups at hFilter
      split at hFilter
      · split_ifs at hFilter
      · cases hFilter
      · cases hFilter
      · exact ht.chooseByLabel hFilter

def evalRows (q : Select) : Work Table := do
  let rows ← evalFrom q.source
  let rows ← evalWhere rows q.condition
  let keys ← lift (groupKeys q.targets q.groupBy)
  let groups ← evalGroups rows q.groupBy
  let table ←
    if keys.isEmpty then do
      let columns ← starColumns rows q.targets
      let values ← evalTargets rows columns q.targets
      lift (Table.ofValues values)
    else groupedTable rows q.targets keys groups
  let table ← evalHaving (!keys.isEmpty) table q.having
  lift (if q.distinct then table.distinct else .ok table)

def arrangeRows (q : Select) (t : Table) : Work Table := do
  let first ← evalBound q.offset
  let t ← lift (ordered q.orderBy (t.afterBound first))
  let last ← evalBound q.limit
  setCatalog fun c => { c with scope := [] }
  return (t.beforeBound last).bareNames

/-- A select first makes the rows of its answer and then arranges them. -/
theorem evalSelect_eq (q : Select) : evalSelect q = evalRows q >>= arrangeRows q := by
  cases q
  simp only [evalSelect, evalRows, bind_assoc]
  refine bind_congr fun rows =>
    bind_congr fun rows => bind_congr fun keys => bind_congr fun groups => ?_
  split
  · simp only [bind_assoc]
    rfl
  · simp only [bind_assoc]
    rfl

/-- The rows of an answer are rectangular. -/
theorem rectangular_of_evalRows {q : Select} (h : run (evalRows q) w = (.ok t, w')) :
    t.Rectangular := by
  obtain ⟨source, w₁, _, h⟩ := run_bind_eq_ok h
  obtain ⟨rows, w₂, _, h⟩ := run_bind_eq_ok h
  obtain ⟨keys, w₃, _, h⟩ := run_bind_eq_ok h
  obtain ⟨groups, w₄, hGroups, h⟩ := run_bind_eq_ok h
  have hRest {made : Table} (hMade : made.Rectangular) {v : Workspace}
      (h : run (do
        let table ← evalHaving (!keys.isEmpty) made q.having
        lift (if q.distinct then table.distinct else .ok table)) v = (.ok t, w')) :
      t.Rectangular := by
    obtain ⟨kept, v₁, hKept, h⟩ := run_bind_eq_ok h
    have hKept := rectangular_of_evalHaving hMade hKept
    rw [run_lift] at h
    have h := congrArg fst h
    split_ifs at h
    · exact hKept.distinct h
    · cases h
      exact hKept
  by_cases hKeys : keys.isEmpty = true
  · simp only [hKeys, if_true] at h hRest
    obtain ⟨columns, w₅, _, h⟩ := run_bind_eq_ok h
    obtain ⟨values, w₆, _, h⟩ := run_bind_eq_ok h
    obtain ⟨made, w₇, hMade, h⟩ := run_bind_eq_ok h
    rw [run_lift] at hMade
    exact hRest (rectangular_ofValues (congrArg fst hMade)) h
  · simp only [hKeys] at h hRest
    obtain ⟨made, w₅, hMade, h⟩ := run_bind_eq_ok h
    exact hRest (rectangular_of_groupedTable (whole_of_evalGroups hGroups) hMade) h

end Query

end TableQuery
