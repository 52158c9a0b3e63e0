import TableQuery.Proofs.GroupAggregates
import TableQuery.Proofs.GroupedColumns
import TableQuery.Proofs.KeyedTables

/-! The rows of a grouped answer. There is one for each tuple of keys, in ascending order. An
expression among the keys that is called like a column stands for that column in what comes later.
-/
namespace TableQuery

open List Grouping

open Sql

/-- Names that are columns, or are not as many as there are rows, group a table by the columns of
these names. -/
theorem Table.exists_of_groupBy {t : Table} {names : List String} {g : Grouping}
    (hNames : names.length ≠ t.height ∨ names.all t.has = true) (h : t.groupBy names = .ok g) :
    ∃ cs, cs.map (·.1) = names ∧ (∀ c ∈ cs, t.named c.1 = [c.2]) ∧ g = t.groupByColumns cs := by
  unfold groupBy at h
  split at h
  · rename_i hIndex
    rw [Bool.and_eq_true, beq_iff_eq] at hIndex
    rcases hNames with hHeight | hHas
    · exact absurd hIndex.1 hHeight
    · rw [hHas] at hIndex
      cases hIndex.2
  · obtain ⟨cs, hColumns, h⟩ := bind_eq_ok h
    cases h
    have hEach := mapM_eq_ok_iff.1 hColumns
    have hColumn (name : String) (c : String × Data)
        (hc : (do return (name, ← t.column name)) = Except.ok c) :
        name = c.1 ∧ t.named c.1 = [c.2] := by
      obtain ⟨d, hd, hc⟩ := bind_eq_ok hc
      cases hc
      exact ⟨rfl, (column_eq_ok hd).1⟩
    refine ⟨cs, ?_, fun c hc => ?_, rfl⟩
    · have hMap := map_eq_map_of_forall₂ hEach fun name c hc => (hColumn name c hc).1
      rw [← hMap, map_id']
    · obtain ⟨name, -, hName⟩ := exists_mem_left hEach hc
      exact (hColumn name c hName).2

namespace Grouping

/-- What an aggregate of some entries holds: for each group what the function gives for the entries
at its rows. -/
def Groupwise (labels : List Cell) (groups : List (List Nat)) (name : String) (d : Data) :
    Aggregator → Data → Prop
  | .known f, e => ∀ k rows, groups[k]? = some rows → (d.pick rows).overall f = .ok (e.pick [k])
  | .custom f, e =>
    groups ≠ [] → ∃ results, e = castBack d results ∧ List.Forall₂
      (fun rows r => (do resultCell (← f ⟨rows.filterMap (labels[·]?), some name, d.pick rows⟩)) =
        .ok r) groups results

theorem groupwise_of_aggregateData {g : Grouping} {name : String} {d e : Data} {f : Aggregator}
    (h : g.aggregateData name d f = .ok e) : Groupwise g.table.labels g.groups name d f e := by
  cases f with
  | known f => exact fun k rows hk => Data.aggregate_groupwise hk h
  | custom f =>
    intro hSome
    have hRun : g.runCustom name d f = .ok e := h
    rw [runCustom, if_neg (by simpa using hSome)] at hRun
    obtain ⟨results, hResults, hRun⟩ := bind_eq_ok hRun
    cases hRun
    exact ⟨results, rfl, mapM_eq_ok_iff.1 hResults⟩

end Grouping

/-- What a column holds for its target: a key at the groups, or an aggregate of a column that was
not changed. -/
inductive HoldsFor (t : Table) (extensions : List (String × Extension))
    (keys : List (String × Data)) (groups : List (List Nat)) (changed : List String)
    (target : Node) : Data → Prop where
  | key {d : Data} :
      (target.bareText, d) ∈ keys → HoldsFor t extensions keys groups changed target
        (d.keyEntries groups)
  | aggregate {name : String} {f : Aggregator} {e : Data} :
      target.AsksFor extensions name f →
        (name ∉ changed → ∃ d, t.named name = [d] ∧ Grouping.Groupwise t.labels groups name d f e ∧
          (f = .known .count → d.missing.any id = false →
            e.freeCells = groups.map fun rows => .int (rows.length : Nat))) →
          HoldsFor t extensions keys groups changed target e

namespace Query

open Work

section Keys

variable {keys : List Node} (hKeys : ∀ key ∈ keys, key.IsKey) {i : Nat} {v v' : Workspace}
  (hOwn : v.CallsOwn i)
include hKeys

theorem groupsWhole_of_isKey : groupsWhole keys = false := by
  unfold groupsWhole
  split
  · rename_i key
    cases hKeys key (mem_singleton_self key) <;> rfl
  · rfl

include hOwn

/-- The groups of the rows are those of the columns that the keys have in the end. -/
theorem exists_groups (hSome : keys ≠ []) {groups : Option GroupSource}
    (h : Work.run (evalGroups (.frame i) (some keys)) v = (.ok groups, v')) :
    ∃ cs columns, KeysAre i v keys cs v' ∧ columns.map (·.1) = cs.map (·.1) ∧
      (∀ c ∈ columns, (v'.tableAt i).named c.1 = [c.2]) ∧
      groups = some (.grouping ((v'.tableAt i).groupByColumns columns)) := by
  have hGroups : (groupsWhole keys || keys.isEmpty) = false := by
    simpa [groupsWhole_of_isKey hKeys] using hSome
  obtain ⟨names, g, hNames, hMade, rfl⟩ := exists_of_evalGroups hGroups h
  obtain ⟨cs, hcs, rfl⟩ := exists_keysAre hKeys hOwn hNames
  have hColumns : (cs.map (·.1)).length ≠ (v'.tableAt i).height ∨
      (cs.map (·.1)).all (v'.tableAt i).has = true := by
    by_cases hId : i < v.frames.size
    · right
      rw [all_map, all_eq_true]
      exact hcs.has hId
    · left
      rw [length_map, hcs.length_eq, hcs.sameBut.height_eq, Workspace.tableAt,
        Array.getElem?_eq_none (Nat.le_of_not_lt hId)]
      exact fun hNone => hSome (length_eq_zero_iff.1 hNone)
  obtain ⟨columns, hColumnNames, hNamed, rfl⟩ := Table.exists_of_groupBy hColumns hMade
  exact ⟨cs, columns, hcs, hColumnNames, hNamed, rfl⟩

end Keys

/-- Columns that keys of different names have in the end are their entries. -/
theorem KeysAre.columns_eq {id : Nat} {w w' : Workspace} {keys : List Node}
    {cs columns : List (String × Data)} (h : KeysAre id w keys cs w')
    (hNames : columns.map (·.1) = cs.map (·.1)) (hOnce : (cs.map (·.1)).Nodup)
    (hColumns : ∀ c ∈ columns, (w'.tableAt id).named c.1 = [c.2]) : columns = cs := by
  have hAll : columns.filterMap (fun c => some c.1) = cs.map (·.1) := by
    rw [← hNames, filterMap_eq_map']
  have hSub : (cs.map fun c => c).Sublist columns := by
    refine sublist_of_filterMap_eq hAll fun c hc a ha hSame => ?_
    have hName : c.1 = a.1 := Option.some.inj hSame
    have hNamed := hColumns c hc
    rw [hName] at hNamed
    exact Prod.ext hName (h.eq_of_mem_named hOnce a ha c.2 (hNamed ▸ mem_singleton_self _))
  rw [map_id'] at hSub
  exact (hSub.eq_of_length (by simpa using (congrArg length hNames).symm)).symm

/-- What the columns of a grouped answer hold, where the grouped table is the source but for some
columns. -/
theorem holdsFor_of_groupTargets {extensions : List (String × Extension)} {targets keys : List Node}
    {t made : Table} {cs : List (String × Data)} {changed : List String} (ht : t.Rectangular)
    (hLabels : made.labels = t.labels) (hNamed : ∀ name ∉ changed, made.named name = t.named name)
    (hParts : Partitions t.height (cs.map (·.2)) (made.groupByColumns cs).groups) {u : Table}
    (h : groupTargets extensions targets (.grouping (made.groupByColumns cs)) keys = .ok u) :
    ∀ c ∈ u.columns, ∃ target ∈ targets, target.outputName = c.1 ∧
        HoldsFor t extensions cs (made.groupByColumns cs).groups changed target c.2 := by
  obtain ⟨texts, g, asked, results, -, hSource, hResults, rfl⟩ := groupResults_of_groupTargets h
  cases hSource
  intro c hc
  obtain ⟨column, hColumn, hName, hData⟩ := exists_column_of_mem c hc
  obtain ⟨target, hTarget, hText, hOutput⟩ := exists_of_answerName? hName
  refine ⟨target, hTarget, hOutput, ?_⟩
  rw [hData]
  rcases mem_append.1 hColumn with hKey | hResult
  · obtain ⟨k, hk, rfl⟩ := mem_map.1 hKey
    exact .key (hText ▸ hk)
  · obtain ⟨other, hOther, hOtherText, name, f, hAsks, hComputed⟩ := hResults.exists_target hResult
    -- no two targets that are no keys have the same text
    obtain rfl : other = target := by
      refine inj_on_of_nodup_map hResults.textsOnce hOther (mem_filter.2 ⟨hTarget, ?_⟩)
        (hOtherText.trans hText.symm)
      rw [hText, ← hOtherText]
      exact (mem_filter.1 hOther).2
    refine .aggregate hAsks fun hUnchanged => ?_
    obtain ⟨d, hd, hAggregate⟩ := aggregateColumn_eq_ok_iff.1 hComputed
    have hOwn : t.named name = [d] := (hNamed name hUnchanged).symm.trans hd
    refine ⟨d, hOwn, ?_, ?_⟩
    · have hGroupwise := groupwise_of_aggregateData hAggregate
      rwa [show (made.groupByColumns cs).table.labels = t.labels from hLabels] at hGroupwise
    · rintro rfl hPresent
      have hCounts : d.counts (made.groupByColumns cs).groups = column.2 := Except.ok.inj hAggregate
      rw [← hCounts]
      refine Data.freeCells_counts hPresent fun rows hRows i hi => ?_
      rw [ht.length_of_mem_named (hOwn ▸ mem_singleton_self d)]
      have hRow := hParts.perm.mem_iff.1 (mem_flatten.2 ⟨rows, hRows, hi⟩)
      exact mem_range.1 (mem_filter.1 hRow).1

/-- The rows of a grouped answer are the classes of the rows of its source by their keys, in
ascending order; every row that misses no key is in one of them. An aggregate holds for each group
what the function gives for the entries of its column there, unless that column is called like an
expression among the keys. -/
theorem grouped_rows_partition_source {q : Select} {key : Node} {rest : List Node}
    (hGroupBy : q.groupBy = some (key :: rest)) (hKeys : ∀ n ∈ key :: rest, n.IsKey)
    {w v v' : Workspace} {i : Nat}
    (hRows : Work.run (do evalWhere (← evalFrom q.source) q.condition) w = (.ok (.frame i), v))
    (hOwn : v.CallsOwn i) (ht : (v.tableAt i).Rectangular) {u : Table}
    (hAnswer : Work.run (evalGroupRows q) w = (.ok u, v')) :
    ∃ cs, KeysAre i v (key :: rest) cs v' ∧
      (FreshKeys (key :: rest) → List.Forall₂ (KeyIs v i) (key :: rest) cs) ∧
      ((∀ c ∈ cs, c.2.OfPlainKeys) →
        ∃ groups, Grouping.Partitions (v.tableAt i).height (cs.map (·.2)) groups ∧
          u.height = groups.length ∧
          (groups.map List.length).sum =
            ((List.range (v.tableAt i).height).filter (Grouping.hasKeys (cs.map (·.2)))).length ∧
          ∀ c ∈ u.columns, ∃ target ∈ q.targets, target.outputName = c.1 ∧
              HoldsFor (v.tableAt i) v.catalog.extensions cs groups
                ((key :: rest).flatMap Node.columnsSet) target c.2) := by
  rw [evalGroupRows_eq hGroupBy, run_bind_ok hRows] at hAnswer
  obtain ⟨groups, v₁, hGroups, hTable⟩ := run_bind_eq_ok hAnswer
  rw [hGroupBy] at hGroups
  obtain ⟨cs, columns, hcs, hNames, hColumns, rfl⟩ :=
    exists_groups hKeys hOwn (cons_ne_nil _ _) hGroups
  have hLift : run (groupedTable (.frame i) q.targets (key :: rest)
      (some (.grouping ((v₁.tableAt i).groupByColumns columns)))) v₁ =
      (groupTargets v₁.catalog.extensions q.targets
          (.grouping ((v₁.tableAt i).groupByColumns columns)) (key :: rest),
        v₁) := run_lift _ v₁
  obtain ⟨hTargets, rfl⟩ := Prod.mk.inj (hLift.symm.trans hTable)
  have hOnce : (cs.map (·.1)).Nodup := by
    obtain ⟨_, _, _, _, -, hSource, hResults, -⟩ := groupResults_of_groupTargets hTargets
    cases hSource
    have hKeyNames := hResults.keysOnce
    rw [Table.groupByColumns, map_map] at hKeyNames
    exact hNames ▸ hKeyNames
  obtain rfl := hcs.columns_eq hNames hOnce hColumns
  have hSame := hcs.sameBut
  refine ⟨columns, hcs, hcs.forall₂_keyIs hOwn hKeys, fun hPlain => ?_⟩
  have hParts : Grouping.Partitions (v.tableAt i).height (columns.map (·.2))
      ((v₁.tableAt i).groupByColumns columns).groups := by
    rw [← hSame.height_eq]
    exact partitions_ofKeyedRows (forall_mem_map.2 hPlain) _
  refine ⟨_, hParts, ?_, hParts.sum_length, ?_⟩
  · obtain ⟨_, _, _, _, -, hSource, -, rfl⟩ := groupResults_of_groupTargets hTargets
    cases hSource
    exact Column.length_freshLabels _
  · rw [hSame.catalog] at hTargets
    exact holdsFor_of_groupTargets ht hSame.labels hSame.named hParts hTargets

def keyGapRows : Table := ⟨Column.freshLabels 4,
  [("k", .nullableInts .int64 [some 2, some 1, some 2, none]),
    ("v", .ints .int64 [10, 20, 30, 40])]⟩

/-- `k + 1`. -/
def nextKey : Node := .operation .binary "+" [.name ["k"] {}, .constant (.int 1) {}] {}

/-- `SELECT count(v) FROM t GROUP BY k + 1`. -/
def countsByNext : Select :=
  { targets := [countOf "v"], source := some (.name ["t"] {}), groupBy := some [nextKey] }

def nextKeys : Data := .nullableInts .int64 [some 3, some 2, some 3, none]

def keyGapWorkspace : Workspace :=
  (Work.run (evalFrom countsByNext.source) (.ofTables [("t", keyGapRows)])).2

def nextWorkspace : Workspace := keyGapWorkspace.withColumn 0 "k + 1" nextKeys

def nextGrouping : Grouping :=
  ⟨nextWorkspace.tableAt 0, [("k + 1", .nullableInts .int64 [some 2, some 3])], [[1], [0, 2]]⟩

theorem run_evalGroups_next :
    Work.run (evalGroups (.frame 0) countsByNext.groupBy) keyGapWorkspace =
      (.ok (some (.grouping nextGrouping)), nextWorkspace) := by
  have hKeys : Work.run (evalKeys (.frame 0) [nextKey]) keyGapWorkspace =
      (.ok ["k + 1"], nextWorkspace) := rfl
  have hGroups : ofKeyedRows (keyedRows 4 [nextKeys]) = [[1], [0, 2]] := by
    cbv
  have hGroupBy : (nextWorkspace.tableAt 0).groupBy ["k + 1"] = .ok nextGrouping :=
    congrArg Except.ok
      (Table.groupByColumns_eq (nextWorkspace.tableAt 0) [("k + 1", nextKeys)] hGroups)
  exact run_evalGroups_of_keys rfl hKeys hGroupBy

theorem isKey_nextKey : ∀ n ∈ [nextKey], n.IsKey := by
  refine forall_mem_singleton.2 (.expression ⟨rfl, fun parts hParts => ?_⟩)
  obtain rfl : parts = ["k"] := mem_singleton.1 hParts
  exact ⟨"k", rfl⟩

/-- `SELECT count(v) FROM t GROUP BY k + 1` counts the three rows of four that have a key, in two
groups. -/
theorem grouped_rows_partition_keyGap :
    Work.run (evalGroupRows countsByNext) (.ofTables [("t", keyGapRows)]) =
      (.ok ⟨Column.freshLabels 2, [("count(v)", .ints .int64 [1, 2])]⟩, nextWorkspace) ∧
    KeyIs keyGapWorkspace 0 nextKey ("k + 1", nextKeys) ∧
    ∃ groups, Grouping.Partitions 4 [nextKeys] groups ∧ groups.length = 2 ∧
      (groups.map List.length).sum = 3 := by
  have hRows : run (do evalWhere (← evalFrom countsByNext.source) countsByNext.condition)
      (.ofTables [("t", keyGapRows)]) = (.ok (.frame 0), keyGapWorkspace) := Prod.ext rfl rfl
  have hAnswer : run (evalGroupRows countsByNext) (.ofTables [("t", keyGapRows)]) =
      (.ok ⟨Column.freshLabels 2, [("count(v)", .ints .int64 [1, 2])]⟩, nextWorkspace) :=
    (run_evalGroupRows rfl hRows run_evalGroups_next).trans rfl
  have hTable : (keyGapWorkspace.tableAt 0).Rectangular := by
    intro c hc
    rcases mem_pair.1 hc with rfl | rfl <;> rfl
  obtain ⟨cs, -, hKeys, hParts⟩ :=
    grouped_rows_partition_source rfl isKey_nextKey hRows (fun _ => rfl) hTable hAnswer
  have hNext : KeyIs keyGapWorkspace 0 nextKey ("k + 1", nextKeys) := .expression rfl rfl
  obtain ⟨c, _, hc, hNone, rfl⟩ :=
    forall₂_cons_left_iff.1 (hKeys (pairwise_singleton _ _))
  cases hNone
  cases hc.unique hNext
  have hPlain : nextKeys.OfPlainKeys := by
    intro j cell hCell hPresent
    match j with
    | 0 | 1 | 2 =>
      cases hCell
      exact Or.inl rfl
    | 3 => cases hPresent
    | _ + 4 => cases hCell
  obtain ⟨groups, hGroups, hHeight, hSum, -⟩ := hParts (forall_mem_singleton.2 hPlain)
  exact ⟨hAnswer, hNext, groups, hGroups, hHeight.symm, hSum⟩

def shadowRows : Table :=
  ⟨Column.freshLabels 2, [("a", .ints .int64 [1, 1]), ("a + 1", .ints .int64 [5, 6])]⟩

/-- `a + 1`. -/
def shadowKey : Node := .operation .binary "+" [.name ["a"] {}, .constant (.int 1) {}] {}

def shadowedKey : Node := .operation .binary "*" [.name ["a + 1"] {}, .constant (.int 2) {}] {}

/-- `SELECT count(a) FROM t GROUP BY a + 1`, and by the column `a + 1` times two. -/
def countsByShadow : Select :=
  { targets := [countOf "a"], source := some (.name ["t"] {}),
    groupBy := some [shadowKey, shadowedKey] }

def shadowWorkspace : Workspace :=
  (Work.run (evalFrom countsByShadow.source) (.ofTables [("t", shadowRows)])).2

def shadowedWorkspace : Workspace :=
  (shadowWorkspace.withColumn 0 "a + 1" (.ints .int64 [2, 2])).withColumn 0 "`a + 1` * 2"
    (.ints .int64 [4, 4])

/-- Two rows with different keys are counted together, since the first key stands for the column of
the second. -/
theorem shadowed_key_joins_groups :
    KeyIs shadowWorkspace 0 shadowedKey ("`a + 1` * 2", .ints .int64 [10, 12]) ∧
    (Work.run (evalSelect countsByShadow) (.ofTables [("t", shadowRows)])).1 =
      .ok ⟨Column.freshLabels 1, [("count(a)", .ints .int64 [2])]⟩ := by
  have hRows : run (do evalWhere (← evalFrom countsByShadow.source) countsByShadow.condition)
      (.ofTables [("t", shadowRows)]) = (.ok (.frame 0), shadowWorkspace) := Prod.ext rfl rfl
  have hKeys : run (evalKeys (.frame 0) [shadowKey, shadowedKey]) shadowWorkspace =
      (.ok ["a + 1", "`a + 1` * 2"], shadowedWorkspace) := rfl
  have hGroups : ofKeyedRows
      (keyedRows 2 [.ints .int64 [2, 2], .ints .int64 [4, 4]]) = [[0, 1]] := by
    cbv
  have hGroupBy : (shadowedWorkspace.tableAt 0).groupBy ["a + 1", "`a + 1` * 2"] = .ok _ :=
    congrArg Except.ok (Table.groupByColumns_eq (shadowedWorkspace.tableAt 0)
      [("a + 1", .ints .int64 [2, 2]), ("`a + 1` * 2", .ints .int64 [4, 4])] hGroups)
  refine ⟨.expression rfl rfl, ?_⟩
  have hRun := run_evalSelect_core_groups (q := countsByShadow) rfl hRows
    (run_evalGroups_of_keys rfl hKeys hGroupBy)
  exact hRun.trans rfl

end Query

end TableQuery
