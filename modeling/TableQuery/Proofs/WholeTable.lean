import TableQuery.Proofs.GroupAggregates
import TableQuery.Proofs.GroupedColumns
import TableQuery.Proofs.KeyedTables

/-! Aggregates of all rows together. Such a select is a grouping by a column that is the same in
every row. That makes one group of the rows, unless there are none. -/
namespace TableQuery

open List Work Grouping Table

open Sql

/-- The groups of rows that all have the same key. -/
theorem Grouping.Partitions.eq_whole {height : Nat} {keys : List Data} {groups : List (List Nat)}
    (h : Partitions height keys groups) (hKeys : ∀ i < height, hasKeys keys i = true)
    (hSame : ∀ i < height, ∀ j < height, ¬Cell.RowBelow (keysAt keys i) (keysAt keys j)) :
    groups = if height = 0 then [] else [range height] := by
  have hAll : (range height).filter (hasKeys keys) = range height :=
    filter_eq_self.2 fun i hi => hKeys i (mem_range.1 hi)
  have hPerm := h.perm
  rw [hAll] at hPerm
  have hIn {g : List Nat} (hg : g ∈ groups) {i : Nat} (hi : i ∈ g) : i < height :=
    mem_range.1 (hPerm.mem_iff.1 (mem_flatten.2 ⟨g, hg, hi⟩))
  match groups, h, hPerm, @hIn with
  | [], _, hPerm, _ =>
    have hNone : height = 0 := by simpa using hPerm.length_eq.symm
    rw [if_pos hNone]
  | [g], h, hPerm, _ =>
    rw [flatten_singleton] at hPerm
    have hSome : height ≠ 0 := by
      rintro rfl
      exact h.nonempty g (mem_singleton_self g) hPerm.eq_nil
    rw [if_neg hSome, hPerm.eq_of_pairwise (fun _ _ _ _ hij hji => absurd hij (Nat.lt_asymm hji))
      (h.increasing g (mem_singleton_self g)) pairwise_lt_range]
  | g :: g' :: rest, h, _, hIn =>
    obtain ⟨i, hi⟩ := exists_mem_of_ne_nil g (h.nonempty g mem_cons_self)
    have hg' : g' ∈ g :: g' :: rest := mem_cons_of_mem g mem_cons_self
    obtain ⟨j, hj⟩ := exists_mem_of_ne_nil g' (h.nonempty g' hg')
    have hBelow := (pairwise_cons.1 h.ascending).1 g' mem_cons_self i hi j hj
    exact absurd hBelow (hSame i (hIn mem_cons_self hi) j (hIn hg' hj))

namespace Table

variable {t : Table} {name : String}

def wholeKeys (t : Table) : Data := .ints .int64 (t.labels.map fun _ => 0)

def withWholeKey (t : Table) : Table := t.setColumn wholeKey t.wholeKeys

theorem groups_wholeKeys (t : Table) : ofKeyedRows (keyedRows t.height [t.wholeKeys]) =
      if t.height = 0 then [] else [range t.height] := by
  have hCells (i : Nat) (hi : i < t.height) : t.wholeKeys.cells[i]? = some (.int 0) := by
    simp [wholeKeys, Data.cells, show i < t.labels.length from hi]
  have hPresent (i : Nat) (hi : i < t.height) : t.wholeKeys.missing[i]? = some false := by
    simp [wholeKeys, Data.missing, show i < t.labels.length from hi]
  have hKeysAt (i : Nat) (hi : i < t.height) : keysAt [t.wholeKeys] i = [.int 0] := by
    simp [keysAt, hCells i hi]
  have hPlain : ∀ d ∈ [t.wholeKeys], d.OfPlainKeys := by
    intro d hd i c hc _
    obtain rfl := mem_singleton.1 hd
    obtain ⟨n, -, rfl⟩ := mem_map.1 (mem_of_getElem? hc)
    exact Or.inl rfl
  refine (partitions_ofKeyedRows hPlain t.height).eq_whole (fun i hi => ?_) fun i hi j hj h => ?_
  · simp [hasKeys, hPresent i hi]
  · rw [hKeysAt i hi, hKeysAt j hj] at h
    cases h with
    | first hBelow =>
      cases hBelow with
      | nums hm hn hLess =>
        cases hm
        cases hn
        exact lt_irrefl _ hLess
    | later _ hRest => cases hRest

def wholeGrouping (t : Table) : Grouping := t.withWholeKey.groupByColumns [(wholeKey, t.wholeKeys)]

theorem groups_wholeGrouping (t : Table) :
    t.wholeGrouping.groups = if t.height = 0 then [] else [range t.height] := by
  rw [← groups_wholeKeys]
  unfold wholeGrouping groupByColumns withWholeKey
  rw [height_setColumn]
  rfl

theorem names_wholeGrouping (t : Table) : t.wholeGrouping.keys.map (·.1) = [wholeKey] := rfl

/-- All rows are grouped together unless two columns have the name of the key. -/
theorem grouped_table (t : Table) : (GroupSource.table t).grouped =
      if (t.named wholeKey).length ≤ 1 then .ok t.wholeGrouping else .error .badValue := by
  have hGrouped : (GroupSource.table t).grouped = t.withWholeKey.groupBy [wholeKey] := rfl
  rw [hGrouped]
  split
  · rename_i hOne
    have hNamed : ∀ c ∈ [(wholeKey, t.wholeKeys)], t.withWholeKey.named c.1 = [c.2] :=
      forall_mem_singleton.2 (named_setColumn_self hOne t.wholeKeys)
    exact groupBy_of_named hNamed
  · rename_i hMany
    have hHas : t.has wholeKey = true := by
      rw [has_eq_true_iff]
      rintro hNone
      simp [hNone] at hMany
    have hNamed : t.withWholeKey.named wholeKey = (t.named wholeKey).map fun _ => t.wholeKeys := by
      rw [withWholeKey, named_setColumn, if_pos hHas]
      simp
    rcases hColumns : t.named wholeKey with _ | ⟨a, _ | ⟨b, rest⟩⟩
    · simp [hColumns] at hMany
    · simp [hColumns] at hMany
    · have hBad : t.withWholeKey.column wholeKey = .error .badValue := by
        rw [column, hNamed, hColumns]
        rfl
      have hAll : [wholeKey].all t.withWholeKey.has = true := by
        rw [all_cons, has_eq_true_iff.2 (by rw [hNamed, hColumns]; exact cons_ne_nil _ _)]
        rfl
      rw [groupBy, hAll, mapM_cons, hBad]
      simp [bind, Except.bind]

def asOneGroup (t : Table) : Grouping := ⟨t, [], [List.range t.height]⟩

/-- The grouping of all rows together is one group, and its key hides no column but one of its own
name. -/
theorem aggregateColumn_wholeGrouping (h : t.height ≠ 0) (hName : name ≠ wholeKey)
    (f : Aggregator) :
    t.wholeGrouping.aggregateColumn name f = t.asOneGroup.aggregateColumn name f := by
  refine aggregateColumn_congr (named_setColumn_of_ne hName _) (labels_setColumn _ _ _) ?_ f
  rw [groups_wholeGrouping, if_neg h]
  rfl

/-- Without rows there is nothing to count. -/
theorem freeCells_count_asOneGroup (h : t.height = 0) {f : Aggregate} {d : Data}
    (hf : f = .count ∨ f = .countDistinct)
    (hd : t.asOneGroup.aggregateColumn name (.known f) = .ok d) : d.freeCells = [.int 0] := by
  obtain ⟨e, -, hd⟩ := aggregateColumn_eq_ok_iff.1 hd
  have hGroups : t.asOneGroup.groups = [[]] := by rw [asOneGroup, h, range_zero]
  rw [aggregateData, hGroups] at hd
  rcases hf with rfl | rfl
  · cases hd
    cases e <;> rfl
  · cases hd
    rfl

end Table

namespace TargetData.Means

variable {extensions : List (String × Extension)} {g : Grouping} {a : TargetData}
  (h : a.Means extensions g [])
include h

/-- A call is not written like the key of all rows together. -/
theorem bareText_ne_wholeKey : a.1.bareText ≠ wholeKey := by
  cases h with
  | key hj _ => cases hj
  | aggregate argTag tag _ _ _ _ =>
    intro hText
    have hParen : '(' ∈ wholeKey.toList := by
      rw [← hText]
      simp only [Node.bareText, Node.render, Tag.wrap, renderOperation]
      split <;> simp
    exact absurd hParen (by decide)

/-- The entries of a target are those of its function. -/
theorem aggregateColumn_eq {name : String} {f : Aggregator}
    (hAsks : a.1.AsksFor extensions name f) : ∃ column, g.aggregateColumn column f = .ok a.2 := by
  cases h with
  | key hj _ => cases hj
  | aggregate argTag tag _ hf _ hData =>
    cases hAsks with
    | call _ _ hf' =>
      cases hf.symm.trans hf'
      exact ⟨_, hData⟩

end TargetData.Means

theorem eq_of_map_fst_of_map_snd {α β : Type} {xs ys : List (α × β)}
    (hFst : xs.map (·.1) = ys.map (·.1)) (hSnd : xs.map (·.2) = ys.map (·.2)) : xs = ys :=
  (zip_of_prod hFst hSnd).trans (zip_of_prod rfl rfl).symm

section Whole

variable {extensions : List (String × Extension)} {t : Table} {items : List TargetData}
  (hTexts : (items.map (·.1.bareText)).Nodup) (hKey : ∀ a ∈ items, a.1.bareText ≠ wholeKey)
include hTexts

def wholeKeyNode : Node := .constant (.bool true) {}

/-- Aggregates under the texts of the targets are all in the answer, in order. -/
theorem map_snd_answerColumns (hNames : (items.map (·.1.outputName)).Nodup)
    {keys results : List (String × Data)} (hResults : results.map (·.1) = items.map (·.1.bareText))
    (hOnce : ((keys ++ results).map (·.1)).Nodup) :
    (answerColumns (items.map (·.1)) (keys ++ results)).map (·.2) = results.map (·.2) := by
  have hLength : results.length = items.length := by simpa using congrArg length hResults
  let made : List TargetData := (items.map (·.1)).zip (results.map (·.2))
  have hTargets : made.map (·.1) = items.map (·.1) := map_fst_zip (by simp [hLength])
  have hMade {α : Type} (f : Node → α) : made.map (fun a => f a.1) = items.map fun a => f a.1 := by
    have hMap := congrArg (map f) hTargets
    rwa [map_map, map_map] at hMap
  have hBoth : made.map TargetData.byText = results := by
    refine eq_of_map_fst_of_map_snd ?_ ?_
    · rw [map_map, hResults]
      exact hMade Node.bareText
    · rw [map_map]
      exact map_snd_zip (by simp [hLength])
  have hMadeTexts : (made.map (·.1.bareText)).Nodup := by rwa [hMade]
  have hMadeNames : (made.map (·.1.outputName)).Nodup := by rwa [hMade]
  have hAnswer :=
    (answerColumns_eq_map_iff hMadeTexts hMadeNames hOnce).2 (hBoth ▸ sublist_append_right _ _)
  rw [← hTargets, hAnswer, map_map]
  exact map_snd_zip (by simp [hLength])

/-- An answer with the aggregates of all targets comes of aggregates that were computed. -/
theorem computed_of_groupTargets {u : Table}
    (h : groupTargets extensions (items.map (·.1)) (.table t) [wholeKeyNode] = .ok u)
    (hData : u.columns.map (·.2) = items.map (·.2)) :
    (t.named wholeKey).length ≤ 1 ∧ (items.map (·.1.outputName)).Nodup ∧
    ∀ a ∈ items, a.Computed extensions t.wholeGrouping := by
  obtain ⟨texts, g, asked, results, hKeys, hSource, hResults, rfl⟩ := groupResults_of_groupTargets h
  cases hKeys
  rw [grouped_table] at hSource
  split at hSource
  · rename_i hOnce
    cases hSource
    have hOutput : (items.map (·.1.outputName)).Nodup := by
      have hLength : (answerColumns (items.map (·.1)) (t.wholeGrouping.keys ++ results)).length =
          items.length := by
        have hColumns := congrArg length hData
        rwa [length_map, length_map] at hColumns
      have hNodup : ((items.map (·.1)).map Node.outputName).Nodup :=
        nodup_outputNames (by simpa using hLength)
      rwa [map_map] at hNodup
    have hNames : results.map (·.1) = items.map (·.1.bareText) := by
      have hAll : otherTargets [] (items.map (·.1)) = items.map (·.1) :=
        filter_eq_self.2 fun _ _ => rfl
      rw [hResults.names_eq, hAll, map_map]
      rfl
    have hSame : results.map (·.2) = items.map (·.2) :=
      (map_snd_answerColumns hTexts hOutput hNames hResults.nodup).symm.trans hData
    have hEq : results = items.map TargetData.byText :=
      eq_of_map_fst_of_map_snd (by rw [hNames, map_map]; rfl) (by rw [hSame, map_map]; rfl)
    refine ⟨hOnce, hOutput, fun a ha => (hResults.computed hTexts ha ?_).2⟩
    rw [hEq]
    exact mem_map_of_mem ha
  · cases hSource

include hKey in
/-- Computed aggregates are the answer, in as many rows as there are groups. -/
theorem exists_groupTargets (hSome : items ≠ []) (hOnce : (t.named wholeKey).length ≤ 1)
    (hNames : (items.map (·.1.outputName)).Nodup)
    (h : ∀ a ∈ items, a.Computed extensions t.wholeGrouping) :
    ∃ u, groupTargets extensions (items.map (·.1)) (.table t) [wholeKeyNode] = .ok u ∧
      u.columns.map (·.2) = items.map (·.2) := by
  have hOther (a : TargetData) (ha : a ∈ items) :
      a.1.bareText ∉ t.wholeGrouping.keys.map (·.1) := by
    rw [names_wholeGrouping]
    exact fun hText => hKey a ha (mem_singleton.1 hText)
  have hPlaced : Placed extensions [] t.wholeGrouping [] items :=
    ⟨nil_sublist _, fun _ ha => absurd ha not_mem_nil, hSome,
      fun a ha => ⟨not_mem_nil, hOther a ha⟩, h, nodup_singleton _⟩
  have hGrouped : (GroupSource.table t).grouped = .ok t.wholeGrouping := by
    rw [grouped_table, if_pos hOnce]
  have hKeyTexts : keyTexts [wholeKeyNode] = .ok [] := rfl
  obtain ⟨u, hu, hColumns⟩ :=
    (groupTargets_columns_iff hTexts hNames hKeyTexts hGrouped).2 ⟨[], items, rfl, hPlaced⟩
  refine ⟨u, hu, ?_⟩
  rw [hColumns, map_map]
  rfl

end Whole

/-- An answer over all rows together has as many rows as there are groups. -/
theorem height_of_groupTargets {extensions : List (String × Extension)} {targets keys : List Node}
    {t u : Table} (h : groupTargets extensions targets (.table t) keys = .ok u) :
    u.height = if t.height = 0 then 0 else 1 := by
  obtain ⟨_, g, _, _, _, hSource, _, rfl⟩ := groupResults_of_groupTargets h
  rw [grouped_table] at hSource
  split at hSource
  · cases hSource
    rw [groupAnswer, groups_wholeGrouping]
    split <;> rfl
  · cases hSource

namespace Query

section Answer

variable {targets : List Node} {source condition : Option Node} {w v : Workspace} {i : Nat}
  (hRows : Work.run (do evalWhere (← evalFrom source) condition) w = (.ok (.frame i), v))
include hRows

/-- A select of aggregates groups the rows that the WHERE clause leaves as a whole. -/
theorem run_eval_whole (hWhole : implicitGrouping targets = .all) (tag : Tag) :
    (run (eval false (.select { targets, source, condition } tag)) w).1 =
      (fun u => Value.table u.bareNames) <$>
        groupTargets v.catalog.extensions targets (.table (v.tableAt i)) [wholeKeyNode] := by
  have hKeys : lift (groupKeys targets none) = pure [wholeKeyNode] := by
    rw [groupKeys, hWhole]
    rfl
  have hSplit : evalRows { targets, source, condition } = (do
      let rows ← (do evalWhere (← evalFrom source) condition)
      groupedTable rows targets [wholeKeyNode] none >>= pure) := by
    unfold evalRows
    rw [hKeys]
    simp only [bind_assoc, pure_bind, evalGroups, evalHaving]
    rfl
  have hTable : run (groupedTable (.frame i) targets [wholeKeyNode] none) v =
      (groupTargets v.catalog.extensions targets (.table (v.tableAt i)) [wholeKeyNode], v) :=
    run_lift _ v
  rw [eval, evalSelect_eq, hSplit, bind_assoc, bind_assoc, run_bind_ok hRows, bind_assoc]
  generalize groupTargets v.catalog.extensions targets (.table (v.tableAt i)) [wholeKeyNode] =
      answer at hTable
  cases answer with
  | error e =>
    rw [run_bind_error hTable]
    rfl
  | ok t =>
    rw [run_bind_ok hTable]
    rfl

/-- A select of aggregates has one row, with the aggregates of all rows that pass WHERE, exactly if
there are such rows, no name occurs twice, and each aggregate is computed of the column that is
written in it. If no row passes, there is no row. -/
theorem aggregates_answer_one_row_iff {items : List TargetData} (hSome : items ≠ [])
    (hAggregates : ∀ a ∈ items, a.1.isAggregate = true) (hTexts : (items.map (·.1.bareText)).Nodup)
    (hMeans : ∀ a ∈ items, a.Means v.catalog.extensions (v.tableAt i).asOneGroup []) (tag : Tag) :
    let t := v.tableAt i
    let answer :=
      (run (eval false (.select { targets := items.map (·.1), source, condition } tag)) w).1
    ((∃ u, answer = .ok (.table u) ∧ u.height = 1 ∧ u.columns.map (·.2) = items.map (·.2)) ↔
      t.height ≠ 0 ∧ (t.named wholeKey).length ≤ 1 ∧ (items.map (·.1.outputName)).Nodup ∧
        ∀ a ∈ items, a.Computed v.catalog.extensions t.wholeGrouping) ∧
    (t.height ≠ 0 → ∀ a ∈ items, ∀ column, a.1.CallsPlain column → column ≠ wholeKey →
      a.Computed v.catalog.extensions t.wholeGrouping) ∧
    (t.height = 0 →
      (∀ a ∈ items, ∀ name f, a.1.AsksFor v.catalog.extensions name (.known f) → f = .count ∨
        f = .countDistinct →
        a.2.freeCells = [.int 0]) ∧
      ∀ u, answer = .ok (.table u) → u.height = 0) := by
  intro t answer
  have hWhole : implicitGrouping (items.map (·.1)) = .all := by
    have hAll : (items.map (·.1)).all Node.isAggregate = true := by
      rw [all_map, all_eq_true]
      exact hAggregates
    have hAny : (items.map (·.1)).any Node.isAggregate = true := by
      obtain ⟨a, ha⟩ := exists_mem_of_ne_nil items hSome
      rw [any_map, any_eq_true]
      exact ⟨a, ha, hAggregates a ha⟩
    rw [implicitGrouping, if_pos hAny, if_pos hAll]
  have hAnswer : answer =
      (fun u => Value.table u.bareNames) <$>
        groupTargets v.catalog.extensions (items.map (·.1)) (.table t) [wholeKeyNode] :=
    run_eval_whole hRows hWhole tag
  have hKey (a : TargetData) (ha : a ∈ items) : a.1.bareText ≠ wholeKey :=
    (hMeans a ha).bareText_ne_wholeKey
  have hBare (u : Table) : u.bareNames.columns.map (·.2) = u.columns.map (·.2) := by
    rw [bareNames, map_map]
    rfl
  have hFrom {u : Table} (hu : answer = .ok (.table u)) :
      ∃ made,
        groupTargets v.catalog.extensions (items.map (·.1)) (.table t) [wholeKeyNode] = .ok made ∧
        made.bareNames = u := by
    rw [hAnswer] at hu
    obtain ⟨made, hMade, hu⟩ := bind_eq_ok hu
    cases hu
    exact ⟨made, hMade, rfl⟩
  refine ⟨⟨?_, ?_⟩, fun hRow a ha column hPlain hColumn => ?_,
    fun hNone => ⟨fun a ha name f hAsks hf => ?_, ?_⟩⟩
  · rintro ⟨u, hu, hHeight, hData⟩
    obtain ⟨made, hMade, rfl⟩ := hFrom hu
    rw [hBare] at hData
    refine ⟨fun hNone => ?_, computed_of_groupTargets hTexts hMade hData⟩
    have hMadeHeight := height_of_groupTargets hMade
    rw [if_pos hNone] at hMadeHeight
    exact absurd (hHeight.symm.trans hMadeHeight) Nat.one_ne_zero
  · rintro ⟨hRow, hOnce, hNames, hComputed⟩
    obtain ⟨made, hMade, hData⟩ := exists_groupTargets hTexts hKey hSome hOnce hNames hComputed
    refine ⟨made.bareNames, ?_, ?_, (hBare made).trans hData⟩
    · rw [hAnswer, hMade]
      rfl
    · exact (height_of_groupTargets hMade).trans (if_neg hRow)
  · exact (hMeans a ha).computed not_mem_nil hPlain
      fun f => aggregateColumn_wholeGrouping hRow hColumn f
  · obtain ⟨column, hColumn⟩ := (hMeans a ha).aggregateColumn_eq hAsks
    exact freeCells_count_asOneGroup hNone hf hColumn
  · intro u hu
    obtain ⟨made, hMade, rfl⟩ := hFrom hu
    exact (height_of_groupTargets hMade).trans (if_pos hNone)

end Answer

/-- `v > n`. -/
def vAbove (n : Int) : Node := .operation .binary ">" [.name ["v"] {}, .constant (.int n) {}] {}

/-- Some targets `FROM t WHERE v > n`. -/
def ofRowsAbove (n : Int) (targets : List Node) : Node :=
  .select { targets, source := some (.name ["t"] {}), condition := some (vAbove n) } {}

def workspaceAbove (n : Int) : Workspace :=
  (Work.run (do evalWhere (← evalFrom (some (.name ["t"] {}))) (some (vAbove n)))
    (.ofTables [("t", pairRows)])).2

def countAndMax : List TargetData :=
  [(countOf "v", .ints .int64 [2]), (.operation (.call false) "max" [.name ["k"] {}] {},
    .ints .int64 [2])]

/-- `SELECT count(v), max(k) FROM t WHERE v > 15` has one row. -/
theorem aggregates_answer_one_row_above :
    (∀ a ∈ countAndMax, a.Means [] ((workspaceAbove 15).tableAt 1).asOneGroup []) ∧
    ∃ u,
      (Work.run (eval false (ofRowsAbove 15 (countAndMax.map (·.1))))
        (.ofTables [("t", pairRows)])).1 = .ok (.table u) ∧
      u.height = 1 ∧ u.columns.map (·.2) = [.ints .int64 [2], .ints .int64 [2]] := by
  have hRows : run (do evalWhere (← evalFrom (some (.name ["t"] {}))) (some (vAbove 15)))
      (.ofTables [("t", pairRows)]) = (.ok (.frame 1), workspaceAbove 15) := Prod.ext rfl rfl
  have hMeans : ∀ a ∈ countAndMax, a.Means [] ((workspaceAbove 15).tableAt 1).asOneGroup [] := by
    intro a ha
    rcases mem_pair.1 ha with rfl | rfl <;> exact .aggregate {} {} not_mem_nil rfl rfl rfl
  have hAggregates : ∀ a ∈ countAndMax, a.1.isAggregate = true := by
    intro a ha
    rcases mem_pair.1 ha with rfl | rfl <;> rfl
  have hHeight : ((workspaceAbove 15).tableAt 1).height = 2 := rfl
  obtain ⟨hOne, hPlain, -⟩ :=
    aggregates_answer_one_row_iff hRows (cons_ne_nil _ _) hAggregates (by decide) hMeans {}
  refine ⟨hMeans, hOne.2 ⟨by rw [hHeight]; decide, by decide, by decide, fun a ha => ?_⟩⟩
  rcases mem_pair.1 ha with rfl | rfl
  · exact hPlain (by rw [hHeight]; decide) _ ha "v" (.call {} {} rfl) (by decide)
  · exact hPlain (by rw [hHeight]; decide) _ ha "k" (.call {} {} rfl) (by decide)

/-- `SELECT count(v) FROM t WHERE v > 100` has no row where no row passes WHERE. -/
theorem no_count_of_no_rows :
    (Work.run (eval false (ofRowsAbove 100 [countOf "v"])) (.ofTables [("t", pairRows)])).1 =
      .ok (.table ⟨[], [("count(v)", .ints .int64 [])]⟩) := by
  have hRows : run (do evalWhere (← evalFrom (some (.name ["t"] {}))) (some (vAbove 100)))
      (.ofTables [("t", pairRows)]) = (.ok (.frame 1), workspaceAbove 100) := Prod.ext rfl rfl
  have hNone : ((workspaceAbove 100).tableAt 1).height = 0 := rfl
  have hGrouping : ((workspaceAbove 100).tableAt 1).wholeGrouping =
      ⟨((workspaceAbove 100).tableAt 1).withWholeKey, [(wholeKey, .ints .int64 [])], []⟩ :=
    groupByColumns_eq _ _ ((groups_wholeGrouping _).trans (if_pos hNone))
  have hGrouped : (GroupSource.table ((workspaceAbove 100).tableAt 1)).grouped = _ :=
    (grouped_table _).trans ((if_pos (Nat.zero_le 1)).trans (congrArg Except.ok hGrouping))
  refine (run_eval_whole hRows (show implicitGrouping [countOf "v"] = .all from rfl) {}).trans ?_
  unfold groupTargets
  rw [hGrouped]
  rfl

end Query

end TableQuery
