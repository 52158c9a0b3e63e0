import TableQuery.Proofs.GroupedColumns
import TableQuery.Proofs.RowCounts
import TableQuery.Proofs.StarNames

/-! Names that are quoted in a query. A name that has to be quoted means its column in the targets,
in WHERE and in ORDER BY; but GROUP BY drops it from the answer, and an aggregate does not find it.
-/
namespace TableQuery

open List Work Table

open Sql

variable {name : String} {extensions : List (String × Extension)} {targets : List Node}
  {c : String × Data}

theorem Sql.writePart_eq_of_isSimple (h : IsSimple (writePart name)) : writePart name = name :=
  writePart_eq_of_writeParts (writeParts_singleton name ▸ h.2.2) name (mem_singleton_self name)

/-- An aggregate is not called like a key is written. -/
theorem GroupResults.notMem_texts {texts : List String} {g : Grouping} {asked : Asked}
    {results : List (String × Data)} (h : GroupResults extensions targets texts g asked results)
    {r : String × Data} (hr : r ∈ results) : r.1 ∉ texts := by
  obtain ⟨target, hTarget, hText, -⟩ := h.exists_target hr
  simpa [hText] using (mem_filter.1 hTarget).2

/-- A sort of the columns under the names that are written for them is the sort under their own
names. -/
theorem Table.Simple.sortBy_shown {t : Table} (ht : t.Simple) (hc : c ∈ t.columns)
    (ascending : Bool) :
    bareNames <$> t.shown.sortBy [(writeParts [c.1], ascending)] =
      t.rebuilt.sortBy [(c.1, ascending)] := by
  have hNames : t.rebuilt.names = t.names := map_map
  have hNodup : t.shown.names.Nodup := by
    refine Nodup.of_map bareName ?_
    rw [← names_bareNames, ht.bareNames_shown, hNames]
    exact ht.nodup
  have hShown : t.shown.column (writeParts [c.1]) = .ok c.2.anew := by
    have hMem : (writeParts [c.1], c.2.anew) ∈ t.shown.columns := mem_map_of_mem hc
    rw [column, named_of_nodup hNodup hMem]
  have hRebuilt : t.rebuilt.column c.1 = .ok c.2.anew := by
    rw [column, named_rebuilt, named_of_nodup ht.nodup hc]
    rfl
  have hKeys : t.shown.sortKeys [(writeParts [c.1], ascending)] =
      t.rebuilt.sortKeys [(c.1, ascending)] := by
    simp only [sortKeys, mapM_cons, mapM_nil, hShown, hRebuilt]
  rw [sortBy, sortBy, hKeys]
  cases t.rebuilt.sortKeys [(c.1, ascending)] with
  | error e => rfl
  | ok keys =>
    refine congrArg Except.ok ((bareNames_pickRows _ _).trans ?_)
    rw [ht.bareNames_shown]
    rfl

theorem Sql.exists_of_mem_columnNodes {cs : List (String × Data)} {n : Node}
    (h : n ∈ columnNodes (cs.map (·.1))) :
    ∃ k ∈ cs, n.bareText = writePart k.1 ∧ n.outputName = writePart k.1 := by
  obtain ⟨_, hName, rfl⟩ := mem_map.1 h
  obtain ⟨k, hk, rfl⟩ := mem_map.1 hName
  exact ⟨k, hk, writeParts_singleton k.1, writeParts_singleton k.1⟩

/-- `SELECT ks FROM source ORDER BY orderBy`. -/
def Sql.orderedColumns (source : Node) (ks : List String) (orderBy : Option (List Node)) :
    Select where
  targets := columnNodes ks
  source := some source
  orderBy := orderBy

/-- `op(name)`. -/
def Sql.callOf (distinct : Bool) (op name : String) : Node :=
  .operation (.call distinct) op [.name [name] {}] {}

theorem Sql.eq_of_asksFor_callOf {distinct : Bool} {op column : String} {f : Aggregator}
    (h : (callOf distinct op name).AsksFor extensions column f) : column = writePart name := by
  cases h
  exact writeParts_singleton name

/-- A column that one target names, and no other, is in the answer under the name of the target. -/
theorem mem_answerColumns_of_once {columns : List (String × Data)} (hc : c ∈ columns)
    (hColumns : ∀ e ∈ columns, e.1 = c.1 → e = c) {target : Node} (hTarget : target ∈ targets)
    (hText : target.bareText = c.1)
    (hTargets : ∀ n ∈ targets, n.bareText = c.1 ∨ n.outputName = target.outputName → n = target) :
    (target.outputName, c.2) ∈ answerColumns targets columns := by
  have hName : answerName? targets c.1 = some target.outputName := by
    cases hName : answerName? targets c.1 with
    | none => exact absurd hText (bareText_ne_of_answerName? hName target hTarget)
    | some shown =>
      obtain ⟨n, hn, hSame, rfl⟩ := exists_of_answerName? hName
      rw [hTargets n hn (.inl hSame)]
  obtain ⟨e, he, hShown⟩ := mem_map.1 (mem_answerColumns hc hName)
  obtain ⟨column, hColumn, hColumnName, hData⟩ := exists_column_of_mem e he
  obtain ⟨n, hn, hColumnText, hOutput⟩ := exists_of_answerName? hColumnName
  obtain rfl := hTargets n hn (.inr (hOutput.trans hShown))
  obtain rfl := hColumns column hColumn (hColumnText.symm.trans hText)
  rw [← hShown, ← hData]
  exact he

namespace Query.KeyColumns

variable {w v : Workspace} {source : Node} {cs : List (String × Data)} {i : Nat} {t : Table}
  (h : KeyColumns w source cs v i t)
include h

theorem of_sublist {ks : List (String × Data)} (hks : ks.Sublist cs) :
    KeyColumns w source ks v i t where
  run_source := h.run_source
  tableAt_eq := h.tableAt_eq
  nameOf_eq c hc := h.nameOf_eq c (hks.subset hc)
  named c hc := h.named c (hks.subset hc)

section Simple

variable (hcs : cs ≠ []) (hSimple : ∀ c ∈ cs, IsSimple c.1)
include hcs hSimple

/-- What a select of the columns answers, in some order. -/
theorem evalSelect_columnNodes (ht : t.Rectangular) (orderBy : Option (List Node)) :
    (run (evalSelect (orderedColumns source (cs.map (·.1)) orderBy)) w).1 =
      bareNames <$> ordered orderBy (t.withColumns cs).shown := by
  let q := orderedColumns source (cs.map (·.1)) orderBy
  have hRows : run (do evalWhere (← evalFrom q.source) q.condition) w = (.ok (.frame i), v) :=
    run_bind_ok h.run_source
  have hValues :
      run (do evalTargets (.frame i) (← starColumns (.frame i) q.targets) q.targets) v = _ :=
    (run_bind_ok (run_starColumns_columnNodes _ _ _)).trans (h.run_evalTargets fun _ hc => hc)
  have hRun := run_evalRows_ungrouped (q := q) rfl (groupKeys_columnNodes _) rfl rfl hRows hValues
  rw [h.ofValues_columnNodes hcs ht hSimple] at hRun
  rw [evalSelect_eq, run_bind_ok hRun, run_arrangeRows rfl rfl]
  dsimp only [orderedColumns]
  cases ordered orderBy (t.withColumns cs).shown <;> rfl

variable (hc : c ∈ cs)
include hc

/-- A key that is selected is in the answer exactly if its name is written as it is. -/
theorem mem_names_groupedColumns_iff {others : List Node}
    (hOthers : ∀ n ∈ others, n.bareText ≠ c.1 ∧ bareName n.outputName ≠ c.1) {u : Table}
    (hAnswer : (run (evalSelect (groupedColumns source (cs.map (·.1)) others)) w).1 = .ok u) :
    c.1 ∈ u.names ↔ writePart c.1 = c.1 := by
  rw [h.evalSelect_groupedColumns hcs] at hAnswer
  obtain ⟨made, hMade, hu⟩ := bind_eq_ok hAnswer
  cases hu
  obtain ⟨texts, g, asked, results, hTexts, hg, hResults, rfl⟩ := groupResults_of_groupTargets hMade
  cases hg
  rw [keyTexts_columnNodes] at hTexts
  cases hTexts
  have hKeys := names_groupByColumns t cs
  rw [names_bareNames, mem_map]
  constructor
  · rintro ⟨shown, hShown, hBare⟩
    obtain ⟨e, he, rfl⟩ := mem_map.1 hShown
    obtain ⟨column, hColumn, hName, -⟩ := exists_column_of_mem e he
    obtain ⟨target, hTarget, hText, hOutput⟩ := exists_of_answerName? hName
    rcases mem_append.1 hTarget with hKey | hOther
    · obtain ⟨k, hk, hKeyText, hKeyOutput⟩ := exists_of_mem_columnNodes hKey
      -- the target is the key itself, and is looked up by what is written for it
      have hSame : k.1 = c.1 := by
        rw [← hBare, ← hOutput, hKeyOutput, ← writeParts_singleton,
          (hSimple k hk).isWhole.bareName_writeParts]
      rw [hKeyText, hSame] at hText
      rcases mem_append.1 hColumn with hColumn | hColumn
      · have hMem : column.1 ∈ cs.map (·.1) := hKeys ▸ mem_map_of_mem hColumn
        obtain ⟨k', hk', hKeyName⟩ := mem_map.1 hMem
        exact writePart_eq_of_isSimple (hText ▸ hKeyName ▸ hSimple k' hk')
      · have hKeyText : writePart c.1 ∈ (cs.map (·.1)).map fun k => writeParts [k] :=
          mem_map.2 ⟨c.1, mem_map_of_mem hc, writeParts_singleton c.1⟩
        exact absurd (hText ▸ hKeyText) (hResults.notMem_texts hColumn)
    · exact absurd (hOutput ▸ hBare) (hOthers target hOther).2
  · intro hPlain
    have hTarget : Node.name [c.1] {} ∈ columnNodes (cs.map (·.1)) ++ others :=
      mem_append_left _ (mem_map_of_mem (mem_map_of_mem hc))
    have hFound : answerName? (columnNodes (cs.map (·.1)) ++ others) c.1 = some c.1 := by
      cases hName : answerName? (columnNodes (cs.map (·.1)) ++ others) c.1 with
      | none =>
        exact absurd (writeParts_of_writePart hPlain) (bareText_ne_of_answerName? hName _ hTarget)
      | some shown =>
        obtain ⟨target, hTarget, hText, rfl⟩ := exists_of_answerName? hName
        rcases mem_append.1 hTarget with hKey | hOther
        · obtain ⟨k, -, hKeyText, hKeyOutput⟩ := exists_of_mem_columnNodes hKey
          rw [hKeyOutput, ← hKeyText, hText]
        · exact absurd hText (hOthers target hOther).1
    obtain ⟨key, hKey, hKeyName⟩ : ∃ key ∈ (t.groupByColumns cs).keys, key.1 = c.1 := by
      rw [← mem_map, hKeys]
      exact mem_map_of_mem hc
    rw [← hKeyName] at hFound
    exact ⟨c.1, hKeyName ▸ mem_answerColumns (mem_append_left _ hKey) hFound,
      (hSimple c hc).isWhole.bareName_eq⟩

end Simple

/-- An aggregate of a column beside the keys is answered exactly if the name of the column is
written as it is. -/
theorem exists_aggregate_iff (hcs : cs ≠ []) (hNodup : (cs.map (·.1)).Nodup) {op : String}
    {distinct : Bool} {f : Aggregator} (hf : aggregatorOf v.catalog.extensions op distinct = .ok f)
    {d : Data} (hData : (t.groupByColumns cs).aggregateColumn name f = .ok d)
    (hText : writePart name = name ∨ t.named (writePart name) = [])
    (hNew : ∀ k ∈ cs, (callOf distinct op name).bareText ≠ k.1 ∧
      (callOf distinct op name).bareText ≠ writePart k.1) :
    (∃ u,
      (run (evalSelect (groupedColumns source (cs.map (·.1)) [callOf distinct op name])) w).1 =
        .ok u ∧
      (bareName (callOf distinct op name).bareText, d) ∈ u.columns) ↔ writePart name = name := by
  let call := callOf distinct op name
  let targets := columnNodes (cs.map (·.1)) ++ [call]
  let texts := (cs.map (·.1)).map fun k => writeParts [k]
  have hTexts : keyTexts (columnNodes (cs.map (·.1))) = .ok texts := keyTexts_columnNodes _
  have hKeys := names_groupByColumns t cs
  have hOther : otherTargets texts targets = [call] := by
    have hNone :
        (columnNodes (cs.map (·.1))).filter (fun n => !texts.contains n.bareText) = [] := by
      refine filter_eq_nil_iff.2 fun n hn => ?_
      obtain ⟨k, hk, rfl⟩ := mem_map.1 hn
      have hMem : (Node.name [k] {}).bareText ∈ texts := mem_map.2 ⟨k, hk, rfl⟩
      simpa using hMem
    have hCall : call.bareText ∉ texts := by
      intro hMem
      obtain ⟨_, hName, hSame⟩ := mem_map.1 hMem
      obtain ⟨k, hk, rfl⟩ := mem_map.1 hName
      exact (hNew k hk).2 (hSame.symm.trans (writeParts_singleton k.1))
    rw [otherTargets, filter_append, hNone, filter_cons_of_pos (by simpa using hCall)]
    rfl
  rw [h.evalSelect_groupedColumns hcs]
  constructor
  · rintro ⟨u, hu, -⟩
    obtain ⟨made, hMade, -⟩ := bind_eq_ok hu
    obtain ⟨_, g, asked, results, hFound, hg, hResults, -⟩ := groupResults_of_groupTargets hMade
    cases hg
    cases hTexts.symm.trans hFound
    obtain ⟨a, ha, hAsks⟩ := exists_mem_right hResults.asks (hOther ▸ mem_singleton_self call)
    obtain ⟨r, -, hComputes⟩ := exists_mem_right hResults.computes ha
    have hHas : t.has a.2.1 = true := hComputes.has
    rw [eq_of_asksFor_callOf hAsks.2] at hHas
    exact hText.resolve_right (has_eq_true_iff.1 hHas)
  · intro hPlain
    have hAsks : call.AsksFor v.catalog.extensions name f :=
      writeParts_of_writePart hPlain ▸ .call {} {} hf
    have hResults : GroupResults v.catalog.extensions targets texts (t.groupByColumns cs)
        [(call.bareText, name, f)] [(call.bareText, d)] := by
      refine ⟨?_, ?_, cons_ne_nil _ _, .cons ⟨rfl, hData⟩ .nil, hKeys ▸ hNodup, ?_⟩
      · rw [hOther]
        exact .cons ⟨rfl, hAsks⟩ .nil
      · rw [hOther]
        exact nodup_singleton _
      · rw [hKeys]
        refine forall_mem_singleton.2 fun hMem => ?_
        obtain ⟨k, hk, hSame⟩ := mem_map.1 hMem
        exact (hNew k hk).1 hSame.symm
    rw [groupTargets_of_groupResults hTexts rfl hResults]
    refine ⟨_, rfl, mem_map.2 ⟨(call.bareText, d), ?_, rfl⟩⟩
    refine mem_answerColumns_of_once (mem_append_right _ (mem_singleton_self (call.bareText, d)))
      (fun e he hName => ?_) (mem_append_right _ (mem_singleton_self call)) rfl fun n hn hSame => ?_
    · refine (mem_append.1 he).elim (fun hKey => ?_) mem_singleton.1
      have hMem : e.1 ∈ cs.map (·.1) := hKeys ▸ mem_map_of_mem hKey
      obtain ⟨k, hk, hKeyName⟩ := mem_map.1 hMem
      exact absurd (hKeyName.trans hName).symm (hNew k hk).1
    · refine (mem_append.1 hn).elim (fun hKey => ?_) mem_singleton.1
      obtain ⟨k, hk, hKeyText, hKeyOutput⟩ := exists_of_mem_columnNodes hKey
      rcases hSame with hSame | hSame
      · exact absurd (hSame.symm.trans hKeyText) (hNew k hk).2
      · exact absurd (hSame.symm.trans hKeyOutput) (hNew k hk).2

theorem run_evalWhere_column (hc : c ∈ cs) (form : OpForm) (op : String) (others : List Node)
    (tag tag' : Tag) :
    run (evalWhere (.frame i) (some (.operation form op (.name [c.1] tag :: others) tag'))) v =
      run (do
        let values ← evalArgs (.frame i) others
        filter (.frame i)
          (← call op (.column ⟨t.labels, some c.1, c.2⟩ (some ⟨i, c.1⟩) :: values))) v := by
  rw [evalWhere, evalCondition, evalArgs, evalExpr]
  simp only [bind_assoc, pure_bind]
  rw [run_bind_ok (h.run_columnOf hc)]

end Query.KeyColumns

namespace Query

/-- A simple name means its column in the targets, in WHERE and in ORDER BY. After GROUP BY the
column and its aggregates are in the answer exactly if the name is written as it is. -/
theorem simple_name_in_clauses {w v : Workspace} {source : Node} {cs : List (String × Data)}
    {i : Nat} {t : Table} (h : KeyColumns w source cs v i t) (ht : t.Rectangular)
    (hNodup : (cs.map (·.1)).Nodup) (hSimple : ∀ c ∈ cs, IsSimple c.1)
    {c : String × Data} (hc : c ∈ cs) :
    (Work.run (evalSelect (orderedColumns source (cs.map (·.1)) none)) w).1 =
      .ok (t.withColumns cs).rebuilt ∧
    (∀ form op others tag tag',
      Work.run
          (evalWhere (.frame i) (some (.operation form op (.name [c.1] tag :: others) tag'))) v =
        Work.run (do
          let values ← evalArgs (.frame i) others
          filter (.frame i)
            (← call op (.column ⟨t.labels, some c.1, c.2⟩ (some ⟨i, c.1⟩) :: values))) v) ∧
    (∀ direction, (Work.run (evalSelect (orderedColumns source (cs.map (·.1))
        (some [.ordering (.name [c.1] {}) direction none {}]))) w).1 =
      (t.withColumns cs).rebuilt.sortBy [(c.1, direction != "DESC")]) ∧
    (∀ others u, (∀ n ∈ others, n.bareText ≠ c.1 ∧ bareName n.outputName ≠ c.1) →
      (Work.run (evalSelect (groupedColumns source (cs.map (·.1)) others)) w).1 = .ok u →
        (c.1 ∈ u.names ↔ writePart c.1 = c.1)) ∧
    (∀ ks distinct op f d, ks ≠ [] → ks.Sublist cs →
      aggregatorOf v.catalog.extensions op distinct = .ok f →
      (t.groupByColumns ks).aggregateColumn c.1 f = .ok d →
      writePart c.1 = c.1 ∨ t.named (writePart c.1) = [] →
      (∀ k ∈ ks, (callOf distinct op c.1).bareText ≠ k.1 ∧
        (callOf distinct op c.1).bareText ≠ writePart k.1) →
      ((∃ u,
        (Work.run (evalSelect
          (groupedColumns source (ks.map (·.1)) [callOf distinct op c.1])) w).1 = .ok u ∧
        (bareName (callOf distinct op c.1).bareText, d) ∈ u.columns) ↔ writePart c.1 = c.1)) := by
  have hcs : cs ≠ [] := ne_nil_of_mem hc
  have hTable : (t.withColumns cs).Simple := ⟨hNodup, forall_mem_map.2 hSimple⟩
  refine ⟨?_, h.run_evalWhere_column hc, fun direction => ?_, fun others u hOthers hAnswer => ?_,
    ?_⟩
  · rw [h.evalSelect_columnNodes hcs hSimple ht, ← hTable.bareNames_shown]
    rfl
  · rw [h.evalSelect_columnNodes hcs hSimple ht, ← hTable.sortBy_shown hc]
    rfl
  · exact h.mem_names_groupedColumns_iff hcs hSimple hc hOthers hAnswer
  · intro ks distinct op f d hSome hks hf hData hText hNew
    exact (h.of_sublist hks).exists_aggregate_iff hSome ((hks.map _).nodup hNodup) hf hData hText
      hNew

def quotedRows : Table :=
  ⟨Column.freshLabels 3, [("my col", .ints .int64 [2, 1, 2]), ("v", .ints .int64 [10, 20, 30])]⟩

theorem keyColumns_quotedRows :
    KeyColumns (.ofTables [("t", quotedRows)]) (.name ["t"] {}) quotedRows.columns
      (run (evalSource (.name ["t"] {})) (.ofTables [("t", quotedRows)])).2 0 quotedRows where
  run_source := Prod.ext rfl rfl
  tableAt_eq := rfl
  nameOf_eq := fun _ _ => rfl
  named := by
    intro c hc
    rcases mem_pair.1 hc with rfl | rfl <;> rfl

theorem isSimple_quotedRows : ∀ c ∈ quotedRows.columns, IsSimple c.1 := by
  intro c hc
  rcases mem_pair.1 hc with rfl | rfl <;> exact ⟨by decide, by decide, by decide⟩

/-- A quoted name that is selected and sorted by. -/
theorem simple_name_in_clauses_quoted :
    (Work.run (evalSelect (orderedColumns (.name ["t"] {}) ["my col", "v"] none))
      (.ofTables [("t", quotedRows)])).1 = .ok quotedRows ∧
    (Work.run (evalSelect (orderedColumns (.name ["t"] {}) ["my col", "v"]
      (some [.ordering (.name ["my col"] {}) "DESC" none {}]))) (.ofTables [("t", quotedRows)])).1 =
      quotedRows.sortBy [("my col", false)] := by
  have hRectangular : quotedRows.Rectangular := by
    intro c hc
    rcases mem_pair.1 hc with rfl | rfl <;> rfl
  obtain ⟨hSelected, -, hOrdered, -⟩ := simple_name_in_clauses keyColumns_quotedRows hRectangular
    (by decide) isSimple_quotedRows mem_cons_self
  exact ⟨hSelected, hOrdered "DESC"⟩

/-- A quoted name that the rows are grouped by is not in the answer, and its sum is not found. -/
theorem quoted_key_is_dropped :
    (∃ u,
      (Work.run (evalSelect (groupedColumns (.name ["t"] {}) ["my col"] [callOf false "count" "v"]))
        (.ofTables [("t", quotedRows)])).1 = .ok u ∧
      "my col" ∉ u.names) ∧
    (Work.run
      (evalSelect { targets := [callOf false "sum" "my col"], source := some (.name ["t"] {}) })
      (.ofTables [("t", quotedRows)])).1 = .error .missingKey := by
  refine ⟨?_, rfl⟩
  let column : String × Data := ("my col", .ints .int64 [2, 1, 2])
  have hks : [column].Sublist quotedRows.columns := singleton_sublist.2 mem_cons_self
  have hKey := keyColumns_quotedRows.of_sublist hks
  have hCount : (quotedRows.groupByColumns [column]).aggregateColumn "v" (.known .count) = .ok _ :=
    rfl
  have hKnown : aggregatorOf [] "count" false = .ok (.known .count) := rfl
  obtain ⟨u, hu, -⟩ := (hKey.exists_aggregate_iff (cons_ne_nil _ _) (nodup_singleton _)
    hKnown hCount (.inl rfl) (forall_mem_singleton.2 ⟨by decide, by decide⟩)).2 rfl
  refine ⟨u, hu, fun hMem => ?_⟩
  have hPlain := (hKey.mem_names_groupedColumns_iff (cons_ne_nil _ _)
    (fun c hc => isSimple_quotedRows c (hks.subset hc)) mem_cons_self
    (forall_mem_singleton.2 ⟨by decide, by decide⟩) hu).1 hMem
  exact absurd hPlain (by decide)

end Query

end TableQuery
