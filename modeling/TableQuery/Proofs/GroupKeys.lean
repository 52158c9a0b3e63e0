import TableQuery.Proofs.GroupTargets
import TableQuery.Proofs.GroupedRows

/-! Grouping by the columns that are selected. With an aggregate among the targets the keys of the
answer are the distinct rows of these columns. Without one there is no answer. -/
namespace TableQuery

open List Work Column

open Sql

variable {g : Grouping}

namespace Sql

variable {k : String}

theorem mem_of_writePart (h : writePart k = k) : ∀ x ∈ k.toList, x.isAlphanum = true ∨ x = '_' := by
  unfold writePart at h
  dsimp only at h
  split at h
  · rename_i hPlain
    rw [Bool.and_eq_true] at hPlain
    generalize k.toList = cs at hPlain
    cases cs with
    | nil => simp
    | cons c rest =>
      have hFirst := hPlain.1
      simp only [isPlainName, Bool.and_eq_true, Bool.or_eq_true, beq_iff_eq, all_eq_true] at hFirst
      refine forall_mem_cons.2 ⟨hFirst.1.imp (fun hAlpha => ?_) id, hFirst.2⟩
      rw [Char.isAlphanum, hAlpha, Bool.true_or]
  · have hLength := congrArg (fun s => s.toList.length) h
    simp at hLength
    omega

/-- A name that is written as it is has neither dots nor backquotes. -/
theorem isSimple_of_writePart (h : writePart k = k) : IsSimple k := by
  have hMem := mem_of_writePart h
  refine ⟨?_, fun hDot => ?_, fun hQuote => ?_⟩
  · rintro rfl
    have hLength := congrArg String.length h
    cases hLength
  · rcases hMem _ hDot with hDot | hDot <;> cases hDot
  · rcases hMem _ hQuote with hQuote | hQuote <;> cases hQuote

def columnNodes (ks : List String) : List Node := ks.map fun k => .name [k] {}

/-- `SELECT DISTINCT ks FROM source`. -/
def distinctColumns (source : Node) (ks : List String) : Select where
  targets := columnNodes ks
  distinct := true
  source := some source

/-- `SELECT ks, others FROM source GROUP BY ks`. -/
def groupedColumns (source : Node) (ks : List String) (others : List Node) : Select where
  targets := columnNodes ks ++ others
  source := some source
  groupBy := some (columnNodes ks)

/-- `count(k)`. -/
def countOf (k : String) : Node := .operation (.call false) "count" [.name [k] {}] {}

theorem writeParts_of_writePart (h : writePart k = k) : writeParts [k] = k := by
  rw [writeParts, map_singleton, String.intercalate_singleton, h]

/-- A call is not written like a name. -/
theorem bareText_countOf_ne (h : writePart k = k) (column : String) :
    (countOf column).bareText ≠ k := by
  intro hText
  have hParen : '(' ∈ (countOf column).bareText.toList := by
    simp [countOf, Node.bareText, Node.render, Tag.wrap, renderOperation]
  rcases mem_of_writePart h _ (hText ▸ hParen) with hParen | hParen <;> cases hParen

end Sql

def Grouping.keyTable (g : Grouping) : Table := ⟨Column.freshLabels g.groups.length, g.keys⟩

section AnswerColumns

variable {targets : List Node}

/-- Columns that keep their names come into the answer as they are. -/
theorem foldl_noteColumn_kept {keys done : List (String × Data)}
    (hKept : ∀ key ∈ keys, answerName? targets key.1 = some key.1)
    (hNodup : ((done ++ keys).map (·.1)).Nodup) :
    keys.foldl (noteColumn targets) done = done ++ keys := by
  induction keys generalizing done with
  | nil => simp
  | cons key rest ih =>
    obtain ⟨hKey, hRest⟩ := forall_mem_cons.1 hKept
    have hFresh : key.1 ∉ done.map (·.1) := by
      rw [map_append, nodup_append] at hNodup
      exact fun hDone => hNodup.2.2 _ hDone _ mem_cons_self rfl
    have hNoted : noteColumn targets done key = done ++ [key] := by
      have hSet := setNamed_append hFresh [] key.2
      rw [append_nil] at hSet
      rw [noteColumn, hKey]
      exact hSet
    rw [foldl_cons, hNoted, ih hRest (by simpa using hNodup), append_assoc, singleton_append]

/-- Columns that get other names leave those that are there. -/
theorem foldl_noteColumn_others {keys results : List (String × Data)}
    (hOthers : ∀ r ∈ results, ∀ name ∈ answerName? targets r.1, name ∉ keys.map (·.1))
    (rest : List (String × Data)) :
    ∃ rest', results.foldl (noteColumn targets) (keys ++ rest) = keys ++ rest' := by
  induction results generalizing rest with
  | nil => exact ⟨rest, rfl⟩
  | cons r results ih =>
    obtain ⟨hFirst, hOthers⟩ := forall_mem_cons.1 hOthers
    rw [foldl_cons, noteColumn]
    split
    · exact ih hOthers rest
    · rename_i name hName
      rw [setNamed_append (hFirst name hName)]
      exact ih hOthers _

end AnswerColumns

section ColumnNodes

variable {ks : List String} {others : List Node} (hPlain : ∀ k ∈ ks, writePart k = k)
  (hOthers : ∀ n ∈ others, n.bareText ∉ ks ∧ n.outputName ∉ ks)
variable {extensions : List (String × Extension)} {k : String}

theorem keyTexts_columnNodes (ks : List String) :
    keyTexts (columnNodes ks) = .ok (ks.map fun k => writeParts [k]) := by
  induction ks with
  | nil => rfl
  | cons k rest ih =>
    rw [columnNodes, map_cons, keyTexts, ← columnNodes, ih]
    rfl

/-- The keys among the targets ask for nothing. -/
theorem askedOf_columnNodes (extensions : List (String × Extension)) {keys : List String}
    (h : ∀ k ∈ ks, writeParts [k] ∈ keys) (others : List Node) :
    askedOf extensions keys [] (columnNodes ks ++ others) = askedOf extensions keys [] others := by
  induction ks with
  | nil => rfl
  | cons k rest ih =>
    obtain ⟨hk, hRest⟩ := forall_mem_cons.1 h
    have hKnown : keys.contains (Node.bareText (.name [k] {})) = true := contains_iff_mem.2 hk
    rw [columnNodes, map_cons, cons_append, askedOf, hKnown]
    · exact ih hRest
    · intro _ _ _ _ hNode
      cases hNode

theorem groupTargets_columnNodes (extensions : List (String × Extension)) (g : Grouping) :
    groupTargets extensions (columnNodes ks ++ []) (.grouping g) (columnNodes ks) =
      .error .wrongType := by
  have hAsked :
      askedOf extensions (ks.map fun k => writeParts [k]) [] (columnNodes ks ++ []) = .ok [] :=
    askedOf_columnNodes extensions (fun k hk => mem_map.2 ⟨k, hk, rfl⟩) []
  rw [groupTargets, keyTexts_columnNodes]
  change (askedOf extensions _ [] _ >>= _) = _
  rw [hAsked]
  rfl

include hPlain in
theorem bareText_columnNodes {n : Node} (hn : n ∈ columnNodes ks) :
    n.bareText ∈ ks ∧ n.outputName = n.bareText := by
  obtain ⟨k, hk, rfl⟩ := mem_map.1 hn
  have hText : Node.bareText (.name [k] {}) = k := writeParts_of_writePart (hPlain k hk)
  exact ⟨hText.symm ▸ hk, rfl⟩

include hPlain in
/-- The groups by plain names can be counted. -/
theorem exists_groupTargets_count (hKeys : g.keys.map (·.1) = ks) (hNodup : ks.Nodup)
    (hCount : extensions.lookup "count" = none) {d : Data} (hk : k ∈ ks)
    (hd : g.table.named k = [d]) :
    ∃ u, groupTargets extensions (columnNodes ks ++ [countOf k]) (.grouping g) (columnNodes ks) =
        .ok u := by
  have hTexts : keyTexts (columnNodes ks) = .ok ks := by
    rw [keyTexts_columnNodes, map_congr_left fun k hk => writeParts_of_writePart (hPlain k hk),
      map_id']
  have hAggregator : aggregatorOf extensions "count" false = .ok (.known .count) := by
    have hLower : (if false = true then Text.lower "count" ++ "_distinct" else Text.lower "count") =
        "count" := rfl
    rw [aggregatorOf, hLower, hCount]
    rfl
  have hOther : (countOf k).bareText ∉ ks := fun hMem => bareText_countOf_ne (hPlain _ hMem) k rfl
  have hOthers : otherTargets ks (columnNodes ks ++ [countOf k]) = [countOf k] := by
    rw [otherTargets, filter_append, filter_eq_nil_iff.2,
      filter_cons_of_pos (by simpa using hOther)]
    · rfl
    · exact fun n hn => by simpa using (bareText_columnNodes hPlain hn).1
  have hCalls : (countOf k).AsksFor extensions (writeParts [k]) (.known .count) :=
    .call {} {} hAggregator
  rw [writeParts_of_writePart (hPlain k hk)] at hCalls
  have hComputes : g.Computes ((countOf k).bareText, k, .known .count)
      ((countOf k).bareText, d.counts g.groups) :=
    ⟨rfl, Grouping.aggregateColumn_eq_ok_iff.2 ⟨d, hd, rfl⟩⟩
  have hResults : GroupResults extensions (columnNodes ks ++ [countOf k]) ks g
      [((countOf k).bareText, k, .known .count)] [((countOf k).bareText, d.counts g.groups)] := by
    refine ⟨?_, ?_, cons_ne_nil _ _, .cons hComputes .nil, hKeys ▸ hNodup,
      forall_mem_singleton.2 (hKeys ▸ hOther)⟩
    · rw [hOthers]
      exact .cons ⟨rfl, hCalls⟩ .nil
    · rw [hOthers]
      exact nodup_singleton _
  exact ⟨_, groupTargets_of_groupResults hTexts rfl hResults⟩

include hPlain hOthers

/-- A key that is a target keeps its name. -/
theorem answerName?_key (hk : k ∈ ks) : answerName? (columnNodes ks ++ others) k = some k := by
  have hNode : Node.name [k] {} ∈ columnNodes ks ++ others :=
    mem_append_left _ (mem_map_of_mem hk)
  cases hName : answerName? (columnNodes ks ++ others) k with
  | none =>
    exact absurd (writeParts_of_writePart (hPlain k hk)) (bareText_ne_of_answerName? hName _ hNode)
  | some shown =>
    obtain ⟨target, hTarget, hText, hShown⟩ := exists_of_answerName? hName
    rcases mem_append.1 hTarget with hTarget | hTarget
    · rw [← hShown, (bareText_columnNodes hPlain hTarget).2, hText]
    · exact absurd (hText ▸ hk) (hOthers target hTarget).1

/-- What is no key gets the name of none. -/
theorem answerName?_other {name shown : String} (hName : name ∉ ks)
    (h : answerName? (columnNodes ks ++ others) name = some shown) : shown ∉ ks := by
  obtain ⟨target, hTarget, hText, hShown⟩ := exists_of_answerName? h
  rcases mem_append.1 hTarget with hTarget | hTarget
  · exact absurd (hText ▸ (bareText_columnNodes hPlain hTarget).1) hName
  · exact hShown ▸ (hOthers target hTarget).2

/-- The answer of a grouping starts with the keys of its groups. -/
theorem groupTargets_eq_ok {u : Table} (hKeys : g.keys.map (·.1) = ks)
    (h : groupTargets extensions (columnNodes ks ++ others) (.grouping g) (columnNodes ks) =
      .ok u) : ∃ rest, u = ⟨freshLabels g.groups.length, g.keys ++ rest⟩ := by
  obtain ⟨_, _, asked, results, -, hg, hResults, rfl⟩ := groupResults_of_groupTargets h
  cases hg
  have hKept : ∀ key ∈ g.keys, answerName? (columnNodes ks ++ others) key.1 = some key.1 :=
    fun key hKey => answerName?_key hPlain hOthers (hKeys ▸ mem_map_of_mem hKey)
  -- the keys come first and keep their names, and no later column takes one of these
  have hFirst : g.keys.foldl (noteColumn (columnNodes ks ++ others)) [] = [] ++ g.keys :=
    foldl_noteColumn_kept hKept hResults.keysOnce
  have hLater : ∀ r ∈ results, ∀ name ∈ answerName? (columnNodes ks ++ others) r.1,
        name ∉ g.keys.map (·.1) :=
    fun r hr name hName =>
      hKeys ▸ answerName?_other hPlain hOthers (hKeys ▸ hResults.others r hr) hName
  obtain ⟨rest, hRest⟩ := foldl_noteColumn_others hLater []
  refine ⟨rest, congrArg (Table.mk _) ?_⟩
  rw [answerColumns_eq_foldl, foldl_append, hFirst, nil_append, ← hRest, append_nil]

end ColumnNodes

/-- Rows of the same values repeat each other in the same way. -/
theorem Cell.pairwise_sameRow {rows rows' : List (List Cell)}
    (h : Forall₂ (Forall₂ SameValue) rows rows')
    (hRows : rows.Pairwise fun r s => sameRow s r = false) :
    rows'.Pairwise fun r s => sameRow s r = false := by
  obtain ⟨hLength, hRows'⟩ := forall₂_iff_get.1 h
  rw [pairwise_iff_getElem] at hRows ⊢
  intro i j hi hj hij
  rw [← hRows i j (hLength ▸ hi) (hLength ▸ hj) hij]
  exact (sameRow_eq (hRows' j (hLength ▸ hj) hj) (hRows' i (hLength ▸ hi) hi)).symm

namespace Table

variable {t : Table} {cs : List (String × Data)}

def withColumns (t : Table) (cs : List (String × Data)) : Table := ⟨Column.freshLabels t.height, cs⟩

def firstColumns (t : Table) (n : Nat) : Table := { t with columns := t.columns.take n }

/-- Columns of a table that was read from a file, or of any table if objects in them are texts. -/
def Ordinary (t : Table) (cs : List (String × Data)) : Prop :=
  (∃ (e : Entry) (drive : Drive), e.fetch drive = .ok (some t)) ∨
    t.Rectangular ∧ ∀ c ∈ cs, ∀ xs, c.2 = .objects xs → ∀ cell ∈ xs, ∃ s, cell = .text s

/-- Tables with columns of the same names whose rows have, in some order, the same values. -/
structure SameRows (t u : Table) : Prop where
  names : t.names = u.names
  rows : ∃ rows, t.rows.Perm rows ∧ List.Forall₂ (List.Forall₂ Cell.SameValue) rows u.rows

theorem height_withColumns (t : Table) (cs : List (String × Data)) :
    (t.withColumns cs).height = t.height :=
  length_freshLabels t.height

/-- A table is grouped by columns that are the only ones of their names. -/
theorem groupBy_of_named (h : ∀ c ∈ cs, t.named c.1 = [c.2]) :
    t.groupBy (cs.map (·.1)) = .ok (t.groupByColumns cs) := by
  have hHas : (cs.map (·.1)).all t.has = true := by
    rw [all_map, all_eq_true]
    exact fun c hc => Table.has_eq_true_iff.2 (by simp [h c hc])
  have hColumns : (cs.map (·.1)).mapM
      (fun k => (do return (k, ← t.column k) : Except Fault (String × Data))) = .ok cs := by
    rw [mapM_eq_ok_iff, forall₂_map_left_iff, forall₂_same]
    intro c hc
    have hColumn : t.column c.1 = .ok c.2 := by
      rw [Table.column, h c hc]
    rw [hColumn]
    rfl
  rw [Table.groupBy, hHas, hColumns]
  simp only [Bool.not_true, Bool.and_false, Bool.false_eq_true, if_false]
  rfl

/-- The groups of a table by some columns are those of the columns' own rows. -/
theorem groups_groupByColumns (t : Table) (cs : List (String × Data)) :
    (t.groupByColumns cs).groups = (t.withColumns cs).groupsByRow := by
  rw [groupsByRow, height_withColumns]
  rfl

theorem names_groupByColumns (t : Table) (cs : List (String × Data)) :
    (t.groupByColumns cs).keys.map (·.1) = cs.map (·.1) := by
  rw [groupByColumns, map_map]
  rfl

theorem rows_congr {u : Table} (hHeight : t.height = u.height) (hColumns : t.columns = u.columns) :
    t.rows = u.rows := by
  have hRow : t.row = u.row := by
    funext i
    rw [row, row, hColumns]
  rw [rows_eq, rows_eq, hHeight, hRow]

/-- The keys of the groups are the rows that are left by DISTINCT, in another order. -/
theorem rows_keyTable_perm (hcs : cs ≠ []) (ht : (t.withColumns cs).Rectangular)
    (hSolid : ∀ c ∈ cs, c.2.Solid) :
    (t.groupByColumns cs).keyTable.rows.Perm
      ((t.withColumns cs).newRows.map (t.withColumns cs).row) := by
  have hPerm := heads_perm_newRows ht hSolid
  have hHeads : ∀ p ∈ (t.withColumns cs).groupsByRow.filterMap head?,
      p < (t.withColumns cs).height := fun p hp => lt_of_mem_newRows (hPerm.mem_iff.1 hp)
  have hColumns : (t.groupByColumns cs).keys =
      ((t.withColumns cs).pickRows ((t.withColumns cs).groupsByRow.filterMap head?)).columns := by
    rw [← columns_groupsByRow hSolid, ← groups_groupByColumns]
    rfl
  have hHeight : (t.groupByColumns cs).keyTable.height =
      ((t.withColumns cs).pickRows ((t.withColumns cs).groupsByRow.filterMap head?)).height := by
    -- a key has an entry for each group, and one for each row that was picked
    obtain ⟨c, rest, rfl⟩ := exists_cons_of_ne_nil hcs
    obtain ⟨key, hKey⟩ := exists_mem_of_ne_nil (t.groupByColumns (c :: rest)).keys (cons_ne_nil _ _)
    rw [Grouping.keyTable, height, length_freshLabels,
      ← whole_groupByColumns t (c :: rest) key hKey]
    exact ht.pickRows _ key (hColumns ▸ hKey)
  rw [rows_congr hHeight hColumns, ht.rows_pickRows hHeads]
  exact hPerm.map _

end Table

/-- Plain names stay as they are in an answer. -/
theorem firstColumns_bareNames {ks : List String} (hPlain : ∀ k ∈ ks, writePart k = k)
    {keys : List (String × Data)} (hKeys : keys.map (·.1) = ks) (labels : List Cell)
    (rest : List (String × Data)) :
    (Table.mk labels (keys ++ rest)).bareNames.firstColumns ks.length = ⟨labels, keys⟩ := by
  have hBare : ∀ key ∈ keys, (bareName key.1, key.2) = key := fun key hKey => by
    rw [(isSimple_of_writePart (hPlain key.1 (hKeys ▸ mem_map_of_mem hKey))).isWhole.bareName_eq]
  have hTake : ((keys ++ rest).map fun c => (bareName c.1, c.2)).take ks.length = keys := by
    rw [map_append, map_congr_left hBare, map_id', ← hKeys, length_map, take_left']
    rfl
  exact congrArg (Table.mk labels) hTake

namespace Query

theorem groupKeys_columnNodes (ks : List String) : groupKeys (columnNodes ks) none = .ok [] := by
  have hNone : (columnNodes ks).any Node.isAggregate = false := by
    rw [columnNodes, any_map, any_eq_false]
    exact fun _ _ => Bool.false_ne_true
  rw [groupKeys, implicitGrouping, hNone]
  rfl

theorem run_starColumns_columnNodes (ks : List String) (rows : Relation) (w : Workspace) :
    run (starColumns rows (columnNodes ks)) w = (.ok none, w) := by
  have hNone : (columnNodes ks).any isStar = false := by
    rw [columnNodes, any_map, any_eq_false]
    exact fun _ _ => Bool.false_ne_true
  rw [starColumns, hNone]
  rfl

/-- Columns of the table that a FROM clause hands out, which readers see under their own names. -/
structure KeyColumns (w : Workspace) (source : Node) (cs : List (String × Data)) (v : Workspace)
    (i : Nat) (t : Table) : Prop where
  run_source : Work.run (evalSource source) w = (.ok (.frame i), v)
  tableAt_eq : v.tableAt i = t
  nameOf_eq : ∀ c ∈ cs, (v.frames[i]?.getD default).nameOf c.1 = c.1
  named : ∀ c ∈ cs, t.named c.1 = [c.2]

namespace KeyColumns

variable {w v : Workspace} {source : Node} {cs : List (String × Data)} {i : Nat} {t : Table}
  (h : KeyColumns w source cs v i t)
variable {c : String × Data} {ds : List (String × Data)}
include h

theorem run_columnOf (hc : c ∈ cs) :
    run (columnOf [c.1] (.frame i)) v =
      (.ok (.column ⟨t.labels, some c.1, c.2⟩ (some ⟨i, c.1⟩)), v) := by
  rw [run_columnOf_simple (h.tableAt_eq ▸ h.named c hc), h.nameOf_eq c hc, h.tableAt_eq]

theorem run_evalKeys (hds : ∀ c ∈ ds, c ∈ cs) :
    run (evalKeys (.frame i) (columnNodes (ds.map (·.1)))) v = (.ok (ds.map (·.1)), v) := by
  induction ds with
  | nil => rfl
  | cons c rest ih =>
    obtain ⟨hc, hRest⟩ := forall_mem_cons.1 hds
    rw [map_cons, columnNodes, map_cons, evalKeys, run_bind_ok (h.run_columnOf hc)]
    rw [← columnNodes, run_bind_ok (ih hRest)]
    rfl

/-- What a select over the columns and other targets answers. -/
theorem evalSelect_groupedColumns (hcs : cs ≠ []) (others : List Node) :
    (run (evalSelect (groupedColumns source (cs.map (·.1)) others)) w).1 =
      Table.bareNames <$>
        groupTargets v.catalog.extensions (columnNodes (cs.map (·.1)) ++ others)
          (.grouping (t.groupByColumns cs)) (columnNodes (cs.map (·.1))) := by
  have hFrom : run (evalFrom (some source)) w = (.ok (.frame i), v) := h.run_source
  have hRows : run (do evalWhere (← evalFrom (some source)) none) w = (.ok (.frame i), v) :=
    run_bind_ok hFrom
  have hKeys : run (evalKeys (.frame i) (columnNodes (cs.map (·.1)))) v = _ :=
    h.run_evalKeys fun _ hc => hc
  obtain ⟨c, rest, rfl⟩ := exists_cons_of_ne_nil hcs
  have hSome : (groupsWhole (columnNodes ((c :: rest).map (·.1))) || false) = false := by
    cases rest <;> rfl
  have hGroups : run (evalGroups (.frame i) (some (columnNodes ((c :: rest).map (·.1))))) v =
      (.ok (some (.grouping (t.groupByColumns (c :: rest)))), v) :=
    run_evalGroups_of_keys hSome hKeys (h.tableAt_eq.symm ▸ Table.groupBy_of_named h.named)
  have hCore : (groupedColumns source ((c :: rest).map (·.1)) others).core =
      groupedColumns source _ others := rfl
  have hAnswer :
      (run (evalSelect (groupedColumns source ((c :: rest).map (·.1)) others).core) w).1 = _ :=
    run_evalSelect_core_groups rfl hRows hGroups
  rw [hCore] at hAnswer
  exact hAnswer

/-- The rows of the groups can be counted. -/
theorem exists_countedColumns (hcs : cs ≠ []) (hPlain : ∀ c ∈ cs, writePart c.1 = c.1)
    (hNodup : (cs.map (·.1)).Nodup) (hCount : v.catalog.extensions.lookup "count" = none)
    (hc : c ∈ cs) :
    ∃ g, (run (evalSelect (groupedColumns source (cs.map (·.1)) [countOf c.1])) w).1 = .ok g := by
  obtain ⟨u, hu⟩ := exists_groupTargets_count (forall_mem_map.2 hPlain)
    (Table.names_groupByColumns t cs) hNodup hCount (mem_map_of_mem hc) (h.named c hc)
  rw [h.evalSelect_groupedColumns hcs, hu]
  exact ⟨_, rfl⟩

theorem mem_columns (hc : c ∈ cs) : c ∈ t.columns := by
  have hData : c.2 ∈ t.named c.1 := h.named c hc ▸ mem_singleton_self c.2
  obtain ⟨found, hFound, hSame⟩ := mem_map.1 hData
  obtain ⟨hMem, hName⟩ := mem_filter.1 hFound
  exact Prod.ext (beq_iff_eq.1 hName) hSame ▸ hMem

theorem solid_of_ordinary (hOrdinary : t.Ordinary cs)
    (hPresent : ∀ c ∈ cs, ∀ cell ∈ c.2.cells, cell.isMissing = false) :
    t.Rectangular ∧ ∀ c ∈ cs, c.2.Solid := by
  rcases hOrdinary with ⟨e, drive, hFetch⟩ | ⟨hRectangular, hTexts⟩
  · exact ⟨Entry.rectangular_of_fetch hFetch, fun c hc =>
      Entry.solid_of_fetch hFetch (h.mem_columns hc) (hPresent c hc)⟩
  · exact ⟨hRectangular, fun c hc => ⟨hPresent c hc, hTexts c hc⟩⟩

theorem rectangular_withColumns (ht : t.Rectangular) : (t.withColumns cs).Rectangular := fun c hc =>
  (ht c (h.mem_columns hc)).trans (t.height_withColumns cs).symm

theorem run_evalTargets (hds : ∀ c ∈ ds, c ∈ cs) :
    run (evalTargets (.frame i) none (columnNodes (ds.map (·.1)))) v =
      (.ok (Table.columnValues (fun c => writeParts [c.1]) (fun c => ⟨t.labels, some c.1, c.2⟩)
          (fun c => some ⟨i, c.1⟩) ds),
        v) := by
  induction ds with
  | nil => rfl
  | cons c rest ih =>
    obtain ⟨hc, hRest⟩ := forall_mem_cons.1 hds
    rw [map_cons, columnNodes, map_cons]
    unfold evalTargets
    rw [evalExpr, run_bind_ok (h.run_columnOf hc), ← columnNodes, run_bind_ok (ih hRest)]
    rfl

/-- The table of columns that are selected under simple names. -/
theorem ofValues_columnNodes (hcs : cs ≠ []) (ht : t.Rectangular)
    (hSimple : ∀ c ∈ cs, IsSimple c.1) :
    Table.ofValues (Table.columnValues (fun c => writeParts [c.1])
      (fun c => ⟨t.labels, some c.1, c.2⟩) (fun c => some ⟨i, c.1⟩) cs) =
      .ok (t.withColumns cs).shown := by
  refine Table.ofValues_columns (fun c hc d hd hName => ?_) (h.rectangular_withColumns ht)
    fun hNone => absurd hNone hcs
  have hSame : c.1 = d.1 := by
    rw [← (hSimple c hc).isWhole.bareName_writeParts, hName,
      (hSimple d hd).isWhole.bareName_writeParts]
  exact singleton_inj.1 ((h.named c hc).symm.trans (hSame ▸ h.named d hd))

section Plain

variable (hcs : cs ≠ []) (ht : t.Rectangular) (hPlain : ∀ c ∈ cs, writePart c.1 = c.1)
include hcs ht hPlain

theorem run_targetTable :
    run (targetTable (columnNodes (cs.map (·.1))) [] none (.frame i)) v =
      (.ok (t.withColumns cs).rebuilt, v) := by
  have hShown : (t.withColumns cs).shown = (t.withColumns cs).rebuilt :=
    congrArg (Table.mk _) (map_congr_left fun c hc => by rw [writeParts_of_writePart (hPlain c hc)])
  rw [targetTable, if_pos isEmpty_nil, run_bind_ok (run_starColumns_columnNodes _ _ _),
    run_bind_ok (h.run_evalTargets fun _ hc => hc),
    h.ofValues_columnNodes hcs ht fun c hc => isSimple_of_writePart (hPlain c hc), hShown]
  rfl

/-- What DISTINCT over the columns answers. -/
theorem evalSelect_distinctColumns :
    (run (evalSelect (distinctColumns source (cs.map (·.1)))) w).1 =
      Table.bareNames <$> (t.withColumns cs).rebuilt.distinct := by
  have hFrom : run (evalFrom (some source)) w = (.ok (.frame i), v) := h.run_source
  have hWhere : run (evalWhere (.frame i) none) v = (.ok (.frame i), v) := rfl
  have hGroups : run (evalGroups (.frame i) none) v = (.ok none, v) := rfl
  rw [evalSelect_eq_afterFrom]
  unfold distinctColumns afterFrom
  rw [run_bind_ok hFrom, run_bind_ok hWhere, groupKeys_columnNodes, run_bind_ok (run_lift_ok _ _),
    run_bind_ok hGroups, run_bind_ok (h.run_targetTable hcs ht hPlain)]
  simp only [evalHaving, pure_bind, if_true]
  cases (t.withColumns cs).rebuilt.distinct <;> rfl

variable (hSolid : ∀ c ∈ cs, c.2.Solid)
include hSolid

/-- DISTINCT answers the rows of the columns that repeat none before them. -/
theorem exists_distinctColumns :
    ∃ u, (run (evalSelect (distinctColumns source (cs.map (·.1)))) w).1 = .ok u ∧
      u.names = cs.map (·.1) ∧
      Forall₂ (Forall₂ Cell.SameValue) ((t.withColumns cs).newRows.map (t.withColumns cs).row)
        u.rows := by
  have hExact : (t.withColumns cs).StaysExact := fun c hc => (hSolid c hc).staysExact
  obtain ⟨left, hLeft, hNames, hRows⟩ :=
    Table.exists_distinct (h.rectangular_withColumns ht) hSolid hcs
  obtain ⟨u, hu, hAlike⟩ := (Table.alike_rebuilt hExact).distinct hLeft
  refine ⟨u.bareNames, ?_, ?_, ?_⟩
  · rw [h.evalSelect_distinctColumns hcs ht hPlain, hu]
    rfl
  · rw [Table.names_bareNames, ← hAlike.names, hNames, Table.names, map_map]
    exact map_congr_left fun c hc => (isSimple_of_writePart (hPlain c hc)).isWhole.bareName_eq
  · rw [Table.rows_bareNames, ← hRows]
    exact hAlike.rows

/-- The keys of the groups are the rows that DISTINCT answers. -/
theorem sameRows_of_groupedColumns {others : List Node}
    (hOthers : ∀ n ∈ others, n.bareText ∉ cs.map (·.1) ∧ n.outputName ∉ cs.map (·.1)) {g u : Table}
    (hGrouped : (run (evalSelect (groupedColumns source (cs.map (·.1)) others)) w).1 = .ok g)
    (hNames : u.names = cs.map (·.1))
    (hRows : Forall₂ (Forall₂ Cell.SameValue)
      ((t.withColumns cs).newRows.map (t.withColumns cs).row) u.rows) :
    (g.firstColumns cs.length).SameRows u := by
  have hPlainNames : ∀ k ∈ cs.map (·.1), writePart k = k := forall_mem_map.2 hPlain
  have hKeys := Table.names_groupByColumns t cs
  rw [h.evalSelect_groupedColumns hcs] at hGrouped
  generalize hMade : groupTargets _ _ _ _ = made at hGrouped
  cases made with
  | error f => cases hGrouped
  | ok made =>
    cases hGrouped
    obtain ⟨rest, rfl⟩ := groupTargets_eq_ok hPlainNames hOthers hKeys hMade
    have hLength : cs.length = (cs.map (·.1)).length := (length_map _).symm
    rw [hLength, firstColumns_bareNames hPlainNames hKeys]
    exact ⟨hKeys.trans hNames.symm, _,
      Table.rows_keyTable_perm hcs (h.rectangular_withColumns ht) hSolid, hRows⟩

end Plain

end KeyColumns

/-- Grouping by the columns that are selected ends in a fault if nothing else is selected. DISTINCT
answers the rows of these columns, as the keys of the groups do if the rows are counted. -/
theorem keys_without_aggregate_fail {w v : Workspace} {source : Node} {cs : List (String × Data)}
    {i : Nat} {t : Table} (h : KeyColumns w source cs v i t) (hcs : cs ≠ [])
    (hPlain : ∀ c ∈ cs, writePart c.1 = c.1)
    (hPresent : ∀ c ∈ cs, ∀ cell ∈ c.2.cells, cell.isMissing = false) :
    (Work.run (evalSelect (groupedColumns source (cs.map (·.1)) [])) w).1 = .error .wrongType ∧
    (t.Ordinary cs →
      ∃ u, (Work.run (evalSelect (distinctColumns source (cs.map (·.1)))) w).1 = .ok u ∧
        u.names = cs.map (·.1) ∧ u.rows.Pairwise (fun r s => Cell.sameRow s r = false) ∧
        (∀ others g, (∀ n ∈ others, n.bareText ∉ cs.map (·.1) ∧ n.outputName ∉ cs.map (·.1)) →
          (Work.run (evalSelect (groupedColumns source (cs.map (·.1)) others)) w).1 = .ok g →
          (g.firstColumns cs.length).SameRows u) ∧
        ((cs.map (·.1)).Nodup → v.catalog.extensions.lookup "count" = none →
          ∀ c ∈ cs, ∃ g,
              (Work.run (evalSelect (groupedColumns source (cs.map (·.1)) [countOf c.1])) w).1 =
                .ok g ∧
              (g.firstColumns cs.length).SameRows u)) := by
  refine ⟨?_, fun hOrdinary => ?_⟩
  · rw [h.evalSelect_groupedColumns hcs, groupTargets_columnNodes]
    rfl
  obtain ⟨ht, hSolid⟩ := h.solid_of_ordinary hOrdinary hPresent
  obtain ⟨u, hDistinct, hNames, hRows⟩ := h.exists_distinctColumns hcs ht hPlain hSolid
  have hSame : ∀ others g, (∀ n ∈ others, n.bareText ∉ cs.map (·.1) ∧ n.outputName ∉ cs.map (·.1)) →
      (run (evalSelect (groupedColumns source (cs.map (·.1)) others)) w).1 = .ok g →
      (g.firstColumns cs.length).SameRows u :=
    fun others g hOthers hGrouped =>
      h.sameRows_of_groupedColumns hcs ht hPlain hSolid hOthers hGrouped hNames hRows
  refine ⟨u, hDistinct, hNames, Cell.pairwise_sameRow hRows (Table.pairwise_newRows _), hSame, ?_⟩
  intro hNodup hCount c hc
  obtain ⟨g, hGrouped⟩ := h.exists_countedColumns hcs hPlain hNodup hCount hc
  refine ⟨g, hGrouped, hSame _ g ?_ hGrouped⟩
  have hOther : (countOf c.1).bareText ∉ cs.map (·.1) := by
    rintro hMem
    obtain ⟨key, hKey, hName⟩ := mem_map.1 hMem
    exact bareText_countOf_ne (hPlain key hKey) c.1 hName.symm
  exact forall_mem_singleton.2 ⟨hOther, hOther⟩

def repeatedRows : Table := ⟨Column.freshLabels 4,
  [("k", .objects [.text "b", .text "a", .text "b", .text "b"]),
    ("v", .ints .int64 [10, 20, 10, 30])]⟩

theorem keyColumns_repeatedRows :
    KeyColumns (.ofTables [("t", repeatedRows)]) (.name ["t"] {}) repeatedRows.columns
      (run (evalSource (.name ["t"] {})) (.ofTables [("t", repeatedRows)])).2 0 repeatedRows where
  run_source := Prod.ext rfl rfl
  tableAt_eq := rfl
  nameOf_eq := fun _ _ => rfl
  named := by
    intro c hc
    rcases mem_pair.1 hc with rfl | rfl <;> rfl

/-- The theorem at four rows of which two are the same. -/
theorem keys_without_aggregate_fail_repeated :
    (∀ c ∈ repeatedRows.columns, writePart c.1 = c.1) ∧
    (∀ c ∈ repeatedRows.columns, ∀ cell ∈ c.2.cells, cell.isMissing = false) ∧
    repeatedRows.Ordinary repeatedRows.columns ∧
    (Work.run (evalSelect (groupedColumns (.name ["t"] {}) ["k", "v"] []))
      (.ofTables [("t", repeatedRows)])).1 = .error .wrongType ∧
    ∃ u g,
      (Work.run (evalSelect (distinctColumns (.name ["t"] {}) ["k", "v"]))
        (.ofTables [("t", repeatedRows)])).1 = .ok u ∧
      u.names = ["k", "v"] ∧
      (Work.run (evalSelect (groupedColumns (.name ["t"] {}) ["k", "v"] [countOf "k"]))
        (.ofTables [("t", repeatedRows)])).1 = .ok g ∧
      (g.firstColumns 2).SameRows u := by
  have hPlain : ∀ c ∈ repeatedRows.columns, writePart c.1 = c.1 := by
    intro c hc
    rcases List.mem_pair.1 hc with rfl | rfl <;> rfl
  have hPresent : ∀ c ∈ repeatedRows.columns, ∀ cell ∈ c.2.cells, cell.isMissing = false := by
    intro c hc
    rcases List.mem_pair.1 hc with rfl | rfl <;> decide
  have hOrdinary : repeatedRows.Ordinary repeatedRows.columns := by
    refine Or.inr ⟨?_, ?_⟩
    · intro c hc
      rcases List.mem_pair.1 hc with rfl | rfl <;> rfl
    · intro c hc xs hxs cell hCell
      rcases List.mem_pair.1 hc with rfl | rfl
      · cases hxs
        simp only [List.mem_cons, List.not_mem_nil, or_false] at hCell
        rcases hCell with rfl | rfl | rfl | rfl <;> exact ⟨_, rfl⟩
      · cases hxs
  obtain ⟨hFails, hAnswers⟩ :=
    keys_without_aggregate_fail keyColumns_repeatedRows (List.cons_ne_nil _ _) hPlain hPresent
  obtain ⟨u, hDistinct, hNames, -, -, hCounted⟩ := hAnswers hOrdinary
  obtain ⟨g, hGrouped, hSame⟩ := hCounted (by decide) rfl _ List.mem_cons_self
  exact ⟨hPlain, hPresent, hOrdinary, hFails, u, g, hDistinct, hNames, hGrouped, hSame⟩

def differentRows : Table :=
  ⟨Column.freshLabels 3, [("k", .ints .int64 [1, 1, 2]), ("v", .ints .int64 [10, 20, 30])]⟩

/-- `SELECT k, v FROM t GROUP BY k, v` ends in a fault where `SELECT DISTINCT k, v FROM t` has three
rows. -/
theorem keys_fail_where_distinct_answers :
    (Work.run (evalSelect (groupedColumns (.name ["t"] {}) ["k", "v"] []))
      (.ofTables [("t", differentRows)])).1 = .error .wrongType ∧
    Table.rows <$>
      (Work.run (evalSelect (distinctColumns (.name ["t"] {}) ["k", "v"]))
        (.ofTables [("t", differentRows)])).1 =
      .ok [[.int 1, .int 10], [.int 1, .int 20], [.int 2, .int 30]] :=
  ⟨rfl, rfl⟩

end Query

end TableQuery
