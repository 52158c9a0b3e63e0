import TableQuery.Proofs.KeyPartition
import TableQuery.Proofs.Qualification

/-! Columns of a grouped select that are qualified by their table. Such a key has its full name from
then on, and an aggregate is looked up by the text of its argument, so neither is found. -/
namespace TableQuery

open List Work

open Sql

def Sql.Select.bareGroups (q : Select) (table : String) : Select :=
  { q with
    targets := Node.unqualifiedAll table q.targets
    groupBy := q.groupBy.map (Node.unqualifiedAll table) }

/-- A target of a grouped select: one of the keys, or an aggregate of a column. -/
inductive GroupTarget (keys : List Node) (texts : List String) : Node → Prop where
  | key {parts : List String} {keyTag : Tag} (tag : Tag) : .name parts keyTag ∈ keys →
    GroupTarget keys texts (.name parts tag)
  | aggregate {distinct : Bool} {op : String} (parts : List String) (argTag tag : Tag) :
      (Node.operation (.call distinct) op [.name parts argTag] tag).bareText ∉ texts →
        GroupTarget keys texts (.operation (.call distinct) op [.name parts argTag] tag)

namespace Query

variable {w w' : Workspace} {i : Nat} {table : String}

/-- A column of a table in scope is called by its full name. -/
theorem name_of_columnOf_qualified {column : String}
    (hOwn : (w.tableAt i).has (table ++ "." ++ column) = false) {c : Column}
    {origin : Option Origin}
    (h : run (columnOf [table, column] (.frame i)) w = (.ok (.column c origin), w')) :
    c.name = some (writeParts [table, column]) := by
  rw [run_columnOf_qualified, hOwn] at h
  obtain ⟨id, hScope, hColumn⟩ := scoped_of_run h
  have hSize := Workspace.lt_size_of_named (Table.has_eq_true_iff.1 hColumn)
  rw [run_scopedColumn_of_has _ hScope hColumn] at h
  rw [run_columnsNamed_one (named_of_run_columnsNamed h)] at h
  have hColumn := (Value.column.inj (Except.ok.inj (Prod.mk.inj h).1)).1
  refine (congrArg Column.name hColumn).symm.trans (congrArg some ?_)
  exact (congrArg (·.nameOf column) (Workspace.frameAt_set_self hSize _)).trans
    (Correspondence.nameOf_rename _ column _)

/-- Keys that are columns change no table, and the qualified ones are called by their full names. -/
theorem names_of_evalKeys {keys : List Node}
    (hColumns : ∀ n ∈ keys, ∃ parts tag, n = .name parts tag)
    (hOwn : ∀ column, (w.tableAt i).has (table ++ "." ++ column) = false) {names : List String}
    (h : run (evalKeys (.frame i) keys) w = (.ok names, w')) :
    w'.tableAt i = w.tableAt i ∧ names.length = keys.length ∧
    ∀ column tag, .name [table, column] tag ∈ keys → writeParts [table, column] ∈ names := by
  induction keys generalizing w names with
  | nil =>
    cases h
    exact ⟨rfl, rfl, fun _ _ hKey => absurd hKey not_mem_nil⟩
  | cons key rest ih =>
    obtain ⟨⟨parts, tag, rfl⟩, hRest⟩ := forall_mem_cons.1 hColumns
    rw [evalKeys_name] at h
    obtain ⟨called, w₁, hName, h⟩ := run_bind_eq_ok h
    obtain ⟨names, w₂, hNames, h⟩ := run_bind_eq_ok h
    cases h
    obtain ⟨v, w₃, hColumn, hName⟩ := run_bind_eq_ok hName
    have hSame : (w₃.tableAt i) = w.tableAt i := by
      have hTables := maintains_sameTables_columnOf w parts (.frame i) w ⟨rfl, rfl⟩
      rw [hColumn] at hTables
      exact hTables.tableAt i
    cases v with
    | column c origin =>
      cases hName
      obtain ⟨hTable, hLength, hMem⟩ := ih hRest (by rwa [hSame]) hNames
      refine ⟨hTable.trans hSame, congrArg (· + 1) hLength, fun column tag' hKey => ?_⟩
      rcases mem_cons.1 hKey with hFirst | hLater
      · cases hFirst
        rw [name_of_columnOf_qualified (hOwn column) hColumn]
        exact mem_cons_self
      · exact mem_cons_of_mem _ (hMem column tag' hLater)
    | _ => cases hName

theorem bareParts_eq_self {parts : List String} (h : ∀ column, parts ≠ [table, column]) :
    Node.bareParts table parts = parts := by
  unfold Node.bareParts
  split
  · refine if_neg ?_
    rintro rfl
    exact h _ rfl
  · rfl

section Undotted

variable {t : Table} (hUndotted : ∀ column, t.has (table ++ "." ++ column) = false ∧
  t.has (writeParts [table, column]) = false)
variable {keys : List Node} {g : Grouping}
include hUndotted

/-- Keys by which the rows are grouped are not qualified. -/
theorem unqualified_key (hColumns : ∀ n ∈ keys, ∃ parts tag, n = .name parts tag)
    (hHeight : t.height ≠ keys.length) {v v' : Workspace} (hTable : v.tableAt i = t)
    {names : List String} (hNames : run (evalKeys (.frame i) keys) v = (.ok names, v'))
    (hGroups : (v'.tableAt i).groupBy names = .ok g) :
    g.table = t ∧ ∀ n ∈ keys, n.unqualified table = n := by
  obtain ⟨hSame, hLength, hMem⟩ :=
    names_of_evalKeys hColumns (hTable ▸ fun column => (hUndotted column).1) hNames
  rw [hSame, hTable] at hGroups
  obtain ⟨cs, hNamed, hColumn, rfl⟩ :=
    Table.exists_of_groupBy (Or.inl fun hAll => hHeight (hAll.symm.trans hLength)) hGroups
  refine ⟨rfl, fun n hn => ?_⟩
  obtain ⟨parts, tag, rfl⟩ := hColumns n hn
  rw [Node.unqualified, bareParts_eq_self]
  rintro column rfl
  obtain ⟨c, hc, hName⟩ := mem_map.1 (hNamed ▸ hMem column tag hn)
  have hNone := Table.has_eq_false_iff.1 (hUndotted column).2
  rw [← hName, hColumn c hc] at hNone
  cases hNone

/-- Aggregates that are computed are not of qualified columns. -/
theorem unqualified_target {extensions : List (String × Extension)} {targets : List Node}
    {texts : List String} (hTexts : keyTexts keys = .ok texts)
    (hKeys : ∀ n ∈ keys, n.unqualified table = n) (hTable : g.table = t) {made : Table}
    (h : groupTargets extensions targets (.grouping g) keys = .ok made) {n : Node}
    (hn : n ∈ targets) (hTarget : GroupTarget keys texts n) : n.unqualified table = n := by
  cases hTarget with
  | key tag hKey =>
    have hSame := hKeys _ hKey
    rw [Node.unqualified] at hSame ⊢
    rw [(Node.name.inj hSame).1]
  | aggregate parts argTag tag hOther =>
    obtain ⟨_, _, asked, results, hTexts', hg, hResults, -⟩ := groupResults_of_groupTargets h
    cases hTexts.symm.trans hTexts'
    cases hg
    obtain ⟨a, ha, hAsks⟩ :=
      exists_mem_right hResults.asks (mem_filter.2 ⟨hn, by simpa using hOther⟩)
    obtain ⟨r, -, hComputes⟩ := exists_mem_right hResults.computes ha
    obtain ⟨text, name, f⟩ := a
    have hHas : t.has name = true := hTable ▸ hComputes.has
    cases hAsks.2
    rw [Node.unqualified, Node.unqualifiedAll, Node.unqualifiedAll, Node.unqualified,
      bareParts_eq_self]
    rintro column rfl
    cases (hUndotted column).2.symm.trans hHas

end Undotted

/-- A grouped select with qualified keys or arguments is never answered, unless there are as many
keys as rows. So it is answered like the unqualified one exactly if nothing in it is qualified. -/
theorem qualified_groups_answered_iff {q : Select} {key : Node} {rest : List Node}
    (hKeys : q.groupBy = some (key :: rest))
    (hColumns : ∀ n ∈ key :: rest, ∃ parts tag, n = .name parts tag) {texts : List String}
    (hTexts : keyTexts (key :: rest) = .ok texts)
    (hTargets : ∀ n ∈ q.targets, GroupTarget (key :: rest) texts n) {w v : Workspace} {i : Nat}
    (hRows : Work.run (do evalWhere (← evalFrom q.source) q.condition) w = (.ok (.frame i), v))
    {table : String}
    (hUndotted : ∀ column, (v.tableAt i).has (table ++ "." ++ column) = false ∧
      (v.tableAt i).has (writeParts [table, column]) = false)
    (hHeight : (v.tableAt i).height ≠ (key :: rest).length) {u : Table}
    (hBare : (Work.run (evalSelect (q.bareGroups table)) w).1 = .ok u) :
    (q.bareGroups table ≠ q → ∃ e, (Work.run (evalSelect q) w).1 = .error e) ∧
    ((∃ u', (Work.run (evalSelect q) w).1 = .ok u' ∧ u'.rows = u.rows) ↔
      q.bareGroups table = q) := by
  have hAnswered {u' : Table} (h : (run (evalSelect q) w).1 = .ok u') :
      q.bareGroups table = q := by
    obtain ⟨w', h⟩ : ∃ w', run (evalSelect q) w = (.ok u', w') := ⟨_, Prod.ext h rfl⟩
    rw [evalSelect_grouped hKeys] at h
    obtain ⟨made, w₁, hMade, -⟩ := run_bind_eq_ok h
    have hRun := hMade
    rw [evalGroupRows_eq hKeys, run_bind_ok hRows] at hRun
    obtain ⟨groups, w₂, hGroups, -⟩ := run_bind_eq_ok hRun
    have hSome : (groupsWhole (key :: rest) || (key :: rest).isEmpty) = false := by
      obtain ⟨parts, tag, rfl⟩ := hColumns key mem_cons_self
      cases rest <;> rfl
    obtain ⟨names, g, hNames, hGroupBy, rfl⟩ := exists_of_evalGroups hSome (hKeys ▸ hGroups)
    obtain ⟨hTable, hKey⟩ := unqualified_key hUndotted hColumns hHeight rfl hNames hGroupBy
    have hMade := congrArg Prod.fst ((run_evalGroupRows hKeys hRows hGroups).symm.trans hMade)
    have hAll {ns : List Node} (h : ∀ n ∈ ns, n.unqualified table = n) :
        Node.unqualifiedAll table ns = ns := by
      rw [Node.unqualifiedAll_eq_map, map_congr_left h, map_id']
    unfold Select.bareGroups
    rw [hAll fun n hn => unqualified_target hUndotted hTexts hKey hTable hMade hn (hTargets n hn),
      hKeys, Option.map_some, hAll hKey, ← hKeys]
    cases q
    rfl
  refine ⟨fun hQualified => ?_, fun ⟨_, h, _⟩ => hAnswered h, fun hSame => ⟨u, hSame ▸ hBare, rfl⟩⟩
  cases h : (run (evalSelect q) w).1 with
  | error e => exact ⟨e, rfl⟩
  | ok u' => exact absurd (hAnswered h) hQualified

/-- `count(t.v) FROM t GROUP BY t.k`. -/
def qualifiedPairs : Select :=
  { byPairs [.operation (.call false) "count" [.name ["t", "v"] {}] {}] with
    groupBy := some [.name ["t", "k"] {}] }

/-- The count of `v` by `k` is answered, and the count of `t.v` by `t.k` is not. -/
theorem qualified_groups_answered_pairs :
    (∃ u, (Work.run (evalSelect (byPairs [countOf "v"])) (.ofTables [("t", pairRows)])).1 = .ok u) ∧
    ∃ e, (Work.run (evalSelect qualifiedPairs) (.ofTables [("t", pairRows)])).1 = .error e := by
  have hBare : (run (evalSelect (byPairs [countOf "v"])) (.ofTables [("t", pairRows)])).1 =
      .ok ⟨Column.freshLabels 2, [("count(v)", .ints .int64 [1, 2])]⟩ :=
    (run_evalSelect_core_groups (q := byPairs [countOf "v"]) rfl (run_pairRows _)
      (run_evalGroups_pairs _)).trans rfl
  have hPlain (column : String) : (pairWorkspace.tableAt 0).has ("t" ++ "." ++ column) = false := by
    have hLong (name : String) (hShort : name.length = 1) : "t" ++ "." ++ column ≠ name := by
      rintro rfl
      rw [String.length_append] at hShort
      change 2 + column.length = 1 at hShort
      omega
    rw [← Table.contains_names, Bool.eq_false_iff, ne_eq, contains_iff_mem]
    exact fun hName => (mem_pair.1 hName).elim (hLong "k" rfl) (hLong "v" rfl)
  refine ⟨⟨_, hBare⟩, (qualified_groups_answered_iff (q := qualifiedPairs) rfl ?_ rfl ?_
    (run_pairRows []) (fun column => ⟨hPlain column, ?_⟩) (by decide) hBare).1
      fun hSame => absurd (congrArg (·.groupBy.map Node.referencesOf) hSame) (by decide)⟩
  · exact forall_mem_singleton.2 ⟨_, _, rfl⟩
  · exact forall_mem_singleton.2 (.aggregate _ _ _ (by decide))
  · exact hPlain (writePart column)

/-- `SELECT t.k, count(v) FROM t GROUP BY t.k` finds no column `t.k`. -/
theorem qualified_key_is_missing :
    (Work.run (evalSelect
      { byPairs [.name ["t", "k"] {}, countOf "v"] with groupBy := some [.name ["t", "k"] {}] })
      (.ofTables [("t", pairRows)])).1 = .error .missingKey := rfl

end Query

end TableQuery
