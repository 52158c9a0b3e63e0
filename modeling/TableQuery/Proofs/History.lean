import TableQuery.Proofs.Renumbering

/-! Queries after other queries. Without a cache the earlier queries leave more tables, which no
answer shows, and what a query that failed had put in scope. -/
namespace TableQuery

open List Work

open Sql

namespace Query

variable {w v : Workspace} {names : String → Prop} {q : Select}

def answerOf (reduce : Bool) (q : Select) (w : Workspace) : Except Fault Value :=
  (Work.run (eval reduce (.select q {})) w).1

def afterSelects (history : List Select) (w : Workspace) : Workspace :=
  history.foldl (fun w q => (Work.run (evalSelect q) w).2) w

theorem answerOf_eq (reduce : Bool) (q : Select) (w : Workspace) : answerOf reduce q w =
      (fun t : Table => if reduce then t.reduced else .table t) <$> (run (evalSelect q) w).1 := by
  unfold answerOf
  rw [eval, run_bind]
  rcases run (evalSelect q) w with ⟨_ | t, w'⟩ <;> rfl

/-- What queries leave as it was, apart from handing out tables. -/
structure Follows (w v : Workspace) : Prop where
  drive : v.drive = w.drive
  entries : v.catalog.entries = w.catalog.entries
  extensions : v.catalog.extensions = w.catalog.extensions
  size : w.frames.size ≤ v.frames.size

theorem outlastsFetches_follows (w : Workspace) : Workspace.OutlastsFetches (Follows w) where
  newFrame t h := ⟨h.drive, h.entries, h.extensions, by
    rw [Array.size_push]
    exact Nat.le_succ_of_le h.size⟩
  cache _ h := ⟨h.drive, h.entries, h.extensions, h.size⟩

theorem outlastsQueries_follows (w : Workspace) : Workspace.OutlastsQueries (Follows w) where
  newFrame := (outlastsFetches_follows w).newFrame
  rowsOf := maintains_rowsOf (outlastsFetches_follows w)
  rename _ _ _ h := ⟨h.drive, h.entries, h.extensions, by
    rw [Array.size_set!]
    exact h.size⟩
  setColumn _ _ _ h := ⟨h.drive, h.entries, h.extensions, by
    rw [Array.size_set!]
    exact h.size⟩
  scope _ h := ⟨h.drive, h.entries, h.extensions, h.size⟩

theorem follows_afterSelects (h : Follows w v) (history : List Select) :
    Follows w (afterSelects history v) := by
  induction history generalizing v with
  | nil => exact h
  | cons q rest ih => exact ih (maintains_evalSelect (outlastsQueries_follows w) q v h)

/-- A workspace after some queries, beside the one before them. -/
theorem shifted_of_follows (hUncached : ∀ e ∈ w.catalog.entries, e.2.cached = false)
    (hScope : w.catalog.scope = []) (hExtensions : Extension.NoneSeesNumbers w.catalog.extensions)
    (hStarred : w.FetchesOnly (Starred names)) (h : Follows w v)
    (hLeft : ∀ name, names name → v.catalog.scope.lookup name = none) :
    Shifted (v.frames.size - w.frames.size) w.frames.size names (fun _ => False) v w where
  drive := h.drive
  entries := h.entries
  extensions := h.extensions
  uncached := hUncached
  fetched := hStarred
  seesNoNumbers := hExtensions
  size := (Nat.add_sub_of_le h.size).symm
  base_le := Nat.le_refl _
  frames i hi := by
    rw [Array.getElem?_eq_none hi, Array.getElem?_eq_none (by omega)]
  scope name hName := by
    rw [hLeft name hName, hScope]
    rfl
  base_le_scope name i _ hLookup := by
    rw [hScope] at hLookup
    cases hLookup
  plain _ hi := hi.elim

/-- A query that qualifies by nothing that is left in scope. -/
theorem answerOf_eq_of_follows (hUncached : ∀ e ∈ w.catalog.entries, e.2.cached = false)
    (hScope : w.catalog.scope = []) (hExtensions : Extension.NoneSeesNumbers w.catalog.extensions)
    (hStarred : w.FetchesOnly (Starred names)) (h : Follows w v)
    (hLeft : ∀ name, names name → v.catalog.scope.lookup name = none) (reduce : Bool)
    (hUses : ∀ u ∈ q.uses, u.Within names) : answerOf reduce q v = answerOf reduce q w := by
  obtain ⟨_, _, _, hOutcome⟩ := Correspondence.agree_evalSelect Correspondence.lawful_shift _ hUses
    v w (shifted_of_follows hUncached hScope hExtensions hStarred h hLeft)
  rw [answerOf_eq, answerOf_eq, hOutcome.eq]

/-- `SELECT table.column`, without rows. -/
def rowless (table column : String) : Select := { targets := [.name [table, column] {}] }

/-- A reference that fails makes a select of nothing else fail. -/
theorem answerOf_rowless_of_error (reduce : Bool) {table column : String} {f : Fault}
    (h : scopedReading w table column = .error f) :
    answerOf reduce (rowless table column) w = .error f := by
  have hRead := nameless_run_scopedColumn w table column
  rcases hRun : run (scopedColumn table column [table, column]) w with ⟨e | v, w'⟩
  · rw [hRun, h] at hRead
    cases hRead
    let targets : List Node := [.name [table, column] {}]
    have hReference : run (evalExpr .absent (.name [table, column] {})) w = (.error f, w') := by
      exact hRun
    have hTargets : run (evalTargets .absent none targets) w = (.error f, w') := by
      exact run_bind_error hReference
    have hTable : run (targetTable targets [] none .absent) w = (.error f, w') := by
      have hStar : run (starColumns .absent targets) w = (.ok none, w) := rfl
      rw [targetTable, if_pos isEmpty_nil, run_bind_ok hStar]
      exact run_bind_error hTargets
    have hSelect : run (evalSelect (rowless table column)) w = (.error f, w') := by
      rw [evalSelect_eq_afterFrom]
      change run (targetTable targets [] none .absent >>= _) w = _
      exact run_bind_error hTable
    rw [answerOf_eq, hSelect]
    rfl
  · rw [hRun, h] at hRead
    cases hRead

/-- A name that is left in scope shows in the answer of some select. -/
theorem exists_answerOf_ne (hScope : w.catalog.scope = []) {name : String} {r : Relation}
    (hName : v.catalog.scope.lookup name = some r) (reduce : Bool) :
    ∃ column,
      answerOf reduce (rowless name column) v ≠ answerOf reduce (rowless name column) w := by
  obtain ⟨column, f, hv⟩ : ∃ column f, scopedReading v name column = .error f := by
    unfold scopedReading
    rw [hName]
    cases r with
    | frame id =>
      obtain ⟨column, hColumn⟩ := Infinite.exists_notMem_finset (v.tableAt id).names.toFinset
      refine ⟨column, _, if_neg ?_⟩
      rwa [Table.has_eq_true_iff, ← Table.mem_names_iff, ← mem_toFinset]
    | _ => exact ⟨"", _, rfl⟩
  obtain ⟨g, hw⟩ : ∃ g, scopedReading w name column = .error g := by
    unfold scopedReading
    rw [hScope]
    exact ⟨_, rfl⟩
  refine ⟨column, fun hSame => ?_⟩
  rw [answerOf_rowless_of_error reduce hv, answerOf_rowless_of_error reduce hw] at hSame
  exact scopedReading_ne hName hScope (hw.trans (hSame.symm.trans hv.symm))

/-- Nothing is in scope after a select that answered. -/
theorem scope_afterSelects_concat {history : List Select} {v : Value}
    (h : answerOf false q (afterSelects history w) = .ok v) :
    (afterSelects (history ++ [q]) w).catalog.scope = [] := by
  unfold afterSelects at h ⊢
  rw [foldl_concat]
  rw [answerOf_eq] at h
  rcases hRun : run (evalSelect q) (history.foldl _ w) with ⟨f | t, w'⟩
  · rw [hRun] at h
    cases h
  · exact scope_of_run_evalSelect hRun

theorem eq_nil_iff_forall_lookup {α : Type} {pairs : List (String × α)} :
    pairs = [] ↔ ∀ name, pairs.lookup name = none := by
  constructor
  · rintro rfl name
    rfl
  · intro h
    cases pairs with
    | nil => rfl
    | cons p rest =>
      have hFirst := h p.1
      rw [lookup_cons_self] at hFirst
      cases hFirst

theorem within_of_forall (h : ∀ name, names name) (u : Use) : u.Within names := by
  cases u with
  | reference parts => exact qualifiedWithin_of_forall h parts
  | operation op args => trivial
  | star fromTable => exact Or.inr h
  | keyColumn column => exact starred_of_forall h column
  | tableKey key => trivial

/-- Without a cache, queries answer after a history as they would without it exactly if it leaves
nothing in scope that they qualify by. It leaves nothing if its last query answered. -/
theorem answer_after_history_iff {w : Workspace}
    (hUncached : ∀ e ∈ w.catalog.entries, e.2.cached = false) (hScope : w.catalog.scope = [])
    (hExtensions : Extension.NoneSeesNumbers w.catalog.extensions) (history : List Select) :
    ((∀ reduce q, answerOf reduce q (afterSelects history w) = answerOf reduce q w) ↔
      (afterSelects history w).catalog.scope = []) ∧
    (∀ names, w.FetchesOnly (Starred names) →
      ((∀ reduce q, (∀ u ∈ q.uses, u.Within names) →
        answerOf reduce q (afterSelects history w) = answerOf reduce q w) ↔
        ∀ name, names name → (afterSelects history w).catalog.scope.lookup name = none)) ∧
    ∀ earlier last v, history = earlier ++ [last] →
      answerOf false last (afterSelects earlier w) = .ok v →
      (afterSelects history w).catalog.scope = [] := by
  have hFollows : Follows w (afterSelects history w) :=
    follows_afterSelects ⟨rfl, rfl, rfl, Nat.le_refl _⟩ history
  have hNamed : ∀ names, w.FetchesOnly (Starred names) →
      ((∀ reduce q, (∀ u ∈ q.uses, u.Within names) →
          answerOf reduce q (afterSelects history w) = answerOf reduce q w) ↔
        ∀ name, names name → (afterSelects history w).catalog.scope.lookup name = none) := by
    intro names hStarred
    constructor
    · intro hSame name hName
      by_contra hLookup
      obtain ⟨r, hr⟩ := Option.ne_none_iff_exists'.1 hLookup
      obtain ⟨column, hColumn⟩ := exists_answerOf_ne hScope hr true
      refine hColumn (hSame true _ fun u hu => ?_)
      cases mem_singleton.1 hu
      exact hName
    · intro hLeft reduce q hUses
      exact answerOf_eq_of_follows hUncached hScope hExtensions hStarred hFollows hLeft reduce hUses
  refine ⟨?_, hNamed, ?_⟩
  · have hAll :=
      hNamed (fun _ => True) fun _ _ _ _ column _ => starred_of_forall (fun _ => trivial) column
    simpa [eq_nil_iff_forall_lookup, within_of_forall] using hAll
  · rintro earlier last v rfl hLast
    exact scope_afterSelects_concat hLast

def twoFiles : Workspace := .ofFiles [("a", "x\n1\n2\n"), ("b", "y\n5\n")]

/-- `SELECT nope FROM a`, where there is no such column. -/
def failing : Select := { targets := [.name ["nope"] {}], source := some (.name ["a"] {}) }

def twoFilesLeft : Workspace :=
  { twoFiles with
    frames := #[{ table := ⟨Column.freshLabels 2, [("x", .ints .int64 [1, 2])]⟩ }]
    catalog := { twoFiles.catalog with scope := [("a", .frame 0)] } }

set_option maxRecDepth 4000 in
theorem afterSelects_failing : afterSelects [failing] twoFiles = twoFilesLeft := rfl

set_option maxRecDepth 4000 in
theorem fetchesOnly_twoFiles (names : String → Prop) : twoFiles.FetchesOnly (Starred names) := by
  have hRegular : ∀ column, splitName column = [column] → Starred names column := by
    intro column hColumn
    refine Or.inl fun table other hSplit => ?_
    rw [hColumn] at hSplit
    cases hSplit
  intro e he t ht column hColumn
  simp only [twoFiles, Workspace.ofFiles, zipIdx, map_cons, map_nil, mem_cons,
    not_mem_nil, or_false] at he
  rcases he with rfl | rfl
  · cases ht
    cases mem_singleton.1 hColumn
    exact hRegular _ rfl
  · cases ht
    cases mem_singleton.1 hColumn
    exact hRegular _ rfl

/-- A history of one query that fails: its table is left in scope for those that qualify by it. -/
theorem answer_after_history_iff_failed :
    (∀ e ∈ twoFiles.catalog.entries, e.2.cached = false) ∧ twoFiles.catalog.scope = [] ∧
    Extension.NoneSeesNumbers twoFiles.catalog.extensions ∧
    (afterSelects [failing] twoFiles).catalog.scope = [("a", .frame 0)] ∧
    (¬ ∀ reduce q,
      answerOf reduce q (afterSelects [failing] twoFiles) = answerOf reduce q twoFiles) ∧
    ∀ reduce q, (∀ u ∈ q.uses, u.Within (· ≠ "a")) →
      answerOf reduce q (afterSelects [failing] twoFiles) = answerOf reduce q twoFiles := by
  have hUncached : ∀ e ∈ twoFiles.catalog.entries, e.2.cached = false := by decide
  have hExtensions : Extension.NoneSeesNumbers twoFiles.catalog.extensions := nofun
  have hLeft : (afterSelects [failing] twoFiles).catalog.scope = [("a", .frame 0)] := by
    rw [afterSelects_failing]
    rfl
  obtain ⟨hAll, hNamed, _⟩ := answer_after_history_iff hUncached rfl hExtensions [failing]
  refine ⟨hUncached, rfl, hExtensions, hLeft, ?_, ?_⟩
  · rw [hAll, hLeft]
    exact nofun
  · refine (hNamed (· ≠ "a") (fetchesOnly_twoFiles _)).2 fun name hName => ?_
    rw [hLeft, lookup_cons, beq_eq_false_iff_ne.2 hName]
    rfl

/-- `SELECT a.x FROM b`. -/
def foreign : Select := { targets := [.name ["a", "x"] {}], source := some (.name ["b"] {}) }

set_option maxRecDepth 4000 in
/-- A query answers with the rows of a table that it does not name in FROM, after a query which
failed. -/
theorem failed_query_lends_table :
    answerOf true foreign twoFiles = .error (.query (.tableNotInScope "a")) ∧
    answerOf true foreign (afterSelects [failing] twoFiles) =
      .ok (.ofColumn ⟨Column.freshLabels 2, some "a.x", .ints .int64 [1, 2]⟩) := by
  rw [afterSelects_failing]
  exact ⟨rfl, rfl⟩

end Query

end TableQuery
