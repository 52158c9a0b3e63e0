import TableQuery.Proofs.GroupKeys
import TableQuery.Proofs.Partition

/-! Ordered answers. ORDER BY keeps the rows of an answer and puts them in the lexicographic order
of its keys. Missing entries of a key come last in both directions. -/
namespace TableQuery

open List Work SortKey

namespace Cell

/-- Two values that a sort can compare. -/
def Comparable (a b : Cell) : Prop :=
  a.num?.isSome ∧ b.num?.isSome ∨ ∃ s t, a = .text s ∧ b = .text t

theorem Comparable.symm {a b : Cell} (h : a.Comparable b) : b.Comparable a := by
  rcases h with ⟨ha, hb⟩ | ⟨s, t, rfl, rfl⟩
  · exact .inl ⟨hb, ha⟩
  · exact .inr ⟨t, s, rfl, rfl⟩

theorem Comparable.below_iff {a b : Cell} (h : a.Comparable b) :
    a.Below b ↔ b.sortsBefore a = false := by
  rw [Bool.eq_false_iff, ne_eq]
  rcases h with ⟨ha, hb⟩ | ⟨s, t, rfl, rfl⟩
  · obtain ⟨m, hm⟩ := Option.isSome_iff_exists.1 ha
    obtain ⟨n, hn⟩ := Option.isSome_iff_exists.1 hb
    rw [sortsBefore_nums hn hm, not_le]
    refine ⟨fun hBelow => ?_, .nums hm hn⟩
    cases hBelow with
    | nums hm' hn' hLt =>
      cases hm.symm.trans hm'
      cases hn.symm.trans hn'
      exact hLt
    | mixed => cases hn
    | texts => cases hn
  · rw [sortsBefore_texts, not_le]
    refine ⟨fun hBelow => ?_, fun hLt => .texts hLt.le hLt.ne⟩
    cases hBelow with
    | nums hm => cases hm
    | mixed _ hm => cases hm
    | texts hLe hNe => exact lt_of_le_of_ne hLe hNe

/-- Whether an entry of a key comes before another. -/
def Precedes (direction : String) : Option Cell → Option Cell → Prop
  | some a, some b => if direction = "DESC" then b.Below a else a.Below b
  | some _, none => True
  | none, _ => False

end Cell

def Data.entry (d : Data) (i : Nat) : Option Cell :=
  if d.missing[i]? = some true then none else d.cells[i]?

namespace Table

variable {t : Table} {keys : List (String × String)}

/-- The entry of a row in the first column of a name, none if it is missing. -/
def entry (t : Table) (name : String) (i : Nat) : Option Cell :=
  (t.named name).head?.bind (·.entry i)

def Sortable (t : Table) (name : String) : Prop :=
  ∀ i j, i ≠ j → ∀ a ∈ t.entry name i, ∀ b ∈ t.entry name j, a.Comparable b

/-- Two rows are in the order of some keys, each with its direction. The first key that tells them
apart decides. -/
def InOrder (t : Table) : List (String × String) → Nat → Nat → Prop
  | [], _, _ => True
  | key :: rest, i, j => Cell.Precedes key.2 (t.entry key.1 i) (t.entry key.1 j) ∨
    ¬ Cell.Precedes key.2 (t.entry key.1 j) (t.entry key.1 i) ∧ t.InOrder rest i j

end Table

section Keys

variable {d : Data} {key : SortKey} {direction : String}

theorem Data.getElem?_entries (d : Data) (i : Nat) :
    (zipWith (fun c m => if m then none else some c) d.cells d.missing)[i]?.join = d.entry i := by
  have hLength : d.cells.length = d.missing.length := by simp
  rw [getElem?_zipWith, entry]
  rcases Nat.lt_or_ge i d.cells.length with hi | hi
  · rw [getElem?_eq_getElem hi, getElem?_eq_getElem (hLength ▸ hi)]
    cases d.missing[i] <;> rfl
  · rw [getElem?_eq_none hi, getElem?_eq_none (hLength ▸ hi)]
    rfl

theorem Data.entries_of_sortKey {ascending : Bool} (h : d.sortKey ascending = .ok key) :
    key.ascending = ascending ∧ ∀ i, key.entries[i]?.join = d.entry i := by
  unfold sortKey at h
  dsimp only at h
  split at h
  · cases h
    exact ⟨rfl, d.getElem?_entries⟩
  · cases h

theorem SortKey.isOrdered_of_comparable
    (h : ∀ i j : Nat, i ≠ j →
      ∀ a ∈ key.entries[i]?.join, ∀ b ∈ key.entries[j]?.join, a.Comparable b) :
    key.isOrdered = true := by
  have hPairs : key.present.Pairwise Cell.Comparable := by
    refine pairwise_filterMap.2 (pairwise_iff_getElem.2 fun i j hi hj hij a ha b hb => ?_)
    refine h i j hij.ne a ?_ b ?_
    · rwa [getElem?_eq_getElem hi]
    · rwa [getElem?_eq_getElem hj]
  unfold isOrdered
  simp only [Bool.or_eq_true, decide_eq_true_eq, all_eq_true]
  change (key.present.length ≤ 1 ∨ ∀ c ∈ key.present, _) ∨ ∀ c ∈ key.present, _
  cases hPresent : key.present with
  | nil => simp
  | cons first rest =>
    rw [hPresent, pairwise_cons] at hPairs
    cases rest with
    | nil => simp
    | cons second others =>
      rcases hPairs.1 second mem_cons_self with ⟨hFirst, -⟩ | ⟨s, t, rfl, -⟩
      · refine .inl (.inr (forall_mem_cons.2 ⟨hFirst, fun c hc => ?_⟩))
        rcases hPairs.1 c hc with ⟨-, hNum⟩ | ⟨s, t, rfl, -⟩
        · exact hNum
        · cases hFirst
      · refine .inr (forall_mem_cons.2 ⟨rfl, fun c hc => ?_⟩)
        rcases hPairs.1 c hc with ⟨hNum, -⟩ | ⟨-, t, -, rfl⟩
        · cases hNum
        · rfl

theorem Data.exists_sortKey (h : ∀ i j, i ≠ j → ∀ a ∈ d.entry i, ∀ b ∈ d.entry j, a.Comparable b)
    (ascending : Bool) : ∃ key, d.sortKey ascending = .ok key := by
  refine ⟨_, if_pos (isOrdered_of_comparable ?_)⟩
  simp only [getElem?_entries]
  exact h

theorem SortKey.before_iff (hKey : d.sortKey (direction != "DESC") = .ok key) {i j : Nat}
    (h : ∀ a ∈ d.entry i, ∀ b ∈ d.entry j, a.Comparable b) :
    key.before i j = true ↔ Cell.Precedes direction (d.entry i) (d.entry j) := by
  obtain ⟨hAscending, hEntries⟩ := Data.entries_of_sortKey hKey
  rw [before, hEntries, hEntries, hAscending]
  cases hi : d.entry i with
  | none => simp [Cell.Precedes]
  | some a =>
    cases hj : d.entry j with
    | none => simp [Cell.Precedes]
    | some b =>
      have hab := h a hi b hj
      by_cases hDirection : direction = "DESC"
      · simp [Cell.Precedes, hDirection, hab.symm.below_iff]
      · simp [Cell.Precedes, hDirection, hab.below_iff]

end Keys

namespace Table

variable {t : Table} {keys : List (String × String)} {ks : List SortKey}

/-- The key of a sort that a column gives. -/
def GivesKey (t : Table) (k : String × String) (key : SortKey) : Prop :=
  ∃ d, t.named k.1 = [d] ∧ d.sortKey (k.2 != "DESC") = .ok key

theorem exists_sortKeys (hNames : t.names.Nodup) (hColumns : ∀ k ∈ keys, k.1 ∈ t.names)
    (hSort : ∀ k ∈ keys, t.Sortable k.1) :
    ∃ ks, t.sortKeys (keys.map fun k => (k.1, k.2 != "DESC")) = .ok ks ∧
      Forall₂ t.GivesKey keys ks := by
  suffices hKeys : ∃ (columns : List (Data × Bool)) (ks : List SortKey),
    Forall₂ (fun f c => t.column f.1 = .ok c.1 ∧ f.2 = c.2) (keys.map fun k => (k.1, k.2 != "DESC"))
      columns ∧
    Forall₂ (fun c key => c.1.sortKey c.2 = .ok key) columns ks ∧ Forall₂ t.GivesKey keys ks by
    obtain ⟨columns, ks, hFields, hSortKeys, hGiven⟩ := hKeys
    exact ⟨ks, sortKeys_eq_ok_iff.2 ⟨columns, hFields, hSortKeys⟩, hGiven⟩
  induction keys with
  | nil => exact ⟨[], [], .nil, .nil, .nil⟩
  | cons k keys ih =>
    obtain ⟨hColumn, hColumns⟩ := forall_mem_cons.1 hColumns
    obtain ⟨hFirst, hSort⟩ := forall_mem_cons.1 hSort
    obtain ⟨columns, ks, hFields, hSortKeys, hGiven⟩ := ih hColumns hSort
    obtain ⟨⟨name, d⟩, hMem, hName⟩ := mem_map.1 hColumn
    have hNamed : t.named k.1 = [d] := hName ▸ named_of_nodup hNames hMem
    obtain ⟨key, hKey⟩ :=
      Data.exists_sortKey (d := d) (by simpa [Sortable, entry, hNamed] using hFirst) (k.2 != "DESC")
    have hFound : t.column k.1 = .ok d := by
      unfold column
      rw [hNamed]
    exact ⟨(d, _) :: columns, key :: ks, .cons ⟨hFound, rfl⟩ hFields, .cons hKey hSortKeys,
      .cons ⟨d, hNamed, hKey⟩ hGiven⟩

theorem keepsOrder_iff (h : Forall₂ t.GivesKey keys ks) (hSort : ∀ k ∈ keys, t.Sortable k.1)
    {i j : Nat} (hij : i ≠ j) : keepsOrder ks i j = true ↔ t.InOrder keys i j := by
  induction h with
  | nil => simp [keepsOrder, InOrder]
  | @cons k key _ _ hKey _ ih =>
    obtain ⟨hFirst, hSort⟩ := forall_mem_cons.1 hSort
    obtain ⟨d, hNamed, hKey⟩ := hKey
    have hEntry (i : Nat) : t.entry k.1 i = d.entry i := by rw [entry, hNamed]; rfl
    simp only [Sortable, hEntry] at hFirst
    rw [keepsOrder, InOrder, hEntry, hEntry, ← before_iff hKey (hFirst i j hij),
      ← before_iff hKey (hFirst j i hij.symm), ← ih hSort]
    cases key.before i j <;> cases key.before j i <;> simp

theorem Rectangular.entry_pickRows (ht : t.Rectangular) {ps : List Nat}
    (hps : ∀ p ∈ ps, p < t.height) {i : Nat} (hi : i < ps.length) (name : String) :
    (t.pickRows ps).entry name i = t.entry name ps[i] := by
  rw [entry, entry, named_pickRows]
  cases hNamed : t.named name with
  | nil => rfl
  | cons d rest =>
    have hd : d.length = t.height := ht.length_of_mem_named (hNamed ▸ mem_cons_self)
    have hPicked {α : Type} (xs : List α) (hxs : xs.length = d.length) :
        (ps.filterMap (xs[·]?))[i]? = xs[ps[i]]? := by
      rw [getElem?_filterMap_getElem? (by simpa [hxs, hd] using hps), getElem?_eq_getElem hi]
      rfl
    change (d.pick ps).entry i = d.entry ps[i]
    rw [Data.entry, Data.cells_pick, Data.missing_pick, hPicked _ d.length_cells,
      hPicked _ d.length_missing]
    rfl

theorem Rectangular.inOrder_pickRows (ht : t.Rectangular) {ps : List Nat}
    (hps : ∀ p ∈ ps, p < t.height) {i j : Nat} (hi : i < ps.length) (hj : j < ps.length) :
    (t.pickRows ps).InOrder keys i j ↔ t.InOrder keys ps[i] ps[j] := by
  induction keys with
  | nil => exact Iff.rfl
  | cons key rest ih => simp only [InOrder, ht.entry_pickRows hps hi, ht.entry_pickRows hps hj, ih]

/-- Sorting keeps the rows and puts them in order. -/
theorem Rectangular.exists_sortBy (ht : t.Rectangular) (hNames : t.names.Nodup)
    (hColumns : ∀ k ∈ keys, k.1 ∈ t.names) (hSort : ∀ k ∈ keys, t.Sortable k.1) :
    ∃ s, t.sortBy (keys.map fun k => (k.1, k.2 != "DESC")) = .ok s ∧ s.Rectangular ∧
      s.names = t.names ∧ s.rows.Perm t.rows ∧
      ∀ i j, i < j → j < s.height → s.InOrder keys i j := by
  obtain ⟨ks, hKeys, hGiven⟩ := exists_sortKeys hNames hColumns hSort
  have hPerm := mergeSort_perm (range t.height) (keepsOrder ks)
  have hPairs := pairwise_mergeSort (isOrdered_of_sortKeys hKeys) (range t.height)
  generalize hps : (range t.height).mergeSort (keepsOrder ks) = ps at hPerm hPairs
  have hIn : ∀ p ∈ ps, p < t.height := fun p hp => mem_range.1 (hPerm.mem_iff.1 hp)
  refine ⟨t.pickRows ps, ?_, ht.pickRows ps, names_pickRows t ps, ?_, fun i j hij hj => ?_⟩
  · rw [sortBy, hKeys, ← hps]
    rfl
  · rw [ht.rows_pickRows hIn]
    exact hPerm.map _
  · rw [height_pickRows hIn] at hj
    have hNe : ps[i] ≠ ps[j] := fun h =>
      hij.ne ((hPerm.nodup_iff.2 nodup_range).getElem_inj_iff.1 h)
    rw [ht.inOrder_pickRows hIn (hij.trans hj) hj, ← keepsOrder_iff hGiven hSort hNe]
    exact pairwise_iff_getElem.1 hPairs i j _ hj hij

end Table

namespace Sql.Select

def orderedBy (q : Select) (keys : List (String × String)) : Select :=
  { q with orderBy := some (keys.map fun k => .ordering (.name [k.1] {}) k.2 none {}) }

def limited (q : Select) (n : Nat) : Select := { q with limit := some (.constant (.int n) {}) }

end Sql.Select

namespace Query

open Sql

/-- The columns of an answer have different names, which are written without backquotes. -/
def PlainColumns (q : Select) (w : Workspace) : Prop :=
  ∀ t w', Work.run (evalRows q) w = (.ok t, w') → t.names.Nodup ∧
    ∀ name ∈ t.names, writePart name = name

theorem sortFields_ordering {keys : List (String × String)} (h : ∀ k ∈ keys, writePart k.1 = k.1) :
    sortFields (keys.map fun k => .ordering (.name [k.1] {}) k.2 none {}) =
      .ok (keys.map fun k => (k.1, k.2 != "DESC")) := by
  induction keys with
  | nil => rfl
  | cons k keys ih =>
    obtain ⟨hFirst, hRest⟩ := forall_mem_cons.1 h
    have hWritten : writeParts [k.1] = k.1 := hFirst
    rw [map_cons, sortFields, ih hRest, hWritten]
    rfl

theorem run_arrangeRows_limited {q : Select} (hOffset : q.offset = none) (n : Nat) {t s : Table}
    (h : ordered q.orderBy t = .ok s) (w : Workspace) :
    run (arrangeRows (q.limited n) t) w = (.ok (s.slice 0 n).bareNames, finished w) := by
  have hNone : evalBound none = pure none := by rw [evalBound]
  simp only [arrangeRows, Select.limited, hOffset, hNone, pure_bind, Table.afterBound, h]
  change (Except.ok (s.takeRowsBefore n).bareNames, _) = _
  rw [Table.takeRowsBefore_natCast]
  rfl

theorem bareNames_eq_self {t : Table} (h : ∀ name ∈ t.names, writePart name = name) :
    t.bareNames = t := by
  have hColumns : ∀ c ∈ t.columns, (bareName c.1, c.2) = c := fun c hc => by
    rw [(isSimple_of_writePart (h c.1 (mem_map_of_mem hc))).isWhole.bareName_eq]
  unfold Table.bareNames
  rw [map_congr_left hColumns, map_id']

/-- ORDER BY columns of the answer puts its rows in order, and LIMIT keeps the first of them. -/
theorem answer_in_order {q : Select} {tag : Tag} {w w' : Workspace} {answer : Table}
    (hOrder : q.orderBy = none) (hLimit : q.limit = none) (hOffset : q.offset = none)
    (hAnswer : run (eval false (.select q tag)) w = (.ok (.table answer), w'))
    (hPlain : PlainColumns q w) {keys : List (String × String)} (hSome : keys ≠ [])
    (hColumns : ∀ k ∈ keys, k.1 ∈ answer.names) (hSort : ∀ k ∈ keys, answer.Sortable k.1) :
    ∃ sorted, run (eval false (.select (q.orderedBy keys) tag)) w = (.ok (.table sorted), w') ∧
      sorted.names = answer.names ∧ sorted.rows.Perm answer.rows ∧
      (∀ i j, i < j → j < sorted.height → sorted.InOrder keys i j) ∧
      ∀ n, ∃ cut,
          run (eval false (.select ((q.orderedBy keys).limited n) tag)) w = (.ok (.table cut), w') ∧
          cut.names = answer.names ∧ cut.rows = sorted.rows.take n := by
  simp only [run_eval_select_eq_ok] at hAnswer ⊢
  obtain ⟨t, v, s, hRows, hOrdered, rfl, rfl⟩ := run_evalSelect_eq_ok hLimit hOffset hAnswer
  rw [hOrder] at hOrdered
  cases hOrdered
  obtain ⟨hNames, hWritten⟩ := hPlain t v hRows
  rw [bareNames_eq_self hWritten] at hColumns hSort ⊢
  obtain ⟨s, hSorted, hs, hSame, hPerm, hInOrder⟩ :=
    (rectangular_of_evalRows hRows).exists_sortBy hNames hColumns hSort
  have hFields := sortFields_ordering fun k hk => hWritten k.1 (hColumns k hk)
  have hOrdered : ordered (q.orderedBy keys).orderBy t = .ok s := by
    have hNodes : (keys.map fun k => Node.ordering (.name [k.1] {}) k.2 none {}).isEmpty = false :=
      by simpa using hSome
    simp only [Select.orderedBy, ordered, hNodes, hFields]
    exact hSorted
  have hBare : s.bareNames = s := bareNames_eq_self (hSame ▸ hWritten)
  refine ⟨s, ?_, hSame, hPerm, hInOrder, fun n => ⟨s.slice 0 n, ?_, ?_, ?_⟩⟩
  · rw [evalSelect_eq, run_bind_ok (x := evalRows (q.orderedBy keys)) hRows,
      run_arrangeRows (q := q.orderedBy keys) hLimit hOffset, hOrdered]
    exact congrArg (fun u => (Except.ok u, finished v)) hBare
  · rw [evalSelect_eq, run_bind_ok (x := evalRows ((q.orderedBy keys).limited n)) hRows,
      run_arrangeRows_limited (q := q.orderedBy keys) hOffset n hOrdered, ← Table.slice_bareNames,
      hBare]
  · rw [← hSame]
    exact Table.names_pickRows s _
  · exact hs.rows_slice 0 n

def gappyRows : Table :=
  ⟨Column.freshLabels 3, [("u", .ints .int64 [1, 1, 0]),
    ("v", .objects [.null, .text "a", .text "b"])]⟩

/-- `SELECT u, v FROM t`. -/
def gappyQuery : Select :=
  { targets := [.name ["u"] {}, .name ["v"] {}], source := some (.name ["t"] {}) }

def gappyWorkspace : Workspace := (Work.run (evalRows gappyQuery) (.ofTables [("t", gappyRows)])).2

theorem run_evalRows_gappyQuery :
    run (evalRows gappyQuery) (.ofTables [("t", gappyRows)]) = (.ok gappyRows, gappyWorkspace) :=
  Prod.ext rfl rfl

theorem plainColumns_gappyQuery : PlainColumns gappyQuery (.ofTables [("t", gappyRows)]) := by
  intro t w' h
  cases run_evalRows_gappyQuery.symm.trans h
  exact ⟨by decide +kernel, by decide +kernel⟩

theorem sortable_gappyRows : ∀ k ∈ [("u", "ASC"), ("v", "DESC")], gappyRows.Sortable k.1 := by
  have hNums : ∀ i, ∀ a ∈ gappyRows.entry "u" i, a.num?.isSome
    | 0, _, rfl | 1, _, rfl | 2, _, rfl => rfl
  have hTexts : ∀ i, ∀ a ∈ gappyRows.entry "v" i, ∃ s, a = .text s
    | 1, _, rfl | 2, _, rfl => ⟨_, rfl⟩
  simp only [forall_mem_cons, not_mem_nil, false_implies, implies_true, and_true]
  refine ⟨fun i j _ a ha b hb => .inl ⟨hNums i a ha, hNums j b hb⟩, fun i j _ a ha b hb => ?_⟩
  obtain ⟨s, rfl⟩ := hTexts i a ha
  obtain ⟨t, rfl⟩ := hTexts j b hb
  exact .inr ⟨s, t, rfl, rfl⟩

/-- The theorem with two keys, one of them descending and with a missing entry. -/
theorem answer_in_order_gappy :
    ∃ sorted,
      run (eval false (.select (gappyQuery.orderedBy [("u", "ASC"), ("v", "DESC")]) {}))
        (.ofTables [("t", gappyRows)]) = (.ok (.table sorted), finished gappyWorkspace) ∧
      sorted.names = ["u", "v"] ∧
      sorted.rows.Perm [[.int 1, .null], [.int 1, .text "a"], [.int 0, .text "b"]] ∧
      (∀ i j, i < j → j < sorted.height → sorted.InOrder [("u", "ASC"), ("v", "DESC")] i j) ∧
      ∀ n, ∃ cut,
          run (eval false
            (.select ((gappyQuery.orderedBy [("u", "ASC"), ("v", "DESC")]).limited n) {}))
            (.ofTables [("t", gappyRows)]) = (.ok (.table cut), finished gappyWorkspace) ∧
          cut.names = ["u", "v"] ∧ cut.rows = sorted.rows.take n := by
  have hAnswer : run (eval false (.select gappyQuery {})) (.ofTables [("t", gappyRows)]) =
      (.ok (.table gappyRows), finished gappyWorkspace) := by
    rw [run_eval_select_eq_ok, evalSelect_eq, run_bind_ok run_evalRows_gappyQuery]
    rfl
  exact answer_in_order rfl rfl rfl hAnswer plainColumns_gappyQuery (cons_ne_nil _ _)
    (by decide +kernel) sortable_gappyRows

end Query

end TableQuery
