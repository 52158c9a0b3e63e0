import TableQuery.Proofs.Answers
import TableQuery.Proofs.Sorting

/-! Slices of answers. OFFSET cuts the rows before ORDER BY arranges them, and LIMIT after it. The
outcome is a slice exactly if the rows that are cut first are those that would come first. -/
namespace TableQuery

open List Work SortKey Table

section Positions

variable {ps : List Nat} {height : Nat} (hPerm : ps.Perm (List.range height)) (m n : Nat)
include hPerm

theorem take_perm_take_range_iff :
    (ps.take m).Perm ((range height).take m) ↔ ∀ i ∈ ps.take m, i < m := by
  rw [take_range]
  constructor
  · intro h i hi
    have := mem_range.mp (h.mem_iff.mp hi)
    omega
  · intro h
    have hNodup : (ps.take m).Nodup :=
      (hPerm.nodup_iff.mpr nodup_range).sublist (take_sublist m ps)
    have hSubset : ps.take m ⊆ range (min m height) := by
      intro i hi
      have hHeight := mem_range.mp (hPerm.mem_iff.mp (mem_of_mem_take hi))
      have hFirst := h i hi
      rw [mem_range]
      omega
    apply (hNodup.subperm hSubset).perm_of_length_le
    simp [hPerm.length_eq]

theorem filter_eq_drop (h : ∀ i ∈ ps.take m, i < m) :
    ps.filter (fun i => decide (m ≤ i)) = ps.drop m := by
  have hFirst : (ps.take m).filter (fun i => decide (m ≤ i)) = [] := by
    rw [filter_eq_nil_iff]
    intro i hi
    have := h i hi
    simp only [decide_eq_true_eq]
    omega
  have hRest : (ps.drop m).filter (fun i => decide (m ≤ i)) = ps.drop m := by
    rw [filter_eq_self]
    intro i hi
    rw [decide_eq_true_eq]
    by_contra hi'
    have hPositions := (take_perm_take_range_iff hPerm m).mpr h
    have hMem : i ∈ ps.take m := by
      rw [hPositions.mem_iff, take_range, mem_range]
      have := mem_range.mp (hPerm.mem_iff.mp (mem_of_mem_drop hi))
      omega
    have hNodup : ps.Nodup := hPerm.nodup_iff.mpr nodup_range
    rw [← take_append_drop m ps, nodup_append] at hNodup
    exact hNodup.2.2 i hMem i hi rfl
  nth_rewrite 1 [← take_append_drop m ps]
  rw [filter_append, hFirst, hRest, nil_append]

/-- Cutting positions before they are arranged leaves a slice exactly if they come first. -/
theorem take_filter_eq_iff : (ps.filter fun i => decide (m ≤ i)).take n = (ps.drop m).take n ↔
      n = 0 ∨ (ps.take m).Perm ((range height).take m) := by
  rw [take_perm_take_range_iff hPerm m]
  constructor
  · intro h
    by_cases hn : n = 0
    · exact .inl hn
    · right
      cases hDrop : ps.drop m with
      | nil =>
        intro i hi
        have hHeight := mem_range.mp (hPerm.mem_iff.mp (mem_of_mem_take hi))
        have hLength := drop_eq_nil_iff.mp hDrop
        rw [hPerm.length_eq, length_range] at hLength
        omega
      | cons first rest =>
        have hHead := congrArg head? h
        rw [head?_take, head?_take, if_neg hn, if_neg hn, hDrop, head?_cons,
          head?_filter, find?_eq_some_iff_append] at hHead
        -- The first position that is not cut stands where the cut ends.
        obtain ⟨_, before, after, hSplit, hBefore⟩ := hHead
        have hNodup : ps.Nodup := hPerm.nodup_iff.mpr nodup_range
        have hAt : ps[m]? = some first := by
          rw [← head?_drop, hDrop, head?_cons]
        have hPlace : ps[before.length]? = some first := by simp [hSplit]
        have hLength : m = before.length :=
          (List.getElem?_inj (List.getElem?_eq_some_iff.mp hAt).1 hNodup).mp (hAt.trans hPlace.symm)
        intro i hi
        have := hBefore i (by simpa [hSplit, hLength] using hi)
        simpa using this
  · rintro (rfl | h)
    · simp
    · rw [filter_eq_drop hPerm m h]

end Positions

namespace Table

variable {t : Table}

@[simp] theorem rows_bareNames (t : Table) : t.bareNames.rows = t.rows := by
  simp only [rows_eq, bareNames, height]
  congr 1
  funext i
  simp only [row, map_map]
  rfl

theorem slice_bareNames (t : Table) (m n : Nat) :
    t.bareNames.slice m n = (t.slice m n).bareNames := by
  simp only [slice, bareNames, pickRows, height, map_map]
  rfl

theorem dropRowsBefore_natCast (t : Table) (m : Nat) :
    t.dropRowsBefore m = t.pickRows ((range t.height).drop m) := by
  unfold dropRowsBefore clampPosition
  rw [if_neg (by omega), Int.toNat_natCast]
  rcases Nat.le_total m t.height with h | h
  · rw [Nat.min_eq_left h]
  · rw [Nat.min_eq_right h, drop_eq_nil_of_le (by simp), drop_eq_nil_of_le (by simpa using h)]

theorem takeRowsBefore_natCast (t : Table) (n : Nat) : t.takeRowsBefore n = t.slice 0 n := by
  unfold takeRowsBefore clampPosition slice
  rw [if_neg (by omega), Int.toNat_natCast, drop_zero]
  rcases Nat.le_total n t.height with h | h
  · rw [Nat.min_eq_left h]
  · rw [Nat.min_eq_right h, take_of_length_le (by simp), take_of_length_le (by simpa using h)]

/-- Rows that a sort tells apart have different values. -/
theorem Rectangular.row_injOn (ht : t.Rectangular) {fields : List (String × Bool)}
    {keys : List SortKey} (hKeys : t.sortKeys fields = .ok keys)
    (hDistinct : Distinguish keys t.height) : Set.InjOn t.row {i | i < t.height} := by
  intro i hi j hj hRow
  exact hDistinct i hi j hj (ht.keepsOrder_of_row_eq hKeys hi hj hRow)
    (ht.keepsOrder_of_row_eq hKeys hj hi hRow.symm)

end Table

section Rows

variable {α : Type} {f : Nat → α} {height : Nat} (hf : Set.InjOn f {i | i < height})
include hf

theorem map_invFunOn_map {ps : List Nat} (hps : ∀ p ∈ ps, p < height) :
    (ps.map f).map (Function.invFunOn f {i | i < height}) = ps := by
  have hInverse : ∀ p ∈ ps, (Function.invFunOn f {i | i < height} ∘ f) p = p :=
    fun p hp => hf.leftInvOn_invFunOn (hps p hp)
  rw [map_map, map_congr_left hInverse, map_id']

variable {ps qs : List Nat} (hps : ∀ p ∈ ps, p < height) (hqs : ∀ q ∈ qs, q < height)
include hps hqs

theorem map_eq_map_iff_of_injOn : ps.map f = qs.map f ↔ ps = qs := by
  refine ⟨fun h => ?_, congrArg _⟩
  rw [← map_invFunOn_map hf hps, ← map_invFunOn_map hf hqs, h]

theorem map_perm_map_iff_of_injOn : (ps.map f).Perm (qs.map f) ↔ ps.Perm qs := by
  refine ⟨fun h => ?_, Perm.map f⟩
  rw [← map_invFunOn_map hf hps, ← map_invFunOn_map hf hqs]
  exact h.map _

end Rows

namespace Table

def SameStart (s t : Table) (m : Nat) : Prop := (s.rows.take m).Perm (t.rows.take m)

/-- Cutting the first rows before, and the last ones after the arrangement leaves a slice of it
exactly if the rows that are cut first come first. -/
theorem Rectangular.slice_arranged_iff {t : Table} (ht : t.Rectangular) {ps : List Nat}
    (hPerm : ps.Perm (range t.height)) (hRows : Set.InjOn t.row {i | i < t.height}) (m n : Nat) :
    ((t.pickRows (ps.filter fun i => decide (m ≤ i))).slice 0 n = (t.pickRows ps).slice m n ↔
      n = 0 ∨ (t.pickRows ps).SameStart t m) ∧
    (((t.pickRows (ps.filter fun i => decide (m ≤ i))).slice 0 n).rows =
      ((t.pickRows ps).rows.drop m).take n ↔ n = 0 ∨ (t.pickRows ps).SameStart t m) := by
  have hIn : ∀ p ∈ ps, p < t.height := fun p hp => mem_range.mp (hPerm.mem_iff.mp hp)
  have hFilter : ∀ p ∈ ps.filter fun i => decide (m ≤ i), p < t.height := fun p hp =>
    hIn p (mem_of_mem_filter hp)
  have hCut : (t.pickRows (ps.filter fun i => decide (m ≤ i))).slice 0 n =
      t.pickRows ((ps.filter fun i => decide (m ≤ i)).take n) := by
    rw [ht.slice_pickRows hFilter, drop_zero]
  have hPositions : (ps.filter fun i => decide (m ≤ i)).take n = (ps.drop m).take n ↔
      n = 0 ∨ (t.pickRows ps).SameStart t m := by
    rw [take_filter_eq_iff hPerm, SameStart, ht.rows_pickRows hIn, rows_eq, ← map_take,
      ← map_take, map_perm_map_iff_of_injOn hRows (fun p hp => hIn p (mem_of_mem_take hp))
        (fun p hp => mem_range.mp (mem_of_mem_take hp))]
  have hRowsIff : (t.pickRows ((ps.filter fun i => decide (m ≤ i)).take n)).rows =
        ((t.pickRows ps).rows.drop m).take n ↔
      (ps.filter fun i => decide (m ≤ i)).take n = (ps.drop m).take n := by
    rw [ht.rows_pickRows hIn, ht.rows_pickRows fun p hp => hFilter p (mem_of_mem_take hp),
      ← map_drop, ← map_take]
    exact map_eq_map_iff_of_injOn hRows (fun p hp => hFilter p (mem_of_mem_take hp))
      (fun p hp => hIn p (mem_of_mem_drop (mem_of_mem_take hp)))
  rw [hCut, ← hPositions, hRowsIff]
  refine ⟨⟨fun h => ?_, fun h => ?_⟩, Iff.rfl⟩
  · rw [← hRowsIff, h, (ht.pickRows ps).rows_slice]
  · rw [h, ht.slice_pickRows hIn]

end Table

namespace Sql.Select

def unordered (q : Select) : Select := { q with orderBy := none }

def sliced (q : Select) (m n : Nat) : Select :=
  { q with limit := some (.constant (.int n) {}), offset := some (.constant (.int m) {}) }

end Sql.Select

namespace Query

open Sql

variable {q : Select} {t s answer : Table} {orderBy : Option (List Node)} {w w' : Workspace}

/-- The keys of the ORDER BY clause, if there is one, tell the rows of the answer apart. -/
def KeysDiffer (q : Select) (w : Workspace) : Prop :=
  ∀ nodes fields t w' keys, q.orderBy = some nodes → nodes ≠ [] → sortFields nodes = .ok fields →
    Work.run (evalRows q) w = (.ok t, w') → t.sortKeys fields = .ok keys →
    SortKey.Distinguish keys t.height

def finished (w : Workspace) : Workspace := { w with catalog := { w.catalog with scope := [] } }

theorem run_eval_select (q : Select) (t : Tag) (w : Workspace) :
    run (eval false (.select q t)) w =
      match run (evalSelect q) w with
      | (.ok answer, w') => (.ok (.table answer), w')
      | (.error e, w') => (.error e, w') := by
  rw [eval, run_bind]
  rcases run (evalSelect q) w with ⟨_ | answer, w'⟩ <;> rfl

theorem run_arrangeRows (hLimit : q.limit = none) (hOffset : q.offset = none) (t : Table)
    (w : Workspace) :
    run (arrangeRows q t) w =
      match ordered q.orderBy t with
      | .ok s => (.ok s.bareNames, finished w)
      | .error e => (.error e, w) := by
  unfold arrangeRows
  rw [hLimit, hOffset]
  simp only [evalBound, pure_bind, afterBound, beforeBound]
  cases ordered q.orderBy t <;> rfl

theorem run_evalBound_natCast (n : Nat) (w : Workspace) :
    run (evalBound (some (.constant (.int n) {}))) w = (.ok (some (n : Int)), w) := by
  rfl

theorem run_arrangeRows_sliced (q : Select) (m n : Nat) (t : Table) (w : Workspace) :
    run (arrangeRows (q.sliced m n) t) w =
      match ordered q.orderBy (t.pickRows ((range t.height).drop m)) with
      | .ok s => (.ok (s.slice 0 n).bareNames, finished w)
      | .error e => (.error e, w) := by
  simp only [arrangeRows, Select.sliced]
  rw [run_bind_ok (run_evalBound_natCast m w), afterBound,
    dropRowsBefore_natCast]
  cases ordered q.orderBy (t.pickRows ((range t.height).drop m)) with
  | error e => rfl
  | ok s =>
    change (Except.ok (s.takeRowsBefore n).bareNames, _) = _
    rw [takeRowsBefore_natCast]
    rfl

/-- A sort orders rows that are there by the keys of its fields. -/
theorem sortBy_eq_ok {fields : List (String × Bool)} (h : t.sortBy fields = .ok s) :
    ∃ keys, t.sortKeys fields = .ok keys ∧
      s = t.pickRows ((range t.height).mergeSort (keepsOrder keys)) := by
  obtain ⟨keys, hKeys, h⟩ := bind_eq_ok h
  cases h
  exact ⟨keys, hKeys, rfl⟩

theorem rectangular_of_ordered (ht : t.Rectangular) (h : ordered orderBy t = .ok s) :
    s.Rectangular := by
  unfold ordered at h
  split at h
  · split at h
    · cases h
      exact ht
    · obtain ⟨fields, _, h⟩ := bind_eq_ok h
      obtain ⟨keys, _, rfl⟩ := sortBy_eq_ok h
      exact ht.pickRows _
  · cases h
    exact ht

/-- Without an order the cut rows are a slice, since nothing comes between the two cuts. -/
theorem slice_drop (ht : t.Rectangular) (m n : Nat) :
    (t.pickRows ((range t.height).drop m)).slice 0 n = t.slice m n := by
  rw [ht.slice_pickRows fun p hp => mem_range.mp (mem_of_mem_drop hp)]
  rfl

/-- The rows that are cut before and after they are put in order. -/
theorem ordered_cut (ht : t.Rectangular) (hOrdered : ordered orderBy t = .ok s)
    (hKeys : ∀ nodes fields keys, orderBy = some nodes → nodes ≠ [] →
      sortFields nodes = .ok fields → t.sortKeys fields = .ok keys → Distinguish keys t.height)
    (m n : Nat) :
    ∃ c, ordered orderBy (t.pickRows ((range t.height).drop m)) = .ok c ∧
      (c.slice 0 n = s.slice m n ↔ n = 0 ∨ s.SameStart t m) ∧
      ((c.slice 0 n).rows = (s.rows.drop m).take n ↔ n = 0 ∨ s.SameStart t m) := by
  have hSlice := slice_drop ht m n
  have hStart : t.SameStart t m := Perm.refl _
  cases orderBy with
  | none =>
    cases hOrdered
    exact ⟨_, rfl, by simp [hSlice, hStart], by simp [hSlice, hStart, ht.rows_slice]⟩
  | some nodes =>
    cases nodes with
    | nil =>
      cases hOrdered
      exact ⟨_, rfl, by simp [hSlice, hStart], by simp [hSlice, hStart, ht.rows_slice]⟩
    | cons node rest =>
      obtain ⟨fields, hFields, hSort⟩ := bind_eq_ok hOrdered
      obtain ⟨keys, hSortKeys, rfl⟩ := sortBy_eq_ok hSort
      have hDistinct := hKeys _ fields keys rfl (by simp) hFields hSortKeys
      have hCut := ht.sortBy_drop hSortKeys m
      rw [drop_range_eq_filter, mergeSort_filter (isOrdered_of_sortKeys hSortKeys)
        hDistinct, ← drop_range_eq_filter] at hCut
      refine ⟨_, ?_, ht.slice_arranged_iff (mergeSort_perm _ _)
        (ht.row_injOn hSortKeys hDistinct) m n⟩
      change (do sortBy _ (← sortFields (node :: rest))) = _
      rw [hFields]
      exact hCut

/-- A select without LIMIT and OFFSET answers its rows in order. -/
theorem run_evalSelect_eq_ok (hLimit : q.limit = none) (hOffset : q.offset = none)
    (h : run (evalSelect q) w = (.ok answer, w')) :
    ∃ t v s, run (evalRows q) w = (.ok t, v) ∧ ordered q.orderBy t = .ok s ∧ answer = s.bareNames ∧
      w' = finished v := by
  rw [evalSelect_eq] at h
  obtain ⟨t, v, hRows, h⟩ := run_bind_eq_ok h
  rw [run_arrangeRows hLimit hOffset] at h
  cases hOrdered : ordered q.orderBy t with
  | error e =>
    rw [hOrdered] at h
    cases h
  | ok s =>
    rw [hOrdered] at h
    cases h
    exact ⟨t, v, s, hRows, hOrdered, rfl, rfl⟩

theorem run_eval_select_eq_ok {tag : Tag} :
    run (eval false (.select q tag)) w = (.ok (.table answer), w') ↔
      run (evalSelect q) w = (.ok answer, w') := by
  rw [run_eval_select]
  rcases run (evalSelect q) w with ⟨_ | t, v⟩ <;> simp

/-- With LIMIT `n` and OFFSET `m` a select answers the rows from `m` to `m + n` exactly if `n` is
zero or the first `m` rows of the answer are the first `m` without ORDER BY. The keys tell all rows
apart. -/
theorem limit_offset_eq_slice_iff {q : Select} {tag : Tag} {w w' : Workspace} {answer : Table}
    (hLimit : q.limit = none) (hOffset : q.offset = none)
    (hAnswer : Work.run (eval false (.select q tag)) w = (.ok (.table answer), w'))
    (hKeys : KeysDiffer q w) (m n : Nat) :
    ∃ unordered cut,
      Work.run (eval false (.select q.unordered tag)) w = (.ok (.table unordered), w') ∧
      Work.run (eval false (.select (q.sliced m n) tag)) w = (.ok (.table cut), w') ∧
      (cut = answer.slice m n ↔ n = 0 ∨ (answer.rows.take m).Perm (unordered.rows.take m)) ∧
      (cut.rows = (answer.rows.drop m).take n ↔
        n = 0 ∨ (answer.rows.take m).Perm (unordered.rows.take m)) := by
  simp only [run_eval_select_eq_ok] at hAnswer ⊢
  obtain ⟨t, v, s, hRows, hOrdered, rfl, rfl⟩ := run_evalSelect_eq_ok hLimit hOffset hAnswer
  have ht := rectangular_of_evalRows hRows
  obtain ⟨c, hCut, hTable, hValues⟩ := ordered_cut ht hOrdered
    (fun nodes fields keys h hNonempty hFields hSort =>
      hKeys nodes fields t v keys h hNonempty hFields hRows hSort) m n
  refine ⟨t.bareNames, (c.slice 0 n).bareNames, ?_, ?_, ?_, ?_⟩
  · rw [evalSelect_eq, run_bind_ok (x := evalRows q.unordered) hRows,
      run_arrangeRows (q := q.unordered) hLimit hOffset]
    rfl
  · rw [evalSelect_eq, run_bind_ok (x := evalRows (q.sliced m n)) hRows,
      run_arrangeRows_sliced, hCut]
  · simp only [rows_bareNames, slice_bareNames]
    refine ⟨fun h => hValues.mp ?_, fun h => congrArg bareNames (hTable.mpr h)⟩
    have hRows := congrArg rows h
    simp only [rows_bareNames] at hRows
    rw [hRows, (rectangular_of_ordered ht hOrdered).rows_slice]
  · simp only [rows_bareNames]
    exact hValues

def threeRows : Table := ⟨Column.freshLabels 3, [("v", .ints .int64 [10, 20, 30])]⟩

/-- `SELECT v FROM t ORDER BY v DESC`. -/
def descendingQuery : Select :=
  { targets := [.name ["v"] {}]
    source := some (.name ["t"] {})
    orderBy := some [.ordering (.name ["v"] {}) "DESC" none {}] }

def descendingWorkspace : Workspace :=
  (Work.run (evalRows descendingQuery) (.ofTables [("t", threeRows)])).2

theorem run_evalRows_descendingQuery :
    run (evalRows descendingQuery) (.ofTables [("t", threeRows)]) =
      (.ok threeRows, descendingWorkspace) :=
  Prod.ext rfl rfl

theorem sortFields_descendingQuery :
    sortFields [.ordering (.name ["v"] {}) "DESC" none {}] = .ok [("v", false)] := rfl

theorem ordered_descendingQuery (t : Table) :
    ordered descendingQuery.orderBy t = t.sortBy [("v", false)] := by
  change (do t.sortBy (← sortFields [.ordering (.name ["v"] {}) "DESC" none {}])) = _
  rw [sortFields_descendingQuery]
  rfl

theorem sortKeys_threeRows : threeRows.sortKeys [("v", false)] =
    .ok [⟨[some (.int 10), some (.int 20), some (.int 30)], false⟩] := rfl

/-- The keys of the query tell all rows apart. -/
theorem keysDiffer_descendingQuery : KeysDiffer descendingQuery (.ofTables [("t", threeRows)]) := by
  intro nodes fields t w' keys hNodes _ hFields hRows hKeys
  cases hNodes
  cases run_evalRows_descendingQuery.symm.trans hRows
  cases sortFields_descendingQuery.symm.trans hFields
  cases sortKeys_threeRows.symm.trans hKeys
  unfold Distinguish
  decide +kernel

theorem sortBy_threeRows : threeRows.sortBy [("v", false)] =
    .ok ⟨[.int 2, .int 1, .int 0], [("v", .ints .int64 [30, 20, 10])]⟩ := by
  have hSort : (range threeRows.height).mergeSort (keepsOrder
      [⟨[some (.int 10), some (.int 20), some (.int 30)], false⟩]) = [2, 1, 0] := by
    cbv
  unfold sortBy
  rw [sortKeys_threeRows]
  change Except.ok (threeRows.pickRows ((range threeRows.height).mergeSort _)) = _
  rw [hSort]
  rfl

theorem run_descendingQuery :
    run (eval false (.select descendingQuery {})) (.ofTables [("t", threeRows)]) =
      (.ok (.table ⟨[.int 2, .int 1, .int 0], [("v", .ints .int64 [30, 20, 10])]⟩),
        finished descendingWorkspace) := by
  rw [run_eval_select_eq_ok, evalSelect_eq, run_bind_ok run_evalRows_descendingQuery,
    run_arrangeRows rfl rfl, ordered_descendingQuery, sortBy_threeRows]
  rfl

/-- The theorem at three rows in descending order, of which one is cut first. -/
theorem limit_offset_eq_slice_iff_descending :
    ∃ unordered cut,
      Work.run (eval false (.select descendingQuery.unordered {})) (.ofTables [("t", threeRows)]) =
        (.ok (.table unordered), finished descendingWorkspace) ∧
      Work.run (eval false (.select (descendingQuery.sliced 1 1) {}))
        (.ofTables [("t", threeRows)]) = (.ok (.table cut), finished descendingWorkspace) ∧
      (cut = Table.slice ⟨[.int 2, .int 1, .int 0], [("v", .ints .int64 [30, 20, 10])]⟩ 1 1 ↔
        1 = 0 ∨ List.Perm [[Cell.int 30]] (unordered.rows.take 1)) ∧
      (cut.rows = [[Cell.int 20]] ↔ 1 = 0 ∨ List.Perm [[Cell.int 30]] (unordered.rows.take 1)) :=
  limit_offset_eq_slice_iff rfl rfl run_descendingQuery keysDiffer_descendingQuery 1 1

/-- With OFFSET 1 and LIMIT 1 the greatest of three values is answered, and not the second. -/
theorem limit_offset_not_slice :
    KeysDiffer descendingQuery (.ofTables [("t", threeRows)]) ∧
    ∃ answer cut w',
      Work.run (eval false (.select descendingQuery {})) (.ofTables [("t", threeRows)]) =
        (.ok (.table answer), w') ∧
      Work.run (eval false (.select (descendingQuery.sliced 1 1) {}))
        (.ofTables [("t", threeRows)]) = (.ok (.table cut), w') ∧
      cut.rows = [[.int 30]] ∧ (answer.rows.drop 1).take 1 = [[.int 20]] := by
  refine ⟨keysDiffer_descendingQuery, _, ⟨[.int 2], [("v", .ints .int64 [30])]⟩, _,
    run_descendingQuery, ?_, rfl, rfl⟩
  have hRectangular : threeRows.Rectangular := by
    simp [Table.Rectangular, threeRows, height, Data.length]
  have hSort : ((range threeRows.height).drop 1).mergeSort (SortKey.keepsOrder
      [⟨[some (.int 10), some (.int 20), some (.int 30)], false⟩]) = [2, 1] := by
    cbv
  have hCut := hRectangular.sortBy_drop sortKeys_threeRows 1
  rw [hSort] at hCut
  rw [run_eval_select_eq_ok, evalSelect_eq,
    run_bind_ok (x := evalRows (descendingQuery.sliced 1 1)) run_evalRows_descendingQuery,
    run_arrangeRows_sliced, ordered_descendingQuery, hCut]
  rfl

end Query

end TableQuery
