import TableQuery.Proofs.NumberOrder
import TableQuery.Proofs.Rows
import TableQuery.Table.Sort

/-! Sorting rows. Keys whose entries can be compared rank the rows in a linear order. Sorting the
rows after the first ones leaves them in the order that they have among all rows. -/
namespace TableQuery

open List SortKey

namespace Cell

def textPart : Cell → String
  | .text s => s
  | _ => ""

theorem sortsBefore_self (c : Cell) : c.sortsBefore c = true := by
  unfold sortsBefore
  cases c.num? with
  | some n => exact (Num.sortsBefore_iff n n).mpr le_rfl
  | none =>
    cases c with
    | text s => simp [orderTexts, compareOfLessAndEq]
    | _ => rfl

theorem sortsBefore_nums {a b : Cell} {m n : Num} (ha : a.num? = some m) (hb : b.num? = some n) :
    a.sortsBefore b = true ↔ m.place ≤ n.place := by
  unfold sortsBefore
  rw [ha, hb]
  exact Num.sortsBefore_iff m n

theorem sortsBefore_texts (s t : String) : (Cell.text s).sortsBefore (.text t) = true ↔ s ≤ t := by
  change (compareOfLessAndEq s t != .gt) = true ↔ _
  rw [bne_iff_ne, ne_eq, ← LinearOrder.compare_eq_compareOfLessAndEq, compare_gt_iff_gt, not_lt]

end Cell

namespace SortKey

variable {key : SortKey}

def present (key : SortKey) : List Cell := key.entries.filterMap id

theorem mem_present {i : Nat} {c : Cell} (h : key.entries[i]?.join = some c) : c ∈ key.present := by
  cases hi : key.entries[i]? with
  | none => simp [hi] at h
  | some entry =>
    rw [hi] at h
    exact mem_filterMap.mpr ⟨entry, mem_of_getElem? hi, h⟩

/-- Entries that sort in a linear order rank the rows. Missing entries have the last rank. -/
theorem exists_rank_of_sortsBefore {L : Type} [LinearOrder L] (key : SortKey) (value : Cell → L)
    (h : ∀ a ∈ key.present, ∀ b ∈ key.present, a.sortsBefore b = true ↔ value a ≤ value b) :
    ∃ (R : Type) (_ : LinearOrder R) (rank : Nat → R), ∀ i j, key.before i j = true ↔
          rank i < rank j := by
  by_cases hAscending : key.ascending = true
  · refine ⟨WithTop L, inferInstance, fun i => key.entries[i]?.join.elim ⊤ (WithTop.some ∘ value),
      ?_⟩
    intro i j
    simp only [before]
    cases hi : key.entries[i]?.join with
    | none => simp
    | some a =>
      cases hj : key.entries[j]?.join with
      | none => simp
      | some b =>
        have hBack := h b (mem_present hj) a (mem_present hi)
        simp [hAscending, ← not_le, ← hBack]
  · refine ⟨WithTop Lᵒᵈ, inferInstance,
      fun i => key.entries[i]?.join.elim ⊤ (WithTop.some ∘ OrderDual.toDual ∘ value), ?_⟩
    intro i j
    simp only [before]
    cases hi : key.entries[i]?.join with
    | none => simp
    | some a =>
      cases hj : key.entries[j]?.join with
      | none => simp
      | some b =>
        have hForth := h a (mem_present hi) b (mem_present hj)
        simp [hAscending, ← not_le, ← hForth]

/-- A key whose entries can be compared ranks the rows. -/
theorem exists_rank (h : key.isOrdered = true) :
    ∃ (R : Type) (_ : LinearOrder R) (rank : Nat → R), ∀ i j, key.before i j = true ↔
          rank i < rank j := by
  unfold isOrdered at h
  simp only [Bool.or_eq_true, decide_eq_true_eq, all_eq_true] at h
  rcases h with (hSingle | hNums) | hTexts
  · apply exists_rank_of_sortsBefore key fun _ => ()
    intro a ha b hb
    have hEq : a = b := by
      obtain ⟨i, hi, rfl⟩ := getElem_of_mem ha
      obtain ⟨j, hj, rfl⟩ := getElem_of_mem hb
      have hLength : key.present.length ≤ 1 := hSingle
      congr 1
      omega
    simp [hEq, Cell.sortsBefore_self]
  · apply exists_rank_of_sortsBefore key fun c => (c.num?.map Num.place).getD ⊤
    intro a ha b hb
    obtain ⟨m, hm⟩ := Option.isSome_iff_exists.mp (hNums a ha)
    obtain ⟨n, hn⟩ := Option.isSome_iff_exists.mp (hNums b hb)
    rw [Cell.sortsBefore_nums hm hn, hm, hn]
    rfl
  · apply exists_rank_of_sortsBefore key Cell.textPart
    intro a ha b hb
    have hText (c : Cell) (hc : c ∈ key.present) : ∃ s, c = .text s := by
      have := hTexts c hc
      cases c with
      | text s => exact ⟨s, rfl⟩
      | _ => cases this
    obtain ⟨s, rfl⟩ := hText a ha
    obtain ⟨t, rfl⟩ := hText b hb
    exact Cell.sortsBefore_texts s t

/-- Keys whose entries can be compared rank the rows together; the first key that tells two rows
apart decides. -/
theorem exists_rank_keepsOrder {keys : List SortKey} (h : ∀ key ∈ keys, key.isOrdered = true) :
    ∃ (R : Type) (_ : LinearOrder R) (rank : Nat → R), ∀ i j, keepsOrder keys i j = true ↔
          rank i ≤ rank j := by
  induction keys with
  | nil => exact ⟨Unit, inferInstance, fun _ => (), fun _ _ => by simp [keepsOrder]⟩
  | cons key rest ih =>
    obtain ⟨A, _, first, hFirst⟩ := exists_rank (h key mem_cons_self)
    obtain ⟨B, _, second, hSecond⟩ := ih fun k hk => h k (mem_cons_of_mem _ hk)
    refine ⟨A ×ₗ B, inferInstance, fun i => toLex (first i, second i), ?_⟩
    intro i j
    rw [Prod.Lex.toLex_le_toLex, keepsOrder]
    rcases lt_trichotomy (first i) (first j) with hLt | hEq | hGt
    · simp [(hFirst i j).mpr hLt, hLt]
    · have hForth : key.before i j = false := by
        rw [Bool.eq_false_iff, ne_eq, hFirst]
        exact hEq.not_lt
      have hBack : key.before j i = false := by
        rw [Bool.eq_false_iff, ne_eq, hFirst]
        exact hEq.not_gt
      simp [hForth, hBack, hEq, hSecond]
    · have hForth : key.before i j = false := by
        rw [Bool.eq_false_iff, ne_eq, hFirst]
        exact hGt.not_gt
      simp [hForth, (hFirst j i).mpr hGt, hGt.not_gt, hGt.ne']

def Distinguish (keys : List SortKey) (height : Nat) : Prop :=
  ∀ i < height, ∀ j < height, keepsOrder keys i j = true → keepsOrder keys j i = true → i = j

section Positions

variable {keys : List SortKey} (hKeys : ∀ key ∈ keys, key.isOrdered = true)
include hKeys

theorem pairwise_mergeSort (ps : List Nat) :
    (ps.mergeSort (keepsOrder keys)).Pairwise fun i j => keepsOrder keys i j = true := by
  obtain ⟨R, _, rank, hRank⟩ := exists_rank_keepsOrder hKeys
  apply List.pairwise_mergeSort
  · intro i j k hij hjk
    rw [hRank] at *
    exact hij.trans hjk
  · intro i j
    rw [Bool.or_eq_true, hRank, hRank]
    exact le_total _ _

/-- Sorting some of the positions puts them in the order in which sorting all puts them. -/
theorem mergeSort_filter {height : Nat} (hDistinct : Distinguish keys height) (p : Nat → Bool) :
    ((range height).filter p).mergeSort (keepsOrder keys) =
      ((range height).mergeSort (keepsOrder keys)).filter p := by
  have hPerm : (((range height).filter p).mergeSort (keepsOrder keys)).Perm
      (((range height).mergeSort (keepsOrder keys)).filter p) :=
    (mergeSort_perm _ _).trans ((mergeSort_perm _ _).filter p).symm
  apply hPerm.eq_of_pairwise _ (pairwise_mergeSort hKeys _) ((pairwise_mergeSort hKeys _).filter p)
  intro i j hi hj
  have hi := (mergeSort_perm _ _).mem_iff.mp hi
  have hj := (mergeSort_perm _ _).mem_iff.mp (mem_of_mem_filter hj)
  exact hDistinct i (mem_range.mp (mem_of_mem_filter hi)) j (mem_range.mp hj)

end Positions

def drop (key : SortKey) (m : Nat) : SortKey := ⟨key.entries.drop m, key.ascending⟩

theorem before_drop (key : SortKey) (m i j : Nat) :
    (key.drop m).before i j = key.before (m + i) (m + j) := by
  unfold before drop
  rw [getElem?_drop, getElem?_drop]

theorem before_self (key : SortKey) (i : Nat) : key.before i i = false := by
  unfold before
  cases key.entries[i]?.join with
  | none => rfl
  | some c => simp [Cell.sortsBefore_self]

/-- A key that two rows share leaves it to the next ones to tell them apart. -/
theorem keepsOrder_cons_of_entries_eq {rest : List SortKey} {i j : Nat}
    (h : key.entries[i]? = key.entries[j]?) :
    keepsOrder (key :: rest) i j = keepsOrder rest i j := by
  have hForth : key.before i j = false := by
    rw [← before_self key j, before, before, h]
  have hBack : key.before j i = false := by
    rw [← before_self key j, before, before, h]
  rw [keepsOrder, hForth, hBack]
  rfl

theorem isOrdered_drop (h : key.isOrdered = true) (m : Nat) : (key.drop m).isOrdered = true := by
  have hSub : ((key.drop m).entries.filterMap id).Sublist (key.entries.filterMap id) :=
    (drop_sublist m _).filterMap id
  unfold isOrdered at *
  simp only [Bool.or_eq_true, decide_eq_true_eq, all_eq_true] at h ⊢
  rcases h with (hSingle | hNums) | hTexts
  · exact .inl (.inl (hSub.length_le.trans hSingle))
  · exact .inl (.inr fun c hc => hNums c (hSub.subset hc))
  · exact .inr fun c hc => hTexts c (hSub.subset hc)

theorem keepsOrder_drop (keys : List SortKey) (m i j : Nat) :
    keepsOrder (keys.map (·.drop m)) i j = keepsOrder keys (m + i) (m + j) := by
  induction keys with
  | nil => rfl
  | cons key rest ih => simp only [map_cons, keepsOrder, before_drop, ih]

end SortKey

namespace Data

variable {ascending : Bool} {key : SortKey} {d : Data}

theorem isOrdered_of_sortKey (h : d.sortKey ascending = .ok key) : key.isOrdered = true := by
  unfold sortKey at h
  dsimp only at h
  split at h
  · rename_i hOrdered
    cases h
    exact hOrdered
  · cases h

theorem sortKey_drop (h : d.sortKey ascending = .ok key) (m : Nat) :
    (d.pick ((range d.length).drop m)).sortKey ascending = .ok (key.drop m) := by
  have hOrdered := isOrdered_drop (isOrdered_of_sortKey h) m
  unfold sortKey at h ⊢
  dsimp only at h ⊢
  split at h
  · cases h
    rw [cells_pick, missing_pick, ← length_cells, filterMap_getElem?_drop, length_cells,
      ← length_missing, filterMap_getElem?_drop, ← drop_zipWith]
    exact if_pos hOrdered
  · cases h

/-- Rows with the same value have the same key. -/
theorem sortKey_congr (h : d.sortKey ascending = .ok key) {i j : Nat}
    (hCells : d.cells[i]? = d.cells[j]?) : key.entries[i]? = key.entries[j]? := by
  unfold sortKey at h
  dsimp only at h
  split at h
  · cases h
    simp only [getElem?_zipWith, hCells, missing_congr hCells]
  · cases h

end Data

namespace Table

variable {fields : List (String × Bool)} {keys : List SortKey} {t : Table} {name : String}
    {d : Data}

theorem column_eq_ok (h : t.column name = .ok d) : t.named name = [d] ∧ (name, d) ∈ t.columns := by
  unfold column at h
  split at h
  · cases h
  · rename_i e hNamed
    cases h
    refine ⟨hNamed, ?_⟩
    have hMem : d ∈ t.named name := by simp [hNamed]
    obtain ⟨⟨n, e⟩, hc, rfl⟩ := mem_map.mp hMem
    obtain ⟨hc, hn⟩ := mem_filter.mp hc
    rwa [← beq_iff_eq.mp hn]
  · cases h

theorem column_pickRows (h : t.column name = .ok d)
    (ps : List Nat) : (t.pickRows ps).column name = .ok (d.pick ps) := by
  unfold column
  rw [named_pickRows, (column_eq_ok h).1]
  rfl

/-- A sort has keys if its fields name one column each and the columns can be compared. -/
theorem sortKeys_eq_ok_iff : t.sortKeys fields = .ok keys ↔ ∃ columns : List (Data × Bool),
        Forall₂ (fun f c => t.column f.1 = .ok c.1 ∧ f.2 = c.2) fields columns ∧
        Forall₂ (fun c key => c.1.sortKey c.2 = .ok key) columns keys := by
  have hField (f : String × Bool) (c : Data × Bool) :
      (do return (← t.column f.1, f.2) : Except Fault (Data × Bool)) = .ok c ↔
        t.column f.1 = .ok c.1 ∧ f.2 = c.2 := by
    cases t.column f.1 with
    | error e => simp [bind, Except.bind]
    | ok d => simp [bind, Except.bind, pure, Except.pure, Prod.ext_iff]
  simp only [← hField]
  simp only [← mapM_eq_ok_iff]
  unfold sortKeys
  cases fields.mapM fun f => (do return (← t.column f.1, f.2) : Except Fault (Data × Bool)) with
  | error e => simp [bind, Except.bind]
  | ok columns => simp [bind, Except.bind]

theorem isOrdered_of_sortKeys (h : t.sortKeys fields = .ok keys) :
    ∀ key ∈ keys, key.isOrdered = true := by
  obtain ⟨columns, -, hKeys⟩ := sortKeys_eq_ok_iff.mp h
  clear h
  induction hKeys with
  | nil => simp
  | cons hKey _ ih =>
    simp only [mem_cons, forall_eq_or_imp]
    exact ⟨Data.isOrdered_of_sortKey hKey, ih⟩

theorem Rectangular.length_of_column (ht : t.Rectangular) (h : t.column name = .ok d) :
    d.length = t.height :=
  ht _ (column_eq_ok h).2

/-- The keys of the rows after the first ones. -/
theorem Rectangular.sortKeys_drop (ht : t.Rectangular) (h : t.sortKeys fields = .ok keys)
    (m : Nat) :
    (t.pickRows ((range t.height).drop m)).sortKeys fields = .ok (keys.map (·.drop m)) := by
  obtain ⟨columns, hColumns, hKeys⟩ := sortKeys_eq_ok_iff.mp h
  refine sortKeys_eq_ok_iff.mpr
    ⟨columns.map fun c => (c.1.pick ((range t.height).drop m), c.2), ?_, ?_⟩
  · rw [forall₂_map_right_iff]
    exact hColumns.imp fun f c hc => ⟨column_pickRows hc.1 _, hc.2⟩
  · clear h
    induction hColumns generalizing keys with
    | nil =>
      cases hKeys
      exact .nil
    | cons hColumn _ ih =>
      cases hKeys with
      | cons hKey hRest =>
        refine .cons ?_ (ih hRest)
        rw [← ht.length_of_column hColumn.1]
        exact Data.sortKey_drop hKey m

/-- Rows with the same values have the same keys. -/
theorem Rectangular.keepsOrder_of_row_eq (ht : t.Rectangular) (h : t.sortKeys fields = .ok keys)
    {i j : Nat} (hi : i < t.height) (hj : j < t.height) (hRow : t.row i = t.row j) :
    keepsOrder keys i j = true := by
  have hCells := ht.cells_of_row_eq hi hj hRow
  obtain ⟨columns, hColumns, hKeys⟩ := sortKeys_eq_ok_iff.mp h
  clear h
  induction hColumns generalizing keys with
  | nil =>
    cases hKeys
    rfl
  | cons hColumn _ ih =>
    cases hKeys with
    | cons hKey hRest =>
      have hEntries := Data.sortKey_congr hKey (hCells _ (column_eq_ok hColumn.1).2)
      rw [keepsOrder_cons_of_entries_eq hEntries]
      exact ih hRest

/-- Sorting the rows after the first ones. -/
theorem Rectangular.sortBy_drop (ht : t.Rectangular) (h : t.sortKeys fields = .ok keys) (m : Nat) :
    (t.pickRows ((range t.height).drop m)).sortBy fields = .ok
    (t.pickRows (((range t.height).drop m).mergeSort (keepsOrder keys))) := by
  have hIn : ∀ p ∈ (range t.height).drop m, p < t.height := fun p hp =>
    mem_range.mp (mem_of_mem_drop hp)
  have hSort : ((range (t.height - m)).mergeSort
        (keepsOrder (keys.map (·.drop m)))).filterMap
        (((range t.height).drop m)[·]?) =
      ((range t.height).drop m).mergeSort (keepsOrder keys) := by
    have hMap : ∀ i ∈ (range (t.height - m)).mergeSort
        (keepsOrder (keys.map (·.drop m))),
        ((range t.height).drop m)[i]? = some (m + i) := by
      intro i hi
      have hi := mem_range.mp ((mergeSort_perm _ _).mem_iff.mp hi)
      rw [drop_range, getElem?_map, getElem?_range hi]
      rfl
    rw [filterMap_congr hMap, filterMap_eq_map', drop_range]
    exact map_mergeSort fun i _ j _ => keepsOrder_drop keys m i j
  unfold sortBy
  rw [ht.sortKeys_drop h]
  change Except.ok _ = _
  rw [ht.pickRows_pickRows hIn, height_pickRows hIn, length_drop, length_range, hSort]

end Table

end TableQuery
