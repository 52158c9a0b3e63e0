import Mathlib.Data.List.Forall2
import TableQuery.Query.Rows

/-! Rows of tables. Picking rows of a rectangular table by position gives such a table again, and
picking twice is picking once. -/
namespace TableQuery

open List

variable {ε α β : Type}

/-- A sequence of two steps has a result only if both have one. -/
theorem bind_eq_ok {x : Except ε α} {f : α → Except ε β} {b : β}
    (h : x >>= f = .ok b) : ∃ a, x = .ok a ∧ f a = .ok b := by
  cases x with
  | error e => cases h
  | ok a => exact ⟨a, rfl, h⟩

/-- The results of a function that may fail, all of which are there, belong to the arguments one by
one. -/
theorem mapM_eq_ok_iff {f : α → Except ε β} {xs : List α} {ys : List β} :
    xs.mapM f = .ok ys ↔ Forall₂ (fun x y => f x = .ok y) xs ys := by
  induction xs generalizing ys with
  | nil =>
    rw [forall₂_nil_left_iff]
    constructor
    · intro h
      cases h
      rfl
    · rintro rfl
      rfl
  | cons x xs ih =>
    rw [mapM_cons, forall₂_cons_left_iff]
    cases hx : f x with
    | error e =>
      constructor
      · intro h
        cases h
      · rintro ⟨_, _, h, _⟩
        cases h
    | ok y =>
      cases hxs : xs.mapM f with
      | error e =>
        constructor
        · intro h
          cases h
        · rintro ⟨_, zs, _, hRest, _⟩
          rw [← ih, hxs] at hRest
          cases hRest
      | ok zs =>
        constructor
        · intro h
          cases h
          exact ⟨y, zs, rfl, ih.mp hxs, rfl⟩
        · rintro ⟨_, us, h, hRest, rfl⟩
          cases h
          rw [← ih, hxs] at hRest
          cases hRest
          rfl

theorem length_of_mapM_eq_ok {f : α → Except ε β} {xs : List α} {ys : List β}
    (h : xs.mapM f = .ok ys) : ys.length = xs.length :=
  (mapM_eq_ok_iff.mp h).length_eq.symm

theorem mapM_eq_ok_replicate {f : α → Except ε β} {xs : List α} {n : Nat} {y : β}
    (hLength : xs.length = n) (h : ∀ x ∈ xs, f x = .ok y) : xs.mapM f = .ok (replicate n y) := by
  subst hLength
  rw [mapM_eq_ok_iff]
  induction xs with
  | nil => exact .nil
  | cons x rest ih =>
    obtain ⟨hx, hRest⟩ := forall_mem_cons.1 h
    exact .cons hx (ih hRest)

/-- What belongs to something belongs to a member. -/
theorem exists_mem_left {R : α → β → Prop} {xs : List α} {ys : List β}
    (h : Forall₂ R xs ys) {y : β} (hy : y ∈ ys) : ∃ x ∈ xs, R x y := by
  induction h with
  | nil => cases hy
  | cons hx _ ih =>
    rcases mem_cons.mp hy with rfl | hy
    · exact ⟨_, mem_cons_self, hx⟩
    · obtain ⟨x, hMem, hx⟩ := ih hy
      exact ⟨x, mem_cons_of_mem _ hMem, hx⟩

theorem exists_mem_right {R : α → β → Prop} {xs : List α} {ys : List β}
    (h : Forall₂ R xs ys) {x : α} (hx : x ∈ xs) : ∃ y ∈ ys, R x y :=
  exists_mem_left (R := flip R) h.flip hx

@[simp] theorem Column.length_freshLabels (n : Nat) : (freshLabels n).length = n := by
  simp [freshLabels]

section Positions

variable {ps : List Nat}

theorem filterMap_getElem?_map (f : α → β) (xs : List α) (ps : List Nat) :
    (ps.filterMap (xs[·]?)).map f = ps.filterMap ((xs.map f)[·]?) := by
  rw [map_filterMap]
  congr 1
  funext i
  rw [getElem?_map]

theorem length_filterMap_getElem? {xs : List α} (h : ∀ p ∈ ps, p < xs.length) :
    (ps.filterMap (xs[·]?)).length = ps.length := by
  rw [filterMap_length_eq_length]
  intro p hp
  rw [isSome_getElem?]
  exact h p hp

/-- Positions that are all there give one entry each. -/
theorem getElem?_filterMap_getElem? {xs : List α} (h : ∀ p ∈ ps, p < xs.length)
    (i : Nat) : (ps.filterMap (xs[·]?))[i]? = ps[i]?.bind (xs[·]?) := by
  induction ps generalizing i with
  | nil => rfl
  | cons p ps ih =>
    have hp : p < xs.length := h p mem_cons_self
    have hRest : ∀ q ∈ ps, q < xs.length := fun q hq => h q (mem_cons_of_mem _ hq)
    rw [filterMap_cons, getElem?_eq_getElem hp]
    cases i with
    | zero => simp [getElem?_eq_getElem hp]
    | succ i => simpa using ih hRest i

theorem filterMap_getElem?_filterMap {xs : List α} (h : ∀ p ∈ ps, p < xs.length) (qs : List Nat) :
    qs.filterMap ((ps.filterMap (xs[·]?))[·]?) = (qs.filterMap (ps[·]?)).filterMap (xs[·]?) := by
  rw [filterMap_filterMap]
  congr 1
  funext q
  exact getElem?_filterMap_getElem? h q

theorem filterMap_getElem?_range (xs : List α) : (range xs.length).filterMap (xs[·]?) = xs := by
  apply ext_getElem?
  intro i
  rw [getElem?_filterMap_getElem? (by simp)]
  by_cases hi : i < xs.length
  · rw [getElem?_range hi]
    rfl
  · rw [getElem?_eq_none (by simpa using hi), getElem?_eq_none (by simpa using hi)]
    rfl

/-- The entries at the positions of a slice. -/
theorem filterMap_getElem?_slice (xs : List α) (m n : Nat) :
    (((range xs.length).drop m).take n).filterMap (xs[·]?) = (xs.drop m).take n := by
  have hIn : ∀ p ∈ ((range xs.length).drop m).take n, p < xs.length := fun p hp =>
    mem_range.mp (mem_of_mem_drop (mem_of_mem_take hp))
  apply ext_getElem?
  intro i
  rw [getElem?_filterMap_getElem? hIn]
  by_cases hi : i < n
  · rw [getElem?_take_of_lt hi, getElem?_take_of_lt hi, getElem?_drop,
      getElem?_drop, ← getElem?_filterMap_getElem? (by simp), filterMap_getElem?_range]
  · rw [getElem?_take_eq_none (by omega), getElem?_take_eq_none (by omega)]
    rfl

theorem filterMap_getElem?_drop (xs : List α) (m : Nat) :
    ((range xs.length).drop m).filterMap (xs[·]?) = xs.drop m := by
  have hSlice := filterMap_getElem?_slice xs m xs.length
  rwa [take_of_length_le (by simp), take_of_length_le (by simp)] at hSlice

/-- The positions after the first ones. -/
theorem drop_range (n m : Nat) : (range n).drop m = (range (n - m)).map (m + ·) := by
  apply ext_getElem
  · simp
  · simp

theorem drop_range_eq_filter (n m : Nat) :
    (range n).drop m = (range n).filter fun i => decide (m ≤ i) := by
  rcases Nat.le_total n m with h | h
  · rw [drop_eq_nil_of_le (by simpa using h), eq_comm, filter_eq_nil_iff]
    intro i hi
    have := mem_range.mp hi
    simp only [decide_eq_true_eq]
    omega
  · obtain ⟨k, rfl⟩ := Nat.exists_eq_add_of_le h
    have hFirst : (range m).filter (fun i => decide (m ≤ i)) = [] := by
      rw [filter_eq_nil_iff]
      intro i hi
      have := mem_range.mp hi
      simp only [decide_eq_true_eq]
      omega
    have hRest : ((range k).map (m + ·)).filter (fun i => decide (m ≤ i)) =
        (range k).map (m + ·) := by
      rw [filter_eq_self]
      intro i hi
      obtain ⟨j, _, rfl⟩ := mem_map.mp hi
      simp
    rw [drop_range, range_add, filter_append, hFirst, hRest, Nat.add_sub_cancel_left,
      nil_append]

end Positions

namespace Data

variable {d : Data}
variable {ps : List Nat}

@[simp] theorem length_cells (d : Data) : d.cells.length = d.length := by
  cases d <;> simp [cells, length]

@[simp] theorem length_missing (d : Data) : d.missing.length = d.length := by
  cases d <;> simp [missing, length]

theorem cells_pick (d : Data) (ps : List Nat) : (d.pick ps).cells = ps.filterMap (d.cells[·]?) := by
  cases d <;> simp only [pick, arrange, cells, filterMap_getElem?_map]

theorem missing_pick (d : Data) (ps : List Nat) :
    (d.pick ps).missing = ps.filterMap (d.missing[·]?) := by
  cases d <;> simp only [pick, arrange, missing, filterMap_getElem?_map]

theorem length_pick (h : ∀ p ∈ ps, p < d.length) : (d.pick ps).length = ps.length := by
  rw [← length_cells, cells_pick]
  exact length_filterMap_getElem? (by simpa using h)

theorem pick_pick (h : ∀ p ∈ ps, p < d.length) (qs : List Nat) :
    (d.pick ps).pick qs = d.pick (qs.filterMap (ps[·]?)) := by
  cases d <;> simp only [pick, arrange, filterMap_getElem?_filterMap h]

/-- Whether an entry is missing can be seen from its value. -/
theorem missing_congr {i j : Nat} (h : d.cells[i]? = d.cells[j]?) :
    d.missing[i]? = d.missing[j]? := by
  cases d <;> simp only [cells, missing, getElem?_map] at h ⊢ <;>
    rename_i xs <;> cases hi : xs[i]? <;> cases hj : xs[j]? <;> simp_all <;>
    rename_i x y <;> cases x <;> cases y <;> simp_all

theorem pick_range (d : Data) : d.pick (range d.length) = d := by
  cases d <;> simp only [pick, arrange, length, filterMap_getElem?_range]

end Data

namespace Table

variable {t : Table} {ps : List Nat} {mask : List Bool}

def Rectangular (t : Table) : Prop := ∀ c ∈ t.columns, c.2.length = t.height

theorem height_pickRows (h : ∀ p ∈ ps, p < t.height) : (t.pickRows ps).height = ps.length :=
  length_filterMap_getElem? h

theorem names_pickRows (t : Table) (ps : List Nat) : (t.pickRows ps).names = t.names := by
  simp [pickRows, names]

theorem Rectangular.pickRows (ht : t.Rectangular) (ps : List Nat) :
    (t.pickRows ps).Rectangular := by
  intro c hc
  obtain ⟨⟨n, d⟩, hd, rfl⟩ := mem_map.mp hc
  have hLength : d.length = t.labels.length := ht _ hd
  change (d.pick ps).length = (ps.filterMap (t.labels[·]?)).length
  rw [← Data.length_cells, Data.cells_pick, length_filterMap_eq_countP,
    length_filterMap_eq_countP]
  congr 1
  funext p
  rw [Bool.eq_iff_iff, isSome_getElem?]
  simp [hLength]

/-- Picking rows of picked rows is picking rows of the table. -/
theorem Rectangular.pickRows_pickRows (ht : t.Rectangular) (h : ∀ p ∈ ps, p < t.height)
    (qs : List Nat) : (t.pickRows ps).pickRows qs = t.pickRows (qs.filterMap (ps[·]?)) := by
  have hLabels := filterMap_getElem?_filterMap h qs
  have hColumns : ∀ c ∈ t.columns, (c.1, (c.2.pick ps).pick qs) =
      (c.1, c.2.pick (qs.filterMap (ps[·]?))) := by
    intro c hc
    rw [Data.pick_pick (by rw [ht c hc]; exact h)]
  simp only [Table.pickRows, map_map]
  congr 1
  exact map_congr_left hColumns

theorem Rectangular.pickRows_range (ht : t.Rectangular) : t.pickRows (range t.height) = t := by
  have hColumns : ∀ c ∈ t.columns, (c.1, c.2.pick (range t.height)) = c := by
    intro c hc
    rw [← ht c hc, Data.pick_range]
  cases t with
  | mk labels columns =>
    simp only [Table.pickRows, height] at *
    rw [filterMap_getElem?_range, map_congr_left hColumns, map_id']

theorem named_pickRows (t : Table) (ps : List Nat) (name : String) :
    (t.pickRows ps).named name = (t.named name).map (·.pick ps) := by
  simp only [named, pickRows, filter_map, map_map]
  rfl

theorem Rectangular.length_of_mem_named (ht : t.Rectangular) {name : String} {d : Data}
    (hd : d ∈ t.named name) : d.length = t.height := by
  obtain ⟨c, hc, rfl⟩ := mem_map.1 hd
  exact ht c (mem_of_mem_filter hc)

theorem length_positionsWhere (mask : List Bool) :
    (positionsWhere mask).length = mask.count true := by
  have hMask : mask.zipIdx.map (·.1) = mask := zipIdx_map_fst 0 mask
  rw [positionsWhere, length_map, ← countP_eq_length_filter]
  nth_rewrite 2 [← hMask]
  rw [count, countP_map]
  exact countP_congr fun p _ => by simp

theorem lt_of_mem_positionsWhere {p : Nat} (h : p ∈ positionsWhere mask) : p < mask.length := by
  obtain ⟨⟨b, i⟩, hp, rfl⟩ := mem_map.1 h
  simpa using snd_lt_of_mem_zipIdx (mem_of_mem_filter hp)

theorem height_filterRows (h : mask.length = t.height) :
    (t.filterRows mask).height = mask.count true := by
  rw [filterRows, height_pickRows, length_positionsWhere]
  intro p hp
  exact h ▸ lt_of_mem_positionsWhere hp

/-- A mask that always holds leaves every row. -/
theorem Rectangular.filterRows_of_forall (ht : t.Rectangular)
    (hLength : mask.length = t.height) (h : ∀ b ∈ mask, b = true) : t.filterRows mask = t := by
  have hFilter : mask.zipIdx.filter (·.1) = mask.zipIdx :=
    filter_eq_self.2 fun p hp => h p.1 (fst_mem_of_mem_zipIdx hp)
  rw [filterRows, positionsWhere, hFilter, zipIdx_map_snd, ← range_eq_range', hLength]
  exact ht.pickRows_range

def row (t : Table) (i : Nat) : List Cell :=
  (t.columns.map fun c => c.2.cells).filterMap (·[i]?)

theorem rows_eq (t : Table) : t.rows = (range t.height).map t.row := rfl

theorem length_rows (t : Table) : t.rows.length = t.height := by
  simp [rows_eq]

/-- The rows of picked rows are those at their positions. -/
theorem Rectangular.rows_pickRows (ht : t.Rectangular)
    (h : ∀ p ∈ ps, p < t.height) : (t.pickRows ps).rows = ps.map t.row := by
  apply ext_getElem
  · simp [length_rows, height_pickRows h]
  · intro i hi _
    rw [length_rows, height_pickRows h] at hi
    simp only [rows_eq, getElem_map, getElem_range, row, Table.pickRows,
      filterMap_map]
    apply filterMap_congr
    intro c hc
    have hIn : ∀ p ∈ ps, p < c.2.cells.length := by
      rw [Data.length_cells, ht c hc]
      exact h
    simp only [Function.comp_apply, Data.cells_pick]
    rw [getElem?_filterMap_getElem? hIn, getElem?_eq_getElem hi]
    rfl

def slice (t : Table) (m n : Nat) : Table :=
  t.pickRows (((List.range t.height).drop m).take n)

theorem Rectangular.rows_slice (ht : t.Rectangular) (m n : Nat) :
    (t.slice m n).rows = (t.rows.drop m).take n := by
  rw [slice, ht.rows_pickRows (fun _ hp => mem_range.1 (mem_of_mem_drop (mem_of_mem_take hp))),
    map_take, map_drop, ← rows_eq]

/-- Some of the picked rows are the rows at some of the positions. -/
theorem Rectangular.slice_pickRows (ht : t.Rectangular) (h : ∀ p ∈ ps, p < t.height) (m n : Nat) :
    (t.pickRows ps).slice m n = t.pickRows ((ps.drop m).take n) := by
  rw [slice, height_pickRows h, ht.pickRows_pickRows h, filterMap_getElem?_slice]

/-- Rows with the same values agree in every column. -/
theorem Rectangular.cells_of_row_eq (ht : t.Rectangular) {i j : Nat} (hi : i < t.height)
    (hj : j < t.height) (h : t.row i = t.row j) :
    ∀ c ∈ t.columns, c.2.cells[i]? = c.2.cells[j]? := by
  have hSome (k : Nat) (hk : k < t.height) (c : String × Data) (hc : c ∈ t.columns) :
      (c.2.cells[k]?).isSome := by
    simpa [ht c hc] using hk
  simp only [row, filterMap_map] at h
  revert hSome h
  generalize t.columns = columns
  intro hSome h
  induction columns with
  | nil => simp
  | cons c rest ih =>
    obtain ⟨a, ha⟩ := Option.isSome_iff_exists.mp (hSome i hi c mem_cons_self)
    obtain ⟨b, hb⟩ := Option.isSome_iff_exists.mp (hSome j hj c mem_cons_self)
    simp only [filterMap_cons, Function.comp_apply, ha, hb, cons.injEq] at h
    have hRest := ih (fun k hk d hd => hSome k hk d (mem_cons_of_mem _ hd)) h.2
    simp only [mem_cons, forall_eq_or_imp]
    exact ⟨by rw [ha, hb, h.1], hRest⟩

end Table

end TableQuery
