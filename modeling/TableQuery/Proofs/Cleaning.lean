import Mathlib.Data.List.Nodup
import TableQuery.Proofs.Storage

/-! Cleaning a table by the plan that was made for it. If names tell the columns apart, and labels
the rows, then exactly the columns and rows without any entry are dropped. -/
namespace TableQuery

open List Document

structure Telling (labels : List Cell) : Prop where
  same_self : ∀ l ∈ labels, Data.sameObject l l = true
  distinct : labels.Pairwise fun a b => Data.sameObject a b = false ∧ Data.sameObject b a = false

namespace Telling

variable {labels : List Cell}

theorem same_getElem (h : Telling labels) {i j : Nat} (hi : i < labels.length)
    (hj : j < labels.length) : Data.sameObject labels[i] labels[j] = true ↔ i = j := by
  rcases Nat.lt_trichotomy i j with hLess | rfl | hLess
  · simp [(pairwise_iff_getElem.1 h.distinct i j hi hj hLess).1, hLess.ne]
  · simp [h.same_self _ (getElem_mem hi)]
  · simp [(pairwise_iff_getElem.1 h.distinct j i hj hi hLess).2, hLess.ne']

/-- The labels where a mask holds are those of the rows where it holds. -/
theorem map_any_same (h : Telling labels) {mask : List Bool}
    (hLength : mask.length = labels.length) :
    (labels.map fun l => (((labels.zip mask).filter (·.2)).map (·.1)).any (Data.sameObject l)) =
      mask := by
  apply ext_getElem
  · simp [hLength]
  · intro i hi hMask
    have hi : i < labels.length := by simpa using hi
    rw [getElem_map, Bool.eq_iff_iff, any_eq_true]
    simp only [mem_map, mem_filter]
    constructor
    · rintro ⟨_, ⟨p, ⟨hp, hHolds⟩, rfl⟩, hSame⟩
      obtain ⟨j, hj, rfl⟩ := getElem_of_mem hp
      simp only [getElem_zip] at hHolds hSame
      rw [length_zip] at hj
      obtain rfl := (h.same_getElem hi (by omega)).1 hSame
      exact hHolds
    · intro hHolds
      have hZip : i < (labels.zip mask).length := by
        rw [length_zip]
        omega
      refine ⟨labels[i], ⟨(labels[i], mask[i]), ⟨?_, hHolds⟩, rfl⟩, h.same_self _ (getElem_mem hi)⟩
      exact getElem_zip (h := hZip) ▸ getElem_mem hZip

end Telling

theorem sameObject_int (m n : Int) : Data.sameObject (.int m) (.int n) = decide (m = n) := by
  have hCompare : (compare m n == .eq) = decide (m = n) := by
    rw [Bool.eq_iff_iff]
    simp
  simpa [Data.sameObject, Cell.same, Cell.num?, Num.compares, Num.order?, Num.asInt?,
    Comparison.accepts] using hCompare

theorem telling_freshLabels (n : Nat) : Telling (Column.freshLabels n) := by
  constructor
  · intro l hl
    obtain ⟨i, _, rfl⟩ := mem_map.1 hl
    simp [sameObject_int]
  · refine pairwise_map.2 (nodup_range.imp fun hij => ?_)
    simp [sameObject_int]
    omega

namespace Table

variable {t : Table}

theorem length_emptyRowMask (ht : t.Rectangular) : t.emptyRowMask.length = t.height := by
  refine foldlRecOn t.columns _ (motive := fun (mask : List Bool) => mask.length = t.height)
    (by simp [height]) ?_
  intro mask hMask c hc
  simp [hMask, ht c hc]

def withoutEmptyColumns (t : Table) : Table :=
  { t with columns := t.columns.filter fun c => !c.2.missing.all id }

/-- The table without what is empty in it, its rows numbered anew and its columns stored with marks.
-/
def cleaned (t : Table) : Table :=
  let rows := t.withoutEmptyColumns.filterRows (t.emptyRowMask.map (!·))
  ⟨Column.freshLabels rows.height, rows.columns.map fun c => (c.1, c.2.withMarks)⟩

theorem dropColumns_cleaningPlan (hNames : t.names.Nodup) :
    t.dropColumns t.cleaningPlan.dropColumns = .ok t.withoutEmptyColumns := by
  have hThere :
      (t.cleaningPlan.dropColumns.all fun n => t.names.any fun m => n.same (.text m)) = true := by
    refine all_eq_true.2 fun n hn => ?_
    obtain ⟨c, hc, rfl⟩ := mem_map.1 hn
    refine any_eq_true.2 ⟨c.1, mem_map_of_mem (mem_of_mem_filter hc), ?_⟩
    simp [Cell.same]
  have hSame : ∀ c ∈ t.columns, (t.cleaningPlan.dropColumns.any fun n => n.same (.text c.1)) =
      c.2.missing.all id := by
    intro c hc
    rw [Bool.eq_iff_iff, any_eq_true]
    constructor
    · rintro ⟨_, hn, hName⟩
      obtain ⟨d, hd, rfl⟩ := mem_map.1 hn
      obtain ⟨hd, hEmpty⟩ := mem_filter.1 hd
      have hName : d.1 = c.1 := by simpa [Cell.same] using hName
      obtain rfl := inj_on_of_nodup_map hNames hd hc hName
      exact hEmpty
    · intro hEmpty
      exact ⟨.text c.1, mem_map.2 ⟨c, mem_filter.2 ⟨hc, hEmpty⟩, rfl⟩, by simp [Cell.same]⟩
  rw [dropColumns, if_pos hThere]
  congr 2
  exact filter_congr fun c hc => by rw [hSame c hc]

theorem dropRows_cleaningPlan {u : Table} (ht : t.Rectangular) (hLabels : Telling t.labels)
    (hu : u.labels = t.labels) :
    u.dropRows t.cleaningPlan.emptyRows = .ok (u.filterRows (t.emptyRowMask.map (!·))) := by
  have hThere :
      (t.cleaningPlan.emptyRows.all fun l => u.labels.any (Data.sameObject l)) = true := by
    refine all_eq_true.2 fun l hl => ?_
    obtain ⟨p, hp, rfl⟩ := mem_map.1 hl
    have hMem : p.1 ∈ t.labels := (of_mem_zip (mem_of_mem_filter hp)).1
    exact any_eq_true.2 ⟨p.1, hu ▸ hMem, hLabels.same_self _ hMem⟩
  have hMask := hLabels.map_any_same (length_emptyRowMask ht)
  rw [dropRows, if_pos hThere, hu]
  rw [← hMask, map_map]
  rfl

/-- The plan that was made for a table drops exactly what is empty in it. -/
theorem clean_cleaningPlan (ht : t.Rectangular) (hNames : t.names.Nodup)
    (hLabels : Telling t.labels) : t.clean t.cleaningPlan = .ok t.cleaned := by
  unfold clean
  rw [dropColumns_cleaningPlan hNames]
  change (t.withoutEmptyColumns.dropRows t.cleaningPlan.emptyRows >>= _) = _
  rw [dropRows_cleaningPlan (u := t.withoutEmptyColumns) ht hLabels rfl]
  rfl

/-- A table that loses neither a row nor a column is only numbered anew and marked. -/
theorem cleaned_eq (ht : t.Rectangular) (hColumns : ∀ c ∈ t.columns, c.2.missing.all id = false)
    (hRows : ∀ b ∈ t.emptyRowMask, b = false) :
    t.cleaned = ⟨Column.freshLabels t.height, t.columns.map fun c => (c.1, c.2.withMarks)⟩ := by
  have hKept : t.withoutEmptyColumns = t := by
    have hFilter : t.columns.filter (fun c => !c.2.missing.all id) = t.columns :=
      filter_eq_self.2 fun c hc => by simp [hColumns c hc]
    rw [withoutEmptyColumns, hFilter]
  have hAll : t.filterRows (t.emptyRowMask.map (!·)) = t := by
    refine ht.filterRows_of_forall (by simp [length_emptyRowMask ht]) fun b hb => ?_
    obtain ⟨a, ha, rfl⟩ := mem_map.1 hb
    simp [hRows a ha]
  rw [cleaned, hKept, hAll]

theorem emptyRowMask_of_mem {c : String × Data} (hc : c ∈ t.columns)
    (h : ∀ m ∈ c.2.missing, m = false) : ∀ b ∈ t.emptyRowMask, b = false := by
  have hZip {xs ys : List Bool} (h : (∀ x ∈ xs, x = false) ∨ ∀ y ∈ ys, y = false) :
      ∀ b ∈ zipWith (· && ·) xs ys, b = false := by
    intro b hb
    obtain ⟨i, hi, rfl⟩ := getElem_of_mem hb
    rw [getElem_zipWith]
    rcases h with h | h
    · rw [h _ (getElem_mem _), Bool.false_and]
    · rw [h _ (getElem_mem _), Bool.and_false]
  obtain ⟨before, after, hColumns⟩ := append_of_mem hc
  rw [emptyRowMask, hColumns, foldl_append]
  exact foldlRecOn after _ (motive := fun (mask : List Bool) => ∀ b ∈ mask, b = false)
    (hZip (Or.inr h)) fun mask hMask d _ => hZip (Or.inl hMask)

/-- A table with rows and columns and without any gap loses nothing. -/
theorem cleaned_of_present (ht : t.Rectangular) (hHeight : 0 < t.height) (hSome : t.columns ≠ [])
    (h : ∀ c ∈ t.columns, ∀ m ∈ c.2.missing, m = false) :
    t.cleaned = ⟨Column.freshLabels t.height, t.columns.map fun c => (c.1, c.2.withMarks)⟩ := by
  obtain ⟨c, hc⟩ := exists_mem_of_ne_nil _ hSome
  refine cleaned_eq ht (fun d hd => ?_) (emptyRowMask_of_mem hc (h c hc))
  have hLength : d.2.missing ≠ [] := by
    rw [← length_eq_zero_iff.ne, Data.length_missing, ht d hd]
    omega
  obtain ⟨m, hm⟩ := exists_mem_of_ne_nil _ hLength
  exact all_eq_false.2 ⟨m, hm, by simp [h d hd m hm]⟩

theorem height_cleaned (ht : t.Rectangular) : t.cleaned.height = t.emptyRowMask.count false := by
  have hLength : (t.emptyRowMask.map (!·)).length = t.withoutEmptyColumns.height := by
    rw [length_map, length_emptyRowMask ht]
    rfl
  change (Column.freshLabels _).length = _
  rw [Column.length_freshLabels, height_filterRows hLength, count, countP_map]
  exact countP_congr fun b _ => by simp

/-- A table that keeps its columns and its height in cleaning loses nothing. -/
theorem cleaned_of_same (ht : t.Rectangular) (hNames : t.cleaned.names = t.names)
    (hHeight : t.cleaned.height = t.height) :
    t.cleaned = ⟨Column.freshLabels t.height, t.columns.map fun c => (c.1, c.2.withMarks)⟩ := by
  refine cleaned_eq ht (fun c hc => ?_) fun b hb => ?_
  · have hLength : (t.columns.filter fun c => !c.2.missing.all id).length = t.columns.length := by
      simpa [cleaned, names, filterRows, pickRows, withoutEmptyColumns] using congrArg length hNames
    simpa using length_filter_eq_length_iff.1 hLength c hc
  · rw [height_cleaned ht, ← length_emptyRowMask ht, count_eq_length] at hHeight
    exact (hHeight b hb).symm

theorem height_cleaned_le (ht : t.Rectangular) : t.cleaned.height ≤ t.height := by
  rw [height_cleaned ht, ← length_emptyRowMask ht]
  exact count_le_length

end Table

namespace Entry

/-- A plan of labels that a document can hold is read as it was. -/
theorem readPlan_planDocument {plan : CleaningPlan}
    (hRows : ∀ l ∈ plan.emptyRows, (ofCell l).toCell = l)
    (hColumns : ∀ l ∈ plan.dropColumns, (ofCell l).toCell = l) :
    readPlan (planDocument plan) = .ok plan := by
  have hSame {labels : List Cell} (h : ∀ l ∈ labels, (ofCell l).toCell = l) :
      (labels.map ofCell).map toCell = labels := by
    rw [map_map]
    exact (map_congr_left h).trans (map_id' labels)
  change Except.ok (⟨_, _⟩ : CleaningPlan) = _
  rw [hSame hRows, hSame hColumns]

/-- A table is cleaned by the plan that its entry has. -/
theorem fetch_of_plan {e : Entry} {drive : Drive} {t : Table} {plan : CleaningPlan}
    (hRaw : e.fetchRaw drive = .ok (some t)) (hPlan : e.plan = planDocument plan)
    (hRows : ∀ l ∈ plan.emptyRows, (ofCell l).toCell = l)
    (hColumns : ∀ l ∈ plan.dropColumns, (ofCell l).toCell = l) :
    e.fetch drive = (t.clean plan).map some := by
  have hTrue : (planDocument plan).isTrue = true := rfl
  unfold fetch
  rw [hRaw, hPlan]
  simp only [bind, Except.bind, hTrue, if_true, readPlan_planDocument hRows hColumns]
  cases t.clean plan <;> rfl

theorem toCell_dropColumns (t : Table) : ∀ l ∈ t.cleaningPlan.dropColumns, (ofCell l).toCell = l :=
  forall_mem_map.2 fun _ _ => rfl

/-- A table that is planned to be cleaned, and has not changed since, is fetched without what is
empty. -/
theorem fetch_planned {e : Entry} {drive : Drive} {t : Table}
    (hRaw : e.fetchRaw drive = .ok (some t)) (hPlan : e.plan = planDocument t.cleaningPlan)
    (hNames : t.names.Nodup) (hLabels : t.labels = Column.freshLabels t.height) :
    e.fetch drive = .ok (some t.cleaned) := by
  have hClean := Table.clean_cleaningPlan (asRead_of_fetchRaw hRaw).rectangular hNames
    (hLabels ▸ telling_freshLabels t.height)
  rw [fetch_of_plan hRaw hPlan (fun l hl => ?_) (toCell_dropColumns t), hClean]
  · rfl
  · obtain ⟨p, hp, rfl⟩ := mem_map.1 hl
    have hMem : p.1 ∈ t.labels := (of_mem_zip (mem_of_mem_filter hp)).1
    rw [hLabels] at hMem
    obtain ⟨i, _, hi⟩ := mem_map.1 hMem
    rw [← hi]
    rfl

end Entry

end TableQuery
