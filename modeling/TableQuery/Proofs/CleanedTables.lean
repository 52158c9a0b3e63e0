import TableQuery.Proofs.Cleaning
import TableQuery.Proofs.Conditions
import TableQuery.Proofs.JoinRows

/-! Tables without what is empty in them. The plan for a table drops its rows and columns without
any entry. It is kept with the table, so nothing gets lost later exactly if all that is still there
and still empty. -/
namespace TableQuery

open List

theorem isNone_mark {α : Type} (x : α) (b : Bool) : (if b then none else some x).isNone = b := by
  cases b <;> rfl

namespace Data

theorem missing_markObjects (xs : List Cell) :
    (markObjects xs).missing = xs.map Cell.isMissing := by
  unfold markObjects
  dsimp only
  split_ifs
  · rfl
  · simp only [missing, toTexts, freeCells, cells, zipWith_map_right, zipWith_self, map_map,
      Function.comp_def, isNone_mark]
  all_goals simp only [missing, map_map, Function.comp_def, isNone_mark]

theorem missing_withMarks (d : Data) : d.withMarks.missing = d.missing := by
  cases d with
  | floats xs =>
    change (markFloats xs).missing = xs.map Float.isNaN
    unfold markFloats
    split <;> simp only [missing, markNaN, map_map, Function.comp_def, isNone_mark]
  | objects xs => exact missing_markObjects xs
  | _ => simp [withMarks, missing, Function.comp_def]

/-- Whether some entry is there. -/
def hasEntry (d : Data) : Bool := d.missing.any (!·)

theorem hasEntry_iff {d : Data} : d.hasEntry = true ↔ ∃ i : Nat, d.missing[i]? = some false := by
  simp [hasEntry, mem_iff_getElem?]

end Data

namespace Table

variable {t : Table} {rows : List Nat} {columns : List (String × Data)}

def rowHasEntry (t : Table) (i : Nat) : Bool := t.columns.any fun c => c.2.missing[i]? == some false

/-- Some rows of some columns, numbered anew and stored with marks. -/
def keeping (rows : List Nat) (columns : List (String × Data)) : Table :=
  ⟨Column.freshLabels rows.length, columns.map fun c => (c.1, (c.2.pick rows).withMarks)⟩

theorem marked_pickRows_eq (h : ∀ i ∈ rows, i < t.height) :
    (⟨Column.freshLabels (t.pickRows rows).height, (t.pickRows rows).columns.map
      fun c => (c.1, c.2.withMarks)⟩ : Table) =
      keeping rows t.columns := by
  rw [height_pickRows h]
  simp [keeping, pickRows]

theorem missing_kept {d : Data} (h : ∀ i ∈ rows, i < d.length) (j : Nat) :
    (d.pick rows).withMarks.missing[j]? = rows[j]?.bind (d.missing[·]?) := by
  rw [Data.missing_withMarks, Data.missing_pick, getElem?_filterMap_getElem? (by simpa using h)]

theorem rowHasEntry_keeping (h : ∀ c ∈ columns, ∀ i ∈ rows, i < c.2.length) (j : Nat) :
    (keeping rows columns).rowHasEntry j = rows[j]?.any (rowHasEntry ⟨[], columns⟩) := by
  have hEntry (c : String × Data) (hc : c ∈ columns) :
      ((c.2.pick rows).withMarks.missing[j]? == some false) =
        rows[j]?.any fun i => c.2.missing[i]? == some false := by
    rw [missing_kept (h c hc)]
    cases rows[j]? <;> rfl
  change any (columns.map _) _ = _
  rw [any_map, Bool.eq_iff_iff, any_eq_true]
  simp only [Function.comp_apply]
  constructor
  · rintro ⟨c, hc, hSome⟩
    rw [hEntry c hc] at hSome
    obtain ⟨i, hi, hSome⟩ := (Option.any_eq_true _ _).1 hSome
    exact (Option.any_eq_true _ _).2 ⟨i, hi, any_eq_true.2 ⟨c, hc, hSome⟩⟩
  · intro hSome
    obtain ⟨i, hi, hSome⟩ := (Option.any_eq_true _ _).1 hSome
    obtain ⟨c, hc, hSome⟩ := any_eq_true.1 hSome
    exact ⟨c, hc, (hEntry c hc).trans ((Option.any_eq_true _ _).2 ⟨i, hi, hSome⟩)⟩

theorem emptyRowMask_eq (ht : t.Rectangular) :
    t.emptyRowMask = (range t.height).map fun i => !t.rowHasEntry i := by
  have hFold (columns : List (String × Data)) (mask : List Bool)
      (h : ∀ c ∈ columns, c.2.length = mask.length) :
      columns.foldl (fun mask c => zipWith (· && ·) mask c.2.missing) mask =
        (range mask.length).map fun i => mask[i]?.getD false && !rowHasEntry ⟨[], columns⟩ i := by
    induction columns generalizing mask with
    | nil =>
      refine ext_getElem? fun i => ?_
      by_cases hi : i < mask.length <;> simp [rowHasEntry, hi]
    | cons c columns ih =>
      obtain ⟨hc, hColumns⟩ := forall_mem_cons.1 h
      have hLength : (zipWith (· && ·) mask c.2.missing).length = mask.length := by simp [hc]
      rw [foldl_cons, ih _ (hLength ▸ hColumns), hLength]
      refine map_congr_left fun i hi => ?_
      have hMask : i < mask.length := mem_range.1 hi
      have hMissing : i < c.2.missing.length := by simpa [hc] using hMask
      simp only [rowHasEntry, any_cons, getElem?_zipWith, getElem?_eq_getElem hMask,
        getElem?_eq_getElem hMissing]
      cases c.2.missing[i] <;> simp
  rw [emptyRowMask, hFold _ _ (by simpa [height, Rectangular] using ht), length_map]
  refine map_congr_left fun i hi => ?_
  simp [rowHasEntry, show i < t.labels.length from mem_range.1 hi]

def entryRows (t : Table) : List Nat := (range t.height).filter t.rowHasEntry

def entryColumns (t : Table) : List (String × Data) := t.columns.filter (·.2.hasEntry)

theorem cleaned_eq_keeping (ht : t.Rectangular) :
    t.cleaned = keeping t.entryRows t.entryColumns := by
  have hRows : positionsWhere (t.emptyRowMask.map (!·)) = t.entryRows := by
    rw [Data.positionsWhere_eq, emptyRowMask_eq ht, map_map, length_map, length_range]
    refine filter_congr fun i hi => ?_
    simp [mem_range.1 hi]
  have hColumns : t.columns.filter (fun c => !c.2.missing.all id) = t.entryColumns :=
    filter_congr fun c _ => by simp [Data.hasEntry, not_all_eq_any_not]
  unfold cleaned filterRows
  rw [hRows, ← hColumns]
  exact marked_pickRows_eq (t := t.withoutEmptyColumns)
    fun i hi => mem_range.1 (mem_of_mem_filter hi)

/-- What a plan leaves of any table. -/
theorem clean_eq (t : Table) (plan : CleaningPlan) :
    t.clean plan =
      if (plan.dropColumns.all fun n => t.names.any fun m => n.same (.text m)) &&
        plan.emptyRows.all fun l => t.labels.any (Data.sameObject l)
        then .ok (keeping ((range t.height).filter
          fun i => t.labels[i]?.any fun l => !plan.emptyRows.any (Data.sameObject l))
          (t.columns.filter fun c => !plan.dropColumns.any fun n => n.same (.text c.1)))
        else .error .missingKey := by
  have hRows : positionsWhere (t.labels.map fun l => !plan.emptyRows.any (Data.sameObject l)) =
      (range t.height).filter fun i =>
        t.labels[i]?.any fun l => !plan.emptyRows.any (Data.sameObject l) := by
    rw [Data.positionsWhere_eq, length_map]
    refine filter_congr fun i hi => ?_
    have hi : i < t.labels.length := mem_range.1 hi
    simp only [getElem?_map, getElem?_eq_getElem hi, Option.map_some, Option.some_inj,
      Bool.decide_eq_true, Option.any_some]
  unfold clean dropColumns
  by_cases hNames : (plan.dropColumns.all fun n => t.names.any fun m => n.same (.text m)) = true
  · rw [hNames, Bool.true_and]
    change (dropRows _ _ >>= _) = _
    unfold dropRows
    by_cases hLabels : (plan.emptyRows.all fun l => t.labels.any (Data.sameObject l)) = true
    · rw [if_pos hLabels, if_pos hLabels, filterRows, hRows]
      exact congrArg Except.ok (marked_pickRows_eq fun i hi => mem_range.1 (mem_of_mem_filter hi))
    · rw [if_neg hLabels, if_neg hLabels]
      rfl
  · rw [if_neg hNames, if_neg (by simp [hNames])]
    rfl

theorem length_entryRows_keeping (h : ∀ c ∈ columns, ∀ i ∈ rows, i < c.2.length) :
    (keeping rows columns).entryRows.length = (rows.filter (rowHasEntry ⟨[], columns⟩)).length := by
  have hHeight : (keeping rows columns).height = rows.length := Column.length_freshLabels _
  have hRow : (keeping rows columns).rowHasEntry = fun j =>
    rows[j]?.any (rowHasEntry ⟨[], columns⟩) :=
    funext (rowHasEntry_keeping h)
  have hRows : rows = (range rows.length).filterMap (rows[·]?) :=
    (filterMap_getElem?_range rows).symm
  rw [entryRows, hHeight, hRow]
  conv_rhs => rw [hRows, filter_filterMap]
  rw [length_filterMap_eq_countP, ← countP_eq_length_filter]
  exact countP_congr fun j _ => by cases rows[j]? <;> simp [Option.filter]

/-- Some rows and columns of a table are left, and among them all with some entry. -/
def KeepsEntries (t u : Table) : Prop :=
  ∃ rows columns, u = keeping rows columns ∧ rows <+ range t.height ∧ columns <+ t.columns ∧
    t.entryRows ⊆ rows ∧ t.entryColumns ⊆ columns

theorem Rectangular.lt_length (ht : t.Rectangular) (hRows : rows <+ range t.height)
    (hColumns : columns <+ t.columns) : ∀ c ∈ columns, ∀ i ∈ rows, i < c.2.length := by
  intro c hc i hi
  rw [ht c (hColumns.subset hc)]
  exact mem_range.1 (hRows.subset hi)

/-- Which rows and columns are left can be told from what is left of their entries, if columns go by
their names. -/
theorem keepsEntries_iff (ht : t.Rectangular) (hRows : rows <+ range t.height) (p : String → Bool) :
    t.KeepsEntries (keeping rows (t.columns.filter (p ·.1))) ↔
      t.entryRows ⊆ rows ∧ t.entryColumns ⊆ t.columns.filter (p ·.1) := by
  refine ⟨?_, fun h => ⟨rows, _, rfl, hRows, filter_sublist, h⟩⟩
  rintro ⟨others, columns, hSame, hOthers, hColumns, hEntryRows, hEntryColumns⟩
  constructor
  · have hFew := length_entryRows_keeping (ht.lt_length hRows (filter_sublist (p := (p ·.1))))
    rw [hSame, length_entryRows_keeping (ht.lt_length hOthers hColumns)] at hFew
    have hAll : t.entryRows ⊆ others.filter (rowHasEntry ⟨[], columns⟩) := by
      intro i hi
      obtain ⟨c, hc, hSome⟩ := any_eq_true.1 (mem_filter.1 hi).2
      have hc : c ∈ t.entryColumns :=
        mem_filter.2 ⟨hc, Data.hasEntry_iff.2 ⟨i, by simpa using hSome⟩⟩
      exact mem_filter.2 ⟨hEntryRows hi, any_eq_true.2 ⟨c, hEntryColumns hc, hSome⟩⟩
    have hSome : rows.filter (rowHasEntry ⟨[], t.columns.filter (p ·.1)⟩) <+
        rows.filter t.rowHasEntry := by
      refine monotone_filter_right rows fun i hi => ?_
      obtain ⟨c, hc, hSome⟩ := any_eq_true.1 hi
      exact any_eq_true.2 ⟨c, mem_of_mem_filter hc, hSome⟩
    have hLength : t.entryRows.length ≤ (rows.filter t.rowHasEntry).length :=
      calc t.entryRows.length
        _ ≤ _ := (subperm_of_subset (nodup_range.filter _) hAll).length_le
        _ = _ := hFew
        _ ≤ _ := hSome.length_le
    have hKept : rows.filter t.rowHasEntry = t.entryRows :=
      (hRows.filter t.rowHasEntry).eq_of_length_le hLength
    exact hKept ▸ filter_subset_self _
  · intro c hc
    have hNames : (t.columns.filter (p ·.1)).map (·.1) = columns.map (·.1) := by
      simpa [names, keeping, Function.comp_def] using congrArg names hSame
    have hMem : c.1 ∈ columns.map (·.1) := mem_map_of_mem (hEntryColumns hc)
    obtain ⟨d, hd, hName⟩ := mem_map.1 (hNames ▸ hMem)
    exact mem_filter.2 ⟨mem_of_mem_filter hc, hName ▸ (mem_filter.1 hd).2⟩

theorem mem_emptyRows_iff (ht : t.Rectangular) {l : Cell} :
    l ∈ t.cleaningPlan.emptyRows ↔ ∃ i : Nat, t.labels[i]? = some l ∧ t.rowHasEntry i = false := by
  have hMask (i : Nat) (hi : i < t.height) : t.emptyRowMask[i]? = some !t.rowHasEntry i := by
    simp [emptyRowMask_eq ht, hi]
  simp only [cleaningPlan, mem_map, mem_filter]
  constructor
  · rintro ⟨p, ⟨hp, hTrue⟩, rfl⟩
    obtain ⟨i, hi⟩ := mem_iff_getElem?.1 hp
    obtain ⟨hLabel, hEmpty⟩ := getElem?_zip_eq_some.1 hi
    rw [hMask i (List.getElem?_eq_some_iff.1 hLabel).1, hTrue] at hEmpty
    exact ⟨i, hLabel, by simpa using hEmpty⟩
  · rintro ⟨i, hLabel, hEmpty⟩
    have hMask := hMask i (List.getElem?_eq_some_iff.1 hLabel).1
    rw [hEmpty] at hMask
    exact ⟨(l, true), ⟨mem_iff_getElem?.2 ⟨i, getElem?_zip_eq_some.2 ⟨hLabel, hMask⟩⟩, rfl⟩, rfl⟩

theorem any_dropColumns_iff (name : String) :
    (t.cleaningPlan.dropColumns.any fun n => n.same (.text name)) = true ↔
      ∃ c ∈ t.columns, c.2.hasEntry = false ∧ c.1 = name := by
  simp [cleaningPlan, Data.hasEntry, Cell.same]

section Planned

variable {old : Table}

/-- Each row that was empty has its label still. -/
theorem emptyRows_there_iff (hOld : old.Rectangular)
    (hScalars : ∀ l ∈ old.labels, l.isDistinguishable = true) :
    (old.cleaningPlan.emptyRows.all fun l => t.labels.any (Data.sameObject l)) = true ↔
      ∀ (i : Nat) (l : Cell), old.labels[i]? = some l → old.rowHasEntry i = false →
        ∃ m ∈ t.labels, l.SameValue m := by
  have hSame (l : Cell) (i : Nat) (h : old.labels[i]? = some l) :=
    Cell.sameObject_iff (hScalars l (mem_of_getElem? h))
  simp only [all_eq_true, any_eq_true, mem_emptyRows_iff hOld]
  constructor
  · intro h i l hl hRow
    obtain ⟨m, hm, hBoth⟩ := h l ⟨i, hl, hRow⟩
    exact ⟨m, hm, (hSame l i hl m).1 hBoth⟩
  · rintro h l ⟨i, hl, hRow⟩
    obtain ⟨m, hm, hBoth⟩ := h i l hl hRow
    exact ⟨m, hm, (hSame l i hl m).2 hBoth⟩

theorem entryRows_subset_iff (hOld : old.Rectangular)
    (hScalars : ∀ l ∈ t.labels, l.isDistinguishable = true) :
    (t.entryRows ⊆
      (range t.height).filter fun j =>
        t.labels[j]?.any fun m => !old.cleaningPlan.emptyRows.any (Data.sameObject m)) ↔
      ∀ (i : Nat) (l : Cell), old.labels[i]? = some l → old.rowHasEntry i = false →
        ∀ (j : Nat) (m : Cell), t.labels[j]? = some m → l.SameValue m →
          t.rowHasEntry j = false := by
  have hDropped (j : Nat) (m : Cell) (hm : t.labels[j]? = some m) :
      old.cleaningPlan.emptyRows.any (Data.sameObject m) = true ↔
        ∃ (i : Nat) (l : Cell), old.labels[i]? = some l ∧ old.rowHasEntry i = false ∧
          l.SameValue m := by
    simp only [any_eq_true, mem_emptyRows_iff hOld,
      Cell.sameObject_iff (hScalars m (mem_of_getElem? hm))]
    exact ⟨fun ⟨l, ⟨i, hl, hRow⟩, hSame⟩ => ⟨i, l, hl, hRow, hSame.symm⟩,
      fun ⟨i, l, hl, hRow, hSame⟩ => ⟨l, ⟨i, hl, hRow⟩, hSame.symm⟩⟩
  constructor
  · intro h i l hl hRow j m hm hSame
    by_contra hEntry
    have hj : j ∈ t.entryRows := mem_filter.2
      ⟨mem_range.2 (List.getElem?_eq_some_iff.1 hm).1, Bool.not_eq_false _ ▸ hEntry⟩
    have hKept := (mem_filter.1 (h hj)).2
    rw [hm, Option.any_some, (hDropped j m hm).2 ⟨i, l, hl, hRow, hSame⟩] at hKept
    cases hKept
  · intro h j hj
    obtain ⟨hRange, hEntry⟩ := mem_filter.1 hj
    have hm : t.labels[j]? = some _ :=
      getElem?_eq_getElem (show j < t.labels.length from mem_range.1 hRange)
    refine mem_filter.2 ⟨hRange, ?_⟩
    rw [hm, Option.any_some, Bool.not_eq_true', ← Bool.not_eq_true, hDropped j _ hm]
    rintro ⟨i, l, hl, hRow, hSame⟩
    rw [h i l hl hRow j _ hm hSame] at hEntry
    cases hEntry

theorem entryColumns_subset_iff :
    (t.entryColumns ⊆
      t.columns.filter fun c => !old.cleaningPlan.dropColumns.any fun n => n.same (.text c.1)) ↔
      ∀ c ∈ old.columns, c.2.hasEntry = false →
        ∀ d ∈ t.columns, d.1 = c.1 → d.2.hasEntry = false := by
  simp only [subset_def, entryColumns, mem_filter, Bool.not_eq_true', ← Bool.not_eq_true,
    any_dropColumns_iff]
  grind

end Planned

/-- Labels that a file is read with. A document holds them as they are. -/
theorem plain_labels_of_read {s : String} (h : Csv.read s = .ok t) :
    ∀ l ∈ t.labels, l.isDistinguishable = true ∧ (Document.ofCell l).toCell = l := by
  have hCells {d : Data} (hd : Csv.ReadColumn d) :
      ∀ l ∈ d.cells, l.isDistinguishable = true ∧ (Document.ofCell l).toCell = l := by
    cases hd with
    | truths _ _ h =>
      exact fun l hl => (h l hl).elim (· ▸ ⟨rfl, rfl⟩) fun ⟨b, hb⟩ => hb ▸ ⟨rfl, rfl⟩
    | texts _ h => exact fun l hl => (h l hl).elim (· ▸ ⟨rfl, rfl⟩) fun ⟨s, hs⟩ => hs ▸ ⟨rfl, rfl⟩
    | _ => exact forall_mem_map.2 fun _ _ => ⟨rfl, rfl⟩
  obtain ⟨records, _, h⟩ := bind_eq_ok h
  split at h
  · cases h
  · obtain ⟨rows, _, h⟩ := bind_eq_ok h
    dsimp only at h
    split_ifs at h
    · cases h
      by_cases hRows : Csv.columnFields rows 0 = []
      · rw [hRows]
        exact fun _ hl => nomatch hl
      · exact hCells (Csv.readFrom_typed hRows).column
    · cases h
      exact forall_mem_map.2 fun _ _ => ⟨rfl, rfl⟩

end Table

namespace Entry

variable {e : Entry} {drive later : Drive} {old t : Table}

theorem plan_of_ofFile {id : Nat} {path : String} {clean : Bool}
    (h : ofFile id drive path clean = .ok e) (hOld : e.fetchRaw drive = .ok (some old)) :
    e.plan = if clean then planDocument old.cleaningPlan else .null := by
  obtain ⟨raw, hRaw, h⟩ := bind_eq_ok h
  cases raw with
  | none =>
    cases h
    cases hRaw.symm.trans hOld
  | some t =>
    cases clean <;> cases h <;> cases hRaw.symm.trans hOld <;> rfl

/-- All that holds an entry later is kept exactly if what was empty at first is there still, and is
empty still. -/
theorem later_entries_kept_iff {id : Nat} {path : String}
    (hEntry : ofFile id drive path true = .ok e) (hOld : e.fetchRaw drive = .ok (some old))
    (hLater : e.fetchRaw later = .ok (some t)) (hNames : t.names = old.names) :
    (∃ u, e.fetch later = .ok (some u) ∧ t.KeepsEntries u) ↔
      (∀ (i : Nat) (l : Cell), old.labels[i]? = some l → old.rowHasEntry i = false →
        ∃ m ∈ t.labels, l.SameValue m) ∧
      (∀ (i : Nat) (l : Cell), old.labels[i]? = some l → old.rowHasEntry i = false →
        ∀ (j : Nat) (m : Cell), t.labels[j]? = some m → l.SameValue m → t.rowHasEntry j = false) ∧
      ∀ c ∈ old.columns, c.2.hasEntry = false →
        ∀ d ∈ t.columns, d.1 = c.1 → d.2.hasEntry = false := by
  obtain ⟨_, hOldText⟩ := exists_read_of_fetchRaw hOld
  obtain ⟨_, hText⟩ := exists_read_of_fetchRaw hLater
  have hOldPlain := Table.plain_labels_of_read hOldText
  have hPlain := Table.plain_labels_of_read hText
  have hRectangular := (asRead_of_fetchRaw hOld).rectangular
  have hStored (l : Cell) (hl : l ∈ old.cleaningPlan.emptyRows) :
      (Document.ofCell l).toCell = l := by
    obtain ⟨i, hi, -⟩ := (Table.mem_emptyRows_iff hRectangular).1 hl
    exact (hOldPlain l (mem_of_getElem? hi)).2
  have hColumns :
      (old.cleaningPlan.dropColumns.all fun n => t.names.any fun m => n.same (.text m)) = true := by
    refine all_eq_true.2 fun n hn => ?_
    obtain ⟨c, hc, rfl⟩ := mem_map.1 hn
    exact any_eq_true.2 ⟨c.1, hNames ▸ mem_map_of_mem (mem_of_mem_filter hc), by simp [Cell.same]⟩
  rw [← Table.emptyRows_there_iff hRectangular fun l hl => (hOldPlain l hl).1,
    ← Table.entryRows_subset_iff hRectangular fun l hl => (hPlain l hl).1,
    ← Table.entryColumns_subset_iff,
    ← Table.keepsEntries_iff (asRead_of_fetchRaw hLater).rectangular filter_sublist
      fun name => !old.cleaningPlan.dropColumns.any fun n => n.same (.text name),
    fetch_of_plan hLater (plan_of_ofFile hEntry hOld) hStored (toCell_dropColumns old),
    Table.clean_eq, hColumns, Bool.true_and]
  split_ifs with hAll <;> simp [Except.map, hAll]

/-- A drive with one file. -/
def holding (text : String) : Drive := { files := [(["t.csv"], text)] }

/-- The table of a file whose second row and second column were empty. -/
def halfEmpty : Entry :=
  { id := 0, name := .text "t", file? := some (.text "t.csv"),
    plan := planDocument ⟨[.int 1], [.text "b"]⟩ }

def besideGaps (a : List Cell) : Table :=
  ⟨Column.freshLabels a.length, [("a", .objects a), ("b", .floats (a.map fun _ => Binary64.nan))]⟩

theorem longer_file_keeps_entries :
    ofFile 0 (holding "a,b\nx,\n,\n") "t.csv" true = .ok halfEmpty ∧
    ∃ u, halfEmpty.fetch (holding "a,b\ny,\n,\nz,\n") = .ok (some u) ∧
      (besideGaps [.text "y", Csv.gap, .text "z"]).KeepsEntries u := by
  have hEntry : ofFile 0 (holding "a,b\nx,\n,\n") "t.csv" true = .ok halfEmpty := rfl
  have hOld : halfEmpty.fetchRaw (holding "a,b\nx,\n,\n") =
      .ok (some (besideGaps [.text "x", Csv.gap])) := rfl
  have hLater : halfEmpty.fetchRaw (holding "a,b\ny,\n,\nz,\n") =
      .ok (some (besideGaps [.text "y", Csv.gap, .text "z"])) := rfl
  have hLabels (j : Nat) (m : Cell) (h : (Column.freshLabels 3)[j]? = some m)
      (hSame : (Cell.int 1).SameValue m) : j = 1 := by
    have hSame := (Cell.sameObject_iff rfl m).2 hSame
    rcases j with _ | _ | _ | j <;> cases h
    · cases hSame
    · rfl
    · cases hSame
  refine ⟨hEntry, (later_entries_kept_iff hEntry hOld hLater rfl).2 ⟨?_, ?_, ?_⟩⟩
  · rintro (_ | _ | i) l hl hRow
    · cases hRow
    · cases hl
      exact ⟨.int 1, .tail _ (.head _), .refl _⟩
    · cases hl
  · rintro (_ | _ | i) l hl hRow j m hm hSame
    · cases hRow
    · cases hl
      obtain rfl := hLabels j m hm hSame
      rfl
    · cases hl
  · rintro c hc hEmpty d hd hName
    simp only [besideGaps, mem_cons, not_mem_nil, or_false] at hc hd
    rcases hc with rfl | rfl
    · cases hEmpty
    · rcases hd with rfl | rfl
      · simp at hName
      · rfl

theorem fetch_halfEmpty (h : halfEmpty.fetchRaw drive = .ok (some t)) :
    halfEmpty.fetch drive = (t.clean ⟨[.int 1], [.text "b"]⟩).map some :=
  fetch_of_plan h rfl (fun _ hl => by cases mem_singleton.1 hl; rfl)
    (fun _ hl => by cases mem_singleton.1 hl; rfl)

def refilled : Table :=
  ⟨Column.freshLabels 2, [("a", .objects [.text "x", .text "y"]),
    ("b", .objects [.text "v", .text "w"])]⟩

/-- What was empty is dropped with what was written into it since, and without it the table cannot
be read. -/
theorem refilled_row_lost :
    ofFile 0 (holding "a,b\nx,\n,\n") "t.csv" true = .ok halfEmpty ∧
    halfEmpty.fetchRaw (holding "a,b\nx,v\ny,w\n") = .ok (some refilled) ∧
    halfEmpty.fetch (holding "a,b\nx,v\ny,w\n") =
      .ok (some ⟨[.int 0], [("a", .texts [some "x"])]⟩) ∧
    halfEmpty.fetchRaw (holding "a,b\nx,\n") = .ok (some (besideGaps [.text "x"])) ∧
    halfEmpty.fetch (holding "a,b\nx,\n") = .error .missingKey := by
  have hRefilled : halfEmpty.fetchRaw (holding "a,b\nx,v\ny,w\n") = .ok (some refilled) := rfl
  have hShort : halfEmpty.fetchRaw (holding "a,b\nx,\n") = .ok (some (besideGaps [.text "x"])) :=
    rfl
  exact ⟨rfl, hRefilled, fetch_halfEmpty hRefilled, hShort, fetch_halfEmpty hShort⟩

end Entry

end TableQuery
