import TableQuery.Proofs.SameValues

/-! Groups and distinct rows. A grouping keeps, for each key, the position where it came first.
DISTINCT keeps the same positions, in the order of the rows. -/
namespace TableQuery

open List Cell Grouping

namespace Grouping

variable {i : Nat}

def sameKeys (as bs : List Cell) : Bool := (as.zip bs).all fun p => Data.sameObject p.1 p.2

section InsertRow

variable {keys : List Cell} {buckets : List Bucket}

theorem insertRow_cons (keys : List Cell) (i : Nat) (b : Bucket) (rest : List Bucket) :
    insertRow keys i (b :: rest) =
      if sameKeys keys b.1 then (b.1, i :: b.2) :: rest else b :: insertRow keys i rest := rfl

/-- A row of a new key starts a bucket. -/
theorem insertRow_of_new (h : (buckets.any fun b => sameKeys keys b.1) = false) :
    insertRow keys i buckets = buckets ++ [(keys, [i])] := by
  induction buckets with
  | nil => rfl
  | cons b rest ih =>
    rw [any_cons, Bool.or_eq_false_iff] at h
    rw [insertRow_cons, if_neg (by simp [h.1]), ih h.2, cons_append]

/-- A row of a key that came before starts none, and the first rows stay. -/
theorem firsts_insertRow_of_known {P : Nat → Prop} (hBuckets : BucketsOf P buckets)
    (h : (buckets.any fun b => sameKeys keys b.1) = true) :
    (insertRow keys i buckets).map (·.1) = buckets.map (·.1) ∧
    (insertRow keys i buckets).map (·.2.getLast?) = buckets.map (·.2.getLast?) := by
  induction buckets with
  | nil => cases h
  | cons b rest ih =>
    obtain ⟨hFirst, hRest⟩ := forall_mem_cons.1 hBuckets
    rw [insertRow_cons]
    split
    · simp only [map_cons, getLast?_cons_of_ne_nil hFirst.1, and_self]
    · rename_i hOther
      rw [any_cons, Bool.or_eq_true] at h
      obtain ⟨hKeys, hLast⟩ := ih hRest (h.resolve_left hOther)
      simp only [map_cons, hKeys, hLast, and_self]

end InsertRow

/-- The buckets of rows that follow others: the rows that start one are those that repeat none
before them. -/
theorem firsts_foldl_insertRow (rows : List (List Cell)) {seen : List (List Cell)}
    {buckets : List Bucket} (hBuckets : BucketsOf (fun _ => True) buckets)
    (hSeen : buckets.map (·.1) = seen.reverse) :
    ((rows.zipIdx i).foldl (fun buckets r => insertRow r.1 r.2 buckets) buckets).map
      (·.2.getLast?) =
      buckets.map (·.2.getLast?) ++ (firstPositions sameKeys seen i rows).map some := by
  induction rows generalizing seen i buckets with
  | nil => simp [firstPositions]
  | cons row rest ih =>
    have hAny : (buckets.any fun b => sameKeys row b.1) = seen.any (sameKeys row) := by
      rw [← seen.any_reverse, ← hSeen, any_map]
      rfl
    rw [zipIdx_cons, foldl_cons, firstPositions]
    cases hKnown : seen.any (sameKeys row) with
    | true =>
      obtain ⟨hKeys, hLast⟩ := firsts_insertRow_of_known (i := i) hBuckets (hAny.trans hKnown)
      rw [ih (hBuckets.insertRow row trivial) (hKeys.trans hSeen), hLast, if_pos rfl]
    | false =>
      have hNew := insertRow_of_new (i := i) (hAny.trans hKnown)
      have hKeys : (insertRow row i buckets).map (·.1) = (row :: seen).reverse := by
        rw [hNew, map_append, hSeen, reverse_cons]
        rfl
      rw [ih (hBuckets.insertRow row trivial) hKeys, hNew]
      simp

/-- The first rows of the groups are the rows that repeat none before them. -/
theorem heads_ofKeyedRows_perm (rows : List (List Cell)) :
    ((ofKeyedRows rows.zipIdx).filterMap head?).Perm (firstPositions sameKeys [] 0 rows) := by
  have hNone : BucketsOf (fun _ => True) [] := by simp [BucketsOf]
  have hFirsts := firsts_foldl_insertRow rows (i := 0) hNone (reverse_nil).symm
  have hSome : ((rows.zipIdx.foldl (fun buckets r => insertRow r.1 r.2 buckets) []).filterMap
      (·.2.getLast?)) = firstPositions sameKeys [] 0 rows := by
    have hId := congrArg (filterMap id) hFirsts
    simpa [filterMap_map, Function.comp_def] using hId
  rw [← hSome]
  unfold ofKeyedRows
  rw [filterMap_map]
  simp only [Function.comp_def, head?_reverse]
  exact (mergeSort_perm _ _).filterMap _

/-- The entries of one row, none of which is missing. -/
theorem mapM_zip_missing {ds : List Data} (h : ∀ d ∈ ds, i < d.length)
    (hPresent : ∀ d ∈ ds, d.missing.any id = false) :
    (ds.map fun d => d.cells.zip d.missing).mapM (·[i]?) =
      some (((ds.map (·.cells)).filterMap (·[i]?)).map (·, false)) := by
  induction ds with
  | nil => rfl
  | cons d rest ih =>
    obtain ⟨hFirst, hRest⟩ := forall_mem_cons.1 h
    obtain ⟨hGaps, hGapsRest⟩ := forall_mem_cons.1 hPresent
    obtain ⟨c, hc⟩ : ∃ c, d.cells[i]? = some c := by
      exact Option.isSome_iff_exists.1 (by simpa [Data.length_cells] using hFirst)
    have hMissing : d.missing[i]? = some false := by
      obtain ⟨b, hb⟩ : ∃ b, d.missing[i]? = some b := by
        exact Option.isSome_iff_exists.1 (by simpa [Data.length_missing] using hFirst)
      cases b with
      | false => exact hb
      | true => exact absurd (any_eq_false.1 hGaps true (mem_of_getElem? hb)) (by simp)
    have hEntry : (d.cells.zip d.missing)[i]? = some (c, false) :=
      getElem?_zip_eq_some.2 ⟨hc, hMissing⟩
    rw [map_cons, mapM_cons, hEntry, ih hRest hGapsRest, map_cons, filterMap_cons, hc]
    rfl

/-- Without missing keys every row has its keys, in the order of the rows. -/
theorem keyedRows_eq {t : Table} (ht : t.Rectangular)
    (hPresent : ∀ c ∈ t.columns, c.2.missing.any id = false) :
    keyedRows t.height (t.columns.map (·.2)) = t.rows.zipIdx := by
  have hKeyed : keyedRows t.height (t.columns.map (·.2)) =
      (range t.height).filterMap fun i => some (t.row i, i) := by
    refine filterMap_congr fun i hi => ?_
    have hLength : ∀ d ∈ t.columns.map (·.2), i < d.length := by
      intro d hd
      obtain ⟨c, hc, rfl⟩ := mem_map.1 hd
      rw [ht c hc]
      exact mem_range.1 hi
    have hGaps : ∀ d ∈ t.columns.map (·.2), d.missing.any id = false := by
      intro d hd
      obtain ⟨c, hc, rfl⟩ := mem_map.1 hd
      exact hPresent c hc
    have hRow : ((t.columns.map (·.2)).map (·.cells)).filterMap (·[i]?) = t.row i := by
      rw [map_map]
      rfl
    rw [mapM_zip_missing hLength hGaps, hRow]
    simp [Function.comp_def]
  rw [hKeyed, Table.rows_eq]
  exact ext_getElem (by simp) fun i _ _ => by simp

end Grouping

/-- Rows as long as each other that miss nothing are equal if their keys are. -/
theorem Cell.sameRow_eq_sameKeys {as bs : List Cell} (hLength : as.length = bs.length)
    (hPresent : ∀ a ∈ as, a.isMissing = false) : sameRow as bs = sameKeys as bs := by
  have hEntries : ((as.zip bs).all fun p => p.1.sameEntry p.2) = sameKeys as bs := by
    rw [sameKeys, Bool.eq_iff_iff, all_eq_true, all_eq_true]
    refine forall₂_congr fun p hp => ?_
    rw [sameEntry, if_neg (by simp [hPresent p.1 (of_mem_zip hp).1])]
  unfold sameRow
  split
  · rfl
  · simp [sameKeys]
  · rw [← hEntries, beq_iff_eq.2 hLength, Bool.true_and]

theorem firstPositions_congr {same same' : List Cell → List Cell → Bool} {P : List Cell → Prop}
    (hSame : ∀ a b, P a → P b → same a b = same' a b) {rows seen : List (List Cell)}
    (hRows : ∀ r ∈ rows, P r) (hSeen : ∀ r ∈ seen, P r) (i : Nat) :
    firstPositions same seen i rows = firstPositions same' seen i rows := by
  induction rows generalizing seen i with
  | nil => rfl
  | cons row rest ih =>
    obtain ⟨hRow, hRest⟩ := forall_mem_cons.1 hRows
    have hAny : seen.any (same row) = seen.any (same' row) := by
      rw [Bool.eq_iff_iff, any_eq_true, any_eq_true]
      exact exists_congr fun r => and_congr_right fun hr => by rw [hSame row r hRow (hSeen r hr)]
    unfold firstPositions
    rw [hAny]
    split
    · exact ih hRest hSeen _
    · rw [ih hRest (forall_mem_cons.2 ⟨hRow, hSeen⟩)]

namespace Census

/-- A census that counted doubles or absent values was taken of such. -/
theorem exists_of_dtype_floats {cells : List Cell} (h : (of cells).dtype = .floats) :
    ∃ c ∈ cells, c = .null ∨ ∃ x, c.num? = some (.float x) := by
  by_contra hNone
  simp only [not_exists, not_and, not_or] at hNone
  have hFlags : (of cells).float = false ∧ (of cells).noNumber = false ∧
      (of cells).absent = false := by
    refine foldlRecOn
      (motive := fun s : Census => s.float = false ∧ s.noNumber = false ∧ s.absent = false) cells
      note ⟨rfl, rfl, rfl⟩ fun s hs c hc => ?_
    obtain ⟨hNull, hFloat⟩ := hNone c hc
    unfold note
    split
    · exact absurd rfl hNull
    · split
      · exact hs
      · exact hs
      · rename_i hNum
        exact absurd hNum (hFloat _)
      · exact hs
  obtain ⟨hFloat, hNoNumber, hAbsent⟩ := hFlags
  unfold dtype gaps at h
  rw [hFloat, hNoNumber, hAbsent] at h
  split at h
  · cases h
  · split at h
    · split at h <;> cases h
    · split at h
      · split at h <;> cases h
      · cases h

end Census

namespace Data

structure Solid (d : Data) : Prop where
  present : ∀ c ∈ d.cells, c.isMissing = false
  texts : ∀ xs, d = .objects xs → ∀ c ∈ xs, ∃ s, c = .text s

namespace Solid

variable {d : Data} (h : d.Solid)
include h

theorem marksGaps : d.MarksGaps := by
  have hPresent := h.present
  cases d with
  | nullableFloats xs =>
    intro x hx
    have hCell := hPresent (.packed (.float x)) (mem_map.2 ⟨some x, hx, rfl⟩)
    rwa [isMissing_of_num rfl] at hCell
  | _ => trivial

theorem missing_eq : d.missing.any id = false := by
  rw [h.marksGaps.missing_eq, any_map, any_eq_false]
  intro c hc
  simp [h.present c hc]

theorem staysExact : d.StaysExact := by
  intro hType c hc
  obtain ⟨f, hf, hFloat⟩ := Census.exists_of_dtype_floats hType
  have hPresent := h.present
  have hText := h.texts
  cases d with
  | floats xs =>
    obtain ⟨x, _, rfl⟩ := mem_map.1 hc
    exact ⟨.float x, rfl, rfl⟩
  | nullableFloats xs =>
    obtain ⟨x, _, rfl⟩ := mem_map.1 hc
    cases x with
    | some x => exact ⟨.float x, rfl, rfl⟩
    | none => exact absurd (hPresent _ hc) (by simp [isMissing])
  | objects xs =>
    obtain ⟨s, rfl⟩ := hText xs rfl f hf
    simp [num?] at hFloat
  | ints _ xs =>
    obtain ⟨n, _, rfl⟩ := mem_map.1 hf
    simp [num?] at hFloat
  | bools bs =>
    obtain ⟨b, _, rfl⟩ := mem_map.1 hf
    simp [num?] at hFloat
  | nullableInts _ xs =>
    obtain ⟨n, _, rfl⟩ := mem_map.1 hf
    cases n <;> simp [num?] at hFloat
  | nullableBools bs =>
    obtain ⟨b, _, rfl⟩ := mem_map.1 hf
    cases b <;> simp [num?] at hFloat
  | texts ts =>
    obtain ⟨s, _, rfl⟩ := mem_map.1 hf
    cases s <;> simp [num?] at hFloat

theorem isDistinguishable : ∀ c ∈ d.cells, c.isDistinguishable = true := by
  intro c hc
  have hText := h.texts
  cases d with
  | objects xs =>
    obtain ⟨s, rfl⟩ := hText xs rfl c hc
    rfl
  | ints _ xs =>
    obtain ⟨n, _, rfl⟩ := mem_map.1 hc
    rfl
  | floats xs =>
    obtain ⟨x, _, rfl⟩ := mem_map.1 hc
    rfl
  | bools bs =>
    obtain ⟨b, _, rfl⟩ := mem_map.1 hc
    rfl
  | nullableInts _ xs =>
    obtain ⟨n, _, rfl⟩ := mem_map.1 hc
    cases n <;> rfl
  | nullableFloats xs =>
    obtain ⟨x, _, rfl⟩ := mem_map.1 hc
    cases x <;> rfl
  | nullableBools bs =>
    obtain ⟨b, _, rfl⟩ := mem_map.1 hc
    cases b <;> rfl
  | texts ts =>
    obtain ⟨s, _, rfl⟩ := mem_map.1 hc
    cases s <;> rfl

/-- The keys of groups are the entries at their first rows. -/
theorem keyEntries_eq (groups : List (List Nat)) :
    d.keyEntries groups = d.pick (groups.filterMap head?) := by
  have hText := h.texts
  cases d with
  | objects xs =>
    generalize hPicked : (groups.filterMap head?).filterMap (xs[·]?) = ys
    have hPick : (objects xs).pick (groups.filterMap head?) = .objects ys :=
      congrArg objects hPicked
    have hTexts : ∀ c ∈ ys, ∃ s, c = .text s := by
      intro c hc
      rw [← hPicked] at hc
      obtain ⟨i, _, hi⟩ := mem_filterMap.1 hc
      exact hText xs rfl c (mem_of_getElem? hi)
    rw [keyEntries, hPick]
    refine infer_objects ?_
    cases ys with
    | nil => rfl
    | cons c rest =>
      obtain ⟨s, rfl⟩ := hTexts c mem_cons_self
      exact if_pos (Census.other_of_mem mem_cons_self fun _ => rfl)
  | _ => rfl

end Solid

end Data

/-- A column of a fetched table in which no entry is missing. -/
theorem Entry.solid_of_fetch {e : Entry} {drive : Drive} {t : Table}
    (h : e.fetch drive = .ok (some t)) {c : String × Data} (hc : c ∈ t.columns)
    (hPresent : ∀ cell ∈ c.2.cells, cell.isMissing = false) : c.2.Solid := by
  refine ⟨hPresent, fun xs hxs => ?_⟩
  have hGap : Csv.gap ∉ xs := fun hMem => by
    rw [hxs] at hPresent
    cases hPresent _ hMem
  cases hPlan : e.plan.isTrue with
  | false =>
    obtain ⟨fields, hTyped⟩ := (asRead_of_fetch h hPlan).typed c hc
    rw [hxs] at hTyped
    by_cases hFields : fields = []
    · subst hFields
      cases hTyped
      simp
    · have hRead := (Csv.readFrom_typed hFields).column
      rw [← hTyped] at hRead
      cases hRead with
      | truths _ hMem _ => exact absurd hMem hGap
      | texts _ hTexts =>
        exact fun cell hCell => (hTexts cell hCell).resolve_left fun hSame => hGap (hSame ▸ hCell)
  | true =>
    have hMarked := (marked_of_fetch_cleaned h hPlan).2 c hc
    rw [hxs] at hMarked
    cases hMarked with
    | numbers hMarks _ => cases hMarks
    | gaps n => exact fun cell hCell => absurd (eq_of_mem_replicate hCell ▸ hCell) hGap

section FirstPositions

variable (same : List Cell → List Cell → Bool) (row : Nat → List Cell)

theorem lt_of_mem_firstPositions {seen rows : List (List Cell)} {i p : Nat}
    (h : p ∈ firstPositions same seen i rows) : i ≤ p ∧ p < i + rows.length := by
  induction rows generalizing seen i with
  | nil => cases h
  | cons first rest ih =>
    rw [length_cons]
    unfold firstPositions at h
    split at h
    · have hRest := ih h
      omega
    · rcases mem_cons.1 h with rfl | h
      · omega
      · have hRest := ih h
        omega

/-- Of the rows that repeat none before them no two are the same. -/
theorem pairwise_firstPositions (n i : Nat) (seen : List (List Cell)) :
    (firstPositions same seen i ((range' i n).map row)).Pairwise
      (fun p q => same (row q) (row p) = false) ∧
    ∀ p ∈ firstPositions same seen i ((range' i n).map row), ∀ s ∈ seen,
        same (row p) s = false := by
  induction n generalizing i seen with
  | zero => simp [firstPositions]
  | succ n ih =>
    rw [range'_succ, map_cons, firstPositions]
    split
    · exact ih (i + 1) seen
    · rename_i hNew
      obtain ⟨hPairs, hSeen⟩ := ih (i + 1) (row i :: seen)
      refine ⟨pairwise_cons.2 ⟨fun p hp => hSeen p hp _ mem_cons_self, hPairs⟩, ?_⟩
      refine forall_mem_cons.2
        ⟨fun s hs => ?_, fun p hp s hs => hSeen p hp s (mem_cons_of_mem _ hs)⟩
      simpa using any_eq_false.1 (Bool.not_eq_true _ ▸ hNew) s hs

end FirstPositions

namespace Table

variable {t : Table}

def groupsByRow (t : Table) : List (List Nat) :=
  Grouping.ofKeyedRows (Grouping.keyedRows t.height (t.columns.map (·.2)))

def newRows (t : Table) : List Nat := firstPositions Cell.sameRow [] 0 t.rows

theorem lt_of_mem_newRows {p : Nat} (h : p ∈ t.newRows) : p < t.height := by
  have hRange := lt_of_mem_firstPositions _ h
  rw [length_rows] at hRange
  omega

/-- The keys of the groups are the entries at their first rows. -/
theorem columns_groupsByRow (hSolid : ∀ c ∈ t.columns, c.2.Solid) :
    t.columns.map (fun c => (c.1, c.2.keyEntries t.groupsByRow)) =
      (t.pickRows (t.groupsByRow.filterMap head?)).columns :=
  map_congr_left fun c hc => by rw [(hSolid c hc).keyEntries_eq]

section Solid

variable (ht : t.Rectangular) (hSolid : ∀ c ∈ t.columns, c.2.Solid)
include ht hSolid

theorem row_of_solid {i : Nat} (hi : i < t.height) :
    (t.row i).length = t.columns.length ∧
    ∀ c ∈ t.row i, c.isMissing = false ∧ c.isDistinguishable = true := by
  constructor
  · rw [row, filterMap_map, filterMap_length_eq_length]
    intro c hc
    simpa [Data.length_cells, ht c hc] using hi
  · intro cell hCell
    obtain ⟨cells, hCells, hAt⟩ := mem_filterMap.1 hCell
    obtain ⟨c, hc, rfl⟩ := mem_map.1 hCells
    have hMem := mem_of_getElem? hAt
    exact ⟨(hSolid c hc).present cell hMem, (hSolid c hc).isDistinguishable cell hMem⟩

/-- The first rows of the groups are the rows that repeat none before them. -/
theorem heads_perm_newRows : (t.groupsByRow.filterMap head?).Perm t.newRows := by
  have hPresent : ∀ c ∈ t.columns, c.2.missing.any id = false :=
    fun c hc => (hSolid c hc).missing_eq
  have hRows : ∀ r ∈ t.rows, r.length = t.columns.length ∧ ∀ c ∈ r, c.isMissing = false := by
    intro r hr
    obtain ⟨i, hi, rfl⟩ := mem_map.1 (rows_eq t ▸ hr)
    obtain ⟨hLength, hCells⟩ := row_of_solid ht hSolid (mem_range.1 hi)
    exact ⟨hLength, fun c hc => (hCells c hc).1⟩
  have hSame : t.newRows = firstPositions sameKeys [] 0 t.rows :=
    firstPositions_congr
      (fun a b ha hb => sameRow_eq_sameKeys (ha.1.trans hb.1.symm) ha.2) hRows (by simp) 0
  rw [groupsByRow, keyedRows_eq ht hPresent, hSame]
  exact heads_ofKeyedRows_perm t.rows

/-- DISTINCT leaves the rows that repeat none before them. -/
theorem exists_distinct (hColumns : t.columns ≠ []) :
    ∃ u, t.distinct = .ok u ∧ u.names = t.names ∧ u.rows = t.newRows.map t.row := by
  have hTold : (t.rows.all fun row => row.all isDistinguishable) = true := by
    rw [all_eq_true]
    intro r hr
    obtain ⟨i, hi, rfl⟩ := mem_map.1 (rows_eq t ▸ hr)
    exact all_eq_true.2 fun c hc => ((row_of_solid ht hSolid (mem_range.1 hi)).2 c hc).2
  unfold distinct
  split
  · rename_i hEmpty
    have hLabels : t.labels = [] := by simpa [isEmpty, hColumns] using hEmpty
    simp [newRows, rows_eq, height, hLabels, firstPositions]
  · exact ⟨_, rfl, names_pickRows _ _, ht.rows_pickRows fun p hp => lt_of_mem_newRows hp⟩

end Solid

theorem pairwise_newRows (t : Table) :
    (t.newRows.map t.row).Pairwise (fun r s => sameRow s r = false) := by
  rw [pairwise_map, newRows, rows_eq, range_eq_range']
  exact (pairwise_firstPositions sameRow t.row t.height 0 []).1

end Table

end TableQuery
