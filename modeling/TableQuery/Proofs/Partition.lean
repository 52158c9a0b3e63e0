import TableQuery.Proofs.GroupedRows
import TableQuery.Proofs.JoinRows

/-! The partition of rows by their keys. If all keys are numbers or texts the groups are the classes
of the rows with the same keys, in ascending order, and every row that misses no key is in one of
them. -/
namespace TableQuery

open List Cell

theorem cons_le_cons_iff {L : Type} [LinearOrder L] {x y : L} {xs ys : List L} :
    x :: xs ≤ y :: ys ↔ x < y ∨ x = y ∧ xs ≤ ys := by
  rw [← not_lt, cons_lt_cons_iff]
  rcases lt_trichotomy x y with h | h | h
  · simp [h, h.not_gt, h.ne']
  · simp [h]
  · simp [h, h.not_gt, h.ne']

namespace Cell

variable {c : Cell} {m : Num}

def IsPlain (c : Cell) : Prop := c.num?.isSome = true ∨ ∃ s, c = .text s

/-- A value comes before another: numbers in their order, then texts in theirs. -/
inductive Below : Cell → Cell → Prop where
  | nums {a b : Cell} {m n : Num} : a.num? = some m → b.num? = some n → m.place < n.place →
      Below a b
  | mixed {a : Cell} {m : Num} (s : String) : a.num? = some m → Below a (.text s)
  | texts {s t : String} : s ≤ t → s ≠ t → Below (.text s) (.text t)

inductive RowBelow : List Cell → List Cell → Prop where
  | first {a b : Cell} {as bs : List Cell} : a.Below b → RowBelow (a :: as) (b :: bs)
  | later {a b : Cell} {as bs : List Cell} : a.SameValue b → RowBelow as bs →
      RowBelow (a :: as) (b :: bs)

/-- The place of a value in a linear order that all numbers and texts have in common. -/
def rank (c : Cell) : WithTop Place ×ₗ String :=
  toLex (c.num?.elim ⊤ fun m => (m.place : WithTop Place), c.textPart)

theorem IsPlain.isDistinguishable (h : c.IsPlain) : c.isDistinguishable = true := by
  rcases h with h | ⟨s, rfl⟩
  · cases c <;> first | rfl | cases h
  · rfl

theorem textPart_of_num (h : c.num? = some m) : c.textPart = "" := by
  cases c <;> first | rfl | cases h

theorem rank_of_num (h : c.num? = some m) : c.rank = toLex ((m.place : WithTop Place), "") := by
  rw [rank, h, textPart_of_num h]
  rfl

theorem rank_text (s : String) : (text s).rank = toLex ((⊤ : WithTop Place), s) := rfl

theorem IsPlain.cases (h : c.IsPlain) : (∃ m, c.num? = some m) ∨ ∃ s, c = .text s :=
  h.imp_left Option.isSome_iff_exists.1

section Rank

variable {a b : Cell} (ha : a.IsPlain) (hb : b.IsPlain)
include ha hb

theorem sortsBefore_iff_rank : a.sortsBefore b = true ↔ a.rank ≤ b.rank := by
  rcases ha.cases with ⟨m, hm⟩ | ⟨s, rfl⟩
  · rcases hb.cases with ⟨n, hn⟩ | ⟨t, rfl⟩
    · rw [sortsBefore_nums hm hn, rank_of_num hm, rank_of_num hn, Prod.Lex.toLex_le_toLex]
      simp [le_iff_lt_or_eq]
    · have hBefore : a.sortsBefore (.text t) = true := by
        unfold sortsBefore
        rw [hm]
        rfl
      rw [hBefore, rank_of_num hm, rank_text, Prod.Lex.toLex_le_toLex]
      simp
  · rcases hb.cases with ⟨n, hn⟩ | ⟨t, rfl⟩
    · have hBefore : (text s).sortsBefore b = false := by
        unfold sortsBefore
        rw [hn]
        rfl
      rw [hBefore, rank_of_num hn, rank_text, Prod.Lex.toLex_le_toLex]
      simp
    · rw [sortsBefore_texts, rank_text, rank_text, Prod.Lex.toLex_le_toLex]
      simp

theorem sameValue_iff_rank : a.SameValue b ↔ a.rank = b.rank := by
  rcases ha.cases with ⟨m, hm⟩ | ⟨s, rfl⟩
  · rw [rank_of_num hm]
    rcases hb.cases with ⟨n, hn⟩ | ⟨t, rfl⟩
    · rw [rank_of_num hn]
      refine ⟨fun h => ?_, fun h => .nums hm hn ?_⟩
      · obtain ⟨n', hn', hPlace⟩ := h.exists_place hm
        cases hn.symm.trans hn'
        rw [hPlace]
      · simpa using h
    · refine iff_of_false (fun h => ?_) fun h => ?_
      · obtain ⟨n, hn, -⟩ := h.exists_place hm
        cases hn
      · rw [rank_text, toLex_inj, Prod.mk.injEq] at h
        exact WithTop.coe_ne_top h.1
  · rw [rank_text]
    rcases hb.cases with ⟨n, hn⟩ | ⟨t, rfl⟩
    · rw [rank_of_num hn]
      refine iff_of_false (fun h => ?_) fun h => ?_
      · rw [← h.eq_of_num? rfl] at hn
        cases hn
      · rw [toLex_inj, Prod.mk.injEq] at h
        exact WithTop.coe_ne_top h.1.symm
    · rw [rank_text, toLex_inj, Prod.mk.injEq]
      refine ⟨fun h => ?_, fun h => ?_⟩
      · cases h.eq_of_num? rfl
        exact ⟨rfl, rfl⟩
      · rw [h.2]
        exact .refl _

theorem below_of_rank_lt (h : a.rank < b.rank) : a.Below b := by
  rcases ha.cases with ⟨m, hm⟩ | ⟨s, rfl⟩
  · rcases hb.cases with ⟨n, hn⟩ | ⟨t, rfl⟩
    · rw [rank_of_num hm, rank_of_num hn, Prod.Lex.toLex_lt_toLex] at h
      exact .nums hm hn (by simpa using h)
    · exact .mixed t hm
  · rcases hb.cases with ⟨n, hn⟩ | ⟨t, rfl⟩
    · rw [rank_of_num hn, rank_text, Prod.Lex.toLex_lt_toLex] at h
      simp at h
    · rw [rank_text, rank_text, Prod.Lex.toLex_lt_toLex] at h
      have hLess : s < t := by simpa using h
      exact .texts hLess.le hLess.ne

end Rank

theorem plain_pairs {as bs : List Cell} (hLength : as.length = bs.length) (ha : ∀ a ∈ as, a.IsPlain)
    (hb : ∀ b ∈ bs, b.IsPlain) : Forall₂ (fun a b : Cell => a.IsPlain ∧ b.IsPlain) as bs :=
  forall₂_iff_zip.2 ⟨hLength, fun hab => ⟨ha _ (of_mem_zip hab).1, hb _ (of_mem_zip hab).2⟩⟩

section Rows

variable {as bs : List Cell} (hPlain : List.Forall₂ (fun a b : Cell => a.IsPlain ∧ b.IsPlain) as bs)
include hPlain

theorem sortsBeforeAll_iff_rank : sortsBeforeAll as bs = true ↔ as.map rank ≤ bs.map rank := by
  induction hPlain with
  | nil => simp [sortsBeforeAll]
  | @cons a b as bs hab _ hRest =>
    have hForth := sortsBefore_iff_rank hab.1 hab.2
    have hBack := sortsBefore_iff_rank hab.2 hab.1
    rw [map_cons, map_cons, cons_le_cons_iff, sortsBeforeAll]
    rcases lt_trichotomy a.rank b.rank with hLess | hSame | hMore
    · rw [if_pos (hForth.2 hLess.le), if_neg (fun h => hLess.not_ge (hBack.1 h))]
      simp [hLess]
    · rw [if_pos (hForth.2 hSame.le), if_pos (hBack.2 hSame.ge), hRest]
      simp [hSame]
    · rw [if_neg (fun h => hMore.not_ge (hForth.1 h))]
      simp [hMore.not_gt, hMore.ne']

theorem forall₂_sameValue_iff_rank : Forall₂ SameValue as bs ↔ as.map rank = bs.map rank := by
  induction hPlain with
  | nil => simp
  | cons hab _ ih =>
    rw [forall₂_cons, ih, sameValue_iff_rank hab.1 hab.2, map_cons, map_cons, cons.injEq]

theorem sameKeys_iff_rank : Grouping.sameKeys as bs = true ↔ as.map rank = bs.map rank := by
  rw [← forall₂_sameValue_iff_rank hPlain, forall₂_iff_zip, and_iff_right hPlain.length_eq,
    Grouping.sameKeys, all_eq_true]
  have hSame (a b : Cell) (hab : (a, b) ∈ as.zip bs) : Data.sameObject a b = true ↔ a.SameValue b :=
    sameObject_iff ((forall₂_iff_zip.1 hPlain).2 hab).1.isDistinguishable b
  exact ⟨fun h a b hab => (hSame a b hab).1 (h _ hab), fun h ab hab => (hSame _ _ hab).2 (h hab)⟩

theorem rowBelow_of_rank_lt (h : as.map rank < bs.map rank) : RowBelow as bs := by
  induction hPlain with
  | nil => simp at h
  | cons hab _ ih =>
    rw [map_cons, map_cons, cons_lt_cons_iff] at h
    rcases h with h | ⟨hSame, h⟩
    · exact .first (below_of_rank_lt hab.1 hab.2 h)
    · exact .later ((sameValue_iff_rank hab.1 hab.2).2 hSame) (ih h)

end Rows

end Cell

namespace Grouping

variable {keys : List Cell} {i : Nat} {buckets : List Bucket}

def keysAt (keys : List Data) (i : Nat) : List Cell := keys.filterMap (·.cells[i]?)

def hasKeys (keys : List Data) (i : Nat) : Bool := keys.all fun d => d.missing[i]? == some false

/-- The classes of the rows with the same keys, by their positions. -/
structure Partitions (height : Nat) (keys : List Data) (groups : List (List Nat)) : Prop where
  /-- Every row that misses no key is in exactly one group, and no other row is. -/
  perm : groups.flatten.Perm ((List.range height).filter (hasKeys keys))
  nonempty : ∀ g ∈ groups, g ≠ []
  increasing : ∀ g ∈ groups, g.Pairwise (· < ·)
  same : ∀ g ∈ groups, ∀ i ∈ g, ∀ j ∈ g, List.Forall₂ Cell.SameValue (keysAt keys i) (keysAt keys j)
  ascending : groups.Pairwise fun g h => ∀ i ∈ g, ∀ j ∈ h,
    Cell.RowBelow (keysAt keys i) (keysAt keys j)

structure Buckets (key : Nat → List Cell) (rows : List Nat) (buckets : List Bucket) : Prop where
  perm : (buckets.flatMap (·.2)).Perm rows
  decreasing : ∀ b ∈ buckets, b.2.Pairwise (· > ·)
  first : ∀ b ∈ buckets, ∃ i ∈ b.2, key i = b.1
  same : ∀ b ∈ buckets, ∀ i ∈ b.2, sameKeys (key i) b.1 = true
  apart : buckets.Pairwise fun b b' => sameKeys b'.1 b.1 = false

theorem perm_flatMap_insertRow (keys : List Cell) (i : Nat) (buckets : List Bucket) :
    ((insertRow keys i buckets).flatMap (·.2)).Perm (i :: buckets.flatMap (·.2)) := by
  induction buckets with
  | nil => exact .refl _
  | cons b rest ih =>
    rw [insertRow_cons]
    split
    · exact .refl _
    · exact (Perm.append_left b.2 ih).trans perm_middle

/-- A bucket after a row came: one of those before, the one that the row was added to, or a new one.
-/
theorem mem_insertRow {b : Bucket} (h : b ∈ insertRow keys i buckets) :
    b ∈ buckets ∨ (∃ rows, (b.1, rows) ∈ buckets ∧ sameKeys keys b.1 = true ∧ b.2 = i :: rows) ∨
    b = (keys, [i]) := by
  induction buckets with
  | nil => exact .inr (.inr (mem_singleton.1 h))
  | cons c rest ih =>
    rw [insertRow_cons] at h
    split at h
    · rename_i hSame
      rcases mem_cons.1 h with rfl | h
      · exact .inr (.inl ⟨c.2, mem_cons_self, hSame, rfl⟩)
      · exact .inl (mem_cons_of_mem _ h)
    · rcases mem_cons.1 h with rfl | h
      · exact .inl mem_cons_self
      · refine (ih h).imp (mem_cons_of_mem _) (Or.imp_left ?_)
        rintro ⟨rows, hRows, hRest⟩
        exact ⟨rows, mem_cons_of_mem _ hRows, hRest⟩

theorem apart_insertRow (h : buckets.Pairwise fun b b' => sameKeys b'.1 b.1 = false) :
    (insertRow keys i buckets).Pairwise fun b b' => sameKeys b'.1 b.1 = false := by
  induction buckets with
  | nil => exact pairwise_singleton _ _
  | cons c rest ih =>
    obtain ⟨hFirst, hRest⟩ := pairwise_cons.1 h
    rw [insertRow_cons]
    split
    · exact pairwise_cons.2 ⟨hFirst, hRest⟩
    · rename_i hOther
      refine pairwise_cons.2 ⟨fun b hb => ?_, ih hRest⟩
      rcases mem_insertRow hb with hb | ⟨rows, hRows, -, -⟩ | rfl
      · exact hFirst b hb
      · exact hFirst (b.1, rows) hRows
      · exact Bool.not_eq_true _ ▸ hOther

namespace Buckets

variable {key : Nat → List Cell}
variable {rows : List Nat}

/-- One more row, which comes after those before. -/
theorem insertRow (h : Buckets key rows buckets)
    (hLater : ∀ j ∈ rows, j < i) (hRefl : sameKeys (key i) (key i) = true) :
    Buckets key (i :: rows) (insertRow (key i) i buckets) where
  perm := (perm_flatMap_insertRow _ _ _).trans (h.perm.cons i)
  decreasing b hb := by
    rcases mem_insertRow hb with hb | ⟨old, hOld, -, hRows⟩ | rfl
    · exact h.decreasing b hb
    · rw [hRows]
      refine pairwise_cons.2 ⟨fun j hj => hLater j ?_, h.decreasing _ hOld⟩
      exact h.perm.mem_iff.1 (mem_flatMap.2 ⟨_, hOld, hj⟩)
    · exact pairwise_singleton _ _
  first b hb := by
    rcases mem_insertRow hb with hb | ⟨old, hOld, -, hRows⟩ | rfl
    · exact h.first b hb
    · obtain ⟨j, hj, hKey⟩ := h.first _ hOld
      exact ⟨j, hRows ▸ mem_cons_of_mem i hj, hKey⟩
    · exact ⟨i, mem_singleton_self i, rfl⟩
  same b hb j hj := by
    rcases mem_insertRow hb with hb | ⟨old, hOld, hSame, hRows⟩ | rfl
    · exact h.same b hb j hj
    · rw [hRows] at hj
      rcases mem_cons.1 hj with rfl | hj
      · exact hSame
      · exact h.same _ hOld j hj
    · cases mem_singleton.1 hj
      exact hRefl
  apart := apart_insertRow h.apart

/-- All rows, in their order. -/
theorem foldl (hRows : rows.Pairwise (· < ·)) (hRefl : ∀ i ∈ rows, sameKeys (key i) (key i) = true)
    {done : List Nat} (h : Buckets key done buckets) (hDone : ∀ i ∈ rows, ∀ j ∈ done, j < i) :
    Buckets key (rows.reverse ++ done)
      (rows.foldl (fun buckets i => Grouping.insertRow (key i) i buckets) buckets) := by
  induction rows generalizing done buckets with
  | nil => exact h
  | cons i rest ih =>
    obtain ⟨hFirst, hRest⟩ := pairwise_cons.1 hRows
    obtain ⟨hSame, hRefl⟩ := forall_mem_cons.1 hRefl
    obtain ⟨hBefore, hDone⟩ := forall_mem_cons.1 hDone
    rw [reverse_cons, append_assoc]
    refine ih hRest hRefl (h.insertRow hBefore hSame) fun k hk j hj => ?_
    rcases mem_cons.1 hj with rfl | hj
    · exact hFirst k hk
    · exact hDone k hk j hj

end Buckets

/-- A row that misses no key has an entry in each, and none of them counts as missing. -/
theorem mapM_entries_of_hasKeys {keys : List Data} (h : hasKeys keys i = true) :
    (keys.map fun d => d.cells.zip d.missing).mapM (·[i]?) =
      some ((keysAt keys i).map (·, false)) := by
  induction keys with
  | nil => rfl
  | cons d rest ih =>
    rw [hasKeys, all_cons, Bool.and_eq_true, beq_iff_eq] at h
    have hIndex : i < d.cells.length := by
      rw [Data.length_cells, ← Data.length_missing]
      exact (List.getElem?_eq_some_iff.1 h.1).1
    have hCell : d.cells[i]? = some d.cells[i] := getElem?_eq_getElem hIndex
    have hEntry : (d.cells.zip d.missing)[i]? = some (d.cells[i], false) :=
      getElem?_zip_eq_some.2 ⟨hCell, h.1⟩
    have hKeys : keysAt (d :: rest) i = d.cells[i] :: keysAt rest i := filterMap_cons_some hCell
    rw [map_cons, mapM_cons, hEntry, ih h.2, hKeys]
    rfl

theorem hasKeys_of_mapM_entries {keys : List Data} {entries : List (Cell × Bool)}
    (h : (keys.map fun d => d.cells.zip d.missing).mapM (·[i]?) = some entries)
    (hPresent : entries.any (·.2) = false) : hasKeys keys i = true := by
  induction keys generalizing entries with
  | nil => rfl
  | cons d rest ih =>
    rw [map_cons, mapM_cons] at h
    obtain ⟨entry, hEntry, h⟩ := Option.bind_eq_some_iff.1 h
    obtain ⟨others, hOthers, h⟩ := Option.bind_eq_some_iff.1 h
    cases h
    rw [any_cons, Bool.or_eq_false_iff] at hPresent
    rw [hasKeys, all_cons, Bool.and_eq_true, beq_iff_eq]
    exact ⟨hPresent.1 ▸ (getElem?_zip_eq_some.1 hEntry).2, ih hOthers hPresent.2⟩

/-- The rows that are grouped are those that miss no key. -/
theorem keyedRows_eq_filter (height : Nat) (keys : List Data) :
    keyedRows height keys =
      ((range height).filter (hasKeys keys)).map fun i => (keysAt keys i, i) := by
  rw [← filterMap_eq_map', filterMap_filter]
  refine filterMap_congr fun i _ => ?_
  by_cases hKeys : hasKeys keys i = true
  · rw [if_pos hKeys, mapM_entries_of_hasKeys hKeys]
    simp [Function.comp_def]
  · rw [if_neg hKeys]
    split
    · rename_i entries hEntries
      split
      · rfl
      · rename_i hPresent
        exact absurd (hasKeys_of_mapM_entries hEntries (Bool.not_eq_true _ ▸ hPresent)) hKeys
    · rfl

end Grouping

def Data.OfPlainKeys (d : Data) : Prop :=
  ∀ (i : Nat) (c : Cell), d.cells[i]? = some c → d.missing[i]? = some false → c.IsPlain

namespace Grouping

section Plain

variable {keys : List Data} (hPlain : ∀ d ∈ keys, d.OfPlainKeys)
include hPlain

theorem plain_keysAt {i : Nat} (h : hasKeys keys i = true) :
    (keysAt keys i).length = keys.length ∧ ∀ c ∈ keysAt keys i, c.IsPlain := by
  have hMissing : ∀ d ∈ keys, d.missing[i]? = some false := by simpa [hasKeys] using h
  constructor
  · rw [keysAt, filterMap_length_eq_length]
    intro d hd
    have hIndex := (List.getElem?_eq_some_iff.1 (hMissing d hd)).1
    simpa using hIndex
  · intro c hc
    obtain ⟨d, hd, hCell⟩ := mem_filterMap.1 hc
    exact hPlain d hd i c hCell (hMissing d hd)

namespace Buckets

variable {rows : List Nat} {buckets : List Bucket} (h : Buckets (keysAt keys) rows buckets)
  (hRows : ∀ i ∈ rows, hasKeys keys i = true)
variable {b : Bucket} {i : Nat}
include h hRows

theorem plain_of_mem (hb : b ∈ buckets) (hi : i ∈ b.2) :
    (keysAt keys i).length = keys.length ∧ ∀ c ∈ keysAt keys i, c.IsPlain :=
  plain_keysAt hPlain (hRows i (h.perm.mem_iff.1 (mem_flatMap.2 ⟨b, hb, hi⟩)))

theorem plain (hb : b ∈ buckets) : b.1.length = keys.length ∧ ∀ c ∈ b.1, c.IsPlain := by
  obtain ⟨i, hi, hKey⟩ := h.first b hb
  exact hKey ▸ h.plain_of_mem hPlain hRows hb hi

/-- The keys of a row have the rank of its bucket's keys. -/
theorem rank_eq (hb : b ∈ buckets) (hi : i ∈ b.2) : (keysAt keys i).map rank = b.1.map rank := by
  obtain ⟨hLength, hCells⟩ := h.plain_of_mem hPlain hRows hb hi
  obtain ⟨hLength', hCells'⟩ := h.plain hPlain hRows hb
  exact (sameKeys_iff_rank (plain_pairs (hLength.trans hLength'.symm) hCells hCells')).1
    (h.same b hb i hi)

theorem sorted : (buckets.mergeSort fun a b => sortsBeforeAll a.1 b.1).Pairwise
    fun a b => a.1.map rank < b.1.map rank := by
  have hSort : buckets.mergeSort (fun a b => sortsBeforeAll a.1 b.1) =
      buckets.mergeSort fun a b => decide (a.1.map rank ≤ b.1.map rank) := by
    have hMap := map_mergeSort (f := id) (l := buckets) (r := fun a b => sortsBeforeAll a.1 b.1)
      (s := fun a b => decide (a.1.map rank ≤ b.1.map rank)) fun a ha b hb => by
        obtain ⟨hLength, hCells⟩ := h.plain hPlain hRows ha
        obtain ⟨hLength', hCells'⟩ := h.plain hPlain hRows hb
        rw [Bool.eq_iff_iff, decide_eq_true_iff]
        exact sortsBeforeAll_iff_rank (plain_pairs (hLength.trans hLength'.symm) hCells hCells')
    simpa using hMap
  have hOrder : (buckets.mergeSort fun a b => sortsBeforeAll a.1 b.1).Pairwise
      fun a b => a.1.map rank ≤ b.1.map rank := by
    have hPairs := @pairwise_mergeSort Bucket (fun a b => decide (a.1.map rank ≤ b.1.map rank))
      (fun a b c hab hbc => by simpa using le_trans (of_decide_eq_true hab) (of_decide_eq_true hbc))
      (fun a b => by simpa using le_total _ _) buckets
    rw [hSort]
    exact hPairs.imp of_decide_eq_true
  have hApart : (buckets.mergeSort fun a b => sortsBeforeAll a.1 b.1).Pairwise
      fun a b => a.1.map rank ≠ b.1.map rank := by
    have hUnsorted : buckets.Pairwise fun a b => a.1.map rank ≠ b.1.map rank := by
      refine h.apart.imp_of_mem fun {a b} ha hb hOther hSame => ?_
      obtain ⟨hLength, hCells⟩ := h.plain hPlain hRows ha
      obtain ⟨hLength', hCells'⟩ := h.plain hPlain hRows hb
      rw [(sameKeys_iff_rank (plain_pairs (hLength'.trans hLength.symm) hCells' hCells)).2
        hSame.symm] at hOther
      cases hOther
    exact (mergeSort_perm _ _).symm.pairwise hUnsorted Ne.symm
  exact (hOrder.and hApart).imp fun hBoth => lt_of_le_of_ne hBoth.1 hBoth.2

end Buckets

/-- The groups of rows by keys that are numbers or texts. -/
theorem partitions_ofKeyedRows (height : Nat) :
    Partitions height keys (ofKeyedRows (keyedRows height keys)) := by
  have hNone : Buckets (keysAt keys) [] [] := ⟨.refl _, by simp, by simp, by simp, .nil⟩
  have hIncreasing : ((range height).filter (hasKeys keys)).Pairwise (· < ·) :=
    pairwise_lt_range.filter _
  have hBuckets := hNone.foldl hIncreasing
    (fun i hi => by
      obtain ⟨-, hCells⟩ := plain_keysAt hPlain (mem_filter.1 hi).2
      exact (sameKeys_iff_rank (plain_pairs rfl hCells hCells)).2 rfl)
    (by simp)
  have hRows : ∀ i ∈ ((range height).filter (hasKeys keys)).reverse ++ [],
      hasKeys keys i = true := by
    intro i hi
    rw [append_nil, mem_reverse] at hi
    exact (mem_filter.1 hi).2
  rw [keyedRows_eq_filter]
  unfold ofKeyedRows
  rw [foldl_map]
  dsimp only
  generalize (foldl _ _ _ : List Bucket) = buckets at hBuckets ⊢
  have hSorted := hBuckets.sorted hPlain hRows
  have hPerm := mergeSort_perm buckets fun a b => sortsBeforeAll a.1 b.1
  generalize buckets.mergeSort _ = sorted at hSorted hPerm ⊢
  refine ⟨?_, ?_, ?_, ?_, ?_⟩
  · have hFlat : (sorted.map fun b => b.2.reverse).flatten.Perm (buckets.flatMap (·.2)) := by
      exact (Perm.flatMap_left _ fun b _ => b.2.reverse_perm).trans (hPerm.flatMap_right _)
    refine hFlat.trans (hBuckets.perm.trans ?_)
    rw [append_nil]
    exact reverse_perm _
  · intro g hg
    obtain ⟨b, hb, rfl⟩ := mem_map.1 hg
    obtain ⟨i, hi, -⟩ := hBuckets.first b (hPerm.mem_iff.1 hb)
    exact ne_nil_of_mem (mem_reverse.2 hi)
  · intro g hg
    obtain ⟨b, hb, rfl⟩ := mem_map.1 hg
    exact pairwise_reverse.2 (hBuckets.decreasing b (hPerm.mem_iff.1 hb))
  · intro g hg i hi j hj
    obtain ⟨b, hb, rfl⟩ := mem_map.1 hg
    replace hb := hPerm.mem_iff.1 hb
    rw [mem_reverse] at hi hj
    obtain ⟨hLength, hCells⟩ := hBuckets.plain_of_mem hPlain hRows hb hi
    obtain ⟨hLength', hCells'⟩ := hBuckets.plain_of_mem hPlain hRows hb hj
    refine (forall₂_sameValue_iff_rank (plain_pairs (hLength.trans hLength'.symm) hCells hCells')).2
      ?_
    rw [hBuckets.rank_eq hPlain hRows hb hi, hBuckets.rank_eq hPlain hRows hb hj]
  · refine pairwise_map.2 (hSorted.imp_of_mem fun {b c} hb hc hLess i hi j hj => ?_)
    replace hb := hPerm.mem_iff.1 hb
    replace hc := hPerm.mem_iff.1 hc
    rw [mem_reverse] at hi hj
    obtain ⟨hLength, hCells⟩ := hBuckets.plain_of_mem hPlain hRows hb hi
    obtain ⟨hLength', hCells'⟩ := hBuckets.plain_of_mem hPlain hRows hc hj
    refine rowBelow_of_rank_lt (plain_pairs (hLength.trans hLength'.symm) hCells hCells') ?_
    rwa [hBuckets.rank_eq hPlain hRows hb hi, hBuckets.rank_eq hPlain hRows hc hj]

end Plain

end Grouping

end TableQuery
