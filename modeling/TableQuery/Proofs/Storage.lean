import Mathlib.Order.MinMax
import TableQuery.Proofs.Answers

/-! How the columns of a table are stored. A column of a file has the storage type that its entries
have on their own. Cleaning stores columns with marks, which a column made anew does not have. -/
namespace TableQuery

open List Census Csv IntKind

namespace Census

variable {cells : List Cell}
variable {c : Cell} {xs : List Int}

theorem foldl_note_ints (s : Census) (xs : List Int) : (xs.map Cell.int).foldl note s =
      { s with int := s.int || !xs.isEmpty, least := xs.foldl min s.least,
               greatest := xs.foldl max s.greatest } := by
  induction xs generalizing s with
  | nil => simp
  | cons n rest ih =>
    rw [map_cons, foldl_cons, ih]
    simp [note, Cell.num?]

theorem foldl_note_floats (s : Census) (xs : List Float) :
    (xs.map Cell.float).foldl note s =
      { s with
        float := s.float || xs.any (!·.isNaN)
        noNumber := s.noNumber || xs.any (·.isNaN) } := by
  induction xs generalizing s with
  | nil => simp
  | cons x rest ih =>
    have hNote : note s (.float x) =
        if x.isNaN then { s with noNumber := true } else { s with float := true } := rfl
    rw [map_cons, foldl_cons, ih, hNote, any_cons, any_cons]
    cases x.isNaN <;> simp

theorem foldl_note_bools (s : Census) (bs : List Bool) :
    (bs.map Cell.bool).foldl note s = { s with bool := s.bool || !bs.isEmpty } := by
  induction bs generalizing s with
  | nil => simp
  | cons b rest ih =>
    rw [map_cons, foldl_cons, ih]
    simp [note, Cell.num?]

/-- What one value sets and no other value takes back is set in the end. -/
theorem of_mem (flag : Census → Bool) (hStays : ∀ s c, flag s = true → flag (note s c) = true)
    (hSets : ∀ s, flag (note s c) = true) (hc : c ∈ cells) : flag (of cells) = true := by
  obtain ⟨before, after, rfl⟩ := append_of_mem hc
  rw [of, foldl_append]
  exact foldlRecOn after note (motive := fun s => flag s = true) (hSets _)
    fun s hs d _ => hStays s d hs

theorem other_of_mem (hc : c ∈ cells) (hSets : ∀ s, (note s c).other = true) :
    (of cells).other = true := by
  refine of_mem other (fun s c hs => ?_) hSets hc
  unfold note
  split
  · exact hs
  · split
    · exact hs
    · exact hs
    · split <;> exact hs
    · rfl

theorem bool_of_mem {b : Bool} (h : .bool b ∈ cells) : (of cells).bool = true := by
  refine of_mem bool (fun s c hs => ?_) (fun _ => rfl) h
  unfold note
  split
  · exact hs
  · split
    · rfl
    · exact hs
    · split <;> exact hs
    · exact hs

theorem noNumber_of_mem (h : .float Binary64.nan ∈ cells) : (of cells).noNumber = true := by
  refine of_mem noNumber (fun s c hs => ?_) (fun _ => rfl) h
  unfold note
  split
  · exact hs
  · split
    · exact hs
    · exact hs
    · split
      · rfl
      · exact hs
    · exact hs

/-- Whole numbers that are all of a type have their bounds among its values. -/
theorem fits_least_greatest {k : IntKind} (hZero : k.fits 0 = true)
    (h : ∀ n ∈ xs, k.fits n = true) :
    k.fits (xs.foldl min 0) = true ∧ k.fits (xs.foldl max 0) = true := by
  constructor
  · refine foldlRecOn xs min (motive := fun m => k.fits m = true) hZero fun m hm n hn => ?_
    rcases min_choice m n with hMin | hMin
    · rwa [hMin]
    · rw [hMin]
      exact h n hn
  · refine foldlRecOn xs max (motive := fun m => k.fits m = true) hZero fun m hm n hn => ?_
    rcases max_choice m n with hMax | hMax
    · rwa [hMax]
    · rw [hMax]
      exact h n hn

theorem le_greatest {n : Int} (h : n ∈ xs) (m : Int) : n ≤ xs.foldl max m := by
  obtain ⟨before, after, rfl⟩ := append_of_mem h
  rw [foldl_append]
  exact foldlRecOn after max (motive := fun m => n ≤ m) (le_max_right _ _)
    fun m hm _ _ => hm.trans (le_max_left m _)

end Census

namespace Data

variable {cells : List Cell}

theorem inferEntries_of_ne_nil (h : cells ≠ []) : inferEntries cells = infer cells := by
  rw [inferEntries, if_neg (by simpa using h)]

theorem infer_ints {k : IntKind} {xs : List Int} (hxs : xs ≠ [])
    (hKind : (of (xs.map .int)).intKind? = some k) : infer (xs.map .int) = .ints k xs := by
  have hType : (of (xs.map .int)).dtype = .ints k := by
    unfold Census.dtype
    rw [hKind, of, foldl_note_ints]
    simp [gaps, hxs]
  unfold infer
  rw [hType]
  simp [Cell.asInt, Cell.num?, Num.asInt?, Function.comp_def]

theorem infer_floats {xs : List Float} (hxs : xs ≠ []) : infer (xs.map .float) = .floats xs := by
  have hType : (Census.of (xs.map .float)).dtype = .floats := by
    obtain ⟨x, rest, rfl⟩ := exists_cons_of_ne_nil hxs
    rw [Census.of, Census.foldl_note_floats, any_cons, any_cons]
    cases x.isNaN <;> simp [Census.dtype]
  unfold infer
  rw [hType]
  simp [Cell.asFloat, Cell.num?, Num.toFloat, Function.comp_def]

theorem infer_bools {bs : List Bool} (hbs : bs ≠ []) : infer (bs.map .bool) = .bools bs := by
  have hType : (Census.of (bs.map .bool)).dtype = .bools := by
    rw [Census.of, Census.foldl_note_bools]
    simp [Census.dtype, Census.gaps, hbs]
  unfold infer
  rw [hType]
  simp [Cell.asBool, Cell.num?, Num.isTrue, Function.comp_def]

theorem infer_objects (h : (of cells).dtype = .objects) : infer cells = .objects cells := by
  unfold infer
  rw [h]

/-- Data made of values has no marks. -/
theorem infer_cases (cells : List Cell) :
    (∃ k xs, infer cells = .ints k xs) ∨ (∃ xs, infer cells = .floats xs) ∨
    (∃ bs, infer cells = .bools bs) ∨ ∃ xs, infer cells = .objects xs := by
  unfold infer
  split
  · exact .inl ⟨_, _, rfl⟩
  · exact .inr (.inl ⟨_, rfl⟩)
  · exact .inr (.inr (.inl ⟨_, rfl⟩))
  · exact .inr (.inr (.inr ⟨_, rfl⟩))

theorem inferEntries_cases (cells : List Cell) :
    (∃ k xs, inferEntries cells = .ints k xs) ∨ (∃ xs, inferEntries cells = .floats xs) ∨
    (∃ bs, inferEntries cells = .bools bs) ∨ ∃ xs, inferEntries cells = .objects xs := by
  unfold inferEntries
  split
  · exact .inr (.inl ⟨_, rfl⟩)
  · exact infer_cases cells

theorem anew_cases (d : Data) :
    (∃ k xs, d.anew = .ints k xs) ∨ (∃ xs, d.anew = .floats xs) ∨ (∃ bs, d.anew = .bools bs) ∨
    ∃ xs, d.anew = .objects xs := by
  unfold anew
  split
  · split
    · exact inferEntries_cases _
    · exact .inl ⟨_, _, rfl⟩
  · exact inferEntries_cases _

end Data

namespace Csv

variable {low high : Int} {ns : List (Option Int)} {f : String}
variable {field : String} {n : Int}

def gap : Cell := .float Binary64.nan

inductive ReadColumn : Data → Prop where
  | ints {xs : List Int} (h : ∀ n ∈ xs, IntKind.int64.fits n = true) : ReadColumn (.ints .int64 xs)
  /-- Unsigned words are for numbers that are too long for signed ones. -/
  | words {xs : List Int} (h : ∀ n ∈ xs, IntKind.uint64.fits n = true) {n : Int} (hn : n ∈ xs)
      (hLong : IntKind.int64.high < n) : ReadColumn (.ints .uint64 xs)
  | floats (xs : List Float) : ReadColumn (.floats xs)
  | bools (bs : List Bool) : ReadColumn (.bools bs)
  | truths {xs : List Cell} {b : Bool} (hTruth : .bool b ∈ xs) (hGap : gap ∈ xs)
      (h : ∀ c ∈ xs, c = gap ∨ ∃ b, c = .bool b) : ReadColumn (.objects xs)
  | texts {xs : List Cell} {s : String} (hText : .text s ∈ xs)
      (h : ∀ c ∈ xs, c = gap ∨ ∃ s, c = .text s) :
      ReadColumn (.objects xs)

/-- A column that was read is stored as its entries are on their own. -/
theorem ReadColumn.anew_eq {d : Data} (h : ReadColumn d) (hLength : d.length ≠ 0) : d.anew = d := by
  have hCells : d.cells ≠ [] := by
    rwa [← length_eq_zero_iff.ne, Data.length_cells]
  cases h with
  | ints h =>
    have hFits := fits_least_greatest (k := .int64) rfl h
    refine (Data.inferEntries_of_ne_nil hCells).trans
      (Data.infer_ints (by simpa [Data.cells] using hCells) ?_)
    rw [of, foldl_note_ints]
    simp [intKind?, hFits]
  | @words xs h n hn hLong =>
    have hFits := fits_least_greatest (k := .uint64) rfl h
    have hLeast : 0 ≤ xs.foldl min 0 := by
      simpa [low, isSigned] using (Bool.and_eq_true_iff.1 hFits.1).1
    have hGreatest : int64.fits (xs.foldl max 0) = false := by
      have hn := le_greatest hn 0
      simp only [fits, Bool.and_eq_false_iff, decide_eq_false_iff_not]
      exact .inr (by omega)
    refine (Data.inferEntries_of_ne_nil hCells).trans
      (Data.infer_ints (by simpa [Data.cells] using hCells) ?_)
    rw [of, foldl_note_ints]
    simp [intKind?, hFits, hLeast, hGreatest]
  | floats xs =>
    exact (Data.inferEntries_of_ne_nil hCells).trans
      (Data.infer_floats (by simpa [Data.cells] using hCells))
  | bools bs =>
    exact (Data.inferEntries_of_ne_nil hCells).trans
      (Data.infer_bools (by simpa [Data.cells] using hCells))
  | truths hTruth hGap _ =>
    refine (Data.inferEntries_of_ne_nil hCells).trans (Data.infer_objects ?_)
    unfold dtype gaps
    simp only [Data.cells, bool_of_mem hTruth, noNumber_of_mem hGap]
    simp
  | texts hText _ =>
    refine (Data.inferEntries_of_ne_nil hCells).trans (Data.infer_objects ?_)
    exact if_pos (other_of_mem hText fun _ => rfl)

def IsWhole (low high : Int) (field : String) (n : Option Int) : Prop :=
  if isMissing field then n = none else ∃ m, readWhole low high field = .value m ∧ n = some m

variable {fields : List String}

theorem forall_isWhole (h : readWholes low high fields = .values ns) :
    Forall₂ (IsWhole low high) fields ns := by
  induction fields generalizing ns with
  | nil =>
    cases h
    exact .nil
  | cons f rest ih =>
    unfold readWholes at h
    split at h
    · rename_i hMissing
      split at h
      · rename_i hRest
        cases h
        exact .cons (by simp [IsWhole, hMissing]) (ih hRest)
      · rename_i hOther
        exact absurd h (hOther _)
    · rename_i hMissing
      split at h
      · rename_i n hn
        split at h
        · rename_i hRest
          cases h
          exact .cons (by simp [IsWhole, hMissing, hn]) (ih hRest)
        · rename_i hOther
          exact absurd h (hOther _)
      · cases h
      · cases h

theorem exists_tooLong (h : readWholes low high fields = .tooLong) :
    ∃ f ∈ fields, isMissing f = false ∧ readWhole low high f = .tooLong := by
  induction fields with
  | nil => cases h
  | cons f rest ih =>
    have hLater (hRest : readWholes low high rest = .tooLong) :
        ∃ g ∈ f :: rest, isMissing g = false ∧ readWhole low high g = .tooLong := by
      obtain ⟨g, hg, hLong⟩ := ih hRest
      exact ⟨g, mem_cons_of_mem f hg, hLong⟩
    unfold readWholes at h
    split at h
    · split at h
      · cases h
      · exact hLater h
    · rename_i hMissing
      split at h
      · split at h
        · cases h
        · exact hLater h
      · rename_i hLong
        exact ⟨f, mem_cons_self, by simpa using hMissing, hLong⟩
      · cases h

/-- Which number a field starts with, and whether it is nothing else, does not depend on the bounds.
-/
theorem readWhole_eq (field : String) :
    ∃ (noDigits whole : Bool) (n : Int), (typedLong.isNegative field = false → 0 ≤ n) ∧
      ∀ low high, readWhole low high field =
          if noDigits then .noNumber
            else if n < low || high < n then .tooLong
              else if whole then .value n else .noNumber := by
  unfold readWhole typedLong.isNegative
  rcases Decimal.splitSign (field.toList.dropWhile Decimal.isFieldBlank) with ⟨negative, body⟩
  refine ⟨_, _, _, fun hSign => ?_, fun low high => rfl⟩
  dsimp only at hSign
  simp [hSign]

theorem bounds_of_readWhole (h : readWhole low high field = .value n) : low ≤ n ∧ n ≤ high := by
  obtain ⟨noDigits, whole, m, _, hRead⟩ := readWhole_eq field
  rw [hRead] at h
  split_ifs at h with _ hBounds
  cases h
  simpa [not_lt] using hBounds

/-- A number without a sign that is outside some bounds is too great for them. -/
theorem lt_of_tooLong {low' high' : Int} (hLow : low ≤ 0)
    (hSign : typedLong.isNegative field = false) (hLong : readWhole low high field = .tooLong)
    (hValue : readWhole low' high' field = .value n) : high < n := by
  obtain ⟨noDigits, whole, m, hPositive, hRead⟩ := readWhole_eq field
  have hm := hPositive hSign
  rw [hRead] at hLong hValue
  split_ifs at hLong with _ hBounds
  split_ifs at hValue
  cases hValue
  simp only [Bool.or_eq_true, decide_eq_true_eq] at hBounds
  omega

/-- The data of some fields: it is stored as columns are that were read, and has an entry for each
field. -/
structure ReadFrom (fields : List String) (d : Data) : Prop where
  column : ReadColumn d
  length : d.length = fields.length

/-- The fields that are missing are those that a rule gives nothing for. -/
theorem forall_isNone {α : Type} {read? : String → Option α} {xs : List (Option α)}
    (h : readAll? read? fields = some xs) :
    Forall₂ (fun f x => isMissing f = x.isNone) fields xs := by
  induction fields generalizing xs with
  | nil =>
    cases h
    exact .nil
  | cons f rest ih =>
    unfold readAll? at h
    rw [mapM_cons] at h
    obtain ⟨x, hx, h⟩ := Option.bind_eq_some_iff.1 h
    obtain ⟨ys, hys, h⟩ := Option.bind_eq_some_iff.1 h
    cases h
    refine .cons ?_ (ih hys)
    split at hx
    · rename_i hMissing
      cases hx
      exact hMissing
    · rename_i hMissing
      obtain ⟨a, _, rfl⟩ := Option.map_eq_some_iff.1 hx
      simpa using hMissing

/-- The numbers of fields none of which is missing are between the bounds. -/
theorem bounds_of_mem (h : Forall₂ (IsWhole low high) fields ns)
    (hAll : ns.all Option.isSome = true) (hn : n ∈ ns.map (·.getD 0)) : low ≤ n ∧ n ≤ high := by
  obtain ⟨x, hx, rfl⟩ := mem_map.1 hn
  obtain ⟨f, _, hWhole⟩ := exists_mem_left h hx
  obtain ⟨m, rfl⟩ := Option.isSome_iff_exists.1 (all_eq_true.1 hAll x hx)
  unfold IsWhole at hWhole
  split at hWhole
  · cases hWhole
  · obtain ⟨k, hRead, hk⟩ := hWhole
    cases hk
    exact bounds_of_readWhole hRead

theorem readFrom_wholes (h : Forall₂ (IsWhole int64.low int64.high) fields ns) :
    ReadFrom fields (wholes ns) := by
  unfold wholes
  split
  · rename_i hAll
    refine ⟨.ints fun n hn => ?_, by simp [Data.length, h.length_eq]⟩
    simpa [fits] using bounds_of_mem h hAll hn
  · exact ⟨.floats _, by simp [Data.length, h.length_eq]⟩

theorem readFrom_texts (hf : f ∈ fields) (hMissing : isMissing f = false) :
    ReadFrom fields (texts fields) := by
  refine ⟨.texts (s := f) (mem_map.2 ⟨f, hf, by simp [hMissing]⟩) fun c hc => ?_,
    by simp [texts, Data.length]⟩
  obtain ⟨g, _, rfl⟩ := mem_map.1 hc
  split
  · exact .inl rfl
  · exact .inr ⟨g, rfl⟩

theorem readFrom_allTexts (h : fields ≠ []) : ReadFrom fields (allTexts fields) := by
  obtain ⟨f, hf⟩ := exists_mem_of_ne_nil fields h
  refine ⟨.texts (s := f) (mem_map_of_mem hf) fun c hc => ?_, by simp [allTexts, Data.length]⟩
  obtain ⟨g, _, rfl⟩ := mem_map.1 hc
  exact .inr ⟨g, rfl⟩

theorem readFrom_typedReals (hf : f ∈ fields)
    (hMissing : isMissing f = false) : ReadFrom fields (typedReals fields) := by
  unfold typedReals
  split
  · rename_i xs hxs
    exact ⟨.floats _, by simp [Data.length, (forall_isNone hxs).length_eq]⟩
  · split
    · rename_i bs hbs
      have hNone := forall_isNone hbs
      split
      · exact ⟨.bools _, by simp [Data.length, hNone.length_eq]⟩
      · rename_i hGaps
        obtain ⟨x, hx, hSome⟩ := exists_mem_right hNone hf
        obtain ⟨b, rfl⟩ : ∃ b, x = some b :=
          Option.isSome_iff_exists.1 (by simpa [hMissing] using hSome)
        have hNoneMem : none ∈ bs := by simpa [Option.isSome_iff_ne_none] using hGaps
        refine ⟨.truths (b := b) (mem_map.2 ⟨_, hx, rfl⟩) (mem_map.2 ⟨none, hNoneMem, rfl⟩)
          fun c hc => ?_, by simp [Data.length, hNone.length_eq]⟩
        obtain ⟨y, _, rfl⟩ := mem_map.1 hc
        cases y with
        | none => exact .inl rfl
        | some b => exact .inr ⟨b, rfl⟩
    · exact readFrom_texts hf hMissing

theorem readFrom_typedLong (hf : f ∈ fields) (hMissing : isMissing f = false)
    (hLong : readWhole int64.low int64.high f = .tooLong) : ReadFrom fields (typedLong fields) := by
  have hFields : fields ≠ [] := ne_nil_of_mem hf
  unfold typedLong
  split
  · rename_i ns hns
    split
    · split
      · exact readFrom_allTexts hFields
      · exact readFrom_texts hf hMissing
    · rename_i hSigns
      simp only [Bool.or_eq_true, not_or, Bool.not_eq_true, Bool.not_eq_eq_eq_not, Bool.not_true,
        Bool.not_eq_false] at hSigns
      obtain ⟨hSigns, hAll⟩ := hSigns
      rw [any_eq_false] at hSigns
      -- No field has a sign, so that the fields are read as they stand.
      have hSame : fields.map (fun g => if typedLong.isNegative g then "0" else g) = fields :=
        (map_congr_left fun g hg => if_neg (hSigns g hg)).trans (map_id fields)
      rw [hSame] at hns
      have hWholes := forall_isWhole hns
      obtain ⟨x, hx, hWhole⟩ := exists_mem_right hWholes hf
      rw [IsWhole, if_neg (by simp [hMissing])] at hWhole
      obtain ⟨n, hRead, rfl⟩ := hWhole
      refine ⟨.words (fun m hm => ?_) (mem_map.2 ⟨_, hx, rfl⟩)
        (lt_of_tooLong (by decide) (by simpa using hSigns f hf) hLong hRead),
        by simp [Data.length, hWholes.length_eq]⟩
      simpa [fits] using bounds_of_mem hWholes hAll hm
  · exact readFrom_texts hf hMissing
  · exact readFrom_typedReals hf hMissing

theorem readFrom_typed (h : fields ≠ []) : ReadFrom fields (typed fields) := by
  unfold typed
  rw [if_neg (by simpa using h)]
  split
  · exact ⟨.floats _, by simp [Data.length]⟩
  · rename_i hPresent
    obtain ⟨f, hf, hMissing⟩ : ∃ f ∈ fields, isMissing f = false := by simpa using hPresent
    split
    · rename_i ns hns
      exact readFrom_wholes (forall_isWhole hns)
    · rename_i hLong
      obtain ⟨g, hg, hPresent, hLong⟩ := exists_tooLong hLong
      exact readFrom_typedLong hg hPresent hLong
    · exact readFrom_typedReals hf hMissing

theorem length_typed (fields : List String) : (typed fields).length = fields.length := by
  by_cases h : fields = []
  · subst h
    rfl
  · exact (readFrom_typed h).length

end Csv

namespace Data

@[simp] theorem length_markFloats (xs : List Float) : (markFloats xs).length = xs.length := by
  unfold markFloats
  split <;> simp [markNaN, length]

@[simp] theorem length_markObjects (xs : List Cell) : (markObjects xs).length = xs.length := by
  unfold markObjects
  dsimp only
  split_ifs <;> simp [length, toTexts, freeCells, cells, missing]

@[simp] theorem length_withMarks (d : Data) : d.withMarks.length = d.length := by
  cases d with
  | floats xs => exact length_markFloats xs
  | objects xs => exact length_markObjects xs
  | _ => simp [withMarks, length]

/-- Data that a column made anew of its entries stores in another way, so that a query can tell. -/
inductive Marked : Data → Prop where
  | numbers {d : Data} (h : d.isMarked = true) (hLength : d.length ≠ 0) : Marked d
  | texts {ts : List (Option String)} (h : ts ≠ []) : Marked (.texts ts)
  /-- Objects that are all gaps, or without rows. -/
  | gaps (n : Nat) : Marked (.objects (List.replicate n Csv.gap))
  | noInts (k : IntKind) : Marked (.nullableInts k [])
  | noBools : Marked (.nullableBools [])

theorem marked_nullableInts (k : IntKind) (xs : List (Option Int)) :
    (nullableInts k xs).Marked := by
  cases xs with
  | nil => exact .noInts k
  | cons x rest => exact .numbers rfl (Nat.succ_ne_zero _)

theorem marked_nullableBools (bs : List (Option Bool)) : (nullableBools bs).Marked := by
  cases bs with
  | nil => exact .noBools
  | cons b rest => exact .numbers rfl (Nat.succ_ne_zero _)

theorem marked_markFloats (xs : List Float) : (markFloats xs).Marked := by
  unfold markFloats
  split
  · exact marked_nullableInts _ _
  · rename_i hSome
    refine .numbers rfl ?_
    cases xs with
    | nil => exact absurd rfl hSome
    | cons x rest => exact Nat.succ_ne_zero _

/-- Objects that are all truth values or all texts, gaps apart, are stored with marks. -/
theorem marked_markObjects {xs : List Cell}
    (h : (∀ c ∈ xs, c = gap ∨ ∃ b, c = .bool b) ∨ ∀ c ∈ xs, c = gap ∨ ∃ s, c = .text s) :
    (markObjects xs).Marked := by
  have hKind : (∀ c ∈ xs.filter (!·.isMissing), ∃ b, c = .bool b) ∨
      ∀ c ∈ xs.filter (!·.isMissing), ∃ s, c = .text s := by
    refine h.imp (fun h => ?_) fun h => ?_
    all_goals
      intro c hc
      obtain ⟨hMem, hPresent⟩ := List.mem_filter.1 hc
      rcases h c hMem with rfl | hc
      · exact absurd hPresent Bool.false_ne_true
      · exact hc
  unfold markObjects
  dsimp only
  split_ifs with hNone hTexts hTruths
  · have hGaps : ∀ c ∈ xs, c = gap := by
      intro c hc
      have hMissing : c.isMissing = true := by
        simpa using List.filter_eq_nil_iff.1 (List.isEmpty_iff.1 hNone) c hc
      rcases h with h | h
      all_goals
        rcases h c hc with rfl | ⟨_, rfl⟩
        · rfl
        · cases hMissing
    rw [List.eq_replicate_of_mem hGaps]
    exact .gaps _
  · refine .texts fun hEmpty => hNone ?_
    have hLength : xs.length = 0 :=
      (length_toTexts (d := .objects xs)).symm.trans (congrArg List.length hEmpty)
    rw [List.length_eq_zero_iff.1 hLength]
    rfl
  · exact marked_nullableBools _
  all_goals
    rcases hKind with hKind | hKind
    · refine absurd (List.all_eq_true.2 fun c hc => ?_) hTruths
      obtain ⟨b, rfl⟩ := hKind c hc
      rfl
    · refine absurd (List.all_eq_true.2 fun c hc => ?_) hTexts
      obtain ⟨s, rfl⟩ := hKind c hc
      rfl

theorem marked_withMarks {d : Data} (h : ReadColumn d) (ps : List Nat) :
    (d.pick ps).withMarks.Marked := by
  have hPicked {xs : List Cell} {P : Cell → Prop} (h : ∀ c ∈ xs, P c) :
      ∀ c ∈ ps.filterMap (xs[·]?), P c := by
    intro c hc
    obtain ⟨i, _, hi⟩ := mem_filterMap.1 hc
    exact h c (mem_of_getElem? hi)
  cases h with
  | ints _ => exact marked_nullableInts _ _
  | words _ _ _ => exact marked_nullableInts _ _
  | floats xs => exact marked_markFloats _
  | bools bs => exact marked_nullableBools _
  | truths _ _ h => exact marked_markObjects (.inl (hPicked h))
  | texts _ h => exact marked_markObjects (.inr (hPicked h))

theorem anew_gaps (n : Nat) : ∃ xs, (objects (replicate n gap)).anew = .floats xs := by
  cases n with
  | zero => exact ⟨[], rfl⟩
  | succ n =>
    have hGaps : replicate (n + 1) gap = (replicate (n + 1) Binary64.nan).map .float := by
      rw [map_replicate]
      rfl
    have hCells : (objects (replicate (n + 1) gap)).cells ≠ [] := cons_ne_nil gap _
    refine ⟨replicate (n + 1) Binary64.nan, (inferEntries_of_ne_nil hCells).trans ?_⟩
    exact (congrArg infer hGaps).trans (infer_floats (cons_ne_nil Binary64.nan _))

/-- A column of a file without rows cannot be told from one that is all gaps. -/
theorem marked_typed_nil (ps : List Nat) :
    (typed []).Marked ∧ ((typed []).pick ps).withMarks.Marked := by
  have hPick : (typed []).pick ps = .objects [] := by
    simp [typed, pick, arrange]
  rw [hPick]
  exact ⟨.gaps 0, .gaps 0⟩

end Data

namespace Table

structure AsRead (t : Table) : Prop where
  rectangular : t.Rectangular
  typed : ∀ c ∈ t.columns, ∃ fields, c.2 = Csv.typed fields

theorem asRead_fields {labels : List Cell} {rows : List (List String)}
    (hLabels : labels.length = rows.length) (names : List (String × Nat)) (offset : Nat) :
    AsRead ⟨labels, names.map fun (n, i) => (n, typed (columnFields rows (i + offset)))⟩ := by
  constructor
  · intro c hc
    obtain ⟨p, _, rfl⟩ := mem_map.1 hc
    rw [length_typed, columnFields, length_map, height, hLabels]
  · intro c hc
    obtain ⟨p, _, rfl⟩ := mem_map.1 hc
    exact ⟨_, rfl⟩

theorem asRead_of_read {s : String} {t : Table} (h : read s = .ok t) : t.AsRead := by
  obtain ⟨records, _, h⟩ := bind_eq_ok h
  split at h
  · cases h
  · obtain ⟨rows, _, h⟩ := bind_eq_ok h
    dsimp only at h
    split_ifs at h
    · cases h
      refine asRead_fields ?_ _ _
      rw [Data.length_cells, length_typed, columnFields, length_map]
    · cases h
      exact asRead_fields (Column.length_freshLabels _) _ _

namespace AsRead

variable {t : Table} (ht : t.AsRead)
variable {u : Table}
include ht

/-- A table with rows is made anew as it is. -/
theorem anew_eq (hHeight : 0 < t.height) : ∀ c ∈ t.columns, c.2.anew = c.2 := by
  intro c hc
  have hLength : c.2.length ≠ 0 := by
    rw [ht.rectangular c hc]
    omega
  obtain ⟨fields, hTyped⟩ := ht.typed c hc
  rw [hTyped] at hLength ⊢
  refine (readFrom_typed fun hNil => hLength ?_).column.anew_eq hLength
  rw [hNil]
  rfl

theorem marked_of_height (hHeight : t.height = 0) : ∀ c ∈ t.columns, c.2.Marked := by
  intro c hc
  obtain ⟨fields, hTyped⟩ := ht.typed c hc
  have hLength := ht.rectangular c hc
  rw [hTyped, length_typed, hHeight, length_eq_zero_iff] at hLength
  rw [hTyped, hLength]
  exact (Data.marked_typed_nil []).1

theorem of_dropColumns {names : List Cell} (h : t.dropColumns names = .ok u) : u.AsRead := by
  unfold dropColumns at h
  split at h
  · cases h
    exact ⟨fun c hc => ht.rectangular c (mem_of_mem_filter hc),
      fun c hc => ht.typed c (mem_of_mem_filter hc)⟩
  · cases h

theorem marked_pickRows (ps : List Nat) : ∀ c ∈ (t.pickRows ps).columns, c.2.withMarks.Marked := by
  intro c hc
  obtain ⟨d, hd, rfl⟩ := mem_map.1 hc
  obtain ⟨fields, hTyped⟩ := ht.typed d hd
  dsimp only
  rw [hTyped]
  by_cases hFields : fields = []
  · rw [hFields]
    exact (Data.marked_typed_nil ps).2
  · exact Data.marked_withMarks (readFrom_typed hFields).column ps

/-- Cleaning stores every column with marks. -/
theorem marked_of_clean {plan : CleaningPlan} (h : t.clean plan = .ok u) :
    u.Rectangular ∧ ∀ c ∈ u.columns, c.2.Marked := by
  obtain ⟨kept, hKept, h⟩ := bind_eq_ok h
  replace ht := ht.of_dropColumns hKept
  obtain ⟨rows, hRows, h⟩ := bind_eq_ok h
  cases h
  unfold dropRows at hRows
  split at hRows
  · cases hRows
    refine ⟨fun c hc => ?_, fun c hc => ?_⟩
    · obtain ⟨d, hd, rfl⟩ := mem_map.1 hc
      rw [Data.length_withMarks, height, relabelled, Column.length_freshLabels]
      exact ht.rectangular.pickRows _ d hd
    · obtain ⟨d, hd, rfl⟩ := mem_map.1 hc
      exact ht.marked_pickRows _ d hd
  · cases hRows

end AsRead

end Table

namespace Entry

variable {e : Entry} {drive : Drive} {t : Table}

theorem exists_read_of_fetchRaw (h : e.fetchRaw drive = .ok (some t)) : ∃ s, read s = .ok t := by
  unfold fetchRaw at h
  split at h
  · cases h
  · obtain ⟨s, _, h⟩ := bind_eq_ok h
    obtain ⟨u, hRead, h⟩ := bind_eq_ok h
    cases h
    exact ⟨_, hRead⟩
  · cases h

theorem asRead_of_fetchRaw (h : e.fetchRaw drive = .ok (some t)) : t.AsRead :=
  (exists_read_of_fetchRaw h).elim fun _ => Table.asRead_of_read

theorem asRead_of_fetch (h : e.fetch drive = .ok (some t)) (hPlan : e.plan.isTrue = false) :
    t.AsRead := by
  obtain ⟨raw, hRaw, h⟩ := bind_eq_ok h
  rw [hPlan] at h
  cases h
  exact asRead_of_fetchRaw hRaw

theorem marked_of_fetch_cleaned (h : e.fetch drive = .ok (some t)) (hPlan : e.plan.isTrue = true) :
    t.Rectangular ∧ ∀ c ∈ t.columns, c.2.Marked := by
  obtain ⟨raw, hRaw, h⟩ := bind_eq_ok h
  rw [if_pos hPlan] at h
  split at h
  · split at h
    · obtain ⟨plan, _, h⟩ := bind_eq_ok h
      obtain ⟨u, hClean, h⟩ := bind_eq_ok h
      cases h
      exact (asRead_of_fetchRaw hRaw).marked_of_clean hClean
    · obtain ⟨plan, _, h⟩ := bind_eq_ok h
      cases h
  · cases h

/-- Fetched rows are a table. -/
theorem rectangular_of_fetch (h : e.fetch drive = .ok (some t)) : t.Rectangular := by
  cases hPlan : e.plan.isTrue with
  | false => exact (asRead_of_fetch h hPlan).rectangular
  | true => exact (marked_of_fetch_cleaned h hPlan).1

/-- A column that was cleaned, or is without rows, is not made anew as it is. -/
theorem marked_of_fetch (h : e.fetch drive = .ok (some t))
    (hPlan : ¬ (e.plan.isTrue = false ∧ 0 < t.height)) : ∀ c ∈ t.columns, c.2.Marked := by
  cases hClean : e.plan.isTrue with
  | false => exact (asRead_of_fetch h hClean).marked_of_height (by simpa [hClean] using hPlan)
  | true => exact (marked_of_fetch_cleaned h hClean).2

end Entry

end TableQuery
