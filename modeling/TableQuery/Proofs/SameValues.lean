import TableQuery.Proofs.References
import TableQuery.Proofs.Sorting
import TableQuery.Proofs.Storage

/-! Values that are the same to a reader. Numbers of different forms may be the same number, and
DISTINCT does not tell them apart. A column made anew shows each entry as it is, or as the nearest
double. -/
namespace TableQuery

open List Cell

variable {α β : Type} {R : Cell → Cell → Prop} {d e : Data}

theorem Place.beq_iff {x y : Float} : (x == y) = true ↔ ofFloat x = ofFloat y ∧ ofFloat x ≠ ⊤ := by
  rw [Num.beq_floats_iff]
  by_cases hx : ofFloat x = ⊤
  · rw [ofFloat_eq_top_iff] at hx
    simp [hx, Float.Model.UnpackedFloat.compare, ofFloat_eq_top_iff]
  · by_cases hy : ofFloat y = ⊤
    · have hNone := compare_notANumber x.toModel.unpack
      rw [← ofFloat_eq_top_iff.1 hy] at hNone
      simp [hNone, hy, hx]
    · have hCompare := compare_ofUnpacked (Binary64.unpack_canonical x)
        (Binary64.unpack_canonical y) (fun h => hx (ofFloat_eq_top_iff.2 h))
        (fun h => hy (ofFloat_eq_top_iff.2 h))
      rw [hCompare, Option.some.injEq, compare_eq_iff_eq]
      exact ⟨fun h => ⟨h, hx⟩, And.left⟩

namespace Cell

variable {a b : Cell}

/-- The same number, in any of its forms, or the same value. -/
inductive SameValue : Cell → Cell → Prop where
  | refl (a : Cell) : SameValue a a
  | nums {a b : Cell} {m n : Num} : a.num? = some m → b.num? = some n → m.place = n.place →
      SameValue a b

theorem isMissing_of_num {m : Num} (h : a.num? = some m) : a.isMissing = m.isNaN := by
  cases a with
  | packed n =>
    cases h
    cases m <;> rfl
  | bool b => cases h; rfl
  | int n => cases h; rfl
  | float x => cases h; rfl
  | _ => cases h

theorem same_of_nums {m n : Num} (ha : a.num? = some m) (hb : b.num? = some n) :
    a.same b = m.compares .eq n := by
  cases a <;> cases ha <;> cases b <;> cases hb <;> simp [same, num?]

/-- A number is no value of another kind. -/
theorem same_of_num_ne (h : a.num?.isSome ≠ b.num?.isSome) : a.same b = false := by
  cases a <;> cases b <;> simp_all [same, num?]

end Cell

theorem Num.compares_eq_iff (m n : Num) :
    m.compares .eq n = true ↔ m.place = n.place ∧ m.place ≠ ⊤ := by
  unfold compares
  rw [order?_eq]
  split
  · rename_i hOrder
    split at hOrder
    · cases hOrder
    · rename_i hTop
      cases hOrder
      rw [not_or] at hTop
      simp [Comparison.accepts, hTop.1]
  · rename_i hOrder
    split at hOrder
    · rename_i hTop
      refine iff_of_false nofun ?_
      rintro ⟨hSame, hNumber⟩
      exact hTop.elim hNumber fun h => hNumber (hSame.trans h)
    · cases hOrder

namespace Data

variable {a b : Cell}

/-- Numbers of all forms are the same object exactly if they are the same number. -/
theorem sameObject_nums {m n : Num} (ha : a.num? = some m) (hb : b.num? = some n) :
    sameObject a b = true ↔ m.place = n.place := by
  have hSame : a.same b = true ↔ m.place = n.place ∧ m.place ≠ ⊤ := by
    rw [same_of_nums ha hb, Num.compares_eq_iff]
  have hRat (q : ℚ) : Place.ofRat q ≠ ⊤ := WithTop.coe_ne_top
  unfold sameObject
  rw [ha, hb]
  cases m with
  | float x =>
    cases n with
    | float y =>
      simp only [Bool.or_eq_true, Bool.and_eq_true, Place.beq_iff, Place.isNaN_iff, Num.place]
      constructor
      · rintro (⟨h, -⟩ | ⟨hx, hy⟩)
        · exact h
        · rw [hx, hy]
      · intro h
        by_cases hTop : Place.ofFloat x = ⊤
        · exact Or.inr ⟨hTop, h ▸ hTop⟩
        · exact Or.inl ⟨h, hTop⟩
    | bool b => exact hSame.trans (and_iff_left_of_imp fun h => h ▸ hRat _)
    | int k => exact hSame.trans (and_iff_left_of_imp fun h => h ▸ hRat _)
  | bool b => exact hSame.trans (and_iff_left (hRat _))
  | int k => exact hSame.trans (and_iff_left (hRat _))

theorem sameObject_of_num_ne (h : a.num?.isSome ≠ b.num?.isSome) : sameObject a b = false := by
  unfold sameObject
  split
  · rename_i ha hb
    simp [ha, hb] at h
  · exact same_of_num_ne h

end Data

namespace Cell.SameValue

variable {a a' b b' : Cell}

theorem isSome_num? (h : SameValue a a') : a.num?.isSome = a'.num?.isSome := by
  cases h with
  | refl => rfl
  | nums ha ha' _ => rw [ha, ha']; rfl

theorem eq_of_num? (h : SameValue a a') (ha : a.num? = none) : a = a' := by
  cases h with
  | refl => rfl
  | nums hNum _ _ => rw [ha] at hNum; cases hNum

theorem exists_place (h : SameValue a a') {m : Num} (ha : a.num? = some m) :
    ∃ m', a'.num? = some m' ∧ m.place = m'.place := by
  cases h with
  | refl => exact ⟨m, ha, rfl⟩
  | nums hNum hNum' hPlace =>
    cases ha.symm.trans hNum
    exact ⟨_, hNum', hPlace⟩

/-- What is said of two values by their numbers, and of other values at will, is said of the same
values alike. -/
theorem congr_of_nums (f : Cell → Cell → Bool) (P : Place → Place → Prop)
    (hNums : ∀ {a b m n}, a.num? = some m → b.num? = some n → (f a b = true ↔ P m.place n.place))
    (hMixed : ∀ {a b a' b' : Cell}, a.num?.isSome ≠ b.num?.isSome → a.num?.isSome = a'.num?.isSome →
      b.num?.isSome = b'.num?.isSome → f a b = f a' b') (ha : SameValue a a')
    (hb : SameValue b b') : f a b = f a' b' := by
  by_cases hKind : a.num?.isSome = b.num?.isSome
  · cases hNum : a.num? with
    | none =>
      have hNone : b.num? = none := by
        simpa [hNum] using hKind.symm
      rw [ha.eq_of_num? hNum, hb.eq_of_num? hNone]
    | some m =>
      rw [hNum] at hKind
      obtain ⟨n, hn⟩ := Option.isSome_iff_exists.1 hKind.symm
      obtain ⟨m', hm', hPlace⟩ := ha.exists_place hNum
      obtain ⟨n', hn', hPlace'⟩ := hb.exists_place hn
      rw [Bool.eq_iff_iff, hNums hNum hn, hNums hm' hn', hPlace, hPlace']
  · exact hMixed hKind ha.isSome_num? hb.isSome_num?

theorem sameObject_eq (ha : SameValue a a') (hb : SameValue b b') :
    Data.sameObject a b = Data.sameObject a' b' := by
  refine congr_of_nums Data.sameObject Eq Data.sameObject_nums (fun hKind ha hb => ?_) ha hb
  rw [Data.sameObject_of_num_ne hKind, Data.sameObject_of_num_ne (by rwa [← ha, ← hb])]

theorem isMissing_eq (h : SameValue a a') : a.isMissing = a'.isMissing := by
  cases h with
  | refl => rfl
  | nums ha ha' hPlace =>
    rw [isMissing_of_num ha, isMissing_of_num ha', Bool.eq_iff_iff, Num.isNaN_iff, Num.isNaN_iff,
      hPlace]

theorem isDistinguishable_eq (h : SameValue a a') : a.isDistinguishable = a'.isDistinguishable := by
  have hNum {c : Cell} {m : Num} (hc : c.num? = some m) : c.isDistinguishable = true := by
    cases c <;> simp_all [num?, isDistinguishable]
  cases h with
  | refl => rfl
  | nums ha ha' _ => rw [hNum ha, hNum ha']

theorem sameEntry_eq (ha : SameValue a a') (hb : SameValue b b') :
    a.sameEntry b = a'.sameEntry b' := by
  unfold sameEntry
  rw [ha.isMissing_eq, hb.isMissing_eq, sameObject_eq ha hb]

end Cell.SameValue

namespace Cell

variable {as as' bs bs' : List Cell}

theorem all_sameEntry_eq (ha : Forall₂ SameValue as as') (hb : Forall₂ SameValue bs bs') :
    ((as.zip bs).all fun p => p.1.sameEntry p.2) =
      (as'.zip bs').all fun p => p.1.sameEntry p.2 := by
  induction ha generalizing bs bs' with
  | nil => rfl
  | cons hFirst _ ih =>
    cases hb with
    | nil => rfl
    | cons hOther hRest => simp only [zip_cons_cons, all_cons, hFirst.sameEntry_eq hOther, ih hRest]

/-- Rows of the same values are told from each other in the same way. -/
theorem sameRow_eq (ha : Forall₂ SameValue as as')
    (hb : Forall₂ SameValue bs bs') : sameRow as bs = sameRow as' bs' := by
  unfold sameRow
  split
  · cases ha
    cases hb
    rfl
  · obtain ⟨a', _, hFirst, hNil, rfl⟩ := forall₂_cons_left_iff.1 ha
    obtain ⟨b', _, hOther, hNil', rfl⟩ := forall₂_cons_left_iff.1 hb
    cases hNil
    cases hNil'
    exact hFirst.sameObject_eq hOther
  · rename_i hNone hOne
    split
    · cases ha
      cases hb
      exact absurd rfl (hNone rfl)
    · obtain ⟨a, _, _, hNil, rfl⟩ := forall₂_cons_right_iff.1 ha
      obtain ⟨b, _, _, hNil', rfl⟩ := forall₂_cons_right_iff.1 hb
      cases hNil
      cases hNil'
      exact absurd rfl (hOne a b rfl)
    · rw [ha.length_eq, hb.length_eq]
      exact congrArg _ (all_sameEntry_eq ha hb)

end Cell

/-- DISTINCT keeps the rows at the same positions of rows of the same values. -/
theorem firstPositions_eq {rows rows' seen seen' : List (List Cell)}
    (h : Forall₂ (Forall₂ SameValue) rows rows') (hSeen : Forall₂ (Forall₂ SameValue) seen seen')
    (i : Nat) : firstPositions sameRow seen i rows = firstPositions sameRow seen' i rows' := by
  induction h generalizing seen seen' i with
  | nil => rfl
  | @cons row row' _ _ hRow _ ih =>
    have hAny : seen.any (sameRow row) = seen'.any (sameRow row') := by
      induction hSeen with
      | nil => rfl
      | cons hFirst _ ihSeen => rw [any_cons, any_cons, sameRow_eq hRow hFirst, ihSeen]
    unfold firstPositions
    rw [hAny]
    split
    · exact ih hSeen _
    · rw [ih (.cons hRow hSeen)]

namespace Census

variable {s : Census} {c : Cell} {cells : List Cell} {k : IntKind}

def hasKind (s : Census) (c : Cell) : Bool :=
  match c.num? with
  | some (.int _) => s.int
  | some (.bool _) => s.bool
  | some (.float _) => s.float || s.noNumber
  | none => s.absent || s.other

theorem hasKind_note_self (s : Census) (c : Cell) : (s.note c).hasKind c = true := by
  have hFloat (x : Float) : (s.note (.float x)).hasKind (.float x) = true := by
    change ((if x.isNaN then { s with noNumber := true }
        else { s with float := true } : Census).float ||
      (if x.isNaN then { s with noNumber := true }
        else { s with float := true } : Census).noNumber) = true
    split <;> simp
  cases c with
  | float x => exact hFloat x
  | packed m =>
    cases m with
    | float x => exact hFloat x
    | _ => rfl
  | _ => simp [note, hasKind, num?]

/-- A census forgets nothing. -/
theorem note_stays (s : Census) (c : Cell) :
    (s.int = true → (s.note c).int = true) ∧ (s.bool = true → (s.note c).bool = true) ∧
    (s.float = true → (s.note c).float = true) ∧ (s.noNumber = true → (s.note c).noNumber = true) ∧
    (s.absent = true → (s.note c).absent = true) ∧ (s.other = true → (s.note c).other = true) := by
  unfold note
  split
  · simp
  · split
    · simp
    · simp
    · split <;> simp
    · simp

theorem hasKind_note (h : s.hasKind c = true) (d : Cell) : (s.note d).hasKind c = true := by
  obtain ⟨hInt, hBool, hFloat, hNoNumber, hAbsent, hOther⟩ := s.note_stays d
  unfold hasKind at h ⊢
  split at h
  · exact hInt h
  · exact hBool h
  · rw [Bool.or_eq_true] at h ⊢
    exact h.imp hFloat hNoNumber
  · rw [Bool.or_eq_true] at h ⊢
    exact h.imp hAbsent hOther

theorem hasKind_of_mem (hc : c ∈ cells) : (of cells).hasKind c = true :=
  of_mem (·.hasKind c) (fun _ d h => hasKind_note h d) (fun s => hasKind_note_self s c) hc

theorem flags_of_dtype_ints (h : s.dtype = .ints k) :
    s.bool = false ∧ s.float = false ∧ s.noNumber = false ∧ s.absent = false ∧ s.other = false := by
  unfold dtype gaps at h
  split at h
  · cases h
  · split at h
    · split at h <;> cases h
    · split at h
      · split at h
        · cases h
        · split at h
          · cases h
          · simp_all
      · split at h <;> cases h

theorem flags_of_dtype_bools (h : s.dtype = .bools) :
    s.int = false ∧ s.float = false ∧ s.noNumber = false ∧ s.absent = false ∧ s.other = false := by
  unfold dtype gaps at h
  split at h
  · cases h
  · split at h
    · split at h
      · cases h
      · simp_all
    · split at h
      · split at h
        · cases h
        · split at h <;> cases h
      · split at h <;> cases h

/-- Values that are stored as whole numbers are whole numbers. -/
theorem num_of_dtype_ints (h : (of cells).dtype = .ints k) (hc : c ∈ cells) :
    ∃ n, c.num? = some (.int n) := by
  obtain ⟨hBool, hFloat, hNoNumber, hAbsent, hOther⟩ := flags_of_dtype_ints h
  have hKind := hasKind_of_mem hc
  unfold hasKind at hKind
  split at hKind
  all_goals simp_all

theorem num_of_dtype_bools (h : (of cells).dtype = .bools) (hc : c ∈ cells) :
    ∃ b, c.num? = some (.bool b) := by
  obtain ⟨hInt, hFloat, hNoNumber, hAbsent, hOther⟩ := flags_of_dtype_bools h
  have hKind := hasKind_of_mem hc
  unfold hasKind at hKind
  split at hKind
  all_goals simp_all

/-- Values that are stored as doubles are numbers or absent. -/
theorem num_or_null_of_dtype_floats (h : (of cells).dtype = .floats)
    (hc : c ∈ cells) : c.num?.isSome = true ∨ c = .null := by
  by_contra hOther
  rw [not_or, Bool.not_eq_true, Option.isSome_eq_false_iff, Option.isNone_iff_eq_none] at hOther
  have hSets (s : Census) : (note s c).other = true := by
    unfold note
    split
    · exact absurd rfl hOther.2
    · rw [hOther.1]
  rw [dtype, if_pos (other_of_mem hc hSets)] at h
  cases h

end Census

/-- The value as it stands, or the double nearest to a number, which for an absent value is no
number. -/
def Cell.ShownAs (a b : Cell) : Prop :=
  a.SameValue b ∨ (a.num?.isSome = true ∨ a = .null) ∧ b = .float a.asFloat

namespace Data

/-- Data that shows its entries when it is made anew: those stored as doubles are numbers that are
doubles. -/
def StaysExact (d : Data) : Prop :=
  (Census.of d.cells).dtype = .floats →
    ∀ c ∈ d.cells, ∃ n, c.num? = some n ∧ (Num.float n.toFloat).place = n.place

def MarksGaps : Data → Prop
  | .nullableFloats xs => ∀ x, some x ∈ xs → x.isNaN = false
  | _ => True

section Anew

variable (hSame : ∀ {a b}, a.SameValue b → R a b)
include hSame

theorem forall₂_infer {cells : List Cell}
    (hFloat : (Census.of cells).dtype = .floats → ∀ c ∈ cells, R c (.float c.asFloat)) :
    Forall₂ R cells (infer cells).cells := by
  unfold infer
  split
  · rename_i k hType
    rw [Data.cells, map_map, forall₂_map_right_iff, forall₂_same]
    intro c hc
    obtain ⟨n, hn⟩ := Census.num_of_dtype_ints hType hc
    refine hSame (.nums hn rfl ?_)
    simp [asInt, hn, Num.asInt?]
  · rename_i hType
    rw [Data.cells, map_map, forall₂_map_right_iff, forall₂_same]
    exact hFloat hType
  · rename_i hType
    rw [Data.cells, map_map, forall₂_map_right_iff, forall₂_same]
    intro c hc
    obtain ⟨b, hb⟩ := Census.num_of_dtype_bools hType hc
    refine hSame (.nums hb rfl ?_)
    simp [asBool, hb, Num.isTrue]
  · exact forall₂_same.2 fun c _ => hSame (.refl c)

theorem forall₂_anew
    (hFloat : (Census.of d.cells).dtype = .floats → ∀ c ∈ d.cells, R c (.float c.asFloat)) :
    Forall₂ R d.cells d.anew.cells := by
  have hEntries : Forall₂ R d.cells (inferEntries d.cells).cells := by
    unfold inferEntries
    split
    · rename_i hEmpty
      rw [isEmpty_iff.1 hEmpty]
      exact .nil
    · exact forall₂_infer hSame hFloat
  unfold anew
  split
  · split
    · exact hEntries
    · rename_i hMarks
      rw [Data.cells, Data.cells, map_map, forall₂_map_left_iff, forall₂_map_right_iff,
        forall₂_same]
      intro n hn
      cases n with
      | none => exact absurd (any_eq_true.2 ⟨none, hn, rfl⟩) hMarks
      | some n => exact hSame (.nums rfl rfl rfl)
  · exact hEntries

end Anew

theorem forall₂_shownAs_anew (d : Data) : Forall₂ ShownAs d.cells d.anew.cells :=
  forall₂_anew Or.inl fun hType _ hc => Or.inr ⟨Census.num_or_null_of_dtype_floats hType hc, rfl⟩

theorem StaysExact.forall₂_anew (h : d.StaysExact) : Forall₂ SameValue d.cells d.anew.cells := by
  refine Data.forall₂_anew id fun hType c hc => ?_
  obtain ⟨n, hn, hPlace⟩ := h hType c hc
  refine .nums hn rfl ?_
  rw [asFloat, hn]
  exact hPlace.symm

theorem MarksGaps.missing_eq (h : d.MarksGaps) : d.missing = d.cells.map isMissing := by
  cases d with
  | nullableFloats xs =>
    rw [cells, map_map]
    refine map_congr_left fun x hx => ?_
    cases x with
    | none => rfl
    | some x => exact (h x hx).symm
  | objects xs => rfl
  | ints k xs => simp [missing, cells, isMissing, Function.comp_def]
  | floats xs => simp [missing, cells, isMissing, Function.comp_def]
  | bools xs => simp [missing, cells, isMissing, Function.comp_def]
  | nullableInts k xs =>
    rw [cells, map_map]
    exact map_congr_left fun x _ => by cases x <;> rfl
  | nullableBools xs =>
    rw [cells, map_map]
    exact map_congr_left fun x _ => by cases x <;> rfl
  | texts xs =>
    rw [cells, map_map]
    exact map_congr_left fun x _ => by cases x <;> rfl

end Data

theorem all_eq_of_forall₂ {R : α → β → Prop} {xs : List α} {ys : List β} {p : α → Bool}
    {q : β → Bool} (h : Forall₂ R xs ys) (hp : ∀ x y, R x y → p x = q y) : xs.all p = ys.all q := by
  induction h with
  | nil => rfl
  | cons hFirst _ ih => rw [all_cons, all_cons, hp _ _ hFirst, ih]

/-- Lists whose items belong together have items that belong together at each position. -/
theorem rel_getElem? {R : α → β → Prop} {xs : List α} {ys : List β} (h : Forall₂ R xs ys)
    (i : Nat) : Option.Rel R xs[i]? ys[i]? := by
  induction h generalizing i with
  | nil => exact .none
  | cons hFirst _ ih =>
    cases i with
    | zero => exact .some hFirst
    | succ i => simpa using ih i

theorem forall₂_picked {R : α → β → Prop} {xs : List α} {ys : List β} (h : Forall₂ R xs ys)
    (ps : List Nat) : Forall₂ R (ps.filterMap (xs[·]?)) (ps.filterMap (ys[·]?)) := by
  refine rel_filterMap (R := Eq) ?_ (forall₂_same.2 fun _ _ => rfl)
  rintro p _ rfl
  exact rel_getElem? h p

namespace Table

/-- Tables with as many rows whose columns have the same names and the same values. -/
structure Alike (t u : Table) : Prop where
  height : t.height = u.height
  columns : List.Forall₂ (fun c e => c.1 = e.1 ∧ List.Forall₂ Cell.SameValue c.2.cells e.2.cells)
    t.columns u.columns

namespace Alike

variable {t t' u : Table} (h : t.Alike u)
include h

theorem names : t.names = u.names := by
  rw [Table.names, Table.names, ← forall₂_eq_eq_eq, forall₂_map_left_iff, forall₂_map_right_iff]
  exact h.columns.imp fun _ _ hc => hc.1

theorem pickRows (ps : List Nat) : (t.pickRows ps).Alike (u.pickRows ps) where
  height := by
    have hLabels : Forall₂ (fun _ _ => True) t.labels u.labels :=
      forall₂_iff_zip.2 ⟨h.height, fun _ => trivial⟩
    exact (forall₂_picked hLabels ps).length_eq
  columns := by
    rw [Table.pickRows, Table.pickRows, forall₂_map_left_iff, forall₂_map_right_iff]
    refine h.columns.imp fun c e hc => ⟨hc.1, ?_⟩
    rw [Data.cells_pick, Data.cells_pick]
    exact forall₂_picked hc.2 ps

theorem rows : Forall₂ (Forall₂ SameValue) t.rows u.rows := by
  rw [rows_eq, rows_eq, ← h.height, forall₂_map_left_iff, forall₂_map_right_iff, forall₂_same]
  intro i _
  refine rel_filterMap (R := Forall₂ SameValue) (fun _ _ hc => rel_getElem? hc i) ?_
  rw [forall₂_map_left_iff, forall₂_map_right_iff]
  exact h.columns.imp fun _ _ hc => hc.2

theorem isEmpty : t.isEmpty = u.isEmpty := by
  have hColumns : t.columns.isEmpty = u.columns.isEmpty := by
    rw [Bool.eq_iff_iff, isEmpty_iff_length_eq_zero, isEmpty_iff_length_eq_zero,
      h.columns.length_eq]
  have hLabels : t.labels.isEmpty = u.labels.isEmpty := by
    rw [Bool.eq_iff_iff, isEmpty_iff_length_eq_zero, isEmpty_iff_length_eq_zero]
    exact iff_of_eq (congrArg (· = 0) h.height)
  rw [Table.isEmpty, Table.isEmpty, hColumns, hLabels]

/-- DISTINCT leaves the same rows of rows of the same values. -/
theorem distinct (hDistinct : t.distinct = .ok t') : ∃ u', u.distinct = .ok u' ∧ t'.Alike u' := by
  have hAll : (t.rows.all fun row => row.all isDistinguishable) =
      u.rows.all fun row => row.all isDistinguishable :=
    all_eq_of_forall₂ h.rows fun _ _ hRow =>
      all_eq_of_forall₂ hRow fun _ _ hCell => hCell.isDistinguishable_eq
  unfold Table.distinct at hDistinct ⊢
  rw [h.isEmpty, hAll, firstPositions_eq h.rows .nil] at hDistinct
  split at hDistinct
  · rename_i hEmpty
    cases hDistinct
    exact ⟨u, if_pos hEmpty, h⟩
  · rename_i hEmpty
    split at hDistinct
    · rename_i hTold
      cases hDistinct
      exact ⟨_, (if_neg hEmpty).trans (if_pos hTold), h.pickRows _⟩
    · cases hDistinct

end Alike

end Table

end TableQuery
