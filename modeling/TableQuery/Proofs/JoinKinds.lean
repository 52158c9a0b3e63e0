import TableQuery.Proofs.JoinConditions
import TableQuery.Proofs.JoinRows

/-! The kinds of joins. All four are made of the pairs of rows with equal keys and differ in the
rows without a match that they keep, beside missing entries. -/
namespace TableQuery

open List JoinRow Data

section Positions

variable {α β : Type} {xs : List α} {ps : List (Option Nat)}

/-- Where every position is one of the list, reading at them and reading at those that are there is
the same. -/
theorem map_bind_getElem? (h : ∀ p ∈ ps, ∃ i < xs.length, p = some i) (g : Option α → β) :
    (ps.map fun p => g (p.bind (xs[·]?))) =
      ((ps.filterMap id).filterMap (xs[·]?)).map fun x => g (some x) := by
  induction ps with
  | nil => rfl
  | cons p rest ih =>
    obtain ⟨i, hi, rfl⟩ := h p mem_cons_self
    rw [map_cons, ih fun q hq => h q (mem_cons_of_mem _ hq)]
    simp [getElem?_eq_getElem hi]

theorem filterMap_bind_getElem? :
    (ps.filterMap fun p => p.bind (xs[·]?)) = (ps.filterMap id).filterMap (xs[·]?) := by
  rw [filterMap_filterMap]
  rfl

theorem getElem?_filterMap_of_isSome {ys : List α} {f : α → Option β}
    (h : ∀ y ∈ ys, (f y).isSome = true) (k : Nat) : (ys.filterMap f)[k]? = ys[k]?.bind f := by
  induction ys generalizing k with
  | nil => rfl
  | cons y rest ih =>
    obtain ⟨b, hb⟩ := Option.isSome_iff_exists.1 (h y mem_cons_self)
    rw [filterMap_cons, hb]
    cases k with
    | zero => simp [hb]
    | succ k => simpa using ih (fun y hy => h y (mem_cons_of_mem _ hy)) k

end Positions

/-- A number of a width is kept by that width. -/
theorem IntKind.wrap_of_fits {k : IntKind} {n : Int} (h : k.fits n = true) : k.wrap n = n := by
  simp only [fits, Bool.and_eq_true, decide_eq_true_eq] at h
  cases k with
  | int8 | int16 | int32 | int64 =>
    refine Int.bmod_eq_of_le h.1 ?_
    simp only [high, isSigned, bits, if_true, Nat.pow_eq, Nat.reduceSub] at h ⊢
    omega
  | uint8 | uint16 | uint32 | uint64 => exact Int.emod_eq_of_lt h.1 (Int.lt_of_le_sub_one h.2)

namespace Data

variable {ps : List (Option Nat)} {d : Data}
variable {k i : Nat}

/-- Data spread over some positions: the entry at each position, and a missing one where there is
none. -/
structure Spread (d : Data) (ps : List (Option Nat)) (e : Data) : Prop where
  length_eq : e.length = ps.length
  shown : ∀ k i : Nat, ps[k]? = some (some i) → ∃ a b : Cell, d.cells[i]? = some a ∧
    e.cells[k]? = some b ∧ a.ShownAs b
  gap : ∀ k : Nat, ps[k]? = some none → e.missing[k]? = some true
  whole : (∀ p ∈ ps, p ≠ none) → e = d.pick (ps.filterMap id)

/-- Whole data is rearranged by reindexing. -/
theorem reindex_eq_pick (h : ∀ p ∈ ps, ∃ i < d.length, p = some i) :
    d.reindex ps = d.pick (ps.filterMap id) := by
  have hWhole : (ps.all fun p => p.any (· < d.length)) = true := by
    rw [all_eq_true]
    intro p hp
    obtain ⟨i, hi, rfl⟩ := h p hp
    simpa using hi
  unfold reindex
  cases d with
  | ints k xs => simp only [hWhole, if_true, pick, arrange, filterMap_bind_getElem?]
  | bools xs => simp only [hWhole, if_true, pick, arrange, filterMap_bind_getElem?]
  | floats xs =>
    exact congrArg floats ((map_bind_getElem? h (·.getD Binary64.nan)).trans (map_id _))
  | objects xs =>
    exact congrArg objects ((map_bind_getElem? h (·.getD (.float Binary64.nan))).trans (map_id _))
  | nullableInts k xs => exact congrArg (nullableInts k) ((map_bind_getElem? h _).trans (map_id _))
  | nullableFloats xs => exact congrArg nullableFloats ((map_bind_getElem? h _).trans (map_id _))
  | nullableBools xs => exact congrArg nullableBools ((map_bind_getElem? h _).trans (map_id _))
  | texts xs => exact congrArg texts ((map_bind_getElem? h _).trans (map_id _))

theorem cells_reindex_whole (h : ∀ p ∈ ps, ∃ i < d.length, p = some i) (k : Nat) :
    (d.reindex ps).cells[k]? = ps[k]?.bind fun p => p.bind (d.cells[·]?) := by
  rw [reindex_eq_pick h, cells_pick, ← filterMap_bind_getElem?, getElem?_filterMap_of_isSome]
  intro p hp
  obtain ⟨i, hi, rfl⟩ := h p hp
  simpa using hi

/-- Reindexing keeps the entry at each position, except that among whole numbers with gaps it is the
nearest double. -/
theorem cells_reindex (hk : ps[k]? = some (some i)) (hi : i < d.length) :
    (d.reindex ps).cells[k]? = d.cells[i]? ∨
    (∃ kind xs, d = .ints kind xs) ∧
    (d.reindex ps).cells[k]? = d.cells[i]?.map fun a => .float a.asFloat := by
  by_cases hWhole : ∀ p ∈ ps, ∃ i < d.length, p = some i
  · refine Or.inl ?_
    rw [cells_reindex_whole hWhole, hk]
    rfl
  · have hGap : (ps.all fun p => p.any (· < d.length)) = false := by
      rw [Bool.eq_false_iff]
      exact fun h =>
        hWhole fun p hp => by simpa [Option.any_eq_true, and_comm] using all_eq_true.1 h p hp
    unfold reindex
    simp only [hGap]
    cases d with
    | ints kind xs =>
      have hx : xs[i]? = some _ := getElem?_eq_getElem hi
      simp [cells, hk, hx, Cell.asFloat, Cell.num?, Num.toFloat]
    | bools xs | floats xs | objects xs | nullableInts _ xs | nullableFloats xs | nullableBools xs
    | texts xs =>
      have hx : xs[i]? = some _ := getElem?_eq_getElem hi
      refine Or.inl ?_
      simp [cells, hk, hx]

theorem shown_reindex (hk : ps[k]? = some (some i)) (hi : i < d.length) :
    ∃ a b : Cell, d.cells[i]? = some a ∧ (d.reindex ps).cells[k]? = some b ∧ a.ShownAs b := by
  have ha : d.cells[i]? = some _ := getElem?_eq_getElem (by rwa [length_cells])
  rcases cells_reindex hk hi with h | ⟨⟨kind, xs, rfl⟩, h⟩
  · exact ⟨_, _, ha, h.trans ha, Or.inl (.refl _)⟩
  · refine ⟨_, _, ha, by rw [h, ha]; rfl, Or.inr ⟨Or.inl ?_, rfl⟩⟩
    simp [cells, Cell.num?]

theorem missing_reindex (hk : ps[k]? = some none) : (d.reindex ps).missing[k]? = some true := by
  have hGap : (ps.all fun p => p.any (· < d.length)) = false := by
    rw [all_eq_false]
    exact ⟨none, mem_of_getElem? hk, by simp⟩
  unfold reindex
  simp only [hGap]
  cases d <;> simp [missing, hk, Cell.isMissing] <;> rfl

theorem spread_reindex (h : ∀ i, some i ∈ ps → i < d.length) : d.Spread ps (d.reindex ps) where
  length_eq := length_reindex d ps
  shown k i hk := shown_reindex hk (h i (mem_of_getElem? hk))
  gap k hk := missing_reindex hk
  whole hSome := by
    refine reindex_eq_pick fun p hp => ?_
    cases p with
    | none => exact absurd rfl (hSome none hp)
    | some i => exact ⟨i, h i hp, rfl⟩

/-- Keys that can be compared: scalars, and whole numbers of the width that the column has. -/
structure Comparable (d : Data) : Prop where
  scalars : ∀ c ∈ d.freeCells, c.isDistinguishable = true
  ints : ∀ k xs, d = .ints k xs → ∀ n ∈ xs, k.fits n = true
  nullableInts : ∀ k xs, d = .nullableInts k xs → ∀ n, some n ∈ xs → k.fits n = true

theorem toTexts_texts (xs : List (Option String)) : (texts xs).toTexts = xs := by
  induction xs with
  | nil => rfl
  | cons x rest ih =>
    cases x with
    | none => exact congrArg (none :: ·) ih
    | some s => exact congrArg (some s :: ·) ih

/-- Data converted to the type that it has. -/
theorem cast_self (h : d.Comparable) : d.cast (.storage d.dtype) = .ok d := by
  cases d with
  | ints k xs =>
    have hWrap : xs.map k.wrap = xs :=
      (map_congr_left fun n hn => IntKind.wrap_of_fits (h.ints k xs rfl n hn)).trans (map_id _)
    exact congrArg (fun ys => Except.ok (ints k ys)) hWrap
  | nullableInts k xs =>
    have hWrap : xs.map (·.map k.wrap) = xs := by
      refine (map_congr_left fun x hx => ?_).trans (map_id _)
      cases x with
      | none => rfl
      | some n => exact congrArg some (IntKind.wrap_of_fits (h.nullableInts k xs rfl n hx))
    exact congrArg (fun ys => Except.ok (nullableInts k ys)) hWrap
  | texts xs => exact congrArg (fun ys => Except.ok (texts ys)) (toTexts_texts xs)
  | _ => rfl

theorem cells_append {l r : Data} (h : l.dtype = r.dtype) :
    (l.append r).cells = l.cells ++ r.cells := by
  cases l <;> cases r <;> cases h <;> simp [append, cells]

end Data

namespace JoinRow

variable {rows : List JoinRow}

/-- The key of a row: that of its left half, and of its right half if there is no left one. -/
def keyCell (ls rs : List Cell) (row : JoinRow) : Option Cell :=
  match row.left with
  | some i => ls[i]?
  | none => row.right.bind (rs[·]?)

/-- Where the key of a row stands in the keys of both tables, given the height of the left one. -/
def keyPosition (height : Nat) (row : JoinRow) : Option Nat :=
  match row.left with
  | some i => some i
  | none => row.right.map (· + height)

section Halves

variable {row : JoinRow} {m n : Nat} (h : row.Within m n)
include h

theorem Within.keyPosition_lt : ∃ i < m + n, row.keyPosition m = some i := by
  unfold keyPosition
  cases hLeft : row.left with
  | some i => exact ⟨i, Nat.lt_add_right n (h.left_lt i hLeft), rfl⟩
  | none =>
    obtain ⟨j, hj⟩ := Option.ne_none_iff_exists'.1 (h.present hLeft)
    have hIn := h.right_lt j hj
    exact ⟨j + m, by omega, by rw [hj]; rfl⟩

theorem Within.keyCell_eq {ls rs : List Cell} (hm : ls.length = m) :
    (row.keyPosition m).bind ((ls ++ rs)[·]?) = row.keyCell ls rs := by
  subst hm
  unfold keyPosition keyCell
  cases hLeft : row.left with
  | some i => exact getElem?_append_left (h.left_lt i hLeft)
  | none =>
    cases row.right with
    | none => rfl
    | some j =>
      change (ls ++ rs)[j + ls.length]? = rs[j]?
      rw [getElem?_append_right (Nat.le_add_left _ _), Nat.add_sub_cancel]

end Halves

theorem cells_reindex_rows {d : Data} {half : JoinRow → Option Nat}
    (h : ∀ row ∈ rows, ∃ i < d.length, half row = some i) (k : Nat) :
    (d.reindex (rows.map half)).cells[k]? =
      rows[k]?.bind fun row => (half row).bind (d.cells[·]?) := by
  rw [cells_reindex_whole (forall_mem_map.2 h), getElem?_map, Option.bind_map]
  rfl

/-- A key that both tables have shows for each row the key of the row. -/
theorem cells_sharedKey {l r key : Data} (hType : l.dtype = r.dtype) (hl : l.Comparable)
    (hr : r.Comparable) (hRows : ∀ row ∈ rows, row.Within l.length r.length)
    (h : sharedKey l r rows = .ok key) (k : Nat) :
    key.cells[k]? = rows[k]?.bind (keyCell l.cells r.cells) := by
  have hMem {row : JoinRow} (hRow : row ∈ rows[k]?) : row ∈ rows := mem_of_getElem? hRow
  unfold sharedKey at h
  split at h
  · rename_i hAll
    have hLeft : ∀ row ∈ rows, ∃ i < l.length, row.left = some i := by
      intro row hRow
      obtain ⟨i, hi⟩ := Option.isSome_iff_exists.1 (all_eq_true.1 hAll row hRow)
      exact ⟨i, (hRows row hRow).left_lt i hi, hi⟩
    cases h
    rw [cells_reindex_rows hLeft]
    refine Option.bind_congr fun row hRow => ?_
    obtain ⟨i, -, hi⟩ := hLeft row (hMem hRow)
    rw [keyCell, hi]
    rfl
  · split at h
    · rename_i hNone
      have hRight : ∀ row ∈ rows, row.left = none ∧ ∃ j < r.length, row.right = some j := by
        intro row hRow
        have hLeft : row.left = none := Option.isNone_iff_eq_none.1 (all_eq_true.1 hNone row hRow)
        obtain ⟨j, hj⟩ := Option.ne_none_iff_exists'.1 ((hRows row hRow).present hLeft)
        exact ⟨hLeft, j, (hRows row hRow).right_lt j hj, hj⟩
      cases h
      rw [cells_reindex_rows fun row hRow => (hRight row hRow).2]
      refine Option.bind_congr fun row hRow => ?_
      rw [keyCell, (hRight row (hMem hRow)).1]
    · -- both columns have the type that they are converted to
      have hCommon : commonType l r = .storage l.dtype := if_pos (beq_iff_eq.2 hType)
      have hLast : r.cast (.storage l.dtype) = .ok r := hType ▸ cast_self hr
      dsimp only at h
      rw [hCommon, ite_self, cast_self hl, hLast] at h
      cases h
      have hLength : (l.append r).length = l.length + r.length := by
        rw [← length_cells, cells_append hType, length_append, length_cells, length_cells]
      rw [cells_reindex_rows (hLength ▸ fun row hRow => (hRows row hRow).keyPosition_lt),
        cells_append hType]
      exact Option.bind_congr fun row hRow => (hRows row (hMem hRow)).keyCell_eq l.length_cells

end JoinRow

namespace Table

/-- A table made of pairs of rows. A column that both tables have is there once and shows the keys;
every other column shows its own half. -/
structure PairsRows (rows : List JoinRow) (a b : String) (lk rk : Data) (l r joined : Table) :
    Prop where
  height_eq : joined.height = rows.length
  data : ∃ es fs, joined.columns.map (·.2) = es ++ fs ∧
    List.Forall₂ (fun c e =>
      if a = b ∧ c.1 = a then ∀ k : Nat, e.cells[k]? = rows[k]?.bind
        (JoinRow.keyCell lk.cells rk.cells)
      else c.2.Spread (rows.map (·.left)) e) l.columns es ∧
    List.Forall₂ (fun c e => c.2.Spread (rows.map (·.right)) e) (joinedColumns a b r) fs

section SameType

variable {kind : JoinKind} {a b : String} {l r joined : Table} {lk rk : Data}
  (hlk : l.column a = .ok lk) (hrk : r.column b = .ok rk) (hType : lk.dtype = rk.dtype)
include hlk hrk hType

/-- The parts of a join on columns of one type. -/
theorem join_sameType (h : Table.join kind a b l r = .ok joined) :
    ∃ key, sharedKey lk rk (ofKeys kind lk.freeCells rk.freeCells) = .ok key ∧
      joined.height = (ofKeys kind lk.freeCells rk.freeCells).length ∧ joined.columns.map (·.2) =
        l.columns.map (fun c => if a == b && c.1 == a then key
          else c.2.reindex ((ofKeys kind lk.freeCells rk.freeCells).map (·.left))) ++
        (joinedColumns a b r).map fun c =>
          c.2.reindex ((ofKeys kind lk.freeCells rk.freeCells).map (·.right)) := by
  have hCoercion : coercion lk rk = .ok false := by
    unfold coercion
    simp [hType]
  obtain ⟨_, hLeft, h⟩ := bind_eq_ok h
  cases hlk.symm.trans hLeft
  obtain ⟨_, hRight, h⟩ := bind_eq_ok h
  cases hrk.symm.trans hRight
  obtain ⟨_, hSame, h⟩ := bind_eq_ok h
  cases hCoercion.symm.trans hSame
  obtain ⟨_, hLeft', h⟩ := bind_eq_ok h
  cases hlk.symm.trans hLeft'
  obtain ⟨_, hRight', h⟩ := bind_eq_ok h
  cases hrk.symm.trans hRight'
  obtain ⟨⟨leftNames, rightNames⟩, hNames, h⟩ := bind_eq_ok h
  obtain ⟨rfl, rfl⟩ := sideNames_eq_ok hNames
  obtain ⟨key, hKey, h⟩ := bind_eq_ok h
  cases h
  refine ⟨key, hKey, Column.length_freshLabels _, ?_⟩
  rw [map_append]
  congr 1
  · rw [map_snd_zip (by simp [names])]
    rfl
  · rw [map_snd_zip (by simp)]
    rfl

/-- A join on columns of one type is made of the rows that belong to it. -/
theorem pairsRows_joinTables {leftName rightName : String} (hl : l.Rectangular) (hr : r.Rectangular)
    (hlc : lk.Comparable) (hrc : rk.Comparable)
    (h : joinTables kind leftName rightName a b l r = .ok joined) :
    PairsRows (ofKeys kind lk.freeCells rk.freeCells) a b lk rk l r joined := by
  obtain ⟨plain, hPlain, h⟩ := bind_eq_ok h
  cases h
  obtain ⟨key, hKey, hHeight, hData⟩ := join_sameType hlk hrk hType hPlain
  have hLeft := hl.length_of_column hlk
  have hRight := hr.length_of_column hrk
  have hWithin : ∀ row ∈ ofKeys kind lk.freeCells rk.freeCells, row.Within lk.length rk.length := by
    intro row hRow
    have hRow := ((mem_ofKeys_iff hlc.scalars hrc.scalars kind).1 hRow).within
    rwa [length_freeCells, length_freeCells] at hRow
  refine ⟨hHeight, _, _, (map_map).trans hData, ?_, ?_⟩
  · refine forall₂_map_right_iff.2 (forall₂_same.2 fun c hc => ?_)
    by_cases hShared : a = b ∧ c.1 = a
    · rw [if_pos hShared, if_pos (by simpa using hShared)]
      exact cells_sharedKey hType hlc hrc hWithin hKey
    · rw [if_neg hShared, if_neg (by simpa using hShared)]
      refine spread_reindex fun i hi => ?_
      obtain ⟨row, hRow, hi⟩ := mem_map.1 hi
      rw [hl c hc, ← hLeft]
      exact (hWithin row hRow).left_lt i hi
  · refine forall₂_map_right_iff.2 (forall₂_same.2 fun c hc => spread_reindex fun j hj => ?_)
    obtain ⟨row, hRow, hj⟩ := mem_map.1 hj
    rw [hr c (mem_of_mem_joinedColumns hc), ← hRight]
    exact (hWithin row hRow).right_lt j hj

end SameType

end Table

namespace JoinKind

def words : JoinKind → String
  | .inner => "INNER JOIN"
  | .left => "LEFT JOIN"
  | .right => "RIGHT JOIN"
  | .full => "FULL JOIN"

theorem ofWords_words (kind : JoinKind) : ofWords kind.words = .ok kind := by
  cases kind <;> rfl

end JoinKind

namespace Query

open Sql

/-- The rows of each kind of join are those that belong to it, each once: pairs with equal keys, and
rows without a match beside missing entries. The numbers of rows balance. -/
theorem join_kinds_agree {w : Workspace} {left right : Node} {l r : String} {ls rs : List String}
    (hLeft : left.sideParts? = some (l :: ls)) (hRight : right.sideParts? = some (r :: rs))
    {lt rt : Table} (hSides : SideTables w left right lt rt) (hlt : lt.Rectangular)
    (hrt : rt.Rectangular) {a b : String} {lk rk : Data} (hlk : lt.column a = .ok lk)
    (hrk : rt.column b = .ok rk) (hType : lk.dtype = rk.dtype) (hlc : lk.Comparable)
    (hrc : rk.Comparable) {implicit : Bool} {tag : Tag} {joined : JoinKind → Table}
    (hJoined : ∀ kind, Yields w
        (.join kind.words left right (some (equality (l :: ls) a (r :: rs) b)) implicit tag)
        (joined kind)) :
    ∃ rows : JoinKind → List JoinRow,
      (∀ kind, Table.PairsRows (rows kind) a b lk rk lt rt (joined kind)) ∧
      (∀ kind, (rows kind).Nodup ∧
        ∀ row, row ∈ rows kind ↔ row.Belongs kind lk.freeCells rk.freeCells) ∧
      (∀ i < lt.height, ∃ row ∈ rows .left, row.left = some i) ∧
      (∀ j < rt.height, ∃ row ∈ rows .right, row.right = some j) ∧
      (∀ i x, lk.freeCells[i]? = some x → (∀ y ∈ rk.freeCells, ¬x.KeyEquals y) →
        (rows .left).filter (·.left = some i) = [⟨some i, none⟩]) ∧
      (∀ j y, rk.freeCells[j]? = some y → (∀ x ∈ lk.freeCells, ¬x.KeyEquals y) →
        (rows .right).filter (·.right = some j) = [⟨none, some j⟩]) ∧
      (joined .full).height + (joined .inner).height =
        (joined .left).height + (joined .right).height := by
  have hPairs (kind : JoinKind) :
      Table.PairsRows (JoinRow.ofKeys kind lk.freeCells rk.freeCells) a b lk rk lt rt
        (joined kind) := by
    have hOn := comparedColumns_straight hLeft hRight a b
    obtain ⟨kind', l', r', hKind, hSides', hTables⟩ :=
      (yields_join_iff hOn implicit tag _).1 (hJoined kind)
    cases (JoinKind.ofWords_words kind).symm.trans hKind
    obtain ⟨rfl, rfl⟩ := hSides.unique hSides'
    exact Table.pairsRows_joinTables hlk hrk hType hlt hrt hlc hrc hTables
  have hMem {kind : JoinKind} {row : JoinRow} :
      row ∈ JoinRow.ofKeys kind lk.freeCells rk.freeCells ↔
        row.Belongs kind lk.freeCells rk.freeCells :=
    JoinRow.mem_ofKeys_iff hlc.scalars hrc.scalars kind
  refine ⟨fun kind => JoinRow.ofKeys kind lk.freeCells rk.freeCells, hPairs,
    fun kind => ⟨JoinRow.nodup_ofKeys hlc.scalars hrc.scalars kind, fun row => hMem⟩,
    fun i hi => ?_, fun j hj => ?_, fun i x hx hNone => ?_, fun j y hy hNone => ?_, ?_⟩
  · have hx : lk.freeCells[i]? = some _ :=
      getElem?_eq_getElem (by rwa [length_freeCells, hlt.length_of_column hlk])
    have hKeeps : JoinKind.left.keepsLeft = true := rfl
    obtain ⟨r, hRow⟩ := JoinRow.Belongs.exists_left hKeeps hx
    exact ⟨_, hMem.2 hRow, rfl⟩
  · have hy : rk.freeCells[j]? = some _ :=
      getElem?_eq_getElem (by rwa [length_freeCells, hrt.length_of_column hrk])
    have hKeeps : JoinKind.right.keepsRight = true := rfl
    obtain ⟨l, hRow⟩ := JoinRow.Belongs.exists_right hKeeps hy
    exact ⟨_, hMem.2 hRow, rfl⟩
  · refine JoinRow.filter_ofKeys_eq_singleton hlc.scalars hrc.scalars (.left rfl hx hNone)
      fun row hRow => ?_
    rw [decide_eq_true_iff]
    exact hRow.left_eq_iff hx hNone
  · refine JoinRow.filter_ofKeys_eq_singleton hlc.scalars hrc.scalars (.right rfl hy hNone)
      fun row hRow => ?_
    rw [decide_eq_true_iff]
    exact hRow.right_eq_iff hy hNone
  · rw [(hPairs .full).height_eq, (hPairs .inner).height_eq, (hPairs .left).height_eq,
      (hPairs .right).height_eq]
    exact JoinRow.length_ofKeys_balance hlc.scalars hrc.scalars

namespace Gapped

/-- Keys that repeat, that are missing and that have no match. -/
def leftKeys : Data := .nullableInts .int64 [some 1, some 1, some 2, none]

@[inherit_doc leftKeys]
def rightKeys : Data := .nullableInts .int64 [some 1, some 3, none]

def leftRows : Table :=
  ⟨Column.freshLabels 4, [("k", leftKeys), ("v", .texts [some "a", some "b", some "c", some "d"])]⟩

def rightRows : Table :=
  ⟨Column.freshLabels 3, [("k", rightKeys), ("w", .texts [some "x", some "y", some "z"])]⟩

def joined : JoinKind → Table
  | .inner => ⟨Column.freshLabels 3, [("k", .nullableInts .int64 [some 1, some 1, none]),
      ("v", .texts [some "a", some "b", some "d"]), ("w", .texts [some "x", some "x", some "z"])]⟩
  | .left => ⟨Column.freshLabels 4, [("k", .nullableInts .int64 [some 1, some 1, some 2, none]),
      ("v", .texts [some "a", some "b", some "c", some "d"]),
      ("w", .texts [some "x", some "x", none, some "z"])]⟩
  | .right => ⟨Column.freshLabels 4, [("k", .nullableInts .int64 [some 1, some 1, some 3, none]),
      ("v", .texts [some "a", some "b", none, some "d"]),
      ("w", .texts [some "x", some "x", some "y", some "z"])]⟩
  | .full => ⟨Column.freshLabels 5,
      [("k", .nullableInts .int64 [some 1, some 1, some 2, some 3, none]),
      ("v", .texts [some "a", some "b", some "c", none, some "d"]),
      ("w", .texts [some "x", some "x", none, some "y", some "z"])]⟩

theorem ofFull_eq : ofFull leftKeys.freeCells rightKeys.freeCells =
    [⟨some 0, some 0⟩, ⟨some 1, some 0⟩, ⟨some 2, none⟩, ⟨none, some 1⟩, ⟨some 3, some 2⟩] := by
  have hKeys : orderedKeys leftKeys.freeCells rightKeys.freeCells = [.int 1, .int 2, .int 3, .na] :=
    by cbv
  rw [ofFull, hKeys]
  rfl

theorem joinTables_eq (kind : JoinKind) :
    joinTables kind "l" "r" "k" "k" leftRows rightRows = .ok (joined kind) := by
  cases kind with
  | inner | left | right => rfl
  | full =>
    have hLeft : leftRows.column "k" = .ok leftKeys := rfl
    have hRight : rightRows.column "k" = .ok rightKeys := rfl
    have hCoercion : coercion leftKeys rightKeys = .ok false := rfl
    rw [joinTables, Table.join, hLeft]
    simp only [bind, Except.bind, hCoercion, Bool.false_eq_true, if_false, hLeft, hRight, ofKeys,
      ofFull_eq]
    rfl

theorem comparable_nullableInts {k : IntKind} {xs : List (Option Int)}
    (h : (xs.all fun x => x.all k.fits) = true) : (nullableInts k xs).Comparable where
  scalars c hc := by
    obtain ⟨x, _, rfl⟩ := mem_map.1 hc
    cases x <;> rfl
  ints _ _ hInts := by cases hInts
  nullableInts _ _ hSame n hn := by
    cases hSame
    exact all_eq_true.1 h (some n) hn

end Gapped

/-- `FROM l JOIN r ON l.k = r.k`: the missing keys match each other, and the keys 2 and 3 match
nothing. -/
theorem join_kinds_agree_gapped :
    (∀ kind : JoinKind, Yields (.ofTables [("l", Gapped.leftRows), ("r", Gapped.rightRows)])
        (.join kind.words (.name ["l"] {}) (.name ["r"] {}) (some (equality ["l"] "k" ["r"] "k"))
          false {}) (Gapped.joined kind)) ∧
    ∃ rows : JoinKind → List JoinRow,
      (∀ kind, Table.PairsRows (rows kind) "k" "k" Gapped.leftKeys Gapped.rightKeys Gapped.leftRows
          Gapped.rightRows (Gapped.joined kind)) ∧
      ⟨some 3, some 2⟩ ∈ rows .inner ∧ (rows .left).filter (·.left = some 2) = [⟨some 2, none⟩] ∧
      (rows .right).filter (·.right = some 1) = [⟨none, some 1⟩] ∧
      (Gapped.joined .full).height + (Gapped.joined .inner).height =
        (Gapped.joined .left).height + (Gapped.joined .right).height := by
  have hSides : SideTables (.ofTables [("l", Gapped.leftRows), ("r", Gapped.rightRows)])
      (.name ["l"] {}) (.name ["r"] {}) Gapped.leftRows Gapped.rightRows :=
    ⟨_, _, _, _, rfl, rfl, rfl, rfl⟩
  have hYields (kind : JoinKind) :
      Yields (.ofTables [("l", Gapped.leftRows), ("r", Gapped.rightRows)])
        (.join kind.words (.name ["l"] {}) (.name ["r"] {}) (some (equality ["l"] "k" ["r"] "k"))
          false {}) (Gapped.joined kind) :=
    Joins.yields ⟨JoinKind.ofWords_words kind, hSides, rfl, Gapped.joinTables_eq kind⟩ false {}
  have hLeftRows : Gapped.leftRows.Rectangular := by
    simp [Table.Rectangular, Gapped.leftRows, Gapped.leftKeys, Table.height, Data.length]
  have hRightRows : Gapped.rightRows.Rectangular := by
    simp [Table.Rectangular, Gapped.rightRows, Gapped.rightKeys, Table.height, Data.length]
  have hType : Gapped.leftKeys.dtype = Gapped.rightKeys.dtype := rfl
  have hLeftKeys : Gapped.leftKeys.Comparable := Gapped.comparable_nullableInts (by decide)
  have hRightKeys : Gapped.rightKeys.Comparable := Gapped.comparable_nullableInts (by decide)
  obtain ⟨rows, hPairs, hRows, -, -, hLeft, hRight, hHeights⟩ :=
    join_kinds_agree rfl rfl hSides hLeftRows hRightRows rfl rfl hType hLeftKeys hRightKeys hYields
  refine ⟨hYields, rows, hPairs, ((hRows .inner).2 _).2 (.pair rfl rfl (.refl _)),
    hLeft 2 (.int 2) rfl ?_, hRight 1 (.int 3) rfl fun x hx hSame => ?_, hHeights⟩
  · exact (JoinRow.matchesOf_eq_nil_iff rfl).1 rfl
  · exact (JoinRow.matchesOf_eq_nil_iff rfl).1 rfl x hx hSame.symm

end Query

end TableQuery
