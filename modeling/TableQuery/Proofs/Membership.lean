import TableQuery.Proofs.Agreement
import TableQuery.Proofs.JoinRows
import TableQuery.Proofs.NearestDouble
import TableQuery.Proofs.Negation

/-! Membership of a column's entries among some values. Both are compared as objects, or as numbers
of machine types, among which a whole number next to a double is the nearest double. -/
namespace TableQuery

open List NumOperand Cell Data

variable {c : Column}

namespace Num

/-- A number as machine arithmetic compares it with another one: next to a double it is the nearest
double. -/
def beside (a b : Num) : Num :=
  match b with
  | .float _ => .float a.toFloat
  | _ => a

theorem beside_of_asInt? {a b : Num} {n : Int} (h : b.asInt? = some n) : a.beside b = a := by
  cases b <;> first | rfl | cases h

theorem sameMachine_iff (a b : Num) :
    sameMachine a b = true ↔ (a.beside b).place = (b.beside a).place := by
  have hFloats (x y : Float) :
      (x == y || (x.isNaN && y.isNaN)) = true ↔ Place.ofFloat x = Place.ofFloat y :=
    sameObject_nums (a := .float x) (b := .float y) rfl rfl
  unfold sameMachine
  cases ha : a.asInt? with
  | none =>
    obtain ⟨x, rfl⟩ := eq_float_of_asInt? ha
    cases b <;> exact hFloats _ _
  | some m =>
    cases hb : b.asInt? with
    | none =>
      obtain ⟨y, rfl⟩ := eq_float_of_asInt? hb
      rw [beside_of_asInt? ha]
      exact hFloats _ _
    | some n =>
      rw [beside_of_asInt? ha, beside_of_asInt? hb, place_of_asInt? ha, place_of_asInt? hb,
        Place.ofRat_strictMono.injective.eq_iff]
      simp

/-- A whole number up to `2^53` stands where its nearest double stands. -/
theorem place_toFloat {a : Num} (h : ∀ n, a.asInt? = some n → n.natAbs ≤ 2 ^ 53) :
    Place.ofFloat a.toFloat = a.place := by
  cases a with
  | bool b => cases b <;> decide +kernel
  | int n => exact Binary64.place_ofInt (h n rfl)
  | float x => rfl

end Num

namespace Cell

variable {a b : Cell}
variable {m n : Num}

def beside (a b : Cell) : Cell :=
  match a.num?, b.num? with
  | some m, some n => (m.beside n).toCell
  | _, _ => a

def TakenFor (machine : Bool) (a b : Cell) : Prop :=
  if machine then (a.beside b).SameValue (b.beside a) else a.SameValue b

/-- A value that is no whole number beyond `2^53`. -/
def FitsDouble (c : Cell) : Prop := ∀ m n, c.num? = some m → m.asInt? = some n → n.natAbs ≤ 2 ^ 53

theorem num?_toCell (m : Num) : m.toCell.num? = some m := by
  cases m <;> rfl

theorem num?_beside (ha : a.num? = some m) (hb : b.num? = some n) :
    (a.beside b).num? = some (m.beside n) := by
  unfold beside
  rw [ha, hb]
  exact num?_toCell _

theorem takenFor_nums (ha : a.num? = some m) (hb : b.num? = some n) :
    TakenFor true a b ↔ sameMachine m n = true := by
  rw [Num.sameMachine_iff]
  refine ⟨fun h => ?_, .nums (num?_beside ha hb) (num?_beside hb ha)⟩
  obtain ⟨k, hk, hPlace⟩ := h.exists_place (num?_beside ha hb)
  rw [num?_beside hb ha, Option.some.injEq] at hk
  exact hk ▸ hPlace

/-- A missing entry is taken for missing values only. -/
theorem takenFor_na (machine : Bool) (b : Cell) : TakenFor machine .na b ↔ b = .na := by
  have hSame : SameValue .na b ↔ b = .na := ⟨fun h => (h.eq_of_num? rfl).symm, fun h => h ▸ .refl _⟩
  cases machine with
  | false => exact hSame
  | true =>
    have hForm : b.beside .na = b := by
      unfold beside
      cases b.num? <;> rfl
    rw [TakenFor, hForm]
    exact hSame

theorem sameValue_beside
    (h : ∀ m n, a.num? = some m → b.num? = some n → (m.beside n).place = m.place) :
    (a.beside b).SameValue a := by
  unfold beside
  split
  · rename_i m n hm hn
    exact .nums (num?_toCell _) hm (h m n hm hn)
  · exact .refl a

/-- Values that do not move next to each other are taken for each other exactly if they are the
same. -/
theorem takenFor_iff (h : ∀ m n, a.num? = some m → b.num? = some n →
    (m.beside n).place = m.place ∧ (n.beside m).place = n.place) (machine : Bool) :
    TakenFor machine a b ↔ a.SameValue b := by
  cases machine with
  | false => rfl
  | true =>
    have ha := sameValue_beside fun m n hm hn => (h m n hm hn).1
    have hb := sameValue_beside fun m n hm hn => (h n m hn hm).2
    exact ⟨fun hSame => ha.symm.trans (hSame.trans hb), fun hSame => ha.trans (hSame.trans hb.symm)⟩

theorem place_beside_of_fits (h : a.FitsDouble) (hm : a.num? = some m) (n : Num) :
    (m.beside n).place = m.place := by
  cases n with
  | float y => exact Num.place_toFloat fun k hk => h m k hm hk
  | _ => rfl

end Cell

namespace Data

variable {d : Data} {a : Cell} {i : Nat}
variable {values : Data}

def ofMachine (d : Data) : Bool := (NumOperand.ofData? d.hidden).isSome

def inArray (values : Data) (v : Cell) : Cell :=
  if values.toArray.dtype = .floats then .float ((v.num?.map Num.toFloat).getD Binary64.nan) else v

theorem inArray_of_floats (h : d.toArray.dtype = .floats) (v : Cell) :
    d.inArray v = .float ((v.num?.map Num.toFloat).getD Binary64.nan) := if_pos h

theorem inArray_eq (h : d.toArray.dtype ≠ .floats) (v : Cell) : d.inArray v = v := if_neg h

/-- Without marks every entry is there. -/
theorem exists_of_unmarked {α : Type} {xs : List (Option α)} (h : ¬xs.any Option.isNone = true)
    {x : Option α} (hx : x ∈ xs) : ∃ a, x = some a := by
  cases x with
  | none => exact absurd (any_eq_true.2 ⟨none, hx, rfl⟩) h
  | some a => exact ⟨a, rfl⟩

theorem freeCells_toArray (d : Data) : d.toArray.freeCells = d.freeCells.map d.inArray := by
  have hKept {e : Data} (h : d.toArray = e) (hType : e.dtype ≠ .floats)
      (hCells : e.freeCells = d.freeCells) : d.toArray.freeCells = d.freeCells.map d.inArray := by
    rw [funext (inArray_eq (h ▸ hType)), h, hCells, map_id']
  cases d with
  | ints _ _ | bools _ | objects _ | texts _ => exact hKept rfl (fun h => by cases h) rfl
  | floats xs =>
    simp only [toArray, freeCells, cells, map_map]
    rfl
  | nullableFloats xs =>
    simp only [toArray, freeCells, cells, map_map]
    refine map_congr_left fun x _ => ?_
    cases x <;> rfl
  | nullableInts k xs =>
    by_cases hMarks : (nullableInts k xs).hasMarks = true
    · have hArray : (nullableInts k xs).toArray = .floats _ := if_pos hMarks
      rw [funext (inArray_of_floats (congrArg dtype hArray)), hArray]
      simp only [freeCells, cells, map_map]
      refine map_congr_left fun x _ => ?_
      cases x <;> rfl
    · refine hKept (if_neg hMarks) (fun h => by cases h) ?_
      simp only [freeCells, cells, map_map]
      refine map_congr_left fun x hx => ?_
      obtain ⟨n, rfl⟩ := exists_of_unmarked hMarks hx
      rfl
  | nullableBools xs =>
    by_cases hMarks : (nullableBools xs).hasMarks = true
    · exact hKept (if_pos hMarks) (fun h => by cases h) rfl
    · refine hKept (if_neg hMarks) (fun h => by cases h) ?_
      simp only [freeCells, cells, map_map]
      refine map_congr_left fun x hx => ?_
      obtain ⟨b, rfl⟩ := exists_of_unmarked hMarks hx
      rfl

theorem freeCells_of_operand {o : NumOperand} (h : ofData? d = some o) :
    d.freeCells = (o.nums 0).map Num.toCell := by
  cases d <;> cases h <;> simp [freeCells, cells, nums, Num.toCell]

/-- Membership among the entries of plain arrays, entry by entry. -/
theorem plainMembers_iff (hScalars : ∀ a ∈ d.freeCells, a.isDistinguishable = true)
    (ha : d.freeCells[i]? = some a) (values : Data) :
    (plainMembers d values)[i]? = some true ↔
      ∃ v ∈ values.freeCells, a.TakenFor ((ofData? d).isSome && (ofData? values).isSome) v := by
  unfold plainMembers
  split
  · rename_i s o hs ho
    rw [freeCells_of_operand hs, getElem?_map, Option.map_eq_some_iff] at ha
    obtain ⟨m, hm, rfl⟩ := ha
    rw [freeCells_of_operand ho, hs, ho, getElem?_map, hm]
    simp [takenFor_nums (num?_toCell _) (num?_toCell _)]
  · rename_i hNone
    have hFlag : ((ofData? d).isSome && (ofData? values).isSome) = false := by
      cases hs : ofData? d <;> cases ho : ofData? values <;>
        first | rfl | exact absurd ho (hNone _ _ hs)
    have hSame := sameObject_iff (hScalars a (mem_of_getElem? ha))
    rw [hFlag, getElem?_map, ha]
    simp [TakenFor, hSame]

theorem toArray_cases (d : Data) :
    (∃ o, ofData? d.toArray = some o ∧ d.toArray.holdsMark = false) ∨
    ∃ xs, d.toArray = .objects xs := by
  cases d with
  | ints _ _ | floats _ | bools _ | nullableFloats _ => exact Or.inl ⟨_, rfl, rfl⟩
  | objects xs => exact Or.inr ⟨xs, rfl⟩
  | texts xs => exact Or.inr ⟨_, rfl⟩
  | nullableInts k xs =>
    left
    by_cases hMarks : (nullableInts k xs).hasMarks = true
    · rw [show (nullableInts k xs).toArray = .floats _ from if_pos hMarks]
      exact ⟨_, rfl, rfl⟩
    · rw [show (nullableInts k xs).toArray = .ints k _ from if_neg hMarks]
      exact ⟨_, rfl, rfl⟩
  | nullableBools xs =>
    by_cases hMarks : (nullableBools xs).hasMarks = true
    · exact Or.inr ⟨_, if_pos hMarks⟩
    · rw [show (nullableBools xs).toArray = .bools _ from if_neg hMarks]
      exact Or.inl ⟨_, rfl, rfl⟩

/-- An array of the values holds a mark if one of its entries is a mark. -/
theorem holdsMark_toArray_iff (d : Data) :
    d.toArray.holdsMark = true ↔ na ∈ d.toArray.freeCells := by
  rcases d.toArray_cases with ⟨o, hOperand, hNone⟩ | ⟨xs, hObjects⟩
  · rw [hNone, freeCells_of_operand hOperand]
    refine iff_of_false nofun fun h => ?_
    obtain ⟨m, -, hm⟩ := mem_map.1 h
    cases m <;> cases hm
  · rw [hObjects]
    change (xs.any _) = true ↔ na ∈ xs
    rw [any_eq_true]
    constructor
    · rintro ⟨x, hx, hMark⟩
      cases x <;> first | exact hx | cases hMark
    · exact fun h => ⟨_, h, rfl⟩

/-- An entry of data with marks is marked, or stands below the marks. -/
theorem entry_of_isMarked (h : d.isMarked = true) (ha : d.freeCells[i]? = some a) :
    (a = .na ∧ d.marks[i]? = some true) ∨
    (d.hidden.freeCells[i]? = some a ∧ d.marks[i]? = some false) := by
  cases d with
  | nullableInts _ xs | nullableFloats xs | nullableBools xs =>
    simp only [freeCells, getElem?_map, Option.map_eq_some_iff] at ha
    obtain ⟨x, hx, rfl⟩ := ha
    cases x with
    | none => exact Or.inl ⟨rfl, by simp [marks, hx]⟩
    | some x => exact Or.inr ⟨by simp [hidden, freeCells, cells, hx], by simp [marks, hx]⟩
  | _ => cases h

/-- An array has no marks of its own. -/
theorem hidden_toArray (d : Data) : d.toArray.hidden = d.toArray := by
  rcases d.toArray_cases with ⟨o, hOperand, -⟩ | ⟨xs, hObjects⟩
  · cases hArray : d.toArray <;> rw [hArray] at hOperand <;> first | rfl | cases hOperand
  · rw [hObjects]
    rfl

def TakesFor (d values : Data) (a v : Cell) : Prop :=
  a.TakenFor (d.ofMachine && values.toArray.ofMachine) (values.inArray v)

theorem exists_takesFor_iff (d values : Data) (a : Cell) :
    (∃ v ∈ values.freeCells, d.TakesFor values a v) ↔
      ∃ v ∈ values.toArray.freeCells,
        a.TakenFor (d.ofMachine && (ofData? values.toArray).isSome) v := by
  rw [freeCells_toArray]
  simp [TakesFor, ofMachine, hidden_toArray]

/-- The data below marks is of numbers. -/
theorem isDistinguishable_hidden (h : d.isMarked = true) :
    ∀ a ∈ d.hidden.freeCells, a.isDistinguishable = true := by
  have hOperand : ∃ o, ofData? d.hidden = some o := by
    cases d <;> first | exact ⟨_, rfl⟩ | cases h
  obtain ⟨o, ho⟩ := hOperand
  rw [freeCells_of_operand ho]
  intro a ha
  obtain ⟨m, -, rfl⟩ := mem_map.1 ha
  cases m <;> rfl

theorem toArray_of_unmarked (h : ¬d.isMarked = true) :
    d.toArray.freeCells = d.freeCells ∧ (ofData? d.toArray).isSome = d.ofMachine := by
  cases d with
  | nullableInts _ _ | nullableFloats _ | nullableBools _ => exact absurd rfl h
  | _ => exact ⟨rfl, rfl⟩

/-- An entry is a member exactly if it is taken for one of the values. -/
theorem verdicts_members (values : Data) (hScalars : ∀ a ∈ d.freeCells, a.isDistinguishable = true)
    (ha : d.freeCells[i]? = some a) :
    (d.members values).verdicts[i]? = some (some true) ↔
      ∃ v ∈ values.freeCells, d.TakesFor values a v := by
  rw [exists_takesFor_iff]
  unfold members
  split
  · rename_i hMarked
    rw [verdicts_nullableBools, getElem?_zipWith]
    rcases entry_of_isMarked hMarked ha with ⟨rfl, hMark⟩ | ⟨hHidden, hMark⟩
    · have hFound : i < (plainMembers d.hidden values.toArray).length := by
        rw [length_plainMembers, length_hidden, ← length_marks]
        exact (List.getElem?_eq_some_iff.1 hMark).1
      rw [hMark, getElem?_eq_getElem hFound]
      simp [takenFor_na, holdsMark_toArray_iff]
    · have hFound := plainMembers_iff (isDistinguishable_hidden hMarked) hHidden values.toArray
      rw [hMark]
      refine Iff.trans ?_ hFound
      cases (plainMembers d.hidden values.toArray)[i]? <;> simp
  · rename_i hMarked
    obtain ⟨hCells, hMachine⟩ := toArray_of_unmarked hMarked
    rw [← hCells] at ha hScalars
    rw [verdicts_bools, getElem?_map, ← hMachine]
    refine Iff.trans ?_ (plainMembers_iff hScalars ha values.toArray)
    cases (plainMembers d.toArray values.toArray)[i]? <;> simp

theorem none_not_mem_verdicts_members (d values : Data) : none ∉ (d.members values).verdicts := by
  unfold members
  split
  · rw [verdicts_nullableBools]
    intro h
    obtain ⟨i, hi, hNone⟩ := getElem_of_mem h
    rw [getElem_zipWith] at hNone
    cases hNone
  · rw [verdicts_bools]
    simp

/-- The entries that are present are taken for a value exactly if one of the values is the same. -/
def TellsMembers (d values : Data) : Prop :=
  ∀ a ∈ d.freeCells, a.isMissing = false →
    ((∃ v ∈ values.freeCells, d.TakesFor values a v) ↔ ∃ v ∈ values.freeCells, a.SameValue v)

theorem tellsMembers_of_takesFor_iff (h : ∀ a ∈ d.freeCells, a.isMissing = false →
    ∀ v ∈ values.freeCells, (d.TakesFor values a v ↔ a.SameValue v)) : d.TellsMembers values := by
  intro a ha hPresent
  exact exists_congr fun v => and_congr_right fun hv => h a ha hPresent v hv

/-- Where an array of doubles holds no number there is a mark among the values. -/
theorem eq_na_of_floats (h : d.toArray.dtype = .floats) {v : Cell} (hv : v ∈ d.freeCells)
    (hNum : v.num? = none) : v = .na := by
  cases d with
  | nullableInts _ xs | nullableFloats xs =>
    obtain ⟨x, -, rfl⟩ := mem_map.1 hv
    cases x with
    | none => rfl
    | some x => cases hNum
  | floats xs =>
    obtain ⟨x, -, rfl⟩ := mem_map.1 hv
    cases hNum
  | nullableBools xs =>
    unfold toArray at h
    dsimp only at h
    split at h <;> cases h
  | _ => cases h

/-- A present entry is the same as a value in the array exactly if it is the same as the value, if
that fits a double. -/
theorem sameValue_inArray_iff {v : Cell} (ha : a.isMissing = false) (hv : v ∈ d.freeCells)
    (hFits : v.FitsDouble) : a.SameValue (d.inArray v) ↔ a.SameValue v := by
  by_cases hArray : d.toArray.dtype = .floats
  · rw [inArray_of_floats hArray]
    cases hNum : v.num? with
    | none =>
      -- a mark is no number in the array, and a present entry is neither
      have hNan : isMissing (.float Binary64.nan) = true := by decide +kernel
      obtain rfl := eq_na_of_floats hArray hv hNum
      refine iff_of_false (fun h => ?_) fun h => ?_
      · rw [h.isMissing_eq] at ha
        exact Bool.noConfusion (hNan.symm.trans ha)
      · rw [h.isMissing_eq] at ha
        cases ha
    | some n =>
      have hSame : SameValue (.float n.toFloat) v :=
        .nums rfl hNum (Num.place_toFloat fun k hk => hFits n k hNum hk)
      exact ⟨fun h => h.trans hSame, fun h => h.trans hSame.symm⟩
  · rw [inArray_eq hArray]

theorem tellsMembers_of_fits (hEntries : ∀ a ∈ d.freeCells, a.FitsDouble)
    (hValues : ∀ v ∈ values.freeCells, v.FitsDouble) : d.TellsMembers values := by
  refine tellsMembers_of_takesFor_iff fun a ha hPresent v hv => ?_
  have hForm : (values.inArray v).FitsDouble := by
    by_cases hArray : values.toArray.dtype = .floats
    · rw [inArray_of_floats hArray]
      intro m n hm hn
      cases hm
      cases hn
    · rw [inArray_eq hArray]
      exact hValues v hv
  rw [TakesFor, takenFor_iff fun m n hm hn =>
    ⟨place_beside_of_fits (hEntries a ha) hm n, place_beside_of_fits hForm hn m⟩]
  exact sameValue_inArray_iff hPresent hv (hValues v hv)

/-- Numbers of a machine type that is not the type of doubles are whole. -/
theorem exists_asInt? (hMachine : d.ofMachine = true) (hType : d.hidden.dtype ≠ .floats)
    (ha : a ∈ d.freeCells) {m : Num} (hm : a.num? = some m) : ∃ n, m.asInt? = some n := by
  cases d with
  | ints _ xs | bools xs =>
    obtain ⟨x, -, rfl⟩ := mem_map.1 ha
    cases hm
    exact ⟨_, rfl⟩
  | nullableInts _ xs | nullableBools xs =>
    obtain ⟨x, -, rfl⟩ := mem_map.1 ha
    cases x with
    | none => cases hm
    | some x =>
      cases hm
      exact ⟨_, rfl⟩
  | floats _ | nullableFloats _ => exact absurd rfl hType
  | objects _ | texts _ => cases hMachine

theorem tellsMembers_of_types (hEntries : d.hidden.dtype ≠ .floats)
    (hValues : values.toArray.dtype ≠ .floats) : d.TellsMembers values := by
  refine tellsMembers_of_takesFor_iff fun a ha _ v hv => ?_
  rw [TakesFor, inArray_eq hValues]
  cases hMachine : d.ofMachine && values.toArray.ofMachine with
  | false => rfl
  | true =>
    rw [Bool.and_eq_true] at hMachine
    have hHidden : values.toArray.hidden.dtype ≠ .floats := by rwa [hidden_toArray]
    have hMem : v ∈ values.toArray.freeCells := by
      rw [freeCells_toArray, funext (inArray_eq hValues), map_id']
      exact hv
    refine takenFor_iff (fun m n hm hn => ?_) true
    obtain ⟨j, hj⟩ := exists_asInt? hMachine.1 hEntries ha hm
    obtain ⟨k, hk⟩ := exists_asInt? hMachine.2 hHidden hMem hn
    rw [Num.beside_of_asInt? hj, Num.beside_of_asInt? hk]
    exact ⟨rfl, rfl⟩

end Data

/-- The one entry of a column of scalars is a scalar. -/
theorem Data.isDistinguishable_singleCell {d : Data}
    (h : ∀ v ∈ d.freeCells, v.isDistinguishable = true) :
    d.singleCell.isDistinguishable = true := by
  unfold singleCell
  split
  · rfl
  · rename_i c hc
    have hMem := mem_of_mem_head? hc
    split
    · exact h c hMem
    · exact h c hMem
    · obtain ⟨b, -, rfl⟩ := mem_map.1 hMem
      cases b <;> rfl
    · split <;> rfl

namespace Table

variable {t : Table}
variable {name : String} {d : Data}

theorem Rectangular.afterBound (ht : t.Rectangular) (bound : Option Int) :
    (t.afterBound bound).Rectangular := by
  cases bound with
  | none => exact ht
  | some n => exact ht.pickRows _

theorem Rectangular.beforeBound (ht : t.Rectangular) (bound : Option Int) :
    (t.beforeBound bound).Rectangular := by
  cases bound with
  | none => exact ht
  | some n => exact ht.pickRows _

theorem Rectangular.bareNames (ht : t.Rectangular) : t.bareNames.Rectangular := by
  intro c hc
  obtain ⟨c', hc', rfl⟩ := mem_map.1 hc
  exact ht c' hc'

theorem reduced_of_one (h : t.columns = [(name, d)]) (hOne : t.height = 1) :
    t.reduced = Value.ofCell d.singleCell := by
  simp [reduced, h, hOne]

theorem reduced_of_ne (h : t.columns = [(name, d)]) (hMany : t.height ≠ 1) :
    t.reduced = .column ⟨t.labels, some name, d⟩ none := by
  simp [reduced, h, hMany]

end Table

/-- Truth values for the entries of a column, true at those with a property among those asked about.
-/
structure Column.Judges (r c : Column) (asked holds : Cell → Prop) : Prop where
  labels_eq : r.labels = c.labels
  ofTruths : r.data.OfTruths
  length_eq : r.data.length = c.data.length
  settled : none ∉ r.data.verdicts
  verdict {i : Nat} {a : Cell} : c.data.freeCells[i]? = some a → asked a →
    (r.data.verdicts[i]? = some (some true) ↔ holds a)

theorem Column.judges_members (h : ∀ a ∈ c.data.freeCells, a.isDistinguishable = true)
    (values : Data) :
    Column.Judges { c with data := c.data.members values } c (fun _ => True)
      fun a => ∃ v ∈ values.freeCells, c.data.TakesFor values a v where
  labels_eq := rfl
  ofTruths := by
    unfold members
    split
    · exact .inr rfl
    · exact .inl rfl
  length_eq := length_members c.data values
  settled := none_not_mem_verdicts_members c.data values
  verdict ha _ := verdicts_members values h ha

/-- A membership is one of equal values exactly if the entries that are present are told from all
other values. -/
theorem Column.judges_members_iff (h : ∀ a ∈ c.data.freeCells, a.isDistinguishable = true)
    (values : Data) :
    Column.Judges { c with data := c.data.members values } c (·.isMissing = false)
      (fun a => ∃ v ∈ values.freeCells, a.SameValue v) ↔ c.data.TellsMembers values := by
  have hMembers := judges_members h values
  constructor
  · intro hEqual a ha hPresent
    obtain ⟨i, hi⟩ := mem_iff_getElem?.1 ha
    exact (hMembers.verdict hi trivial).symm.trans (hEqual.verdict hi hPresent)
  · intro hTells
    exact { hMembers with
      verdict := fun hi hPresent => (hMembers.verdict hi trivial).trans
        (hTells _ (mem_of_getElem? hi) hPresent) }

namespace Operator

/-- The fault of a membership in a scalar. A text has members, but none for a column. -/
def notMembers : Cell → Fault
  | .text _ => .missingMember
  | _ => badInputs .member

theorem apply_member_scalar (c : Column) (origin : Option Origin) {s : Cell}
    (hs : s.isDistinguishable = true) :
    Operator.member.apply [.column c origin, Value.ofCell s] = .error (notMembers s) := by
  cases s <;> first | rfl | cases hs

end Operator

namespace Query

open Sql Work

theorem ignoresQueries_keepsOperators : Workspace.IgnoresQueries Workspace.KeepsOperators where
  frames _ h := h
  cache _ h := h
  scope _ h := h

/-- The answer of a select is rectangular. -/
theorem rectangular_of_evalSelect {q : Select} {w w' : Workspace} {t : Table}
    (h : Work.run (evalSelect q) w = (.ok t, w')) : t.Rectangular := by
  rw [evalSelect_eq] at h
  obtain ⟨rows, v, hRows, h⟩ := run_bind_eq_ok h
  obtain ⟨first, v₁, -, h⟩ := run_bind_eq_ok h
  obtain ⟨arranged, v₂, hArranged, h⟩ := run_bind_eq_ok h
  obtain ⟨last, v₃, -, h⟩ := run_bind_eq_ok h
  rw [run_lift] at hArranged
  cases h
  have hCut := (rectangular_of_evalRows hRows).afterBound first
  exact ((rectangular_of_ordered hCut (congrArg Prod.fst hArranged)).beforeBound last).bareNames

section Subquery

variable {w w₁ w₂ : Workspace} (hw : w.KeepsOperators) {source : Relation} {x : Node} {q : Select}
  {origin : Option Origin} {answer : Table}
  (hx : Work.run (evalExpr source x) w = (.ok (.column c origin), w₁))
  (hq : Work.run (evalSelect q) w₁ = (.ok answer, w₂))
include hw hx hq

/-- A membership in a subquery applies the operator to the column and to what the answer reduces to.
-/
theorem run_member_select (form : OpForm) {op : String} (tag selectTag : Tag)
    (ho : Operator.ofName (Text.lower op) = .ok .member) : Work.run
    (evalExpr source (.operation form op [x, .select q selectTag] tag)) w =
    (Operator.member.apply [.column c origin, answer.reduced], w₂) := by
  have hKeeps : w₂.KeepsOperators := by
    have hOutlasts := ignoresQueries_keepsOperators.outlasts
    have h₁ := maintains_evalExpr hOutlasts source x w hw
    rw [hx] at h₁
    have h₂ := maintains_evalSelect hOutlasts q w₁ h₁
    rw [hq] at h₂
    exact h₂
  simp only [evalExpr, evalArgs, bind_assoc]
  rw [run_bind_ok hx, run_bind_ok hq]
  exact run_call_operator hKeeps ho _

end Subquery

namespace Listed

def numbers : Table :=
  ⟨Column.freshLabels 3, [("a", .ints .int64 [1, 2, 3]),
    ("b", .nullableInts .int64 [some 3, none, some 1])]⟩

def handed : Workspace :=
  { Workspace.ofTables [("t", numbers)] with frames := #[{ table := numbers }] }

/-- `SELECT name FROM t`, with a condition. -/
def column (name : String) (condition : Option Node) : Select :=
  tableSelect ["t"] {} [.name [name] {}] condition false

/-- `a IN (subquery)`. -/
def among (subquery : Select) : Node :=
  .operation .binary "IN" [.name ["a"] {}, .select subquery {}] {}

def compared (op : String) (n : Int) : Option Node :=
  some (.operation .binary op [.name ["a"] {}, .constant (.int n) {}] {})

end Listed

end Query

end TableQuery
