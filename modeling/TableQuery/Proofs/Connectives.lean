import TableQuery.Proofs.Negation

/-! AND and OR between the truth values of two columns. Both are arithmetic: a product or a sum,
read back as truth values. -/
namespace TableQuery

open List Cell Except NumOperand Data

inductive Connective where
  | both | either
  deriving DecidableEq

namespace Connective

def operator : Connective → Operator
  | .both => .and
  | .either => .or

def arith : Connective → Arith
  | .both => .mul
  | .either => .add

def holds : Connective → Bool → Bool → Bool
  | .both, x, y => x && y
  | .either, x, y => x || y

/-- What is made of two truth values that may be missing: next to a missing one it counts as true.
-/
def presumes (k : Connective) (u v : Option Bool) : Bool :=
  (u.isNone || v.isNone) || k.holds (u.getD false) (v.getD false)

theorem holds_comm (k : Connective) (x y : Bool) : k.holds x y = k.holds y x := by
  cases k
  · exact Bool.and_comm x y
  · exact Bool.or_comm x y

theorem presumes_comm (k : Connective) (u v : Option Bool) : k.presumes u v = k.presumes v u := by
  unfold presumes
  rw [Bool.or_comm u.isNone, k.holds_comm]

theorem zipWith_presumes (k : Connective) (us vs : List (Option Bool)) :
    zipWith (· || ·) (zipWith (· || ·) (us.map Option.isNone) (vs.map Option.isNone))
      (zipWith k.holds (us.map (·.getD false)) (vs.map (·.getD false))) =
      zipWith k.presumes us vs := by
  induction us generalizing vs with
  | nil => rfl
  | cons u us ih =>
    cases vs with
    | nil => rfl
    | cons v vs => exact congrArg (k.presumes u v :: ·) (ih vs)

@[simp] theorem presumes_some (k : Connective) (x y : Bool) :
    k.presumes (some x) (some y) = k.holds x y := rfl

end Connective

namespace Cell

variable {c : Cell} {x : Bool}

theorem eq_of_truth? (h : c.truth? = some x) : c = .bool x ∨ c = .packed (.bool x) := by
  unfold truth? at h
  split at h
  · cases h
    rename_i hNum
    cases c with
    | bool b => exact .inl (congrArg bool (Num.bool.inj (Option.some.inj hNum)))
    | packed n => exact .inr (congrArg packed (Option.some.inj hNum))
    | _ => cases hNum
  · cases h

theorem isMissing_of_truth? (h : c.truth? = some x) : c.isMissing = false := by
  rcases eq_of_truth? h with rfl | rfl <;> rfl

/-- A text and a truth value cannot be added. -/
theorem arithEntry_add_text {x : Cell} {b : Bool} (hx : x.truth? = some b) (s : String) (c : Cell) :
    arithEntry .add (.text s) x ≠ .ok c ∧ arithEntry .add x (.text s) ≠ .ok c := by
  rcases eq_of_truth? hx with rfl | rfl
  · exact ⟨nofun, nofun⟩
  · exact ⟨nofun, nofun⟩

/-- Two truth values combine to a number that holds as the connective says. -/
theorem arithEntry_truths (k : Connective) {a b : Cell} {y : Bool} (ha : a.truth? = some x)
    (hb : b.truth? = some y) :
    ∃ c, arithEntry k.arith a b = .ok c ∧ c.truth = .ok (k.holds x y) := by
  rcases eq_of_truth? ha with rfl | rfl <;> rcases eq_of_truth? hb with rfl | rfl <;>
    cases k <;> cases x <;> cases y <;> exact ⟨_, rfl, rfl⟩

end Cell

namespace Data

variable {d : Data} {xs : List Bool}
variable {e : Data} {bs ys mask marks : List Bool} {us vs : List (Option Bool)}

def truthsOf (k : Connective) (d e : Data) : Except Fault (List Bool) := do
  (← Data.arith k.arith (.data d) (.data e)).toBools

section Entries

variable {k : Connective}
variable {ls rs : List Cell}

theorem entries_truths (hl : ls.map truth? = xs.map some)
    (hr : rs.map truth? = ys.map some) :
    ∃ cells, (ls.zip rs).mapM (fun p => arithEntry k.arith p.1 p.2) = .ok cells ∧
      cells.mapM truth = .ok (zipWith k.holds xs ys) := by
  induction ls generalizing rs xs ys with
  | nil =>
    obtain rfl := map_eq_nil_iff.1 hl.symm
    exact ⟨[], rfl, rfl⟩
  | cons a ls ih =>
    obtain ⟨x, xs, rfl, ha, hls⟩ := map_eq_cons_iff.1 hl.symm
    cases rs with
    | nil =>
      obtain rfl := map_eq_nil_iff.1 hr.symm
      exact ⟨[], rfl, rfl⟩
    | cons b rs =>
      obtain ⟨y, ys, rfl, hb, hrs⟩ := map_eq_cons_iff.1 hr.symm
      obtain ⟨c, hc, hTruth⟩ := arithEntry_truths k ha.symm hb.symm
      obtain ⟨cells, hCells, hTruths⟩ := ih hls.symm hrs.symm
      refine ⟨c :: cells, ?_, ?_⟩
      · rw [mapM_eq_ok_iff] at hCells ⊢
        exact .cons hc hCells
      · rw [mapM_eq_ok_iff] at hTruths ⊢
        exact .cons hTruth hTruths

theorem objectArith_truths (hl : ls.map truth? = xs.map some) (hr : rs.map truth? = ys.map some)
    (byOne : Option Bool) (again : Bool) :
    ∃ cells, objectArith k.arith byOne again ls rs = .ok (.objects cells) ∧
      cells.mapM truth = .ok (zipWith k.holds xs ys) := by
  obtain ⟨cells, hCells, hTruths⟩ := entries_truths (k := k) hl hr
  refine ⟨cells, ?_, hTruths⟩
  unfold objectArith
  rw [show (ls.zip rs).mapM _ = .ok cells from hCells]

end Entries

theorem exists_bools (h : d.dtype = .bools) : ∃ bs, d = .bools bs := by
  cases d with
  | bools bs => exact ⟨bs, rfl⟩
  | _ => cases h

theorem exists_texts (h : d.dtype = .texts) : ∃ ts, d = .texts ts := by
  cases d with
  | texts ts => exact ⟨ts, rfl⟩
  | _ => cases h

structure OfPlainTruths (d : Data) (xs : List Bool) : Prop where
  plain : d.dtype = .bools ∨ d.dtype = .objects
  verdicts : d.verdicts = xs.map some

theorem ofPlainTruths_bools (bs : List Bool) : OfPlainTruths (.bools bs) bs :=
  ⟨.inl rfl, verdicts_bools bs⟩

theorem OfPlainTruths.freeCells (h : d.OfPlainTruths xs) :
    d.freeCells.map truth? = xs.map some := by
  rw [← h.verdicts]
  cases d with
  | bools bs => rfl
  | objects cs => rfl
  | _ => exact h.plain.elim nofun nofun

theorem OfPlainTruths.length (h : d.OfPlainTruths xs) : d.length = xs.length := by
  rw [← length_verdicts, h.verdicts, length_map]

theorem OfPlainTruths.eq_bools (h : OfPlainTruths (.bools bs) xs) : bs = xs := by
  have hSame := h.verdicts
  rw [verdicts_bools] at hSame
  exact map_injective_iff.2 (Option.some_injective Bool) hSame

theorem numArith_bools (k : Connective) (size : Nat) (xs ys : List Bool) :
    numArith k.arith size (.bools xs) (.bools ys) = .ok (.bools (zipWith k.holds xs ys)) := by
  have hZip : boolArith k.arith (xs.map .bool) (ys.map .bool) =
      .ok (.bools (zipWith k.holds xs ys)) := by
    cases k <;> rw [Connective.arith, boolArith, zipWith_map] <;> rfl
  cases k
  · exact congrArg (· >>= ok) hZip
  · exact congrArg (· >>= ok) hZip

section Plain

variable {op : Arith} {raw : Bool} {self r : Data} {side : Bool}

theorem plainArith_of_ne (h : d.length ≠ self.length) :
    plainArith op raw self (.data d) side = .error .badValue :=
  if_pos (bne_iff_ne.2 h)

theorem length_eq_of_plainArith (h : plainArith op raw self (.data d) side = .ok r) :
    d.length = self.length := by
  by_contra hLength
  rw [plainArith_of_ne hLength] at h
  cases h

theorem plainArith_swap (op : Arith) (d e : Data) :
    plainArith op false e (.data d) false = plainArith op false d (.data e) true := by
  by_cases hLength : d.length = e.length
  · unfold plainArith
    dsimp only
    rw [hLength]
    cases ofData? d <;> cases ofData? e <;> rfl
  · rw [plainArith_of_ne hLength, plainArith_of_ne (Ne.symm hLength)]

theorem plainArith_bools (k : Connective) (hLength : xs.length = ys.length) :
    plainArith k.arith false (.bools xs) (.data (.bools ys)) true =
      .ok (.bools (zipWith k.holds xs ys)) := by
  have hSame : ((bools ys).length != (bools xs).length) = false :=
    bne_eq_false_iff_eq.2 hLength.symm
  unfold plainArith
  dsimp only
  rw [hSame]
  exact numArith_bools k xs.length xs ys

/-- Next to objects the entries are taken one by one. -/
theorem plainArith_objects (op : Arith) (hPlain : d.dtype = .objects ∨ e.dtype = .objects)
    (hLength : e.length = d.length) :
    plainArith op false d (.data e) true = objectArith op none true d.freeCells e.freeCells := by
  have hSame : (e.length != d.length) = false := bne_eq_false_iff_eq.2 hLength
  unfold plainArith
  dsimp only
  rw [hSame]
  rcases hPlain with hPlain | hPlain
  · cases d with
    | objects cs => rfl
    | _ => cases hPlain
  · cases e with
    | objects cs => cases d <;> rfl
    | _ => cases hPlain

/-- A connective on plain truth values gives plain truth values or objects. -/
theorem exists_plainArith (k : Connective) (hd : d.OfPlainTruths xs) (he : e.OfPlainTruths ys)
    (hLength : xs.length = ys.length) : ∃ r, plainArith k.arith false d (.data e) true = .ok r ∧
    (r.dtype = .bools ∨ r.dtype = .objects) ∧ r.toBools = .ok (zipWith k.holds xs ys) := by
  by_cases hObjects : d.dtype = .objects ∨ e.dtype = .objects
  · obtain ⟨cells, hCells, hTruths⟩ :=
      objectArith_truths (k := k) hd.freeCells he.freeCells none true
    rw [plainArith_objects k.arith hObjects (he.length.trans (hLength.symm.trans hd.length.symm))]
    exact ⟨_, hCells, .inr rfl, hTruths⟩
  · rw [not_or] at hObjects
    obtain ⟨bs, rfl⟩ := exists_bools (hd.plain.resolve_right hObjects.1)
    obtain ⟨cs, rfl⟩ := exists_bools (he.plain.resolve_right hObjects.2)
    obtain rfl := hd.eq_bools
    obtain rfl := he.eq_bools
    exact ⟨_, plainArith_bools k hLength, .inl rfl, rfl⟩

end Plain

/-- The missing entries of an operand. -/
def gaps (d : Data) : List Bool := if d.isMarked then d.marks else d.missing

theorem markedArith_eq (k : Connective) (self : Data) (he : e.dtype ≠ .texts) (side : Bool) :
    markedArith k.arith self (.data e) side =
      (plainArith k.arith false self.hidden (.data e.hidden) side).map
        (·.mark (zipWith (· || ·) self.marks e.gaps)) := by
  by_cases hLength : e.length = self.length
  · have hSize : (e.length == self.length) = true := beq_iff_eq.2 hLength
    unfold markedArith
    dsimp only
    rw [hSize]
    cases e with
    | texts ts => exact absurd rfl he
    | _ => cases k <;> rfl
  · have hBelow : e.hidden.length ≠ self.hidden.length := by simpa using hLength
    rw [plainArith_of_ne hBelow]
    unfold markedArith
    cases e with
    | texts ts => exact absurd rfl he
    | _ => cases k <;> exact congrArg (· >>= _) (plainArith_of_ne hBelow)

/-- Apart from texts the arithmetic is done below the marks, and the marks of both sides are kept.
-/
theorem arith_eq (k : Connective) (hd : d.dtype ≠ .texts) (he : e.dtype ≠ .texts) :
    arith k.arith (.data d) (.data e) =
      (plainArith k.arith false d.hidden (.data e.hidden) true).map fun u =>
        if d.isMarked || e.isMarked then u.mark (zipWith (· || ·) d.gaps e.gaps) else u := by
  cases d with
  | texts ts => exact absurd rfl hd
  | nullableInts | nullableFloats | nullableBools => exact markedArith_eq k _ he true
  | ints | floats | bools | objects =>
    cases e with
    | texts ts => exact absurd rfl he
    | nullableInts | nullableFloats | nullableBools =>
      refine (markedArith_eq k _ hd false).trans ?_
      rw [plainArith_swap, zipWith_comm_of_comm Bool.or_comm]
      rfl
    | ints | floats | bools | objects => exact (congrFun Except.map_id _).symm

theorem length_mark (d : Data) (marks : List Bool) (h : d.length = 0) :
    (d.mark marks).length = 0 := by
  cases d <;> obtain rfl := eq_nil_of_length_eq_zero h <;> rfl

/-- Next to texts anything else is taken entry by entry, without its marks. -/
theorem arith_texts (k : Connective) (hd : d.dtype ≠ .texts) (ts : List (Option String)) :
    ∃ f : Data → Data,
      arith k.arith (.data d) (.data (.texts ts)) =
        (textArith k.arith ts (.data d.hidden) false).map f ∧
      ∀ u, u.length = 0 → (f u).length = 0 := by
  cases d with
  | texts ts => exact absurd rfl hd
  | nullableInts | nullableFloats | nullableBools =>
    cases k <;> exact ⟨_, rfl, fun u => length_mark u _⟩
  | ints | floats | bools | objects => exact ⟨id, (congrFun Except.map_id _).symm, fun _ h => h⟩

theorem mapM_truth_marked {cells : List Cell} (h : cells.mapM truth = .ok mask)
    (marks : List Bool) :
    (zipWith (fun x m => if m then .float Binary64.nan else x) cells marks).mapM truth =
      .ok (zipWith (· || ·) marks mask) := by
  have hNan : truth (.float Binary64.nan) = .ok true := by decide +kernel
  rw [mapM_eq_ok_iff] at h ⊢
  induction h generalizing marks with
  | nil =>
    cases marks <;> exact .nil
  | @cons c b cells mask hc _ ih =>
    cases marks with
    | nil => exact .nil
    | cons m marks =>
      refine .cons ?_ (ih marks)
      cases m
      · exact hc
      · exact hNan

theorem toBools_nullable (bs : List (Option Bool)) :
    (nullableBools bs).toBools = .error .badValue ∧ none ∈ bs ∨
    (nullableBools bs).toBools = .ok (bs.map (·.getD false)) ∧ none ∉ bs := by
  by_cases hMarks : none ∈ bs
  · left
    refine ⟨if_pos (any_eq_true.2 ⟨none, hMarks, rfl⟩), hMarks⟩
  · right
    have hAll : ¬ bs.any Option.isNone = true := by
      intro hAny
      obtain ⟨b, hMem, hNone⟩ := any_eq_true.1 hAny
      exact hMarks (Option.isNone_iff_eq_none.1 hNone ▸ hMem)
    refine ⟨(if_neg hAll).trans (congrArg ok ?_), hMarks⟩
    change ((bs.map (·.getD false)).map bool).map asBool = _
    rw [map_map]
    exact map_id _

theorem mem_marks_of_markEntries (h : none ∈ markEntries bs marks) : true ∈ marks := by
  rw [markEntries, ← map_uncurry_zip_eq_zipWith, mem_map] at h
  obtain ⟨⟨b, m⟩, hMem, hEntry⟩ := h
  cases m
  · cases hEntry
  · exact (of_mem_zip hMem).2

theorem markEntries_of_unmarked (h : none ∉ markEntries bs marks) :
    (markEntries bs marks).map (·.getD false) = zipWith (· || ·) marks bs := by
  induction bs generalizing marks with
  | nil => cases marks <;> rfl
  | cons b bs ih =>
    cases marks with
    | nil => rfl
    | cons m marks =>
      cases m
      · exact congrArg (b :: ·) (ih fun hMem => h (mem_cons_of_mem _ hMem))
      · exact absurd mem_cons_self h

/-- Marks stop the reading as truth values, except among objects, where they count as true. -/
theorem toBools_mark {r : Data} (hr : r.dtype = .bools ∨ r.dtype = .objects)
    (hMask : r.toBools = .ok mask) (marks : List Bool) :
    (r.mark marks).toBools = .ok (zipWith (· || ·) marks mask) ∨
    true ∈ marks ∧ ∃ e, (r.mark marks).toBools = .error e := by
  cases r with
  | bools bs =>
    obtain rfl := ok.inj hMask
    rcases toBools_nullable (markEntries bs marks) with ⟨hError, hMarks⟩ | ⟨hOk, hMarks⟩
    · exact .inr ⟨mem_marks_of_markEntries hMarks, _, hError⟩
    · exact .inl (hOk.trans (congrArg ok (markEntries_of_unmarked hMarks)))
  | objects cells => exact .inl (mapM_truth_marked hMask marks)
  | _ => exact hr.elim nofun nofun

/-- Data by which rows can be chosen: truth values with marks, or without any missing. -/
def IsMask (d : Data) : Prop := d.dtype = .nullableBools ∨ ∃ bs, d.OfPlainTruths bs

theorem OfPlainTruths.not_missing (h : d.OfPlainTruths bs) :
    d.missing = d.verdicts.map Option.isNone := by
  cases d with
  | bools cs => exact OfTruths.missing_eq (Or.inl rfl)
  | objects cs =>
    rw [Data.verdicts, map_map]
    refine map_congr_left fun c hc => ?_
    have hTruth : c.truth? ∈ bs.map some := h.verdicts ▸ mem_map_of_mem hc
    obtain ⟨b, -, hb⟩ := mem_map.1 hTruth
    rw [Function.comp_apply, ← hb, isMissing_of_truth? hb.symm]
    rfl
  | _ => rcases h.plain with hType | hType <;> cases hType

theorem IsMask.missing_eq (h : d.IsMask) : d.missing = d.verdicts.map Option.isNone := by
  rcases h with hMarked | ⟨bs, hPlain⟩
  · exact OfTruths.missing_eq (.inr hMarked)
  · exact hPlain.not_missing

theorem exists_nullableBools (h : d.dtype = .nullableBools) : ∃ bs, d = .nullableBools bs := by
  cases d with
  | nullableBools bs => exact ⟨bs, rfl⟩
  | _ => cases h

/-- Below the marks are plain truth values. -/
theorem IsMask.hidden (h : d.IsMask) : d.hidden.OfPlainTruths (d.verdicts.map (·.getD false)) := by
  rcases h with hMarked | ⟨bs, hPlain⟩
  · obtain ⟨bs, rfl⟩ := exists_nullableBools hMarked
    rw [verdicts_nullableBools]
    exact ofPlainTruths_bools _
  · have hSame : d.verdicts.map (·.getD false) = bs := by
      rw [hPlain.verdicts, map_map]
      exact map_id _
    rw [hSame]
    cases d with
    | bools cs => exact hPlain
    | objects cs => exact hPlain
    | _ => exact hPlain.plain.elim nofun nofun

theorem mem_of_mem_zipWith_isNone
    (h : true ∈ zipWith (· || ·) (us.map Option.isNone) (vs.map Option.isNone)) :
    none ∈ us ∨ none ∈ vs := by
  rw [zipWith_map, ← map_uncurry_zip_eq_zipWith, mem_map] at h
  obtain ⟨⟨u, v⟩, hMem, hEntry⟩ := h
  obtain ⟨hu, hv⟩ := of_mem_zip hMem
  rcases Bool.or_eq_true_iff.1 hEntry with hNone | hNone
  · exact .inl (Option.isNone_iff_eq_none.1 hNone ▸ hu)
  · exact .inr (Option.isNone_iff_eq_none.1 hNone ▸ hv)

/-- What comes of a connective: its truth values, with missing ones taken for true, or none at all
if one is missing. -/
def Combines (k : Connective) (us vs : List (Option Bool)) (outcome : Except Fault (List Bool)) :
    Prop :=
  outcome = .ok (List.zipWith k.presumes us vs) ∨ (none ∈ us ∨ none ∈ vs) ∧ ∃ f, outcome = .error f

theorem IsMask.gaps_eq (h : d.IsMask) : d.gaps = d.verdicts.map Option.isNone := by
  rw [← h.missing_eq]
  rcases h with hMarked | ⟨bs, hPlain⟩
  · obtain ⟨bs, rfl⟩ := exists_nullableBools hMarked
    rfl
  · cases d with
    | bools | objects => rfl
    | _ => rcases hPlain.plain with hType | hType <;> cases hType

theorem IsMask.not_texts (h : d.IsMask) : d.dtype ≠ .texts := by
  rintro hTexts
  rcases h with hType | ⟨bs, ⟨hType | hType, -⟩⟩ <;> cases hTexts.symm.trans hType

theorem IsMask.verdicts_of_unmarked (h : d.IsMask) (hUnmarked : d.isMarked = false) :
    d.verdicts = (d.verdicts.map (·.getD false)).map some := by
  rcases h with hMarked | ⟨bs, hPlain⟩
  · obtain ⟨bs, rfl⟩ := exists_nullableBools hMarked
    cases hUnmarked
  · simp [hPlain.verdicts]

/-- A connective on two masks. -/
theorem combines_truthsOf (k : Connective) (hd : d.IsMask) (he : e.IsMask)
    (hLength : d.length = e.length) : Combines k d.verdicts e.verdicts (truthsOf k d e) := by
  obtain ⟨r, hr, hType, hTruths⟩ := exists_plainArith k hd.hidden he.hidden (by simp [hLength])
  rw [truthsOf, arith_eq k hd.not_texts he.not_texts, hr, hd.gaps_eq, he.gaps_eq]
  by_cases hMarks : (d.isMarked || e.isMarked) = true
  · simp only [hMarks, if_true]
    rcases toBools_mark hType hTruths
      (zipWith (· || ·) (d.verdicts.map Option.isNone) (e.verdicts.map Option.isNone)) with
      hOk | ⟨hMark, hError⟩
    · exact .inl (hOk.trans (congrArg ok (k.zipWith_presumes d.verdicts e.verdicts)))
    · exact .inr ⟨mem_of_mem_zipWith_isNone hMark, hError⟩
  · simp only [hMarks]
    simp only [Bool.or_eq_true, not_or, Bool.not_eq_true] at hMarks
    refine .inl (hTruths.trans (congrArg ok ?_))
    rw [hd.verdicts_of_unmarked hMarks.1, he.verdicts_of_unmarked hMarks.2]
    simp [zipWith_map]

theorem map_eq_ok {ε α β : Type} {f : α → β} {x : Except ε α} {b : β} (h : x.map f = .ok b) :
    ∃ a, x = .ok a ∧ f a = b := by
  cases x with
  | error e => cases h
  | ok a => exact ⟨a, rfl, ok.inj h⟩

section Lengths

variable {op : Arith} {self r : Data} {side : Bool}
variable {k : Connective}

theorem length_eq_of_textArith {ts : List (Option String)}
    (h : textArith op ts (.data d) side = .ok r) : d.length = ts.length := by
  by_contra hLength
  have hBad : (d.length != ts.length) = true := bne_iff_ne.2 hLength
  unfold textArith at h
  dsimp only at h
  rw [hBad] at h
  cases h

/-- Only data of one length can be combined. -/
theorem length_eq_of_arith (h : arith k.arith (.data d) (.data e) = .ok r) :
    d.length = e.length := by
  by_cases hd : d.dtype = .texts
  · obtain ⟨ts, rfl⟩ := exists_texts hd
    exact (length_eq_of_textArith h).symm
  by_cases he : e.dtype = .texts
  · obtain ⟨ts, rfl⟩ := exists_texts he
    obtain ⟨f, hArith, -⟩ := arith_texts k hd ts
    obtain ⟨u, hu, -⟩ := map_eq_ok (hArith.symm.trans h)
    exact (length_hidden d).symm.trans (length_eq_of_textArith hu)
  · rw [arith_eq k hd he] at h
    obtain ⟨u, hu, -⟩ := map_eq_ok h
    simpa using (length_eq_of_plainArith hu).symm

end Lengths

section Empty

theorem textArith_empty (op : Arith) (hd : d.length = 0) (side : Bool) :
    textArith op [] (.data d) side = .ok (.texts []) := by
  unfold textArith
  dsimp only
  rw [hd]
  rfl

theorem plainArith_empty (k : Connective) (hd : d.length = 0) (he : e.length = 0) :
    ∃ u, plainArith k.arith false d (.data e) true = .ok u ∧ u.length = 0 := by
  have hFree {c : Data} (hc : c.length = 0) : c.freeCells = [] :=
    eq_nil_of_length_eq_zero (by simpa using hc)
  have hNums {c : Data} {s : NumOperand} (hc : c.length = 0) (hs : ofData? c = some s) :
      s.nums 0 = [] := eq_nil_of_length_eq_zero ((length_nums hs 0).trans hc)
  unfold plainArith
  dsimp only
  rw [hd, he, hFree hd, hFree he]
  cases hl : ofData? d with
  | none => exact ⟨_, rfl, rfl⟩
  | some l =>
    cases hr : ofData? e with
    | none => exact ⟨_, rfl, rfl⟩
    | some r =>
      obtain ⟨type, hType⟩ : ∃ type, NumType.common l r = .ok type := by
        cases d <;> cases hl <;> cases e <;> cases hr <;> exact ⟨_, rfl⟩
      change ∃ u, numArith k.arith 0 l r = .ok u ∧ u.length = 0
      unfold numArith rawNumArith
      rw [hNums hd hl, hNums he hr, hType]
      cases k <;> cases type <;> exact ⟨_, rfl, rfl⟩

theorem arith_empty (k : Connective) (hd : d.length = 0) (he : e.length = 0) :
    ∃ u, arith k.arith (.data d) (.data e) = .ok u ∧ u.length = 0 := by
  by_cases hLeft : d.dtype = .texts
  · obtain ⟨ts, rfl⟩ := exists_texts hLeft
    obtain rfl := eq_nil_of_length_eq_zero hd
    exact ⟨_, textArith_empty k.arith he true, rfl⟩
  have hBelow : d.hidden.length = 0 := (length_hidden d).trans hd
  by_cases hRight : e.dtype = .texts
  · obtain ⟨ts, rfl⟩ := exists_texts hRight
    obtain rfl := eq_nil_of_length_eq_zero he
    obtain ⟨f, hArith, hf⟩ := arith_texts k hLeft []
    rw [hArith, textArith_empty k.arith hBelow]
    exact ⟨_, rfl, hf _ rfl⟩
  · obtain ⟨u, hu, hLength⟩ := plainArith_empty k hBelow ((length_hidden e).trans he)
    rw [arith_eq k hLeft hRight, hu]
    refine ⟨_, rfl, ?_⟩
    dsimp only
    split
    · exact length_mark u _ hLength
    · exact hLength

end Empty

/-- Without entries nothing can go wrong. -/
theorem truthsOf_empty (k : Connective) (hd : d.length = 0) (he : e.length = 0) :
    truthsOf k d e = .ok [] := by
  obtain ⟨u, hu, hLength⟩ := arith_empty k hd he
  rw [truthsOf, hu]
  cases u <;> obtain rfl := eq_nil_of_length_eq_zero hLength <;> rfl

section Names

variable {op : Arith} {r : Data} {side : Bool}
variable {s : String}
variable {ts : List (Option String)}

theorem textArith_head {x : Cell} {xs : List Cell} {m : Bool} {ms : List Bool}
    (hCells : d.spreadCells = x :: xs) (hMissing : d.missing = m :: ms)
    (h : textArith op (some s :: ts) (.data d) side = .ok r) :
    (m = true ∧ ∃ rest, r = .texts (none :: rest)) ∨
    m = false ∧
    ∃ c, arithEntry op (if side then .text s else x) (if side then x else .text s) = .ok c := by
  have hSame : (d.length != (some s :: ts).length) = false :=
    bne_eq_false_iff_eq.2 (length_eq_of_textArith h)
  unfold textArith at h
  dsimp only at h
  rw [hSame, hCells, hMissing] at h
  obtain ⟨others, hOthers, hRest⟩ := bind_eq_ok h
  cases hOthers
  obtain ⟨cells, hEntries, hResult⟩ := bind_eq_ok hRest
  obtain ⟨y, rest, hEntry, -, rfl⟩ := forall₂_cons_left_iff.1 (mapM_eq_ok_iff.1 hEntries)
  cases m
  · refine .inr ⟨rfl, ?_⟩
    cases side
    · obtain ⟨c, hc, -⟩ := bind_eq_ok hEntry
      exact ⟨c, hc⟩
    · obtain ⟨c, hc, -⟩ := bind_eq_ok hEntry
      exact ⟨c, hc⟩
  · cases hEntry
    obtain ⟨entries, hTexts, hr⟩ := bind_eq_ok hResult
    obtain ⟨z, others, hFirst, -, rfl⟩ := forall₂_cons_left_iff.1 (mapM_eq_ok_iff.1 hTexts)
    cases hFirst
    exact .inl ⟨rfl, others, (ok.inj hr).symm⟩

theorem objectArith_head {again : Bool} {a b : Cell} {ls rs : List Cell} (ha : a.isMissing = false)
    (hb : b.isMissing = false) (h : objectArith op none again (a :: ls) (b :: rs) = .ok r) :
    ∃ c, arithEntry op a b = .ok c := by
  unfold objectArith at h
  split at h
  · rename_i cells hEntries
    obtain ⟨c, -, hc, -⟩ := forall₂_cons_left_iff.1 (mapM_eq_ok_iff.1 hEntries)
    exact ⟨c, hc⟩
  · split at h
    · obtain ⟨cells, hEntries, -⟩ := bind_eq_ok h
      obtain ⟨c, -, hc, -⟩ := forall₂_cons_left_iff.1 (mapM_eq_ok_iff.1 hEntries)
      dsimp only at hc
      rw [ha, hb] at hc
      exact ⟨c, hc⟩
    · cases h
  · cases h

/-- Data that is not marked, with an entry at its head that is there. -/
inductive Heads : Data → Cell → Prop where
  | texts (s : String) (ts : List (Option String)) : Heads (.texts (some s :: ts)) (.text s)
  | bools (b : Bool) (bs : List Bool) : Heads (.bools (b :: bs)) (.bool b)
  | objects {c : Cell} (h : c.isMissing = false) (cs : List Cell) : Heads (.objects (c :: cs)) c

variable {k : Connective} {x y : Cell}

theorem Heads.cells (h : d.Heads x) : ∃ xs ms, d.freeCells = x :: xs ∧ d.spreadCells = x :: xs ∧
    d.missing = false :: ms ∧ x.isMissing = false := by
  cases h with
  | objects h cs => exact ⟨cs, _, rfl, rfl, congrArg (· :: cs.map isMissing) h, h⟩
  | _ => exact ⟨_, _, rfl, rfl, rfl, rfl⟩

theorem Heads.spread (h : d.hidden.Heads x) :
    ∃ z zs m ms, d.spreadCells = z :: zs ∧ d.missing = m :: ms ∧ (m = false → z = x) := by
  by_cases hMarked : d.dtype = .nullableBools
  · obtain ⟨bs, rfl⟩ := exists_nullableBools hMarked
    cases bs with
    | nil => cases h
    | cons b bs =>
      cases h
      cases b <;> exact ⟨_, _, _, _, rfl, rfl, by simp⟩
  · have hSame : d.hidden = d := by
      cases d with
      | nullableInts | nullableFloats => cases h
      | nullableBools => exact absurd rfl hMarked
      | _ => rfl
    obtain ⟨xs, ms, -, hSpread, hMissing, -⟩ := (hSame ▸ h).cells
    exact ⟨x, xs, false, ms, hSpread, hMissing, fun _ => rfl⟩

theorem Heads.exists_bool (h : d.hidden.Heads x) (hTexts : d.dtype ≠ .texts)
    (hObjects : d.hidden.dtype ≠ .objects) : ∃ b, x = .bool b := by
  generalize hBelow : d.hidden = u at h hObjects
  cases h with
  | texts s ts =>
    cases d with
    | texts => exact absurd rfl hTexts
    | _ => cases hBelow
  | bools b bs => exact ⟨b, rfl⟩
  | objects h cs => exact absurd rfl hObjects

/-- Unless a missing entry stands next to a text, the first entries have been combined. -/
theorem entry_of_arith (hd : d.hidden.Heads x) (he : e.hidden.Heads y)
    (h : arith k.arith (.data d) (.data e) = .ok r) :
    (∃ c, arithEntry k.arith x y = .ok c) ∨ ∃ rest, r = .texts (none :: rest) := by
  by_cases hLeft : d.dtype = .texts
  · obtain ⟨ts, rfl⟩ := exists_texts hLeft
    cases hd
    obtain ⟨z, zs, m, ms, hCells, hMissing, hHead⟩ := he.spread
    rcases textArith_head hCells hMissing h with ⟨-, hRest⟩ | ⟨hm, hEntry⟩
    · exact .inr hRest
    · exact .inl (hHead hm ▸ hEntry)
  by_cases hRight : e.dtype = .texts
  · obtain ⟨ts, rfl⟩ := exists_texts hRight
    cases he
    obtain ⟨f, hArith, -⟩ := arith_texts k hLeft _
    obtain ⟨u, hu, -⟩ := map_eq_ok (hArith.symm.trans h)
    obtain ⟨xs, ms, -, hCells, hMissing, -⟩ := hd.cells
    rcases textArith_head hCells hMissing hu with ⟨hm, -⟩ | ⟨-, hEntry⟩
    · cases hm
    · exact .inl hEntry
  rw [arith_eq k hLeft hRight] at h
  obtain ⟨u, hu, -⟩ := map_eq_ok h
  refine .inl ?_
  by_cases hObjects : d.hidden.dtype = .objects ∨ e.hidden.dtype = .objects
  · obtain ⟨xs, -, hxs, -, -, hx⟩ := hd.cells
    obtain ⟨ys, -, hys, -, -, hy⟩ := he.cells
    rw [plainArith_objects k.arith hObjects (length_eq_of_plainArith hu), hxs, hys] at hu
    exact objectArith_head hx hy hu
  · rw [not_or] at hObjects
    obtain ⟨a, rfl⟩ := hd.exists_bool hLeft hObjects.1
    obtain ⟨b, rfl⟩ := he.exists_bool hRight hObjects.2
    obtain ⟨c, hc, -⟩ :=
      arithEntry_truths k (rfl : truth? (.bool a) = _) (rfl : truth? (.bool b) = _)
    exact ⟨c, hc⟩

def OfTexts (d : Data) : Prop := ∀ x ∈ d.cells, ∃ s, x = .text s

theorem OfTexts.exists_head (h : d.OfTexts) (hLength : d.length ≠ 0) :
    ∃ s, d.hidden.Heads (.text s) := by
  obtain ⟨x, xs, hCells⟩ := exists_cons_of_length_pos
    (Nat.pos_of_ne_zero (d.length_cells.symm ▸ hLength : d.cells.length ≠ 0))
  obtain ⟨s, rfl⟩ := h x (hCells ▸ mem_cons_self)
  cases d with
  | texts ts =>
    obtain ⟨t, ts, rfl, hHead, -⟩ := map_eq_cons_iff.1 hCells
    cases t with
    | none => cases hHead
    | some t => exact ⟨t, .texts t ts⟩
  | objects cs =>
    obtain rfl : cs = _ := hCells
    exact ⟨s, .objects rfl xs⟩
  | ints | floats | bools =>
    obtain ⟨n, ns, rfl, hHead, -⟩ := map_eq_cons_iff.1 hCells
    cases hHead
  | nullableInts | nullableFloats | nullableBools =>
    obtain ⟨n, ns, rfl, hHead, -⟩ := map_eq_cons_iff.1 hCells
    cases n <;> cases hHead

theorem OfPlainTruths.exists_head (h : d.OfPlainTruths bs) (hLength : d.length ≠ 0) :
    ∃ x b, d.Heads x ∧ x.truth? = some b := by
  cases d with
  | bools cs =>
    obtain ⟨b, cs, rfl⟩ := exists_cons_of_length_pos (Nat.pos_of_ne_zero hLength)
    exact ⟨_, b, .bools b cs, rfl⟩
  | objects cs =>
    obtain ⟨c, cs, rfl⟩ := exists_cons_of_length_pos (Nat.pos_of_ne_zero hLength)
    obtain ⟨b, -, -, hTruth, -⟩ := map_eq_cons_iff.1 h.verdicts.symm
    exact ⟨c, b, .objects (isMissing_of_truth? hTruth.symm) cs, hTruth.symm⟩
  | _ => rcases h.plain with hType | hType <;> cases hType

theorem IsMask.exists_head (h : d.IsMask) (hLength : d.length ≠ 0) :
    ∃ x b, d.hidden.Heads x ∧ x.truth? = some b :=
  h.hidden.exists_head ((length_hidden d).symm ▸ hLength)

/-- What cannot be done to the first entries is refused. -/
theorem truthsOf_ne (hd : d.hidden.Heads x) (he : e.hidden.Heads y)
    (hEntry : ∀ c, arithEntry k.arith x y ≠ .ok c) (mask : List Bool) :
    truthsOf k d e ≠ .ok mask := by
  intro h
  obtain ⟨r, hr, hTruths⟩ := bind_eq_ok h
  rcases entry_of_arith hd he hr with ⟨c, hc⟩ | ⟨rest, rfl⟩
  · exact hEntry c hc
  · cases hTruths

theorem length_eq_of_truthsOf (h : truthsOf k d e = .ok mask) : d.length = e.length := by
  obtain ⟨r, hr, -⟩ := bind_eq_ok h
  exact length_eq_of_arith hr

/-- The product of texts is refused. -/
theorem product_of_texts (hd : d.OfTexts) (he : e.OfTexts) (hLength : d.length ≠ 0)
    (mask : List Bool) : truthsOf .both d e ≠ .ok mask := by
  intro h
  obtain ⟨s, hs⟩ := hd.exists_head hLength
  obtain ⟨t, ht⟩ := he.exists_head (length_eq_of_truthsOf h ▸ hLength)
  exact truthsOf_ne (k := .both) hs ht (fun _ hc => by cases hc) mask h

/-- The sum of truth values and texts is refused. -/
theorem sum_of_mask_and_texts (hd : d.IsMask) (he : e.OfTexts) (hLength : e.length ≠ 0)
    (mask : List Bool) : truthsOf .either d e ≠ .ok mask := by
  intro h
  obtain ⟨x, b, hx, hTruth⟩ := hd.exists_head ((length_eq_of_truthsOf h).symm ▸ hLength)
  obtain ⟨s, hs⟩ := he.exists_head hLength
  exact truthsOf_ne (k := .either) hx hs (fun c => (arithEntry_add_text hTruth s c).2) mask h

theorem sum_of_texts_and_mask (hd : d.OfTexts) (he : e.IsMask) (hLength : d.length ≠ 0)
    (mask : List Bool) : truthsOf .either d e ≠ .ok mask := by
  intro h
  obtain ⟨s, hs⟩ := hd.exists_head hLength
  obtain ⟨x, b, hx, hTruth⟩ := he.exists_head (length_eq_of_truthsOf h ▸ hLength)
  exact truthsOf_ne (k := .either) hs hx (fun c => (arithEntry_add_text hTruth s c).1) mask h

end Names

end Data

end TableQuery
