import Mathlib
import TableQuery.Cell.Order

/-! The order of numbers. Whole numbers and finite doubles stand at the fraction that they are, and
the double that is no number above everything. Sorting compares places, so it is a linear preorder.
-/
namespace TableQuery

open Float.Model Float.Model.UnpackedFloat Binary64 Format Nat

/-- An increasing function does not change how two values compare. -/
theorem compare_map {α β : Type} [LinearOrder α] [LinearOrder β] {f : α → β} (hf : StrictMono f)
    (a b : α) : compare (f a) (f b) = compare a b := by
  rw [← cmp_eq_compare, ← cmp_eq_compare, hf.cmp_map_eq]

/-- Where a number can stand: at a fraction, below or above all fractions, or above everything. -/
abbrev Place := WithTop (WithTop (WithBot ℚ))

namespace Place

def ofRat (q : ℚ) : Place := ((q : WithBot ℚ) : WithTop (WithBot ℚ))

def below : Place := ((⊥ : WithBot ℚ) : WithTop (WithBot ℚ))

def above : Place := (⊤ : WithTop (WithBot ℚ))

def ofUnpacked : UnpackedFloat → Place
  | .notANumber => ⊤
  | .infinity .positive => above
  | .infinity .negative => below
  | .zero _ => ofRat 0
  | .finite .positive m e _ => ofRat (m * 2 ^ e)
  | .finite .negative m e _ => ofRat (-(m * 2 ^ e))

end Place

/-- The exponent is the least one, or the mantissa has its full length. -/
def Binary64.IsCanonical (m : Nat) (e : Int) : Prop :=
  m < 2 ^ 53 ∧ -1074 ≤ e ∧ (e = -1074 ∨ 2 ^ 52 ≤ m)

namespace Binary64

variable {m n : Nat} {d e : Int}

theorem IsCanonical.scaled_lt (hm : IsCanonical m d) (hn : IsCanonical n e)
    (h : d < e) : (m : ℚ) * 2 ^ d < n * 2 ^ e := by
  have hFull : 2 ^ 52 ≤ n := hn.2.2.resolve_left (by have := hm.2.1; omega)
  have hNext : (2 : ℚ) * 2 ^ d ≤ 2 ^ e := by
    rw [mul_comm, ← zpow_add_one₀ (by norm_num)]
    exact zpow_le_zpow_right₀ (by norm_num) h
  have hBelow : (m : ℚ) < 2 ^ 53 := by exact_mod_cast hm.1
  have hAbove : (2 : ℚ) ^ 52 ≤ n := by exact_mod_cast hFull
  calc (m : ℚ) * 2 ^ d < 2 ^ 53 * 2 ^ d := by gcongr
    _ = 2 ^ 52 * (2 * 2 ^ d) := by ring
    _ ≤ n * 2 ^ e := by gcongr

/-- Exponents first, then mantissas: that is the order of the fractions. -/
theorem IsCanonical.compare_eq (hm : IsCanonical m d) (hn : IsCanonical n e) :
    (compare d e).then (compare m n) = compare ((m : ℚ) * 2 ^ d) (n * 2 ^ e) := by
  rcases lt_trichotomy d e with h | h | h
  · rw [compare_lt_iff_lt.mpr h, compare_lt_iff_lt.mpr (hm.scaled_lt hn h)]
    rfl
  · subst h
    rw [compare_eq_iff_eq.mpr rfl]
    change compare m n = _
    rcases lt_trichotomy m n with h | h | h
    · rw [compare_lt_iff_lt.mpr h, eq_comm, compare_lt_iff_lt]
      gcongr
    · rw [h, compare_eq_iff_eq.mpr rfl, compare_eq_iff_eq.mpr rfl]
    · rw [compare_gt_iff_gt.mpr h, eq_comm, compare_gt_iff_gt]
      gcongr
  · rw [compare_gt_iff_gt.mpr h, compare_gt_iff_gt.mpr (hn.scaled_lt hm h)]
    rfl

def Canonical : UnpackedFloat → Prop
  | .finite _ m e _ => IsCanonical m e
  | _ => True

abbrev bits (x : Float) : Nat := x.toBits.toNat

section Words

variable (v : BitVec 64)

theorem unpackSign_toNat : (@unpackSign binary64 v).toNat = v.toNat / 2 ^ 63 := by
  have := v.isLt
  simp [unpackSign, shiftRight_eq_div_pow]
  omega

theorem unpackExponent_toNat : (@unpackExponent binary64 v).toNat = v.toNat / 2 ^ 52 % 2048 := by
  simp [unpackExponent, shiftRight_eq_div_pow]

theorem unpackMantissa_toNat : (@unpackMantissa binary64 v).toNat = v.toNat % 2 ^ 52 := by
  simp [unpackMantissa]

/-- The mantissa with its leading bit. -/
theorem fullMantissa_toNat :
    (1#1 ++ @unpackMantissa binary64 v).toNat = (@unpackMantissa binary64 v).toNat + 2 ^ 52 := by
  rw [BitVec.toNat_append, ← shiftLeft_add_eq_or_of_lt (BitVec.isLt _)]
  exact Nat.add_comm _ _

end Words

theorem signBit_eq (x : Float) : Sign.ofBitVec (@unpackSign binary64 x.toModel.toBits.toBitVec) =
      if signBit x then .negative else .positive := by
  have hSign : (@unpackSign binary64 x.toModel.toBits.toBitVec).toNat = bits x / 2 ^ 63 :=
    unpackSign_toNat _
  have hBit : signBit x = (bits x / 2 ^ 63 == 1) := rfl
  rcases (show bits x / 2 ^ 63 = 0 ∨ bits x / 2 ^ 63 = 1 by omega) with h | h
  · have hZero : @unpackSign binary64 x.toModel.toBits.toBitVec = 0#1 :=
      BitVec.eq_of_toNat_eq (by rw [hSign, h]; rfl)
    rw [hZero, hBit, h]
    rfl
  · have hOne : @unpackSign binary64 x.toModel.toBits.toBitVec = 1#1 :=
      BitVec.eq_of_toNat_eq (by rw [hSign, h]; rfl)
    rw [hOne, hBit, h]
    rfl

theorem ofFloat?_eq (x : Float) :
    ofFloat? x =
      if bits x / 2 ^ 52 % 2048 = 2047 then none
        else if bits x / 2 ^ 52 % 2048 = 0 then some ⟨signBit x, bits x % 2 ^ 52, -1074⟩
          else some ⟨signBit x, bits x % 2 ^ 52 + 2 ^ 52,
            ((bits x / 2 ^ 52 % 2048 : Nat) : Int) - 1075⟩ := by
  unfold ofFloat?
  simp only [beq_iff_eq]
  rfl

/-- What a double is, read off its bits: no number, infinite, zero, or a number with the parts in
its bits. -/
theorem unpack_cases (x : Float) :
    (x.toModel.unpack = .notANumber ∧ ofFloat? x = none) ∨
    (x.toModel.unpack = .infinity (if signBit x then .negative else .positive) ∧
      ofFloat? x = none) ∨
    (∃ s, x.toModel.unpack = .zero s ∧ ofFloat? x = some ⟨signBit x, 0, -1074⟩) ∨
    ∃ m e h, x.toModel.unpack = .finite (if signBit x then .negative else .positive) m e h ∧
      IsCanonical m e ∧ ofFloat? x = some ⟨signBit x, m, e⟩ := by
  have hExponent : (@unpackExponent binary64 x.toModel.toBits.toBitVec).toNat =
      bits x / 2 ^ 52 % 2048 := unpackExponent_toNat _
  have hMantissa : (@unpackMantissa binary64 x.toModel.toBits.toBitVec).toNat = bits x % 2 ^ 52 :=
    unpackMantissa_toNat _
  have hBias : binary64.exponentBias = 1023 := rfl
  simp only [Float.Model.unpack, UnpackedFloat.unpack, signBit_eq]
  split
  · rename_i hTop
    have hTop : bits x / 2 ^ 52 % 2048 = 2047 := by rw [← hExponent, hTop]; rfl
    have hNone : ofFloat? x = none := by rw [ofFloat?_eq, if_pos hTop]
    split
    · exact .inr (.inl ⟨rfl, hNone⟩)
    · exact .inl ⟨rfl, hNone⟩
  · rename_i hTop
    have hTop : bits x / 2 ^ 52 % 2048 ≠ 2047 := by
      intro h
      exact hTop (BitVec.eq_of_toNat_eq (by rw [hExponent, h]; rfl))
    split
    · rename_i hLow
      have hLow : bits x / 2 ^ 52 % 2048 = 0 := by rw [← hExponent, hLow]; rfl
      split
      · rename_i hZero
        have hZero : bits x % 2 ^ 52 = 0 := by rw [← hMantissa, hZero]; rfl
        exact .inr (.inr (.inl ⟨_, rfl, by rw [ofFloat?_eq, if_neg hTop, if_pos hLow, hZero]⟩))
      · rename_i hZero
        have hPos : 0 < (@unpackMantissa binary64
            x.toModel.toBits.toBitVec).toNat := by
          rw [pos_iff_ne_zero]
          intro h
          exact hZero (BitVec.eq_of_toNat_eq h)
        refine .inr (.inr (.inr ⟨_, _, hPos, rfl, ?_, ?_⟩))
        · refine ⟨?_, ?_, .inl ?_⟩ <;> omega
        · rw [hExponent, hLow, hBias, ofFloat?_eq, if_neg hTop, if_pos hLow]
          rfl
    · rename_i hLow
      have hLow : bits x / 2 ^ 52 % 2048 ≠ 0 := by
        intro h
        exact hLow (BitVec.eq_of_toNat_eq (by rw [hExponent, h]; rfl))
      have hFull := fullMantissa_toNat x.toModel.toBits.toBitVec
      rw [hMantissa] at hFull
      refine .inr (.inr (.inr ⟨_, _, by rw [hFull]; positivity, rfl, ?_, ?_⟩))
      · refine ⟨?_, ?_, .inr ?_⟩ <;> omega
      · rw [hFull, hExponent, ofFloat?_eq, if_neg hTop, if_neg hLow]
        rfl

theorem unpack_canonical (x : Float) : Canonical x.toModel.unpack := by
  rcases unpack_cases x with ⟨h, -⟩ | ⟨h, -⟩ | ⟨s, h, -⟩ | ⟨m, e, hp, h, hCanonical, -⟩ <;> rw [h]
  · trivial
  · trivial
  · trivial
  · exact hCanonical

end Binary64

namespace Place

variable {x : Float}

theorem ofRat_strictMono : StrictMono ofRat := fun _ _ h =>
  WithTop.coe_lt_coe.mpr (WithTop.coe_lt_coe.mpr (WithBot.coe_lt_coe.mpr h))

theorem compare_ofRat (p q : ℚ) : compare (ofRat p) (ofRat q) = compare p q :=
  compare_map ofRat_strictMono p q

theorem below_lt (q : ℚ) : below < ofRat q :=
  WithTop.coe_lt_coe.mpr (WithTop.coe_lt_coe.mpr (WithBot.bot_lt_coe q))

theorem lt_above (q : ℚ) : ofRat q < above :=
  WithTop.coe_lt_coe.mpr (WithTop.coe_lt_top _)

theorem below_lt_above : below < above := WithTop.coe_lt_coe.mpr (WithTop.coe_lt_top _)

theorem compare_neg (p q : ℚ) : (compare p q).swap = compare (-p) (-q) := by
  rw [← cmp_eq_compare, ← cmp_eq_compare, cmp_swap]
  have hAnti : StrictAnti (Neg.neg : ℚ → ℚ) := fun _ _ h => neg_lt_neg h
  exact (hAnti.cmp_map_eq p q).symm

theorem compare_notANumber (u : UnpackedFloat) : u.compare .notANumber = none := by
  cases u <;> rfl

/-- Doubles that are numbers compare as their places do. -/
theorem compare_ofUnpacked {u v : UnpackedFloat} (hu : Canonical u) (hv : Canonical v)
    (hu' : u ≠ .notANumber) (hv' : v ≠ .notANumber) :
    u.compare v = some (compare (ofUnpacked u) (ofUnpacked v)) := by
  have hPos (m : Nat) (e : Int) (h : 0 < m) : (0 : ℚ) < m * 2 ^ e := by positivity
  cases u with
  | notANumber => exact absurd rfl hu'
  | infinity s =>
    cases v with
    | notANumber => exact absurd rfl hv'
    | infinity t =>
      cases s <;> cases t <;> simp only [UnpackedFloat.compare, ofUnpacked]
      · rw [compare_eq_iff_eq.mpr rfl]; rfl
      · rw [compare_lt_iff_lt.mpr below_lt_above]; rfl
      · rw [compare_gt_iff_gt.mpr below_lt_above]; rfl
      · rw [compare_eq_iff_eq.mpr rfl]; rfl
    | zero t =>
      cases s <;> simp only [UnpackedFloat.compare, ofUnpacked]
      · rw [compare_lt_iff_lt.mpr (below_lt _)]
      · rw [compare_gt_iff_gt.mpr (lt_above _)]
    | finite t n d hn =>
      cases s <;> cases t <;> simp only [UnpackedFloat.compare, ofUnpacked]
      · rw [compare_lt_iff_lt.mpr (below_lt _)]
      · rw [compare_lt_iff_lt.mpr (below_lt _)]
      · rw [compare_gt_iff_gt.mpr (lt_above _)]
      · rw [compare_gt_iff_gt.mpr (lt_above _)]
  | zero s =>
    cases v with
    | notANumber => exact absurd rfl hv'
    | infinity t =>
      cases t <;> simp only [UnpackedFloat.compare, ofUnpacked]
      · rw [compare_gt_iff_gt.mpr (below_lt _)]
      · rw [compare_lt_iff_lt.mpr (lt_above _)]
    | zero t => simp only [UnpackedFloat.compare, ofUnpacked, compare_eq_iff_eq.mpr]
    | finite t n d hn =>
      have := hPos n d hn
      cases t <;> simp only [UnpackedFloat.compare, ofUnpacked, compare_ofRat]
      · rw [compare_gt_iff_gt.mpr (by linarith)]
      · rw [compare_lt_iff_lt.mpr this]
  | finite s m e hm =>
    have hm' := hPos m e hm
    cases v with
    | notANumber => exact absurd rfl hv'
    | infinity t =>
      cases s <;> cases t <;> simp only [UnpackedFloat.compare, ofUnpacked]
      · rw [compare_gt_iff_gt.mpr (below_lt _)]
      · rw [compare_lt_iff_lt.mpr (lt_above _)]
      · rw [compare_gt_iff_gt.mpr (below_lt _)]
      · rw [compare_lt_iff_lt.mpr (lt_above _)]
    | zero t =>
      cases s <;> simp only [UnpackedFloat.compare, ofUnpacked, compare_ofRat]
      · rw [compare_lt_iff_lt.mpr (by linarith)]
      · rw [compare_gt_iff_gt.mpr hm']
    | finite t n d hn =>
      have hn' := hPos n d hn
      cases s <;> cases t <;> simp only [UnpackedFloat.compare, ofUnpacked, compare_ofRat]
      · rw [IsCanonical.compare_eq hu hv]
        exact congrArg some (compare_neg _ _)
      · rw [compare_lt_iff_lt.mpr (by linarith)]
      · rw [compare_gt_iff_gt.mpr (by linarith)]
      · rw [IsCanonical.compare_eq hu hv]

def ofFloat (x : Float) : Place := ofUnpacked x.toModel.unpack

theorem ofUnpacked_ne_top {u : UnpackedFloat} (h : u ≠ .notANumber) : ofUnpacked u ≠ ⊤ := by
  cases u with
  | notANumber => exact absurd rfl h
  | infinity s => cases s <;> exact WithTop.coe_ne_top
  | zero s => exact WithTop.coe_ne_top
  | finite s m e hm => cases s <;> exact WithTop.coe_ne_top

theorem ofFloat_eq_top_iff : ofFloat x = ⊤ ↔ x.toModel.unpack = .notANumber := by
  constructor
  · intro h
    by_contra hx
    exact ofUnpacked_ne_top hx h
  · intro h
    rw [ofFloat, h]
    rfl

theorem isNaN_iff : x.isNaN = true ↔ ofFloat x = ⊤ := by
  rw [ofFloat_eq_top_iff]
  change x.toModel.unpack.isNaN = true ↔ _
  cases x.toModel.unpack <;> simp [UnpackedFloat.isNaN]

/-- Finite doubles stand at the signed mantissa times the power of two. -/
theorem ofFloat_of_parts {b : Binary64} (h : ofFloat? x = some b) :
    ofFloat x =
      ofRat ((if b.negative then -(b.mantissa : ℤ) else b.mantissa : ℤ) * 2 ^ b.exponent) := by
  rcases unpack_cases x with
    ⟨-, hNone⟩ | ⟨-, hNone⟩ | ⟨s, hu, hSome⟩ | ⟨m, e, hp, hu, -, hSome⟩
  · rw [hNone] at h; cases h
  · rw [hNone] at h; cases h
  · rw [hSome] at h
    cases h
    rw [ofFloat, hu]
    simp [ofUnpacked]
  · rw [hSome] at h
    cases h
    rw [ofFloat, hu]
    cases signBit x <;> simp [ofUnpacked]

/-- A double without parts is infinite or no number. -/
theorem ofFloat_of_no_parts (h : ofFloat? x = none)
    (hNumber : ofFloat x ≠ ⊤) : ofFloat x = if signBit x then below else above := by
  rcases unpack_cases x with
    ⟨hu, -⟩ | ⟨hu, -⟩ | ⟨s, -, hSome⟩ | ⟨m, e, hp, -, -, hSome⟩
  · exact absurd (ofFloat_eq_top_iff.mpr hu) hNumber
  · rw [ofFloat, hu]
    cases signBit x <;> rfl
  · rw [hSome] at h; cases h
  · rw [hSome] at h; cases h

end Place

namespace Binary64

/-- A whole number and a finite double compare as fractions do. -/
theorem compareInt_eq (n : Int) (b : Binary64) : compareInt n b = compare (n : ℚ)
      ((if b.negative then -(b.mantissa : ℤ) else b.mantissa : ℤ) * 2 ^ b.exponent) := by
  unfold compareInt
  generalize (if b.negative then -(b.mantissa : ℤ) else b.mantissa : ℤ) = signed
  split
  · rename_i h
    have hScale : (2 : ℚ) ^ b.exponent = ((2 ^ b.exponent.toNat : ℤ) : ℚ) := by
      rw [Int.cast_pow, Int.cast_ofNat, ← zpow_natCast, Int.toNat_of_nonneg h]
    rw [hScale, ← Int.cast_mul, compare_map Int.cast_strictMono]
    simp only [pow_eq, cast_pow, cast_ofNat]
  · have hScale : (2 : ℚ) ^ b.exponent * ((2 ^ (-b.exponent).toNat : ℤ) : ℚ) = 1 := by
      rw [Int.cast_pow, Int.cast_ofNat, ← zpow_natCast, Int.toNat_of_nonneg (by omega),
        ← zpow_add₀ (by norm_num), add_neg_cancel, zpow_zero]
    have hPos : (0 : ℚ) < ((2 ^ (-b.exponent).toNat : ℤ) : ℚ) := by positivity
    rw [← compare_map (f := fun q : ℚ => q * ((2 ^ (-b.exponent).toNat : ℤ) : ℚ))
      (fun _ _ h => mul_lt_mul_of_pos_right h hPos)]
    simp only [mul_assoc, hScale, mul_one]
    rw [← Int.cast_mul, compare_map Int.cast_strictMono]
    simp only [pow_eq, cast_pow, cast_ofNat]

/-- A whole number and a double compare as their places do, unless the double is no number. -/
theorem compareIntFloat_eq (n : Int) (x : Float) : compareIntFloat n x =
      if Place.ofFloat x = ⊤ then none else some (compare (Place.ofRat n) (Place.ofFloat x)) := by
  unfold compareIntFloat
  cases hParts : ofFloat? x with
  | some b =>
    have hPlace := Place.ofFloat_of_parts hParts
    have hNumber : Place.ofFloat x ≠ ⊤ := by rw [hPlace]; exact WithTop.coe_ne_top
    rw [if_neg hNumber, hPlace, Place.compare_ofRat, ← compareInt_eq]
  | none =>
    by_cases hNumber : Place.ofFloat x = ⊤
    · rw [if_pos hNumber]
      exact if_pos (Place.isNaN_iff.mpr hNumber)
    · have hReal : ¬x.isNaN = true := fun h => hNumber (Place.isNaN_iff.mp h)
      rw [Place.ofFloat_of_no_parts hParts hNumber]
      refine (if_neg hReal).trans ?_
      cases signBit x
      · exact congrArg some (compare_lt_iff_lt.mpr (Place.lt_above n)).symm
      · exact congrArg some (compare_gt_iff_gt.mpr (Place.below_lt n)).symm

end Binary64

namespace Num

variable {a : Num}

/-- The place of a number. Truth values stand at 0 and 1. -/
def place : Num → Place
  | .bool b => Place.ofRat ((if b then 1 else 0 : ℤ) : ℚ)
  | .int n => Place.ofRat n
  | .float x => Place.ofFloat x

theorem place_of_asInt? {n : Int} (h : a.asInt? = some n) : a.place = Place.ofRat n := by
  cases a <;> cases h <;> rfl

theorem eq_float_of_asInt? (h : a.asInt? = none) : ∃ x, a = .float x := by
  cases a with
  | bool b => cases h
  | int n => cases h
  | float x => exact ⟨x, rfl⟩

/-- Two doubles are equal exactly if the comparison of their parts says so. -/
theorem beq_floats_iff {x y : Float} :
    (x == y) = true ↔ x.toModel.unpack.compare y.toModel.unpack = some .eq := by
  change (x.toModel.unpack.compare y.toModel.unpack == some .eq) = true ↔ _
  rw [beq_iff_eq]

/-- Doubles are ordered as their places are, and a double that is no number not at all. -/
theorem orderFloats?_eq (x y : Float) :
    orderFloats? x y =
      if Place.ofFloat x = ⊤ ∨ Place.ofFloat y = ⊤ then none
        else some (compare (Place.ofFloat x) (Place.ofFloat y)) := by
  have hLt (x y : Float) : x < y ↔ x.toModel.unpack.compare y.toModel.unpack = some .lt := by
    change decide (x.toModel < y.toModel) = true ↔ _
    rw [decide_eq_true_iff]
    change (x.toModel.unpack.compare y.toModel.unpack == some .lt) = true ↔ _
    rw [beq_iff_eq]
  unfold orderFloats?
  by_cases hNumbers : Place.ofFloat x = ⊤ ∨ Place.ofFloat y = ⊤
  · rw [if_pos hNumbers]
    rw [Place.ofFloat_eq_top_iff, Place.ofFloat_eq_top_iff] at hNumbers
    have hNone : x.toModel.unpack.compare y.toModel.unpack = none ∧
        y.toModel.unpack.compare x.toModel.unpack = none := by
      rcases hNumbers with h | h <;> rw [h]
      · exact ⟨rfl, Place.compare_notANumber _⟩
      · exact ⟨Place.compare_notANumber _, rfl⟩
    simp [hLt, beq_floats_iff, hNone.1, hNone.2]
  · rw [if_neg hNumbers]
    rw [Place.ofFloat_eq_top_iff, Place.ofFloat_eq_top_iff, not_or] at hNumbers
    have hCompare := Place.compare_ofUnpacked (unpack_canonical x)
      (unpack_canonical y) hNumbers.1 hNumbers.2
    have hBack := Place.compare_ofUnpacked (unpack_canonical y)
      (unpack_canonical x) hNumbers.2 hNumbers.1
    simp only [hLt, beq_floats_iff, hCompare, hBack, Option.some.injEq, compare_lt_iff_lt,
      compare_eq_iff_eq]
    change _ =
      some (compare (Place.ofUnpacked x.toModel.unpack) (Place.ofUnpacked y.toModel.unpack))
    rcases lt_trichotomy (Place.ofUnpacked x.toModel.unpack)
      (Place.ofUnpacked y.toModel.unpack) with h | h | h
    · rw [if_pos h, compare_lt_iff_lt.mpr h]
    · rw [if_neg h.not_lt, if_neg h.not_gt, if_pos h, compare_eq_iff_eq.mpr h]
    · rw [if_neg h.not_gt, if_pos h, compare_gt_iff_gt.mpr h]

/-- Numbers of all forms compare as their places do, unless one is no number. -/
theorem order?_eq (a b : Num) : a.order? b =
      if a.place = ⊤ ∨ b.place = ⊤ then none else some (compare a.place b.place) := by
  have hRat (q : ℚ) : Place.ofRat q ≠ ⊤ := WithTop.coe_ne_top
  unfold order?
  cases ha : a.asInt? with
  | some m =>
    cases hb : b.asInt? with
    | some n =>
      rw [place_of_asInt? ha, place_of_asInt? hb, Place.compare_ofRat,
        compare_map Int.cast_strictMono]
      simp [hRat]
    | none =>
      obtain ⟨y, rfl⟩ := eq_float_of_asInt? hb
      rw [place_of_asInt? ha]
      simp [compareIntFloat_eq, hRat, place, toFloat]
  | none =>
    cases hb : b.asInt? with
    | some n =>
      obtain ⟨x, rfl⟩ := eq_float_of_asInt? ha
      rw [place_of_asInt? hb]
      simp only [compareIntFloat_eq, hRat, place, toFloat, or_false]
      split
      · rfl
      · rw [Option.map_some, ← cmp_eq_compare, ← cmp_eq_compare, cmp_swap]
    | none =>
      obtain ⟨x, rfl⟩ := eq_float_of_asInt? ha
      obtain ⟨y, rfl⟩ := eq_float_of_asInt? hb
      exact orderFloats?_eq x y

theorem isNaN_iff (a : Num) : a.isNaN = true ↔ a.place = ⊤ := by
  cases a with
  | bool b => simp [isNaN, place, Place.ofRat]
  | int n => simp [isNaN, place, Place.ofRat]
  | float x => exact Place.isNaN_iff

/-- Sorting puts numbers in the order of their places. -/
theorem sortsBefore_iff (a b : Num) : a.sortsBefore b = true ↔ a.place ≤ b.place := by
  unfold sortsBefore
  rw [order?_eq]
  by_cases hNumbers : a.place = ⊤ ∨ b.place = ⊤
  · rw [if_pos hNumbers]
    rw [isNaN_iff]
    constructor
    · intro h
      rw [h]
      exact le_top
    · intro h
      rcases hNumbers with ha | hb
      · rwa [ha, top_le_iff] at h
      · exact hb
  · rw [if_neg hNumbers]
    rw [bne_iff_ne, ne_eq, compare_gt_iff_gt, not_lt]

end Num

end TableQuery
