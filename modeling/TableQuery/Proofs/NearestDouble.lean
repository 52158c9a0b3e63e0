import TableQuery.Proofs.NumberOrder

/-! The double nearest to a whole number. Words that spell numbers are the bits of the doubles made
of them, and a whole number up to `2^53` is a double, so that it is its own nearest double
(`place_ofInt`). -/
namespace TableQuery

open Float.Model Float.Model.UnpackedFloat Format UnpackedFloat Place

namespace Binary64

variable {n m : Nat}

section Words

variable (v : BitVec 64)

/-- A word is put together from its parts. -/
theorem packComponents_unpack :
    packComponents binary64 (Sign.ofBitVec (@unpackSign binary64 v)) (unpackExponent v)
      (unpackMantissa v) = v := by
  have hSign : (Sign.ofBitVec (@unpackSign binary64 v)).toBitVec = @unpackSign binary64 v := by
    generalize @unpackSign binary64 v = s
    revert s
    decide
  have hExponent : (@unpackExponent binary64 v).toNat < 2 ^ 11 := BitVec.isLt _
  have hMantissa : (@unpackMantissa binary64 v).toNat < 2 ^ 52 := BitVec.isLt _
  apply BitVec.eq_of_toNat_eq
  unfold packComponents
  rw [hSign, BitVec.toNat_append, BitVec.toNat_append, ← Nat.shiftLeft_add_eq_or_of_lt hExponent,
    ← Nat.shiftLeft_add_eq_or_of_lt hMantissa, unpackSign_toNat, unpackExponent_toNat,
    unpackMantissa_toNat, Nat.shiftLeft_eq]
  omega

abbrev biasedExponent (e : Int) : Nat :=
  (e + Format.binary64.exponentBias + Format.binary64.mantissaBitsWithoutImplicit).toNat

theorem pack_finite {sign : Sign} {e : Int} (hm : 0 < m) (hBound : biasedExponent e + 1 < 2 ^ 11) :
    pack binary64 (.finite sign m e hm) =
      packComponents binary64 sign
        (if m.log2 = 52 then BitVec.ofNat 11 (biasedExponent e) else 0#11) (BitVec.ofNat 52 m) := by
  have hLog : m.log2 + 1 = binary64.mantissaBits ↔ m.log2 = 52 := by
    change m.log2 + 1 = 53 ↔ _
    omega
  unfold UnpackedFloat.pack
  rw [if_neg (Nat.not_le.2 hBound)]
  by_cases h : m.log2 = 52
  · rw [if_pos (hLog.2 h), if_pos h]
  · rw [if_neg (fun h' => h (hLog.1 h')), if_neg h]

/-- Every word that spells a number is kept. -/
theorem pack_unpack (h : @unpackExponent binary64 v = -1#_ → @unpackMantissa binary64 v = 0#_) :
    pack binary64 (unpack binary64 v) = v := by
  have hWord := packComponents_unpack v
  have hMantissa : (@unpackMantissa binary64 v).toNat < 2 ^ 52 := BitVec.isLt _
  have hExponent : (@unpackExponent binary64 v).toNat < 2 ^ 11 := BitVec.isLt _
  unfold UnpackedFloat.unpack
  dsimp only
  split_ifs with hTop hZero hLow hZero
  · rw [hTop, h hTop] at hWord
    exact hWord
  · exact absurd (h hTop) hZero
  · rw [hLow, hZero] at hWord
    exact hWord
  · -- a subnormal number has the least exponent and a mantissa without the leading bit
    have hLog : (@unpackMantissa binary64 v).toNat.log2 ≠ 52 := by
      intro hLog
      have hLead := Nat.log2_self_le (n := (@unpackMantissa binary64 v).toNat)
        (fun h0 => hZero (BitVec.eq_of_toNat_eq h0))
      rw [hLog] at hLead
      omega
    have hBound : biasedExponent (((@unpackExponent binary64 v).toNat : Int) -
        (binary64.exponentBias + binary64.mantissaBitsWithoutImplicit) + 1) + 1 < 2 ^ 11 := by
      rw [hLow]
      decide
    rw [pack_finite _ hBound, if_neg hLog]
    rw [hLow] at hWord
    exact (congrArg (packComponents binary64 _ 0#11) (BitVec.ofNat_toNat _ _)).trans
      (by simpa using hWord)
  · have hFull := fullMantissa_toNat v
    have hLog : (1#1 ++ @unpackMantissa binary64 v).toNat.log2 = 52 := by
      exact (Nat.log2_eq_iff (by omega)).2 ⟨by omega, by omega⟩
    have hBiased : biasedExponent (((@unpackExponent binary64 v).toNat : Int) -
        (binary64.exponentBias + binary64.mantissaBitsWithoutImplicit)) =
        (@unpackExponent binary64 v).toNat := by
      unfold biasedExponent
      omega
    have hBelow : (@unpackExponent binary64 v).toNat ≠ 2047 := fun hAll =>
      hTop (BitVec.eq_of_toNat_eq (hAll.trans rfl))
    have hFraction : BitVec.ofNat 52 (1#1 ++ @unpackMantissa binary64 v).toNat =
        @unpackMantissa binary64 v := by
      apply BitVec.eq_of_toNat_eq
      rw [BitVec.toNat_ofNat]
      omega
    rw [pack_finite _ (by rw [hBiased]; omega), if_pos hLog, hBiased, hFraction]
    exact (congrArg (packComponents binary64 _ · _) (BitVec.ofNat_toNat _ _)).trans
      (by simpa using hWord)

end Words

/-- The double of a word has the bits of the word, unless it is no number. -/
theorem bits_ofBits {b : Nat} (hb : b < 2 ^ 64) (h : b / 2 ^ 52 % 2048 = 2047 → b % 2 ^ 52 = 0) :
    bits (Float.ofBits (UInt64.ofNat b)) = b := by
  have hWord : (UInt64.ofNat b).toBitVec.toNat = b := by
    change b % 2 ^ 64 = b
    omega
  have hKept := pack_unpack (UInt64.ofNat b).toBitVec fun hTop => by
    apply BitVec.eq_of_toNat_eq
    have hAll := congrArg BitVec.toNat hTop
    rw [unpackExponent_toNat, hWord] at hAll
    rw [unpackMantissa_toNat, hWord]
    exact h hAll
  change (UInt64.ofBitVec (pack binary64
    (unpack binary64 (UInt64.ofNat b).toBitVec))).toNat = b
  rw [hKept]
  exact hWord

theorem ratioBits_le (num den : Nat) : ratioBits num den ≤ 2047 * 2 ^ 52 := by
  unfold ratioBits
  split
  · exact Nat.zero_le _
  · exact Nat.min_le_right _ _

theorem bits_ofRatio (negative : Bool) (num den : Nat) :
    bits (ofRatio negative num den) = ratioBits num den + if negative then 2 ^ 63 else 0 := by
  have hBound := ratioBits_le num den
  cases negative
  · exact bits_ofBits (by simp; omega) (by simp; omega)
  · exact bits_ofBits (by simp; omega) (by simp; omega)

theorem roundQuotient_mul (q : Nat) {den : Nat} (h : 0 < den) :
    roundQuotient (q * den) den = q := by
  unfold roundQuotient
  rw [Nat.mul_div_cancel q h, Nat.mul_mod_left]
  exact if_pos h

/-- A whole number scaled by a power of two that leaves it whole. -/
theorem scaled_eq {k : Nat} {e : Int} (h : (k : ℚ) * 2 ^ e = n) :
    (if 0 ≤ e then roundQuotient n (1 * 2 ^ e.toNat) else roundQuotient (n * 2 ^ (-e).toNat) 1) =
      k := by
  split_ifs with he
  · have hWhole : n = k * 2 ^ e.toNat := by
      rw [← Int.toNat_of_nonneg he] at h
      exact_mod_cast h.symm
    rw [one_mul, hWhole]
    exact roundQuotient_mul k (Nat.two_pow_pos _)
  · have hWhole : n * 2 ^ (-e).toNat = k * 1 := by
      have hNeg : e = -((-e).toNat : Int) := by omega
      rw [hNeg, zpow_neg, ← div_eq_mul_inv, div_eq_iff (by positivity)] at h
      rw [mul_one]
      exact_mod_cast h.symm
    rw [hWhole]
    exact roundQuotient_mul k Nat.one_pos

/-- The bits of a whole number that is spelled by its leading digits. -/
theorem ratioBits_whole (hn : n ≠ 0) (hLog : n.log2 < 1024) (hLow : 2 ^ 52 ≤ m) (hHigh : m < 2 ^ 53)
    (hm : (m : ℚ) * 2 ^ ((n.log2 : Int) - 52) = n) :
    ratioBits n 1 = (n.log2 + 1022) * 2 ^ 52 + m := by
  have hTwice : ((2 * m : Nat) : ℚ) * 2 ^ ((n.log2 : Int) - 53) = n := by
    rw [← hm, show (n.log2 : Int) - 52 = n.log2 - 53 + 1 by omega, zpow_add_one₀ two_ne_zero]
    push_cast
    ring
  have hSome : ¬(n == 0 || 1 == 0) = true := by simpa using hn
  have hOne : Nat.log2 1 = 0 := by decide
  have hStart : max ((n.log2 : Int) - 0 - 53) (-1074) = n.log2 - 53 := by omega
  have hNext : (n.log2 : Int) - 53 + 1 = n.log2 - 52 := by omega
  have hMore : ¬2 * m < 2 ^ 53 := by omega
  unfold ratioBits
  simp only [if_neg hSome, hOne, Nat.cast_zero, hStart, scaled_eq hTwice, Nat.pow_eq, if_neg hMore,
    hNext, scaled_eq hm, if_pos hHigh.le]
  omega

/-- A whole number that is spelled by its leading digits is a double. -/
theorem place_ofInt_of_digits {n : Int} (hn : n ≠ 0) (hLog : n.natAbs.log2 < 1024)
    (hLow : 2 ^ 52 ≤ m) (hHigh : m < 2 ^ 53)
    (hm : (m : ℚ) * 2 ^ ((n.natAbs.log2 : Int) - 52) = n.natAbs) : ofFloat (ofInt n) = ofRat n := by
  have hBits : bits (ofInt n) =
      (n.natAbs.log2 + 1022) * 2 ^ 52 + m + if n < 0 then 2 ^ 63 else 0 := by
    have hRatio := bits_ofRatio (n < 0) n.natAbs 1
    rw [ratioBits_whole (Int.natAbs_ne_zero.2 hn) hLog hLow hHigh hm] at hRatio
    simpa [ofInt] using hRatio
  have hExponent : bits (ofInt n) / 2 ^ 52 % 2048 = n.natAbs.log2 + 1023 := by
    rw [hBits]
    split <;> omega
  have hMantissa : bits (ofInt n) % 2 ^ 52 + 2 ^ 52 = m := by
    rw [hBits]
    split <;> omega
  have hSign : signBit (ofInt n) = decide (n < 0) := by
    change (bits (ofInt n) / 2 ^ 63 == 1) = _
    rw [hBits, Bool.eq_iff_iff, beq_iff_eq, decide_eq_true_iff]
    split <;> omega
  have hParts := ofFloat?_eq (ofInt n)
  rw [hExponent, if_neg (by omega), hMantissa, hSign] at hParts
  have hScale : ((n.natAbs.log2 + 1023 : Nat) : Int) - 1075 = n.natAbs.log2 - 52 := by omega
  rw [ofFloat_of_parts hParts, hScale]
  by_cases hNegative : n < 0
  · have hAbs : (n : ℚ) = -(n.natAbs : ℚ) := by
      rw [Nat.cast_natAbs, abs_of_neg hNegative, Int.cast_neg, neg_neg]
    simp [hNegative, hAbs, ← hm]
  · have hAbs : (n : ℚ) = (n.natAbs : ℚ) := by
      rw [Nat.cast_natAbs, abs_of_nonneg (not_lt.1 hNegative)]
    simp [hNegative, hAbs, ← hm]

/-- The whole numbers up to `2^53` are doubles. -/
theorem place_ofInt {n : Int} (h : n.natAbs ≤ 2 ^ 53) : ofFloat (ofInt n) = ofRat n := by
  rcases eq_or_ne n 0 with rfl | hn
  · decide +kernel
  · have hLow := Nat.log2_self_le (Int.natAbs_ne_zero.2 hn)
    have hHigh := Nat.lt_log2_self (n := n.natAbs)
    rcases h.lt_or_eq with hLess | hEq
    · have hLog : n.natAbs.log2 ≤ 52 := by
        have := (Nat.log2_lt (Int.natAbs_ne_zero.2 hn)).2 hLess
        omega
      have hPow (j : Nat) : 2 ^ (n.natAbs.log2 + j) * 2 ^ (52 - n.natAbs.log2) = 2 ^ (52 + j) := by
        rw [← Nat.pow_add]
        congr 1
        omega
      refine place_ofInt_of_digits (m := n.natAbs * 2 ^ (52 - n.natAbs.log2)) hn (by omega) ?_ ?_ ?_
      · exact (hPow 0).symm.trans_le (Nat.mul_le_mul_right _ hLow)
      · exact (Nat.mul_lt_mul_of_pos_right hHigh (Nat.two_pow_pos _)).trans_eq (hPow 1)
      · have hCancel : ((52 - n.natAbs.log2 : Nat) : Int) + (n.natAbs.log2 - 52) = 0 := by omega
        rw [Nat.cast_mul, Nat.cast_pow, Nat.cast_two, ← zpow_natCast, mul_assoc,
          ← zpow_add₀ two_ne_zero, hCancel, zpow_zero, mul_one]
    · have hLog : n.natAbs.log2 = 53 := by rw [hEq]; decide
      refine place_ofInt_of_digits (m := 2 ^ 52) hn (by omega) le_rfl (by decide) ?_
      rw [hLog, hEq]
      norm_num

end Binary64

end TableQuery
