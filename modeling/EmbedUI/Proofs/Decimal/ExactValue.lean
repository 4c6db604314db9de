import EmbedUI.Decimal.Shortest
import Mathlib

/-!
# The exact value of a float

A finite float is a sign, a mantissa of at most fifty-three bits and a power of two; its exact value
is a rational number. Where a result of float arithmetic has a mantissa of its own, nothing is
rounded: multiplying by minus one changes the sign, and a natural number that is a mantissa times a
power of two keeps its value.

## The architecture

* **`Canonical`**: the mantissa and the exponent that a finite float has.
* **`Canonical.roundWithAccuracy`**: rounding what need not be rounded.
* **`unpack_cases`**: the bits of a float, and what `Binary.ofFloat` reads from them.
* **`neg_one_mul_of_isFinite`**, **`Canonical.exactValue_ofNat`**: the two operations.
* **`compare_zero`**: the sign of a float and that of its value.
-/

namespace EmbedUI.Decimal

open Float.Model hiding pack unpack ofScientific
open Float.Model.UnpackedFloat

/-! ## Values -/

/-- A sign as a factor. -/
def signFactor : Sign → ℚ
  | .negative => -1
  | .positive => 1

/-- The value of a float before it is packed; zero for what is not a finite number. -/
def unpackedValue : UnpackedFloat → ℚ
  | .finite s m e _ => signFactor s * (m * 2 ^ e)
  | _ => 0

/-- The exact value of a float; zero for what is not a finite number. -/
def exactValue (v : Float) : ℚ := unpackedValue v.toModel.unpack

/-- The value of a magnitude in binary. -/
def Binary.value (b : Binary) : ℚ := b.mantissa * 2 ^ b.exponent

/-- The value of a magnitude in decimal. -/
def Scientific.value (d : Scientific) : ℚ := d.coefficient * 10 ^ d.exponent

/-! ## Mantissas and exponents -/

/-- The mantissa and the exponent of a finite float: fifty-three bits, or fewer at the lowest
exponent. -/
structure Canonical (m : ℕ) (e : ℤ) : Prop where
  pos : 0 < m
  lt : m < 2 ^ 53
  low : -1074 ≤ e
  high : e ≤ 971
  full : 2 ^ 52 ≤ m ∨ e = -1074

theorem Canonical.value_pos {b : Binary} (h : Canonical b.mantissa b.exponent) : 0 < b.value := by
  have hmantissa := h.pos
  unfold Binary.value
  positivity

theorem Canonical.targetExponent {m : ℕ} {e : ℤ} (h : Canonical m e) :
    Format.binary64.targetExponent (totalExponent m e) = e := by
  have hlog : m.log2 < 53 := (Nat.log2_lt h.pos.ne').mpr h.lt
  have hlow := h.low
  simp only [Format.targetExponent, totalExponent, Format.mantissaBits, Format.minExponent]
  obtain hfull | hlowest := h.full
  · have hlog' : 52 ≤ m.log2 := (Nat.le_log2 h.pos.ne').mpr hfull
    omega
  · omega

theorem log2_mul_two_pow {m : ℕ} (h : 0 < m) (k : ℕ) : (m * 2 ^ k).log2 = m.log2 + k := by
  induction k with
  | zero => simp
  | succ k ih =>
    have hpos : m * 2 ^ k ≠ 0 := by positivity
    rw [pow_succ, ← mul_assoc, mul_comm _ 2, Nat.log2_two_mul hpos, ih]
    rfl

theorem totalExponent_shifted {m : ℕ} (h : 0 < m) (e : ℤ) (k : ℕ) :
    totalExponent (m * 2 ^ k) (e - k) = totalExponent m e := by
  simp only [totalExponent, log2_mul_two_pow h]
  push_cast
  ring

/-- Bits that are all zero are dropped without a trace. -/
theorem shiftRight_exact (m k : ℕ) :
    (ExtendedMantissa.ofMantissaAndAccuracy (m * 2 ^ k) .exact) >>> k = ⟨m, false, false⟩ := by
  induction k generalizing m with
  | zero => simp; rfl
  | succ k ih =>
    have hsplit : m * 2 ^ (k + 1) = (2 * m) * 2 ^ k := by ring
    show ((ExtendedMantissa.ofMantissaAndAccuracy (m * 2 ^ (k + 1)) .exact) >>> k).shiftRightOne = _
    rw [hsplit, ih]
    simp [ExtendedMantissa.shiftRightOne]

theorem Canonical.shiftToTargetExponent {m : ℕ} {e : ℤ} (h : Canonical m e) (k : ℕ) :
    shiftToTargetExponent .binary64 (m * 2 ^ k) (e - k) .exact = (⟨m, false, false⟩, e) := by
  have hshift : (e - (e - (k : ℤ))).toNat = k := by omega
  simp only [UnpackedFloat.shiftToTargetExponent, shiftToExponent, totalExponent_shifted h.pos,
    h.targetExponent, hshift, shiftRight_exact, sub_add_cancel]

/-- **Nothing is rounded** where the value has a canonical form. -/
theorem Canonical.roundWithAccuracy {m : ℕ} {e : ℤ} (h : Canonical m e) (s : Sign) (k : ℕ) :
    roundWithAccuracy .binary64 s (m * 2 ^ k) (e - k) .exact = .finite s m e h.pos := by
  have hfirst := h.shiftToTargetExponent k
  have hsecond := h.shiftToTargetExponent 0
  rw [pow_zero, mul_one, Nat.cast_zero, sub_zero] at hsecond
  have hrounded : (⟨m, false, false⟩ : ExtendedMantissa).roundedMantissa = m := rfl
  unfold UnpackedFloat.roundWithAccuracy
  dsimp only
  rw [hfirst]
  dsimp only
  rw [hrounded, hsecond]
  dsimp only
  rw [dif_neg h.pos.ne']

/-! ## Bits -/

/-- The sign of a float is its first bit. -/
def signBit (v : Float) : Sign :=
  if v.toBits.toNat / Nat.pow 2 63 = 1 then .negative else .positive

theorem toNat_unpackMantissa (b : BitVec 64) :
    (@unpackMantissa .binary64 b).toNat = b.toNat % 2 ^ 52 := by
  show (b.extractLsb 51 0).toNat = _
  rw [BitVec.extractLsb_toNat, Nat.shiftRight_zero]

theorem toNat_unpackExponent (b : BitVec 64) :
    (@unpackExponent .binary64 b).toNat = b.toNat / 2 ^ 52 % 2 ^ 11 := by
  show (b.extractLsb 62 52).toNat = _
  rw [BitVec.extractLsb_toNat, Nat.shiftRight_eq_div_pow]

theorem ofBitVec_unpackSign (b : BitVec 64) :
    Sign.ofBitVec (@unpackSign .binary64 b) =
      if b.toNat / 2 ^ 63 = 1 then .negative else .positive := by
  have hsign : (@unpackSign .binary64 b).toNat = b.toNat / 2 ^ 63 := by
    have hlt : b.toNat < 2 ^ 64 := b.isLt
    show (b.extractLsb 63 63).toNat = _
    rw [BitVec.extractLsb_toNat, Nat.shiftRight_eq_div_pow]
    omega
  have hlt : b.toNat < 2 ^ 64 := b.isLt
  have hiff : @unpackSign .binary64 b = 0#1 ↔ b.toNat / 2 ^ 63 = 0 := by
    rw [← BitVec.toNat_inj, hsign]
    rfl
  rw [Sign.ofBitVec]
  by_cases hzero : b.toNat / 2 ^ 63 = 0
  · rw [if_pos (hiff.mpr hzero), if_neg (by omega)]
  · rw [if_neg (mt hiff.mp hzero), if_pos (by omega)]

/-- The highest exponent is that of no finite float. -/
theorem unpackExponent_ne {b : BitVec 64} (h : (unpack .binary64 b).isFinite = true) :
    @unpackExponent .binary64 b ≠ -1#_ := by
  intro hlast
  unfold unpack at h
  dsimp only at h
  rw [if_pos hlast] at h
  split at h <;> cases h

/-- The lowest exponent is that of zero and of the subnormal floats. -/
theorem unpack_subnormal {b : BitVec 64} (hlowest : b.toNat / 2 ^ 52 % 2 ^ 11 = 0) :
    unpack .binary64 b =
      if hzero : b.toNat % 2 ^ 52 = 0 then .zero (Sign.ofBitVec (@unpackSign .binary64 b))
      else .finite (Sign.ofBitVec (@unpackSign .binary64 b)) (b.toNat % 2 ^ 52) (-1074)
        (Nat.pos_of_ne_zero hzero) := by
  have hmantissa := toNat_unpackMantissa b
  have hexponent : @unpackExponent .binary64 b = 0#_ := by
    rw [← BitVec.toNat_inj, toNat_unpackExponent, hlowest]
    rfl
  have hnone : @unpackMantissa .binary64 b = 0#_ ↔ b.toNat % 2 ^ 52 = 0 := by
    rw [← BitVec.toNat_inj, hmantissa]
    rfl
  unfold unpack
  dsimp only
  rw [hexponent, if_neg (by decide), if_pos rfl]
  by_cases hzero : b.toNat % 2 ^ 52 = 0
  · rw [dif_pos (hnone.mpr hzero), dif_pos hzero]
  · rw [dif_neg (mt hnone.mp hzero), dif_neg hzero]
    simp only [hmantissa]
    rfl

/-- Above the lowest exponent, the mantissa has a bit more than is written. -/
theorem unpack_normal {b : BitVec 64} (hlast : @unpackExponent .binary64 b ≠ -1#_)
    (hlowest : b.toNat / 2 ^ 52 % 2 ^ 11 ≠ 0) :
    unpack .binary64 b = .finite (Sign.ofBitVec (@unpackSign .binary64 b))
      (2 ^ 52 + b.toNat % 2 ^ 52) ((b.toNat / 2 ^ 52 % 2 ^ 11 : ℕ) - 1075) (by positivity) := by
  have hmantissa : (1#1 ++ @unpackMantissa .binary64 b).toNat = 2 ^ 52 + b.toNat % 2 ^ 52 := by
    rw [BitVec.toNat_append, ← Nat.shiftLeft_add_eq_or_of_lt (BitVec.isLt _),
      toNat_unpackMantissa]
    rfl
  have hexponent : @unpackExponent .binary64 b ≠ 0#_ := by
    rw [Ne, ← BitVec.toNat_inj, toNat_unpackExponent]
    exact hlowest
  have hbias : ((Format.binary64.exponentBias : ℕ) : ℤ)
      + ((Format.binary64.mantissaBitsWithoutImplicit : ℕ) : ℤ) = 1075 := rfl
  unfold unpack
  dsimp only
  rw [if_neg hlast, if_neg hexponent]
  simp only [hmantissa, toNat_unpackExponent, hbias]

theorem ofFloat_subnormal {v : Float} (h : v.toBits.toNat / 2 ^ 52 % 2 ^ 11 = 0) :
    Binary.ofFloat v = ⟨v.toBits.toNat % 2 ^ 52, -1074, false⟩ :=
  if_pos h

theorem ofFloat_normal {v : Float} (h : v.toBits.toNat / 2 ^ 52 % 2 ^ 11 ≠ 0) :
    Binary.ofFloat v =
      ⟨2 ^ 52 + v.toBits.toNat % 2 ^ 52, (v.toBits.toNat / 2 ^ 52 % 2 ^ 11 : ℕ) - 1075,
        decide (v.toBits.toNat % 2 ^ 52 = 0) &&
          decide (1 < v.toBits.toNat / 2 ^ 52 % 2 ^ 11)⟩ :=
  if_neg h

/-- **Bits.** A finite float is a zero, or has the mantissa and the exponent that its bits show. -/
theorem unpack_cases {v : Float} (h : v.isFinite = true) :
    v.toModel.unpack = .zero (signBit v) ∨
      Canonical (Binary.ofFloat v).mantissa (Binary.ofFloat v).exponent ∧
        ∃ hpos, v.toModel.unpack =
          .finite (signBit v) (Binary.ofFloat v).mantissa (Binary.ofFloat v).exponent hpos := by
  have hsign : Sign.ofBitVec (@unpackSign .binary64 v.toModel.toBits.toBitVec) = signBit v :=
    ofBitVec_unpackSign _
  by_cases hlowest : v.toBits.toNat / 2 ^ 52 % 2 ^ 11 = 0
  · have hunpack := unpack_subnormal (b := v.toModel.toBits.toBitVec) hlowest
    rw [hsign] at hunpack
    rw [ofFloat_subnormal hlowest]
    by_cases hzero : v.toBits.toNat % 2 ^ 52 = 0
    · exact Or.inl (hunpack.trans (dif_pos hzero))
    · refine Or.inr ⟨⟨Nat.pos_of_ne_zero hzero, ?_, le_rfl, ?_, Or.inr rfl⟩,
        Nat.pos_of_ne_zero hzero, hunpack.trans (dif_neg hzero)⟩
      · show v.toBits.toNat % 2 ^ 52 < 2 ^ 53
        omega
      · show (-1074 : ℤ) ≤ 971
        decide
  · have hunpack := unpack_normal (unpackExponent_ne h) hlowest
    rw [hsign] at hunpack
    have hlast : v.toBits.toNat / 2 ^ 52 % 2 ^ 11 ≠ 2047 := by
      have hne := unpackExponent_ne h
      rw [Ne, ← BitVec.toNat_inj, toNat_unpackExponent] at hne
      exact hne
    rw [ofFloat_normal hlowest]
    refine Or.inr ⟨⟨?_, ?_, ?_, ?_, Or.inl ?_⟩, by positivity, hunpack⟩
    all_goals dsimp only; omega

/-! ## Packing -/

theorem toNat_packComponents (s : Sign) (exponent : BitVec 11) (mantissa : BitVec 52) :
    (packComponents .binary64 s exponent mantissa).toNat =
      s.toBitVec.toNat * 2 ^ 63 + exponent.toNat * 2 ^ 52 + mantissa.toNat := by
  show (s.toBitVec ++ exponent ++ mantissa).toNat = _
  rw [BitVec.toNat_append, BitVec.toNat_append, ← Nat.shiftLeft_add_eq_or_of_lt exponent.isLt,
    ← Nat.shiftLeft_add_eq_or_of_lt mantissa.isLt, Nat.shiftLeft_eq, Nat.shiftLeft_eq]
  ring

theorem ofBitVec_unpackSign_packComponents (s : Sign) (exponent : BitVec 11)
    (mantissa : BitVec 52) :
    Sign.ofBitVec (@unpackSign .binary64 (packComponents .binary64 s exponent mantissa)) = s := by
  have hexponent := exponent.isLt
  have hmantissa := mantissa.isLt
  rw [ofBitVec_unpackSign, toNat_packComponents]
  cases s with
  | negative => exact if_pos (by rw [Sign.toBitVec, BitVec.toNat_ofNat]; omega)
  | positive => exact if_neg (by rw [Sign.toBitVec, BitVec.toNat_ofNat]; omega)

/-- **Packing** loses nothing of a canonical float. -/
theorem Canonical.unpack_pack {m : ℕ} {e : ℤ} (h : Canonical m e) (s : Sign) :
    unpack .binary64 (pack .binary64 (.finite s m e h.pos)) = .finite s m e h.pos := by
  have hlt := h.lt
  have hlow := h.low
  have hhigh := h.high
  have hbits : Format.binary64.mantissaBits = 53 := rfl
  have hbias : ((Format.binary64.exponentBias : ℕ) : ℤ)
      + ((Format.binary64.mantissaBitsWithoutImplicit : ℕ) : ℤ) = 1075 := rfl
  unfold pack
  dsimp only
  rw [add_assoc, hbias, hbits, if_neg (by omega)]
  by_cases hfull : 2 ^ 52 ≤ m
  · have hlog : m.log2 + 1 = 53 := by
      have hlow' : 52 ≤ m.log2 := (Nat.le_log2 h.pos.ne').mpr hfull
      have hhigh' : m.log2 < 53 := (Nat.log2_lt h.pos.ne').mpr hlt
      omega
    rw [if_pos hlog]
    have hpacked := toNat_packComponents s (BitVec.ofNat 11 (e + 1075).toNat) (BitVec.ofNat 52 m)
    rw [BitVec.toNat_ofNat, BitVec.toNat_ofNat] at hpacked
    have hlast : @unpackExponent .binary64 (packComponents .binary64 s
        (BitVec.ofNat 11 (e + 1075).toNat) (BitVec.ofNat 52 m)) ≠ -1#_ := by
      rw [unpackExponent_packComponents, Ne, ← BitVec.toNat_inj, BitVec.toNat_ofNat]
      show (e + 1075).toNat % 2 ^ 11 ≠ 2047
      omega
    rw [unpack_normal hlast (by omega), ofBitVec_unpackSign_packComponents]
    congr 1 <;> omega
  · have hlog : m.log2 + 1 ≠ 53 := by
      have hhigh' : m.log2 < 52 := (Nat.log2_lt h.pos.ne').mpr (by omega)
      omega
    rw [if_neg hlog]
    have hpacked := toNat_packComponents s 0#11 (BitVec.ofNat 52 m)
    rw [BitVec.toNat_ofNat, BitVec.toNat_ofNat] at hpacked
    have hpos := h.pos
    have hlowest : e = -1074 := h.full.resolve_left hfull
    rw [unpack_subnormal (by omega), ofBitVec_unpackSign_packComponents, dif_neg (by omega)]
    congr 1 <;> omega

/-! ## Operations -/

theorem unpack_neg_one : ((-1.0 : Float)).toModel.unpack =
    .finite .negative (2 ^ 52) (-52) (by decide) := rfl

theorem unpack_one : (Float.ofBits 0x3FF0000000000000).toModel.unpack =
    .finite .positive (2 ^ 52) (-52) (by decide) := rfl

theorem mul_finite (f : Format) (s t : Sign) (m n : ℕ) (e d : ℤ) (hm : 0 < m) (hn : 0 < n) :
    mul f (.finite s m e hm) (.finite t n d hn) =
      roundWithAccuracy f (s * t) (m * n) (e + d) .exact :=
  rfl

theorem Canonical.mul_unit {m : ℕ} {e : ℤ} (h : Canonical m e) (s t : Sign) :
    mul .binary64 (.finite s m e h.pos) (.finite t (2 ^ 52) (-52) (by decide)) =
      .finite (s * t) m e h.pos :=
  h.roundWithAccuracy (s * t) 52

theorem Canonical.unit_mul {m : ℕ} {e : ℤ} (h : Canonical m e) (s t : Sign) :
    mul .binary64 (.finite t (2 ^ 52) (-52) (by decide)) (.finite s m e h.pos) =
      .finite (t * s) m e h.pos := by
  show UnpackedFloat.roundWithAccuracy .binary64 (t * s) (2 ^ 52 * m) (-52 + e) .exact = _
  rw [mul_comm, add_comm]
  exact h.roundWithAccuracy (t * s) 52

/-- **A change of sign.** Multiplying a finite float by minus one rounds nothing. -/
theorem neg_one_mul_of_isFinite {v : Float} (h : v.isFinite = true) : -1.0 * v = -v := by
  show Float.ofModel (.pack (mul .binary64 (-1.0 : Float).toModel.unpack v.toModel.unpack)) =
    .ofModel (.pack v.toModel.unpack.neg)
  rw [unpack_neg_one]
  obtain hzero | ⟨hcanonical, hpos, hfinite⟩ := unpack_cases h
  · rw [hzero]
    cases signBit v <;> rfl
  · rw [hfinite, hcanonical.unit_mul]
    cases signBit v <;> rfl

/-- A natural number that is a mantissa times a power of two, without fractions. -/
theorem eq_mul_two_pow_cases {n m : ℕ} {e : ℤ} (h : (n : ℚ) = m * 2 ^ e) :
    (∃ j : ℕ, e = j ∧ n = m * 2 ^ j) ∨ ∃ j : ℕ, e = -j ∧ m = n * 2 ^ j := by
  obtain ⟨j, rfl | rfl⟩ := e.eq_nat_or_neg
  · refine Or.inl ⟨j, rfl, ?_⟩
    rw [zpow_natCast] at h
    exact_mod_cast h
  · refine Or.inr ⟨j, rfl, ?_⟩
    rw [zpow_neg, zpow_natCast, eq_mul_inv_iff_mul_eq₀ (by positivity)] at h
    exact_mod_cast h.symm

theorem Canonical.round {n m : ℕ} {e : ℤ} (h : Canonical m e) (hvalue : (n : ℚ) = m * 2 ^ e)
    (s : Sign) : UnpackedFloat.round .binary64 s n 0 = .finite s m e h.pos := by
  unfold UnpackedFloat.round decreaseExponent
  dsimp only
  obtain ⟨j, rfl, rfl⟩ | ⟨j, rfl, rfl⟩ := eq_mul_two_pow_cases hvalue
  · have htotal := totalExponent_shifted h.pos (j : ℤ) j
    rw [sub_self] at htotal
    have hshift : ((0 : ℤ) - j).toNat = 0 := by omega
    rw [htotal, h.targetExponent, hshift, Nat.shiftLeft_zero, Nat.cast_zero, sub_zero]
    have hround := h.roundWithAccuracy s j
    rwa [sub_self] at hround
  · have hpos : 0 < n := Nat.pos_of_mul_pos_right h.pos
    have htotal := totalExponent_shifted hpos (0 : ℤ) j
    rw [zero_sub] at htotal
    have hshift : ((0 : ℤ) - -j).toNat = j := by omega
    rw [← htotal, h.targetExponent, hshift, Nat.shiftLeft_eq, zero_sub]
    have hround := h.roundWithAccuracy s 0
    rwa [pow_zero, mul_one, Nat.cast_zero, sub_zero] at hround

theorem unpack_toFloat {n : UInt64} {m : ℕ} {e : ℤ} (h : Canonical m e)
    (hvalue : (n.toNat : ℚ) = m * 2 ^ e) :
    n.toFloat.toModel.unpack = .finite .positive m e h.pos := by
  have hpos : (0 : ℚ) < n.toNat := by
    have := h.pos
    rw [hvalue]
    positivity
  have hgt : compare (n.toNat : ℤ) 0 = .gt := Int.compare_eq_gt.mpr (by exact_mod_cast hpos)
  show unpack .binary64 (pack .binary64 (UnpackedFloat.normalize .binary64 n.toNat 0 .positive)) = _
  unfold UnpackedFloat.normalize
  rw [hgt]
  dsimp only
  rw [Int.toNat_natCast, h.round hvalue, h.unpack_pack]

/-- **Natural numbers.** The float of a natural number that is a mantissa times a power of two has
this mantissa. -/
theorem unpack_ofNat {n m : ℕ} {e : ℤ} (h : Canonical m e) (hvalue : (n : ℚ) = m * 2 ^ e) :
    (Float.ofNat n).toModel.unpack = .finite .positive m e h.pos := by
  show (Float.ofScientific n false 0).toModel.unpack = _
  unfold Float.ofScientific
  by_cases hsmall : n < 2 ^ 53
  · rw [dif_pos ⟨hsmall, by decide⟩]
    have hn : n.toUInt64.toNat = n := by
      rw [Nat.toUInt64, UInt64.toNat_ofNat']
      omega
    have htoFloat := unpack_toFloat (n := n.toUInt64) h (by rw [hn, hvalue])
    show unpack .binary64 (pack .binary64 (mul .binary64 n.toUInt64.toFloat.toModel.unpack
      (Float.ofBits 0x3FF0000000000000).toModel.unpack)) = _
    rw [htoFloat, unpack_one, h.mul_unit]
    exact h.unpack_pack .positive
  · rw [dif_neg fun hfast => hsmall hfast.1]
    obtain ⟨j, rfl, rfl⟩ | ⟨j, rfl, rfl⟩ := eq_mul_two_pow_cases hvalue
    · have hlarge : ¬(0 : ℤ) < -((2 ^ 11 : ℤ) + (m * 2 ^ j).log2) := by omega
      have hbits : Format.binary64.mantissaBits = 53 := rfl
      have hmantissa : (m * 2 ^ j) <<< Format.binary64.mantissaBits * 10 ^ (0 : ℤ).toNat =
          m * 2 ^ (j + 53) := by
        rw [hbits, Nat.shiftLeft_eq, Int.toNat_zero, pow_zero, mul_one, mul_assoc, ← pow_add]
      have hexponent : -(Format.binary64.mantissaBits : ℤ) + 0 = (j : ℤ) - (j + 53 : ℕ) := by
        rw [hbits]
        push_cast
        ring
      -- the conversion puts fifty-three bits behind the point
      have hproduct : ofScientific .binary64 (m * 2 ^ j) 0 = .finite .positive m j h.pos := by
        unfold ofScientific
        rw [dif_neg (by omega), if_neg (by decide), if_neg hlarge, if_pos (by decide), mul_finite,
          hmantissa, hexponent]
        exact h.roundWithAccuracy (.positive * .positive) (j + 53)
      show unpack .binary64 (pack .binary64 (ofScientific .binary64 (m * 2 ^ j) 0)) = _
      rw [hproduct, h.unpack_pack]
    · have hlt := h.lt
      have hle : n ≤ n * 2 ^ j := Nat.le_mul_of_pos_right n (by positivity)
      omega

/-! ## Exact values -/

/-- **Finite floats.** One is a zero, or has the value that its bits show. -/
theorem exactValue_cases {v : Float} (h : v.isFinite = true) :
    v.toModel.unpack = .zero (signBit v) ∧ exactValue v = 0 ∨
      Canonical (Binary.ofFloat v).mantissa (Binary.ofFloat v).exponent ∧ (v == 0) = false ∧
        exactValue v = signFactor (signBit v) * (Binary.ofFloat v).value := by
  obtain hzero | ⟨hcanonical, hpos, hfinite⟩ := unpack_cases h
  · exact Or.inl ⟨hzero, by rw [exactValue, hzero]; rfl⟩
  · refine Or.inr ⟨hcanonical, ?_, by rw [exactValue, hfinite]; rfl⟩
    show UnpackedFloat.beq v.toModel.unpack (.zero .positive) = false
    rw [hfinite]
    cases signBit v <;> rfl

theorem exactValue_neg {v : Float} (h : v.isFinite = true) : exactValue (-v) = -exactValue v := by
  show unpackedValue (unpack .binary64 (pack .binary64 v.toModel.unpack.neg)) = -unpackedValue _
  obtain hzero | ⟨hcanonical, hpos, hfinite⟩ := unpack_cases h
  · rw [hzero]
    cases signBit v <;> rfl
  · rw [hfinite]
    show unpackedValue (unpack .binary64 (pack .binary64 (.finite (-signBit v) _ _ hpos))) = _
    rw [hcanonical.unpack_pack]
    cases signBit v <;> simp [unpackedValue, signFactor]

theorem Canonical.exactValue_ofNat {n m : ℕ} {e : ℤ} (h : Canonical m e)
    (hvalue : (n : ℚ) = m * 2 ^ e) : exactValue (Float.ofNat n) = n := by
  rw [exactValue, unpack_ofNat h hvalue, hvalue]
  exact one_mul _

/-- The mantissa and the exponent of a small natural number. -/
theorem exists_canonical {n : ℕ} (hpos : 0 < n) (h : n < 2 ^ 53) :
    ∃ m e, Canonical m e ∧ (n : ℚ) = m * 2 ^ e := by
  obtain ⟨hlow, hhigh⟩ := (Nat.log2_eq_iff hpos.ne').mp rfl
  have hlog : n.log2 < 53 := (Nat.log2_lt hpos.ne').mpr h
  obtain ⟨j, hj⟩ : ∃ j, n.log2 + j = 52 := ⟨52 - n.log2, by omega⟩
  -- shifted until its leading bit is the fifty-third one
  refine ⟨n * 2 ^ j, -j, ⟨by positivity, ?_, by omega, by omega, Or.inl ?_⟩, ?_⟩
  · calc n * 2 ^ j < 2 ^ (n.log2 + 1) * 2 ^ j := by gcongr
      _ = 2 ^ 53 := by rw [← pow_add]; congr 1; omega
  · calc 2 ^ 52 = 2 ^ n.log2 * 2 ^ j := by rw [← pow_add, hj]
      _ ≤ n * 2 ^ j := by gcongr
  · rw [zpow_neg, zpow_natCast]
    push_cast
    rw [mul_assoc, mul_inv_cancel₀ (by positivity), mul_one]

theorem exactValue_ofNat_of_lt {n : ℕ} (h : n < 2 ^ 53) : exactValue (Float.ofNat n) = n := by
  obtain rfl | hpos := n.eq_zero_or_pos
  · rfl
  · obtain ⟨m, e, hcanonical, hvalue⟩ := exists_canonical hpos h
    exact hcanonical.exactValue_ofNat hvalue

/-- The integer part of a magnitude is a float if the last place of the magnitude is two at most. -/
theorem Canonical.exactValue_floor {b : Binary} (h : Canonical b.mantissa b.exponent)
    (he : b.exponent ≤ 1) : exactValue (Float.ofNat ⌊b.value⌋₊) = ⌊b.value⌋₊ := by
  obtain hone | hsmall : b.exponent = 1 ∨ b.exponent ≤ 0 := by omega
  · have hvalue : b.value = ((2 * b.mantissa : ℕ) : ℚ) := by
      rw [Binary.value, hone]
      push_cast
      ring
    have hfloor : ((⌊b.value⌋₊ : ℕ) : ℚ) = b.mantissa * 2 ^ b.exponent := by
      rw [hvalue, Nat.floor_natCast, ← hvalue, Binary.value]
    exact h.exactValue_ofNat hfloor
  · have hle : b.value ≤ b.mantissa := by
      rw [Binary.value]
      exact mul_le_of_le_one_right (by positivity) (zpow_le_one_of_nonpos₀ (by norm_num) hsmall)
    have hlt : ⌊b.value⌋₊ < 2 ^ 53 := (Nat.floor_le_of_le hle).trans_lt h.lt
    exact exactValue_ofNat_of_lt hlt

/-! ## Comparison with zero -/

/-- **The sign.** A finite float compares to zero as its value does. -/
theorem compare_zero {v : Float} (h : v.isFinite = true) (s : Sign) :
    v.toModel.unpack.compare (.zero s) = some (compare (exactValue v) 0) := by
  obtain hzero | ⟨-, hpos, hfinite⟩ := unpack_cases h
  · rw [exactValue, hzero]
    exact congrArg some (compare_eq_iff_eq.mpr rfl).symm
  · have hvalue : (0 : ℚ) < (Binary.ofFloat v).mantissa * 2 ^ (Binary.ofFloat v).exponent := by
      positivity
    rw [exactValue, hfinite, unpackedValue]
    cases signBit v with
    | negative =>
      rw [compare_lt_iff_lt.mpr (by simpa [signFactor] using hvalue)]
      rfl
    | positive =>
      rw [compare_gt_iff_gt.mpr (by simpa [signFactor] using hvalue)]
      rfl

theorem lt_zero_iff {v : Float} (h : v.isFinite = true) : v < 0.0 ↔ exactValue v < 0 := by
  show decide ((v.toModel.unpack.compare (.zero .positive) == some .lt) = true) = true ↔ _
  rw [decide_eq_true_iff, compare_zero h, beq_iff_eq, Option.some.injEq, compare_lt_iff_lt]

theorem le_zero_iff {v : Float} (h : v.isFinite = true) : v ≤ 0.0 ↔ exactValue v ≤ 0 := by
  show decide ((v.toModel.unpack.compare (.zero .positive)).any (·.isLE) = true) = true ↔ _
  rw [decide_eq_true_iff, compare_zero h, Option.any_some, ← Ordering.ne_gt_iff_isLE]
  exact compare_le_iff_le

end EmbedUI.Decimal
