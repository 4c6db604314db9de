import EmbedUI.Json.Number
import Mathlib

/-!
# The floats that numbers stand for

Where a float is wanted an integer is taken as the nearest one. An exact integer has sixty-four bits
at most, so its float is far from the largest one, and every number of a document stands for a
finite float (`isFinite_toFloat`). The bounds on the way are generous: all that counts is that no
exponent comes near `971`, the largest of a finite float.

## The architecture

* **`Within`**: a float before it is packed, with bounds on its mantissa and its exponent.
* **`within_roundWithAccuracy`**, **`within_mul`**: rounding and multiplying keep within bounds.
* **`within_unpack_pack`**: packing does so, too, and nothing becomes infinite.
* **`Tame`**: the same for floats.
-/

namespace EmbedUI.Json.Number

open Float.Model hiding pack unpack ofScientific
open Float.Model.UnpackedFloat

/-- Zero, or finite with a mantissa below `2 ^ bits` and an exponent of at most `top`. -/
def Within (bits : Nat) (top : Int) : UnpackedFloat → Prop
  | .zero _ => True
  | .finite _ m e _ => m < 2 ^ bits ∧ e ≤ top
  | _ => False

theorem Within.mono {bits bits' : Nat} {top top' : Int} {u : UnpackedFloat}
    (h : Within bits top u) (hbits : bits ≤ bits') (htop : top ≤ top') : Within bits' top' u := by
  cases u with
  | finite s m e hm =>
    obtain ⟨hmantissa, hexponent⟩ := h
    have hpow : 2 ^ bits ≤ 2 ^ bits' := Nat.pow_le_pow_right (by decide) hbits
    exact ⟨by omega, by omega⟩
  | zero s => trivial
  | infinity s => exact h
  | notANumber => exact h

/-! ## Rounding -/

theorem mantissa_shiftRight_le (em : ExtendedMantissa) (k : Nat) :
    (em >>> k).mantissa ≤ em.mantissa := by
  induction k with
  | zero => exact Nat.le_refl _
  | succ k ih =>
    show (em >>> k).mantissa / 2 ≤ em.mantissa
    omega

theorem roundedMantissa_le (em : ExtendedMantissa) : em.roundedMantissa ≤ em.mantissa + 1 := by
  obtain ⟨m, roundBit, stickyBit⟩ := em
  cases roundBit <;> cases stickyBit <;>
    simp only [ExtendedMantissa.roundedMantissa, ExtendedMantissa.accuracy,
      Accuracy.roundToNearestEven] <;> omega

theorem mantissa_ofMantissaAndAccuracy (m : Nat) (a : Accuracy) :
    (ExtendedMantissa.ofMantissaAndAccuracy m a).mantissa = m := by
  cases a with
  | exact => rfl
  | inexact o => cases o <;> rfl

/-- Shifting drops bits, and raises the exponent no further than the dropped bits ask for. -/
theorem shiftToTargetExponent_le {bits : Nat} {top : Int} {m : Nat} {e : Int} (a : Accuracy)
    (hm : m < 2 ^ bits) (he : e ≤ top) (htop : -1074 ≤ top) :
    (shiftToTargetExponent .binary64 m e a).1.mantissa ≤ m ∧
      (shiftToTargetExponent .binary64 m e a).2 ≤ top + bits := by
  have hlog : (m.log2 : Int) ≤ bits := by
    by_cases hzero : m = 0
    · simp [hzero]
    · have := (Nat.log2_lt hzero).mpr hm
      omega
  have htarget : Format.binary64.targetExponent (totalExponent m e) ≤ top + bits := by
    simp only [Format.targetExponent, totalExponent, Format.mantissaBits, Format.minExponent]
    omega
  constructor
  · have hshift := mantissa_shiftRight_le (ExtendedMantissa.ofMantissaAndAccuracy m a)
      (Format.binary64.targetExponent (totalExponent m e) - e).toNat
    rw [mantissa_ofMantissaAndAccuracy] at hshift
    exact hshift
  · show e + ((Format.binary64.targetExponent (totalExponent m e) - e).toNat : Int) ≤ top + bits
    omega

theorem within_roundWithAccuracy {bits : Nat} {top : Int} {m : Nat} {e : Int} (s : Sign)
    (a : Accuracy) (hm : m < 2 ^ bits) (he : e ≤ top) (htop : -1074 ≤ top) :
    Within (bits + 1) (top + 2 * bits + 1) (roundWithAccuracy .binary64 s m e a) := by
  obtain ⟨hfirst, hfirst'⟩ := shiftToTargetExponent_le a hm he htop
  have hrounded := roundedMantissa_le (shiftToTargetExponent .binary64 m e a).1
  have hpow : 2 ^ (bits + 1) = 2 * 2 ^ bits := by rw [Nat.pow_succ, Nat.mul_comm]
  -- rounding may carry into one more bit, which the second shift takes back
  have hcarry : (shiftToTargetExponent .binary64 m e a).1.roundedMantissa < 2 ^ (bits + 1) := by
    omega
  obtain ⟨hsecond, hsecond'⟩ := shiftToTargetExponent_le .exact hcarry hfirst' (by omega)
  unfold roundWithAccuracy
  dsimp only
  split
  · trivial
  · exact ⟨by omega, by omega⟩

theorem within_mul {bits bits' : Nat} {top top' : Int} {u v : UnpackedFloat}
    (hu : Within bits top u) (hv : Within bits' top' v) (htop : -1074 ≤ top + top') :
    Within (bits + bits' + 1) (top + top' + 2 * (bits + bits') + 1) (mul .binary64 u v) := by
  cases u with
  | infinity s => exact hu.elim
  | notANumber => exact hu.elim
  | zero s =>
    cases v with
    | infinity s' => exact hv.elim
    | notANumber => exact hv.elim
    | zero s' => trivial
    | finite s' m' e' hm' => trivial
  | finite s m e hm =>
    cases v with
    | infinity s' => exact hv.elim
    | notANumber => exact hv.elim
    | zero s' => trivial
    | finite s' m' e' hm' =>
      obtain ⟨hmantissa, hexponent⟩ := hu
      obtain ⟨hmantissa', hexponent'⟩ := hv
      have hproduct : m * m' < 2 ^ (bits + bits') := by
        rw [Nat.pow_add]
        exact Nat.mul_lt_mul'' hmantissa hmantissa'
      have hsum : e + e' ≤ top + top' := by omega
      have hround := within_roundWithAccuracy (s * s') .exact hproduct hsum htop
      exact hround.mono (by omega) (by omega)

theorem Within.neg {bits : Nat} {top : Int} {u : UnpackedFloat} (h : Within bits top u) :
    Within bits top u.neg := by
  cases u <;> exact h

/-! ## Packing -/

theorem within_unpack {b : BitVec 64} {top : Int} (htop : -1074 ≤ top)
    (hlast : (@unpackExponent .binary64 b).toNat < 2047)
    (hexponent : ((@unpackExponent .binary64 b).toNat : Int) ≤ top + 1075) :
    Within 53 top (unpack .binary64 b) := by
  have hfinite : @unpackExponent .binary64 b ≠ -1#_ := by
    intro heq
    rw [heq] at hlast
    exact absurd hlast (by decide)
  unfold unpack
  dsimp only
  rw [if_neg hfinite]
  split
  · next hzero =>
    split
    · trivial
    · -- a subnormal one
      have hmantissa : (@unpackMantissa .binary64 b).toNat < 2 ^ 52 := BitVec.isLt _
      refine ⟨by omega, ?_⟩
      rw [hzero]
      simp [Format.exponentBias]
      omega
  · refine ⟨BitVec.isLt _, ?_⟩
    simp only [Format.exponentBias]
    omega

theorem within_unpack_pack {bits : Nat} {top : Int} {u : UnpackedFloat} (h : Within bits top u)
    (hlow : -1074 ≤ top) (hhigh : top ≤ 971) :
    Within 53 top (unpack .binary64 (pack .binary64 u)) := by
  cases u with
  | infinity s => exact h.elim
  | notANumber => exact h.elim
  | zero s =>
    refine within_unpack hlow ?_ ?_
    · simp [pack, packedZero]
    · simp [pack, packedZero]
      omega
  | finite s m e hm =>
    obtain ⟨-, hexponent⟩ := h
    have hbias : (e + (Format.binary64.exponentBias : Int)
        + (Format.binary64.mantissaBitsWithoutImplicit : Int)).toNat = (e + 1075).toNat := by
      simp [Format.exponentBias]
      omega
    unfold pack
    dsimp only
    rw [hbias]
    rw [if_neg (by simp; omega)]
    split
    · have hmod := Nat.mod_le (e + 1075).toNat (2 ^ Format.binary64.exponentBits)
      refine within_unpack hlow ?_ ?_
      · rw [unpackExponent_packComponents, BitVec.toNat_ofNat]
        omega
      · rw [unpackExponent_packComponents, BitVec.toNat_ofNat]
        omega
    · refine within_unpack hlow ?_ ?_
      · simp
      · simp
        omega

/-! ## Floats -/

/-- A finite float that is nowhere near the largest one. -/
def Tame (top : Int) (v : Float) : Prop := Within 53 top v.toModel.unpack

theorem Tame.isFinite {top : Int} {v : Float} (h : Tame top v) : v.isFinite = true := by
  show v.toModel.unpack.isFinite = true
  unfold Tame at h
  cases hv : v.toModel.unpack with
  | infinity s => rw [hv] at h; exact h.elim
  | notANumber => rw [hv] at h; exact h.elim
  | zero s => rfl
  | finite s m e hm => rfl

theorem tame_ofModel {bits : Nat} {top : Int} {u : UnpackedFloat} (h : Within bits top u)
    (hlow : -1074 ≤ top) (hhigh : top ≤ 971) : Tame top (.ofModel (.pack u)) :=
  within_unpack_pack h hlow hhigh

theorem Tame.neg {top : Int} {v : Float} (h : Tame top v) (hlow : -1074 ≤ top)
    (hhigh : top ≤ 971) : Tame top v.neg :=
  tame_ofModel (Within.neg h) hlow hhigh

/-- Below `2 ^ 53` an integer is its own mantissa, up to a shift. -/
theorem tame_toFloat {n : UInt64} (h : n.toNat < 2 ^ 53) : Tame 213 n.toFloat := by
  suffices h : Within 107 213 (UnpackedFloat.normalize .binary64 n.toNat 0 .positive) from
    tame_ofModel h (by omega) (by omega)
  unfold UnpackedFloat.normalize
  split
  · next hlt => exact absurd (Int.compare_eq_lt.mp hlt) (by omega)
  · trivial
  · have htarget : -53 ≤ Format.binary64.targetExponent (totalExponent n.toNat 0) := by
      simp only [Format.targetExponent, totalExponent, Format.mantissaBits, Format.minExponent]
      omega
    have hshift :
        ((0 : Int) - Format.binary64.targetExponent (totalExponent n.toNat 0)).toNat ≤ 53 := by
      omega
    have hpow := Nat.pow_le_pow_right (n := 2) (by decide) hshift
    have hmantissa : n.toNat * 2 ^ ((0 : Int) -
        Format.binary64.targetExponent (totalExponent n.toNat 0)).toNat < 2 ^ 106 := by
      calc _ ≤ n.toNat * 2 ^ 53 := Nat.mul_le_mul_left _ hpow
        _ < 2 ^ 106 := by omega
    unfold UnpackedFloat.round decreaseExponent
    dsimp only
    rw [Int.toNat_natCast, Nat.shiftLeft_eq]
    have hexponent : (0 : Int) - ((0 : Int) -
        Format.binary64.targetExponent (totalExponent n.toNat 0)).toNat ≤ 0 := by omega
    exact within_roundWithAccuracy _ _ hmantissa hexponent (by omega)

-- the bits are those of `1.0`
theorem tame_one : Tame 213 (Float.ofBits 0x3FF0000000000000) := by
  show Within 53 213 (.finite .positive (2 ^ 52) (-52) (by decide))
  exact ⟨by decide, by decide⟩

theorem tame_mul {v w : Float} (hv : Tame 213 v) (hw : Tame 213 w) : Tame 639 (v * w) :=
  tame_ofModel (within_mul hv hw (by decide)) (by decide) (by decide)

theorem tame_ofNat {n : Nat} (h : n ≤ 2 ^ 64) : Tame 639 (Float.ofNat n) := by
  show Tame 639 (Float.ofScientific n false 0)
  unfold Float.ofScientific
  by_cases hsmall : n < 2 ^ 53
  · rw [dif_pos ⟨hsmall, by decide⟩]
    have hn : n.toUInt64.toNat < 2 ^ 53 := by
      rw [Nat.toUInt64, UInt64.toNat_ofNat']
      omega
    exact tame_mul (tame_toFloat hn) tame_one
  · rw [dif_neg fun hfast => hsmall hfast.1]
    suffices h : Within 120 639 (ofScientific .binary64 n 0) from
      tame_ofModel h (by decide) (by decide)
    unfold ofScientific
    -- neither of the two cases that are cut short
    have hlarge : ¬(0 : Int) < -((2 ^ 11 : Int) + n.log2) := by omega
    rw [dif_neg (by omega), if_neg (by decide), if_neg hlarge, if_pos (by decide)]
    -- the conversion puts fifty-three bits behind the point
    have hshifted : n <<< Format.binary64.mantissaBits < 2 ^ 118 := by
      rw [show Format.binary64.mantissaBits = 53 from rfl, Nat.shiftLeft_eq]
      omega
    have hproduct : ∀ {u v : UnpackedFloat}, Within 118 (-53) u → Within 1 0 v →
        Within 120 639 (mul .binary64 u v) := by
      intro u v hu hv
      have hmul := within_mul hu hv (by omega)
      exact hmul.mono (by omega) (by omega)
    refine hproduct ?_ ?_
    · exact ⟨hshifted, by decide⟩
    · exact ⟨by decide, by decide⟩

/-- **The float of an exact integer is finite.** -/
theorem isFinite_ofInt {n : Int} (h : IsExact n) : (Float.ofInt n).isFinite = true := by
  obtain ⟨hlow, hhigh⟩ := h
  cases n with
  | ofNat n =>
    have hn : n ≤ 2 ^ 64 := by
      rw [Int.ofNat_eq_natCast] at hhigh
      omega
    exact (tame_ofNat hn).isFinite
  | negSucc n => exact ((tame_ofNat (n := n + 1) (by omega)).neg (by decide) (by decide)).isFinite

theorem isFinite_toFloat (n : Number) : n.toFloat.isFinite = true := by
  cases n with
  | integer value exact => exact isFinite_ofInt exact
  | real value finite => exact finite

end EmbedUI.Json.Number
