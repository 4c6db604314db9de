import EmbedUI.Proofs.Decimal.ExactValue

/-!
# What the shortest decimal says of its float

The shortest decimal of a float is not its exact value. It is one of the two points of a power-of-ten
grid around the value, and no further away than the midpoint to the next float. This module says
what a reader of the decimal can still rely on: on which side of certain powers of ten the float
lies, and, below `10 ^ 16`, what its integer part is.

## The architecture

* **`Chosen`**: a grid point that the search may stop at; **`chosen_search`**: it stops at one.
* **`Chosen.ten_pow_le_iff`**: comparison with a power of ten that the decimal could not have been
  rounded up to.
* **`Chosen.floor_eq`**: the integer part.
* **`tells_shortest`**: both, for the shortest decimal.
-/

namespace EmbedUI.Decimal

/-! ## Measuring -/

theorem zpow_mul_pow_toNat {a : ℚ} (h : a ≠ 0) (k : ℤ) : a ^ k * a ^ (-k).toNat = a ^ k.toNat := by
  rw [← zpow_natCast, ← zpow_natCast, ← zpow_add₀ h]
  congr 1
  omega

/-- How many units of measurement make one. -/
def Binary.scale (b : Binary) (k : ℤ) : ℚ := 2 ^ (-(b.exponent - 2)).toNat * 10 ^ (-k).toNat

theorem Binary.scale_pos (b : Binary) (k : ℤ) : 0 < b.scale k := by
  unfold Binary.scale
  positivity

theorem Binary.step_measured (b : Binary) (k : ℤ) :
    ((b.measured k).step : ℚ) = 10 ^ k * b.scale k := by
  have hten := zpow_mul_pow_toNat (a := 10) (by norm_num) k
  simp only [Binary.measured, Binary.scale, Nat.pow_eq]
  push_cast
  rw [← hten]
  ring

theorem Binary.step_pos (b : Binary) (k : ℤ) : 0 < (b.measured k).step := by
  have hscale := b.scale_pos k
  have hcast : (0 : ℚ) < (b.measured k).step := by
    rw [b.step_measured]
    positivity
  exact_mod_cast hcast

/-- A quarter of the last place of a float, in units. -/
theorem Binary.unit_measured (b : Binary) (k : ℤ) :
    ((Nat.pow 2 (b.exponent - 2).toNat * Nat.pow 10 (-k).toNat : ℕ) : ℚ) =
      2 ^ (b.exponent - 2) * b.scale k := by
  have htwo := zpow_mul_pow_toNat (a := 2) (by norm_num) (b.exponent - 2)
  simp only [Binary.scale, Nat.pow_eq]
  push_cast
  rw [← htwo]
  ring

theorem Binary.value_eq (b : Binary) : b.value = 4 * b.mantissa * 2 ^ (b.exponent - 2) := by
  rw [Binary.value, zpow_sub₀ (by norm_num)]
  ring

theorem Binary.middle_measured (b : Binary) (k : ℤ) :
    ((b.measured k).middle : ℚ) = b.value * b.scale k := by
  have hunit := b.unit_measured k
  rw [b.value_eq]
  simp only [Binary.measured]
  rw [Nat.cast_mul, hunit]
  push_cast
  ring

theorem Binary.high_measured (b : Binary) (k : ℤ) :
    ((b.measured k).high : ℚ) = (b.value + 2 ^ (b.exponent - 1)) * b.scale k := by
  have hunit := b.unit_measured k
  have hhalf : (2 : ℚ) ^ (b.exponent - 1) = 2 * 2 ^ (b.exponent - 2) := by
    rw [show b.exponent - 1 = b.exponent - 2 + 1 by ring, zpow_add_one₀ (by norm_num), mul_comm]
  rw [b.value_eq, hhalf]
  simp only [Binary.measured]
  rw [Nat.cast_mul, hunit]
  push_cast
  ring

theorem Binary.le_low_measured (b : Binary) (k : ℤ) :
    (b.value - 2 ^ (b.exponent - 1)) * b.scale k ≤ (b.measured k).low := by
  have hunit := b.unit_measured k
  have hhalf : (2 : ℚ) ^ (b.exponent - 1) = 2 * 2 ^ (b.exponent - 2) := by
    rw [show b.exponent - 1 = b.exponent - 2 + 1 by ring, zpow_add_one₀ (by norm_num), mul_comm]
  have hlow : (4 * b.mantissa - 2 : ℚ) ≤
      ((4 * b.mantissa - (if b.narrowBelow then 1 else 2) : ℕ) : ℚ) := by
    have hnat : 4 * b.mantissa ≤ (4 * b.mantissa - (if b.narrowBelow then 1 else 2)) + 2 := by
      split <;> omega
    have hcast : ((4 * b.mantissa : ℕ) : ℚ) ≤
        ((4 * b.mantissa - (if b.narrowBelow then 1 else 2) : ℕ) : ℚ) + 2 := by
      exact_mod_cast hnat
    push_cast at hcast ⊢
    linarith
  have hpos : (0 : ℚ) ≤ 2 ^ (b.exponent - 2) * b.scale k :=
    mul_nonneg (by positivity) (b.scale_pos k).le
  rw [b.value_eq, hhalf]
  simp only [Binary.measured]
  rw [Nat.cast_mul, hunit]
  calc _ = (4 * b.mantissa - 2 : ℚ) * (2 ^ (b.exponent - 2) * b.scale k) := by ring
    _ ≤ _ := mul_le_mul_of_nonneg_right hlow hpos

/-! ## Points of a grid -/

/-- The last point up to the value, and the next one beyond it. -/
theorem Binary.below_measured (b : Binary) (k : ℤ) :
    (((b.measured k).middle / (b.measured k).step : ℕ) : ℚ) * 10 ^ k ≤ b.value ∧
      b.value < (((b.measured k).middle / (b.measured k).step : ℕ) + 1) * 10 ^ k := by
  have hscale := b.scale_pos k
  have hmiddle := b.middle_measured k
  have hunit := b.step_measured k
  have hle : (((b.measured k).middle / (b.measured k).step : ℕ) : ℚ) * (b.measured k).step ≤
      (b.measured k).middle := by
    exact_mod_cast Nat.div_mul_le_self _ _
  have hlt : ((b.measured k).middle : ℚ) <
      (((b.measured k).middle / (b.measured k).step : ℕ) + 1) * (b.measured k).step := by
    have hnat := Nat.lt_mul_div_succ (b.measured k).middle (b.step_pos k)
    rw [mul_comm] at hnat
    exact_mod_cast hnat
  rw [hmiddle, hunit, ← mul_assoc] at hle hlt
  exact ⟨le_of_mul_le_mul_right hle hscale, lt_of_mul_lt_mul_right hlt hscale.le⟩

/-- A point that stands for a float is no further away than the midpoint to the next one. -/
theorem Binary.near_of_contains {b : Binary} {k : ℤ} {n : ℕ}
    (h : (b.measured k).contains n = true) :
    b.value - 2 ^ (b.exponent - 1) ≤ n * 10 ^ k ∧
      n * 10 ^ k ≤ b.value + 2 ^ (b.exponent - 1) := by
  have hscale := b.scale_pos k
  have hstep := b.step_measured k
  have hends : (b.measured k).low ≤ n * (b.measured k).step ∧
      n * (b.measured k).step ≤ (b.measured k).high := by
    unfold Measured.contains at h
    split at h
    · exact ⟨of_decide_eq_true (Bool.and_eq_true_iff.mp h).1,
        of_decide_eq_true (Bool.and_eq_true_iff.mp h).2⟩
    · exact ⟨(of_decide_eq_true (Bool.and_eq_true_iff.mp h).1).le,
        (of_decide_eq_true (Bool.and_eq_true_iff.mp h).2).le⟩
  have hlow : ((b.measured k).low : ℚ) ≤ n * (b.measured k).step := by exact_mod_cast hends.1
  have hhigh : n * ((b.measured k).step : ℚ) ≤ (b.measured k).high := by exact_mod_cast hends.2
  rw [hstep, ← mul_assoc] at hlow hhigh
  rw [b.high_measured] at hhigh
  exact ⟨le_of_mul_le_mul_right ((b.le_low_measured k).trans hlow) hscale,
    le_of_mul_le_mul_right hhigh hscale⟩

theorem Measured.point?_eq_some {i : Measured} {tie : Tie} {n : ℕ} (h : i.point? tie = some n) :
    i.contains n = true ∧ (n = i.middle / i.step ∨ n = i.middle / i.step + 1) := by
  unfold Measured.point? at h
  dsimp only at h
  split at h
  · cases h
  · next hbelow _ =>
    obtain rfl := Option.some.inj h
    exact ⟨hbelow, Or.inl rfl⟩
  · next _ habove =>
    obtain rfl := Option.some.inj h
    exact ⟨habove, Or.inr rfl⟩
  · next hbelow habove =>
    split_ifs at h <;> obtain rfl := Option.some.inj h
    all_goals first | exact ⟨hbelow, Or.inl rfl⟩ | exact ⟨habove, Or.inr rfl⟩

/-- A middle that is a point of the grid is taken. -/
theorem Measured.point?_middle {i : Measured} (tie : Tie) (hlow : i.low < i.middle)
    (hhigh : i.middle < i.high) (hgrid : i.middle / i.step * i.step = i.middle) :
    i.point? tie = some (i.middle / i.step) := by
  have hstep : 0 < i.step := by
    refine Nat.pos_of_ne_zero fun hzero => ?_
    rw [hzero, mul_zero] at hgrid
    omega
  have hbelow : i.contains (i.middle / i.step) = true := by
    unfold Measured.contains
    rw [hgrid]
    split <;> simp <;> omega
  have hhalfway : 2 * i.middle < (i.middle / i.step + (i.middle / i.step + 1)) * i.step := by
    have hexpand : (i.middle / i.step + (i.middle / i.step + 1)) * i.step =
        2 * (i.middle / i.step * i.step) + i.step := by ring
    omega
  unfold Measured.point?
  dsimp only
  rw [hbelow]
  cases i.contains (i.middle / i.step + 1)
  · rfl
  · exact if_pos hhalfway

/-! ## What the search stops at -/

/-- A decimal on either side of the value: the last point of its grid up to the value, or the next
one if that is no further away than the midpoint to the next float. Only at the very end of the
search may the last point up to the value be further away. -/
inductive Chosen (b : Binary) (d : Scientific) : Prop
  | below (hle : d.value ≤ b.value) (hnext : b.value < d.value + 10 ^ d.exponent)
      (hnear : b.value - 2 ^ (b.exponent - 1) ≤ d.value ∨ d.exponent = b.leadingExponent - 18)
  | above (hprevious : d.value - 10 ^ d.exponent < b.value) (hlt : b.value < d.value)
      (hnear : d.value ≤ b.value + 2 ^ (b.exponent - 1))

theorem search_cases (b : Binary) (tie : Tie) (digits : ℕ) (k : ℤ) :
    (∃ j n, j ≤ k ∧ (b.measured j).point? tie = some n ∧ b.search tie digits k = ⟨n, j⟩) ∨
      b.search tie digits k =
        ⟨(b.measured (k - digits)).middle / (b.measured (k - digits)).step, k - digits⟩ := by
  induction digits generalizing k with
  | zero =>
    rw [Nat.cast_zero, sub_zero]
    exact Or.inr rfl
  | succ digits ih =>
    cases hpoint : (b.measured k).point? tie with
    | some n => exact Or.inl ⟨k, n, le_rfl, hpoint, by rw [Binary.search, hpoint]⟩
    | none =>
      have hstep : b.search tie (digits + 1) k = b.search tie digits (k - 1) := by
        rw [Binary.search, hpoint]
      have hlast : k - ((digits + 1 : ℕ) : ℤ) = k - 1 - digits := by push_cast; ring
      rw [hstep, hlast]
      obtain ⟨j, n, hj, hrest⟩ | hrest := ih (k - 1)
      · exact Or.inl ⟨j, n, by omega, hrest⟩
      · exact Or.inr hrest

theorem Binary.low_lt_middle {b : Binary} (h : 0 < b.mantissa) (k : ℤ) :
    (b.measured k).low < (b.measured k).middle := by
  have hunit : 0 < Nat.pow 2 (b.exponent - 2).toNat * Nat.pow 10 (-k).toNat := by
    simp only [Nat.pow_eq]
    positivity
  exact Nat.mul_lt_mul_of_pos_right (by split <;> omega) hunit

theorem Binary.middle_lt_high (b : Binary) (k : ℤ) :
    (b.measured k).middle < (b.measured k).high := by
  have hunit : 0 < Nat.pow 2 (b.exponent - 2).toNat * Nat.pow 10 (-k).toNat := by
    simp only [Nat.pow_eq]
    positivity
  exact Nat.mul_lt_mul_of_pos_right (by omega) hunit

/-- **One point of a grid.** -/
theorem chosen_point {b : Binary} (hpos : 0 < b.mantissa) {k : ℤ} {tie : Tie} {n : ℕ}
    (h : (b.measured k).point? tie = some n) : Chosen b ⟨n, k⟩ := by
  obtain ⟨hcontains, hcases⟩ := Measured.point?_eq_some h
  obtain ⟨hlow, hhigh⟩ := b.near_of_contains hcontains
  obtain ⟨hbelow, hnext⟩ := b.below_measured k
  obtain rfl | rfl := hcases
  · exact .below hbelow (by rw [add_mul, one_mul] at hnext; exact hnext) (Or.inl hlow)
  · -- the point up to the value is not the value itself, or it would have been taken
    have hne : (((b.measured k).middle / (b.measured k).step : ℕ) : ℚ) * 10 ^ k ≠ b.value := by
      intro heq
      have hgrid : (b.measured k).middle / (b.measured k).step * (b.measured k).step =
          (b.measured k).middle := by
        have hcast : (((b.measured k).middle / (b.measured k).step : ℕ) : ℚ)
            * (b.measured k).step = (b.measured k).middle := by
          rw [b.step_measured, b.middle_measured, ← mul_assoc, heq]
        exact_mod_cast hcast
      rw [Measured.point?_middle tie (b.low_lt_middle hpos k) (b.middle_lt_high k) hgrid] at h
      have := Option.some.inj h
      omega
    refine .above ?_ ?_ hhigh
    · show ((((b.measured k).middle / (b.measured k).step + 1 : ℕ) : ℚ) * 10 ^ k) - 10 ^ k < _
      push_cast
      rw [add_mul, one_mul, add_sub_cancel_right]
      exact_mod_cast lt_of_le_of_ne hbelow hne
    · show b.value < (((b.measured k).middle / (b.measured k).step + 1 : ℕ) : ℚ) * 10 ^ k
      push_cast
      exact_mod_cast hnext

theorem chosen_search {b : Binary} (hpos : 0 < b.mantissa) (tie : Tie) :
    Chosen b (b.search tie 18 b.leadingExponent) ∧
      (b.search tie 18 b.leadingExponent).exponent ≤ b.leadingExponent := by
  obtain ⟨j, n, hj, hpoint, hsearch⟩ | hsearch := search_cases b tie 18 b.leadingExponent
  · rw [hsearch]
    exact ⟨chosen_point hpos hpoint, hj⟩
  · rw [hsearch]
    obtain ⟨hbelow, hnext⟩ := b.below_measured (b.leadingExponent - (18 : ℕ))
    rw [add_mul, one_mul] at hnext
    refine ⟨.below hbelow hnext (Or.inr rfl), ?_⟩
    show b.leadingExponent - (18 : ℕ) ≤ b.leadingExponent
    omega

/-! ## Leading digits -/

theorem pow_le_of_length_toDigits {n : ℕ} (hpos : 0 < n) :
    10 ^ ((Nat.toDigits 10 n).length - 1) ≤ n := by
  by_cases hone : (Nat.toDigits 10 n).length - 1 = 0
  · rw [hone]
    exact hpos
  · have hiff := Nat.length_toDigits_le_iff (n := n) (b := 10) (by decide)
      (Nat.pos_of_ne_zero hone)
    by_contra hlt
    have hle := hiff.mpr (not_le.mp hlt)
    omega

/-- The value times a power of ten, without its fraction. -/
def Binary.shifted (b : Binary) (places : ℕ) : ℕ :=
  b.mantissa * Nat.pow 2 b.exponent.toNat * Nat.pow 10 places / Nat.pow 2 (-b.exponent).toNat

theorem Binary.leadingExponent_eq (b : Binary) :
    b.leadingExponent = ((Nat.toDigits 10 (b.shifted 340)).length : ℤ) - 1 - (340 : ℕ) := by
  show ((Nat.toDigits 10 (b.shifted 340)).length : ℤ) - 341 = _
  omega

/-- The digits before the shifted point say where the digits of the value begin. -/
theorem Binary.ten_pow_le_value {b : Binary} {places : ℕ} (hpos : 0 < b.shifted places) :
    (10 : ℚ) ^ (((Nat.toDigits 10 (b.shifted places)).length : ℤ) - 1 - places) ≤ b.value := by
  have hlength : 0 < (Nat.toDigits 10 (b.shifted places)).length := Nat.length_toDigits_pos
  have htwo := zpow_mul_pow_toNat (a := 2) (by norm_num) b.exponent
  have hfloor : (b.shifted places : ℚ) ≤ b.value * 10 ^ places := by
    simp only [Binary.shifted, Nat.pow_eq]
    refine Nat.cast_div_le.trans ?_
    rw [div_le_iff₀ (by positivity), Binary.value]
    push_cast
    rw [← htwo]
    exact le_of_eq (by ring)
  have hdigits : ((10 ^ ((Nat.toDigits 10 (b.shifted places)).length - 1) : ℕ) : ℚ) ≤
      b.shifted places := by
    exact_mod_cast pow_le_of_length_toDigits hpos
  have hexponent : ((Nat.toDigits 10 (b.shifted places)).length : ℤ) - 1 =
      (((Nat.toDigits 10 (b.shifted places)).length - 1 : ℕ) : ℤ) := by omega
  rw [zpow_sub₀ (by norm_num), hexponent, zpow_natCast, zpow_natCast, div_le_iff₀ (by positivity)]
  push_cast at hdigits
  exact hdigits.trans hfloor

/-- Enough places leave a digit before the point: `2 ^ 108` is less than `10 ^ 34`. -/
theorem Binary.shifted_pos {b : Binary} (hpos : 0 < b.mantissa) {n : ℕ}
    (hlow : -b.exponent ≤ 108 * n) : 0 < b.shifted (34 * n) := by
  simp only [Binary.shifted, Nat.pow_eq]
  refine Nat.div_pos ?_ (by positivity)
  calc 2 ^ (-b.exponent).toNat ≤ 2 ^ (108 * n) := Nat.pow_le_pow_right (by decide) (by omega)
    _ = (2 ^ 108) ^ n := pow_mul 2 108 n
    _ ≤ (10 ^ 34) ^ n := Nat.pow_le_pow_left (by decide) n
    _ = 1 * 1 * 10 ^ (34 * n) := by rw [one_mul, one_mul, pow_mul]
    _ ≤ b.mantissa * 2 ^ b.exponent.toNat * 10 ^ (34 * n) := by
      gcongr
      · exact hpos
      · exact Nat.one_le_two_pow

/-- **The leading digit.** The search starts at a power of ten up to the value. -/
theorem ten_pow_leadingExponent_le {b : Binary} (h : Canonical b.mantissa b.exponent) :
    (10 : ℚ) ^ b.leadingExponent ≤ b.value := by
  have hlow := h.low
  rw [b.leadingExponent_eq]
  exact Binary.ten_pow_le_value (Binary.shifted_pos (n := 10) h.pos (by omega))

/-! ## Comparison -/

/-- A power of ten is a point of every finer grid. -/
theorem ten_pow_eq_mul {x k : ℤ} (h : k ≤ x) :
    (10 : ℚ) ^ x = ((10 ^ (x - k).toNat : ℕ) : ℚ) * 10 ^ k := by
  push_cast
  rw [← zpow_natCast, ← zpow_add₀ (by norm_num)]
  congr 1
  omega

/-- **Powers of ten.** The decimal is on the same side of a power of ten as the value, unless the
value may be rounded up to that power. -/
theorem Chosen.ten_pow_le_iff {b : Binary} {d : Scientific} (h : Chosen b d)
    (hgrid : (10 : ℚ) ^ d.exponent ≤ b.value) {x : ℤ}
    (hx : b.value < 10 ^ x → b.value + 2 ^ (b.exponent - 1) < 10 ^ x) :
    (10 : ℚ) ^ x ≤ d.value ↔ 10 ^ x ≤ b.value := by
  have hstep : (0 : ℚ) < 10 ^ d.exponent := by positivity
  cases h with
  | below hle hnext hnear =>
    refine ⟨fun hpow => hpow.trans hle, fun hpow => ?_⟩
    -- the larger of the two powers is a point of the grid up to the value
    have hmax : (10 : ℚ) ^ max x d.exponent ≤ b.value := by
      obtain hcase | hcase := max_choice x d.exponent <;> rw [hcase]
      · exact hpow
      · exact hgrid
    have hpoint := ten_pow_eq_mul (le_max_right x d.exponent)
    rw [hpoint] at hmax
    have hcount : ((10 ^ (max x d.exponent - d.exponent).toNat : ℕ) : ℚ) < d.coefficient + 1 := by
      refine lt_of_mul_lt_mul_right (hmax.trans_lt (hnext.trans_eq ?_)) hstep.le
      rw [Scientific.value]
      ring
    have hcount' : ((10 ^ (max x d.exponent - d.exponent).toNat : ℕ) : ℚ) ≤ d.coefficient := by
      exact_mod_cast Nat.lt_succ_iff.mp (by exact_mod_cast hcount)
    calc (10 : ℚ) ^ x ≤ 10 ^ max x d.exponent :=
          zpow_le_zpow_right₀ (by norm_num) (le_max_left _ _)
      _ ≤ d.value := by rw [hpoint, Scientific.value]; gcongr
  | above hprevious hlt hnear =>
    refine ⟨fun hpow => ?_, fun hpow => hpow.trans hlt.le⟩
    by_contra hvalue
    exact absurd (hpow.trans hnear) (not_le.mpr (hx (not_le.mp hvalue)))

theorem Chosen.value_pos {b : Binary} {d : Scientific} (h : Chosen b d)
    (hgrid : (10 : ℚ) ^ d.exponent ≤ b.value) : 0 < d.value := by
  have hstep : (0 : ℚ) < 10 ^ d.exponent := by positivity
  cases h with
  | below hle hnext hnear => linarith
  | above hprevious hlt hnear => linarith

/-- Multiples of the last place are a last place apart, which is more than the decimal is away. -/
theorem Binary.eq_of_near {b : Binary} {i : ℤ}
    (hlow : b.value - 2 ^ (b.exponent - 1) ≤ i * 2 ^ b.exponent)
    (hhigh : i * 2 ^ b.exponent ≤ b.value + 2 ^ (b.exponent - 1)) :
    i * 2 ^ b.exponent = b.value := by
  have hplace : (0 : ℚ) < 2 ^ b.exponent := by positivity
  have hhalf : (2 : ℚ) ^ (b.exponent - 1) < 1 * 2 ^ b.exponent := by
    rw [one_mul]
    exact zpow_lt_zpow_right₀ (by norm_num) (by omega)
  rw [Binary.value] at hlow hhigh ⊢
  have hupper : (i : ℚ) < b.mantissa + 1 :=
    lt_of_mul_lt_mul_right (by linarith : (i : ℚ) * 2 ^ b.exponent < _) hplace.le
  have hlower : (b.mantissa : ℚ) < i + 1 :=
    lt_of_mul_lt_mul_right (by linarith : (b.mantissa : ℚ) * 2 ^ b.exponent < _) hplace.le
  have hupper' : i < b.mantissa + 1 := by exact_mod_cast hupper
  have hlower' : (b.mantissa : ℤ) < i + 1 := by exact_mod_cast hlower
  have heq : i = b.mantissa := by omega
  rw [heq, Int.cast_natCast]

/-! ## Integer parts -/

/-- A multiple of a power of two is one of every smaller power. -/
theorem mul_two_pow_eq {e p : ℤ} (h : e ≤ p) (i : ℤ) :
    (i : ℚ) * 2 ^ p = ((i * 2 ^ (p - e).toNat : ℤ) : ℚ) * 2 ^ e := by
  push_cast
  rw [mul_assoc, ← zpow_natCast, ← zpow_add₀ (by norm_num)]
  congr 2
  omega

/-- The points of a grid of whole numbers are even. -/
theorem Scientific.value_eq_even {d : Scientific} (h : 1 ≤ d.exponent) :
    ∃ i : ℤ, d.value = (i : ℚ) * 2 ^ (1 : ℤ) := by
  refine ⟨d.coefficient * (5 * 10 ^ (d.exponent - 1).toNat), ?_⟩
  have hsplit : d.exponent = ((d.exponent - 1).toNat : ℤ) + 1 := by omega
  rw [Scientific.value]
  conv_lhs => rw [hsplit]
  rw [zpow_add_one₀ (by norm_num), zpow_natCast]
  push_cast
  ring

/-- No whole number lies strictly between two neighbours of a grid that has all of them. -/
theorem le_point_of_lt_next {k n c : ℤ} (h : k ≤ 0) (hn : (n : ℚ) < c * 10 ^ k + 10 ^ k) :
    (n : ℚ) ≤ c * 10 ^ k := by
  have hstep : (0 : ℚ) < 10 ^ k := by positivity
  have hpoint : (n : ℚ) = ((n * 10 ^ (-k).toNat : ℤ) : ℚ) * 10 ^ k := by
    push_cast
    rw [mul_assoc, mul_comm _ ((10 : ℚ) ^ k), zpow_mul_pow_toNat (by norm_num),
      Int.toNat_of_nonpos h, pow_zero, mul_one]
  have hcount : ((n * 10 ^ (-k).toNat : ℤ) : ℚ) < c + 1 := by
    refine lt_of_mul_lt_mul_right ?_ hstep.le
    rwa [← hpoint, add_mul, one_mul]
  have hcount' : n * 10 ^ (-k).toNat ≤ c := Int.lt_add_one_iff.mp (by exact_mod_cast hcount)
  rw [hpoint]
  gcongr

theorem value_lt_of_exponent_le {b : Binary} (h : Canonical b.mantissa b.exponent)
    (he : b.exponent ≤ 1) : b.value < 2 ^ 54 := by
  have hlt : (b.mantissa : ℚ) < 2 ^ 53 := by exact_mod_cast h.lt
  calc b.value ≤ b.mantissa * 2 ^ (1 : ℤ) := by
        rw [Binary.value]
        gcongr
        norm_num
    _ < 2 ^ 53 * 2 ^ (1 : ℤ) := by gcongr
    _ = 2 ^ 54 := by norm_num

/-- On a grid of even numbers the decimal is the value itself: it would stand for two floats
otherwise. -/
theorem Chosen.value_eq {b : Binary} {d : Scientific} (h : Chosen b d)
    (hcanonical : Canonical b.mantissa b.exponent) (he : b.exponent ≤ 1) (hwhole : 1 ≤ d.exponent) :
    d.value = b.value := by
  have hhalf : (0 : ℚ) < 2 ^ (b.exponent - 1) := by positivity
  have heq : b.value - 2 ^ (b.exponent - 1) ≤ d.value →
      d.value ≤ b.value + 2 ^ (b.exponent - 1) → d.value = b.value := by
    obtain ⟨i, hi⟩ := Scientific.value_eq_even hwhole
    rw [hi, mul_two_pow_eq he]
    exact Binary.eq_of_near
  cases h with
  | above hprevious hlt hnear => exact heq (by linarith) hnear
  | below hle hnext hnear =>
    obtain hnear | hlast := hnear
    · exact heq hnear (by linarith)
    · -- the end of the search is far behind the point
      have hlarge : (10 : ℚ) ^ (19 : ℤ) ≤ b.value :=
        (zpow_le_zpow_right₀ (by norm_num) (by omega)).trans
          (ten_pow_leadingExponent_le hcanonical)
      have hsmall := value_lt_of_exponent_le hcanonical he
      norm_num at hlarge hsmall
      linarith

/-- On a grid of all whole numbers none of them comes between the value and a decimal above it. -/
theorem floor_le_of_above {b : Binary} {d : Scientific} (he : b.exponent ≤ 1)
    (hfine : d.exponent ≤ 0) (hprevious : d.value - 10 ^ d.exponent < b.value)
    (hlt : b.value < d.value) (hnear : d.value ≤ b.value + 2 ^ (b.exponent - 1)) :
    (⌊d.value⌋ : ℚ) ≤ b.value := by
  have hhalf : (0 : ℚ) < 2 ^ (b.exponent - 1) := by positivity
  by_contra hbeyond
  rw [not_le] at hbeyond
  by_cases hzero : b.exponent ≤ 0
  · -- the integer part of the decimal would be another float
    have hmultiple := mul_two_pow_eq hzero ⌊d.value⌋
    rw [zpow_zero, mul_one] at hmultiple
    have hfloor := Int.floor_le d.value
    rw [hmultiple] at hfloor hbeyond
    exact hbeyond.ne' (Binary.eq_of_near (by linarith) (by linarith))
  · -- the value is whole, and not on the grid
    have hone : b.exponent = 1 := by omega
    have hvalue : b.value = ((2 * b.mantissa : ℤ) : ℚ) := by
      rw [Binary.value, hone]
      push_cast
      ring
    have hpoint : d.value = ((d.coefficient - 1 : ℤ) : ℚ) * 10 ^ d.exponent
        + 10 ^ d.exponent := by
      rw [Scientific.value]
      push_cast
      ring
    rw [hvalue, hpoint] at hlt hprevious
    have hle := le_point_of_lt_next hfine hlt
    linarith

/-- **Integer parts.** As long as every other whole number is a float, the decimal has the integer
part of the value. -/
theorem Chosen.floor_eq {b : Binary} {d : Scientific} (h : Chosen b d)
    (hcanonical : Canonical b.mantissa b.exponent) (he : b.exponent ≤ 1) :
    ⌊d.value⌋ = ⌊b.value⌋ := by
  by_cases hwhole : 1 ≤ d.exponent
  · rw [h.value_eq hcanonical he hwhole]
  · have hfine : d.exponent ≤ 0 := by omega
    cases h with
    | below hle hnext hnear =>
      have hnext' := (Int.floor_le b.value).trans_lt hnext
      exact Int.floor_eq_iff.mpr ⟨le_point_of_lt_next (c := d.coefficient) hfine hnext',
        hle.trans_lt (Int.lt_floor_add_one _)⟩
    | above hprevious hlt hnear =>
      exact (Int.floor_eq_iff.mpr ⟨floor_le_of_above he hfine hprevious hlt hnear,
        hlt.trans (Int.lt_floor_add_one _)⟩).symm

/-! ## The shortest decimal -/

theorem value_stripZeros (fuel : ℕ) (d : Scientific) : (d.stripZeros fuel).value = d.value := by
  induction fuel generalizing d with
  | zero => rfl
  | succ fuel ih =>
    rw [Scientific.stripZeros]
    split
    · next hzero =>
      have hten : ((10 * (d.coefficient / 10) : ℕ) : ℚ) = d.coefficient := by
        exact_mod_cast Nat.mul_div_cancel' (Nat.dvd_of_mod_eq_zero hzero.2)
      rw [ih, Scientific.value, Scientific.value, zpow_add_one₀ (by norm_num), ← hten]
      push_cast
      ring
    · rfl

/-- Below `10 ^ 16` at least every other whole number is a float. -/
theorem exponent_le_one {b : Binary} (h : Canonical b.mantissa b.exponent)
    (hvalue : b.value < 10 ^ (16 : ℤ)) : b.exponent ≤ 1 := by
  by_contra hlarge
  have hfull : (2 ^ 52 : ℚ) ≤ b.mantissa := by
    exact_mod_cast h.full.resolve_right (by omega)
  have hpow : (2 : ℚ) ^ (2 : ℤ) ≤ 2 ^ b.exponent := zpow_le_zpow_right₀ (by norm_num) (by omega)
  have hbeyond : (2 ^ 52 : ℚ) * 2 ^ (2 : ℤ) ≤ b.value := by
    rw [Binary.value]
    gcongr
  norm_num at hbeyond hvalue
  linarith

/-- The value of a float is not rounded up to `10 ^ 16`, which is the value of another one. -/
theorem not_rounded_up_high {b : Binary} (h : Canonical b.mantissa b.exponent)
    (hvalue : b.value < 10 ^ (16 : ℤ)) : b.value + 2 ^ (b.exponent - 1) < 10 ^ (16 : ℤ) := by
  have hhalf : (0 : ℚ) < 2 ^ (b.exponent - 1) := by positivity
  have hfloat : (10 : ℚ) ^ (16 : ℤ) = ((5000000000000000 : ℤ) : ℚ) * 2 ^ (1 : ℤ) := by norm_num
  have hexponent := exponent_le_one h hvalue
  by_contra hnear
  rw [not_lt] at hnear
  rw [hfloat, mul_two_pow_eq hexponent] at hnear hvalue
  exact hvalue.ne' (Binary.eq_of_near (by linarith) hnear)

/-- The value of a float is not rounded up to `10 ^ -5`, which lies closer to the next float. -/
theorem not_rounded_up_low {b : Binary} (h : Canonical b.mantissa b.exponent)
    (hvalue : b.value < 10 ^ (-5 : ℤ)) : b.value + 2 ^ (b.exponent - 1) < 10 ^ (-5 : ℤ) := by
  have hhalf : b.value + 2 ^ (b.exponent - 1) = (b.mantissa + 1 / 2) * 2 ^ b.exponent := by
    rw [Binary.value, zpow_sub_one₀ (by norm_num)]
    ring
  have hlt : (b.mantissa : ℚ) + 1 ≤ 2 ^ 53 := by exact_mod_cast h.lt
  obtain hsmall | hsame | hlarge : b.exponent ≤ -70 ∨ b.exponent = -69 ∨ -68 ≤ b.exponent := by
    omega
  · -- smaller mantissas than fit
    have hpow : (2 : ℚ) ^ b.exponent ≤ 2 ^ (-70 : ℤ) := zpow_le_zpow_right₀ (by norm_num) hsmall
    calc b.value + 2 ^ (b.exponent - 1) ≤ 2 ^ 53 * 2 ^ (-70 : ℤ) := by
          rw [hhalf]
          gcongr
          linarith
      _ < 10 ^ (-5 : ℤ) := by norm_num
  · -- `10 ^ -5` is the mantissa `5902958103587056.5…` here
    rw [hhalf, hsame]
    rw [Binary.value, hsame] at hvalue
    norm_num at hvalue ⊢
    have hmantissa : b.mantissa ≤ 5902958103587056 := by
      by_contra hbeyond
      have hcast : (5902958103587057 : ℚ) ≤ b.mantissa := by
        exact_mod_cast not_le.mp hbeyond
      linarith
    have hcast : (b.mantissa : ℚ) ≤ 5902958103587056 := by exact_mod_cast hmantissa
    linarith
  · -- larger mantissas than there are below it
    have hfull : (2 ^ 52 : ℚ) ≤ b.mantissa := by
      exact_mod_cast h.full.resolve_right (by omega)
    have hpow : (2 : ℚ) ^ (-68 : ℤ) ≤ 2 ^ b.exponent := zpow_le_zpow_right₀ (by norm_num) hlarge
    have hbeyond : (2 ^ 52 : ℚ) * 2 ^ (-68 : ℤ) ≤ b.value := by
      rw [Binary.value]
      gcongr
    norm_num at hbeyond hvalue
    linarith

/-- What a decimal tells of a value: on which side of `10 ^ 16` and `10 ^ -5` it lies, and its
integer part if it is not too large. -/
structure Tells (d : Scientific) (value : ℚ) : Prop where
  pos : 0 < d.coefficient
  high : (10 : ℚ) ^ (16 : ℤ) ≤ d.value ↔ 10 ^ (16 : ℤ) ≤ value
  low : (10 : ℚ) ^ (-5 : ℤ) ≤ d.value ↔ 10 ^ (-5 : ℤ) ≤ value
  floor : value < 10 ^ (16 : ℤ) → ⌊d.value⌋ = ⌊value⌋

theorem tells_search {b : Binary} (h : Canonical b.mantissa b.exponent) (tie : Tie) :
    Tells ((b.search tie 18 b.leadingExponent).stripZeros 18) b.value := by
  obtain ⟨hchosen, hexponent⟩ := chosen_search h.pos tie
  have hgrid : (10 : ℚ) ^ (b.search tie 18 b.leadingExponent).exponent ≤ b.value :=
    (zpow_le_zpow_right₀ (by norm_num) hexponent).trans (ten_pow_leadingExponent_le h)
  have hvalue := value_stripZeros 18 (b.search tie 18 b.leadingExponent)
  refine ⟨?_, ?_, ?_, ?_⟩
  · have hpos := hchosen.value_pos hgrid
    rw [← hvalue, Scientific.value] at hpos
    exact_mod_cast pos_of_mul_pos_left hpos (by positivity)
  · rw [hvalue]
    exact hchosen.ten_pow_le_iff hgrid (not_rounded_up_high h)
  · rw [hvalue]
    exact hchosen.ten_pow_le_iff hgrid (not_rounded_up_low h)
  · intro hsmall
    rw [hvalue]
    exact hchosen.floor_eq h (exponent_le_one h hsmall)

/-- **The shortest decimal** tells of the value of its float. -/
theorem tells_shortest {v : Float}
    (h : Canonical (Binary.ofFloat v).mantissa (Binary.ofFloat v).exponent) (tie : Tie) :
    Tells (shortest tie v) (Binary.ofFloat v).value :=
  tells_search h tie

end EmbedUI.Decimal
