import EmbedUI.Proofs.Decimal.LeadingInteger
import EmbedUI.Proofs.Text.Words

/-!
# Decimals of few digits

Fifteen digits are fewer than a float has. So no two decimals of fifteen digits round to the same
float, unless the float is too small to have all of its bits, and such a decimal is found again: it
is the value of the shortest decimal of the float that it is rounded to. What is written of a float
that was rounded from hundredths is therefore read as these hundredths.

## The architecture

* **`Binary.Rounds`**: the numbers that are rounded to a float; **`contains_iff`**: the search for
  the shortest decimal asks for them.
* **`search_stops`**: the search does not go beyond a grid with a point among them.
* **`value_search`**: the shortest decimal of the float of a decimal of fifteen digits.
* **`amount?`**: reading what is written; **`amount?_positionalForm`**.
* **`RoundsTo`**, **`amount?_render`**: hundredths.
-/

namespace EmbedUI.Decimal

/-! ## Rounding to a float -/

/-- Halfway to the float below. -/
def Binary.low (b : Binary) : ℚ :=
  ((4 * b.mantissa - (if b.narrowBelow then 1 else 2) : ℕ) : ℚ) * 2 ^ (b.exponent - 2)

/-- Halfway to the float above. -/
def Binary.high (b : Binary) : ℚ := b.value + 2 ^ (b.exponent - 1)

/-- Numbers are rounded to the nearest float, and to the one with the even mantissa if they are
halfway between two. -/
def Binary.Rounds (b : Binary) (q : ℚ) : Prop :=
  if b.mantissa % 2 = 0 then b.low ≤ q ∧ q ≤ b.high else b.low < q ∧ q < b.high

instance (b : Binary) (q : ℚ) : Decidable (b.Rounds q) :=
  inferInstanceAs (Decidable
    (if b.mantissa % 2 = 0 then b.low ≤ q ∧ q ≤ b.high else b.low < q ∧ q < b.high))

theorem Binary.low_measured (b : Binary) (k : ℤ) :
    ((b.measured k).low : ℚ) = b.low * b.scale k := by
  have hunit := b.unit_measured k
  simp only [Binary.measured]
  rw [Nat.cast_mul, hunit, Binary.low, mul_assoc]

/-- A grid contains the points that are rounded to the float. -/
theorem Binary.contains_iff (b : Binary) (k : ℤ) (n : ℕ) :
    (b.measured k).contains n = true ↔ b.Rounds (n * 10 ^ k) := by
  have hscale := b.scale_pos k
  have hpoint : ((n * (b.measured k).step : ℕ) : ℚ) = n * 10 ^ k * b.scale k := by
    rw [Nat.cast_mul, b.step_measured, mul_assoc]
  have hle : (b.measured k).low ≤ n * (b.measured k).step ↔ b.low ≤ n * 10 ^ k := by
    rw [← Nat.cast_le (α := ℚ), hpoint, b.low_measured, mul_le_mul_iff_left₀ hscale]
  have hlt : (b.measured k).low < n * (b.measured k).step ↔ b.low < n * 10 ^ k := by
    rw [← Nat.cast_lt (α := ℚ), hpoint, b.low_measured, mul_lt_mul_iff_left₀ hscale]
  have hge : n * (b.measured k).step ≤ (b.measured k).high ↔ n * 10 ^ k ≤ b.high := by
    rw [← Nat.cast_le (α := ℚ), hpoint, b.high_measured, mul_le_mul_iff_left₀ hscale, Binary.high]
  have hgt : n * (b.measured k).step < (b.measured k).high ↔ n * 10 ^ k < b.high := by
    rw [← Nat.cast_lt (α := ℚ), hpoint, b.high_measured, mul_lt_mul_iff_left₀ hscale, Binary.high]
  have hclosed : (b.measured k).closed = decide (b.mantissa % 2 = 0) := rfl
  unfold Measured.contains Binary.Rounds
  rw [hclosed]
  by_cases heven : b.mantissa % 2 = 0
  · simp [heven, hle, hge]
  · simp [heven, hlt, hgt]

/-! ## The search -/

/-- A point between one that the grid contains and the middle. -/
theorem Measured.contains_between {i : Measured} {m n : ℕ} (hlow : i.low < i.middle)
    (hhigh : i.middle < i.high) (h : i.contains n = true)
    (hm : n * i.step ≤ m * i.step ∧ m * i.step ≤ i.middle ∨
      i.middle ≤ m * i.step ∧ m * i.step ≤ n * i.step) : i.contains m = true := by
  unfold Measured.contains at h ⊢
  cases hclosed : i.closed <;>
    simp only [hclosed, Bool.false_eq_true, if_true, if_false, Bool.and_eq_true, decide_eq_true_eq]
      at h ⊢ <;> omega

/-- One of the two points next to the middle is tried successfully if the grid contains any. -/
theorem Measured.exists_point {i : Measured} (tie : Tie) {n : ℕ} (hlow : i.low < i.middle)
    (hhigh : i.middle < i.high) (hstep : 0 < i.step) (h : i.contains n = true) :
    ∃ m, i.point? tie = some m := by
  have hbelow : i.middle / i.step * i.step ≤ i.middle := Nat.div_mul_le_self _ _
  have habove : i.middle < (i.middle / i.step + 1) * i.step := by
    rw [mul_comm]
    exact Nat.lt_mul_div_succ _ hstep
  have hnext : i.contains (i.middle / i.step) = true ∨
      i.contains (i.middle / i.step + 1) = true := by
    obtain hgt | hle := Nat.lt_or_ge (i.middle / i.step) n
    · have hmul : (i.middle / i.step + 1) * i.step ≤ n * i.step := Nat.mul_le_mul_right _ hgt
      exact Or.inr (contains_between hlow hhigh h (Or.inr ⟨habove.le, hmul⟩))
    · have hmul : n * i.step ≤ i.middle / i.step * i.step := Nat.mul_le_mul_right _ hle
      exact Or.inl (contains_between hlow hhigh h (Or.inl ⟨hmul, hbelow⟩))
  unfold Measured.point?
  dsimp only
  split
  · next hnone hnone' =>
    rw [hnone, hnone'] at hnext
    simp at hnext
  · exact ⟨_, rfl⟩
  · exact ⟨_, rfl⟩
  · split_ifs <;> exact ⟨_, rfl⟩

/-- **The search** stops at a grid that has a point, or before. -/
theorem search_stops {b : Binary} {tie : Tie} {j : ℤ} {m : ℕ}
    (h : (b.measured j).point? tie = some m) (digits : ℕ) (k : ℤ) (hj : j ≤ k)
    (hdigits : k < j + digits) :
    ∃ i n, j ≤ i ∧ (b.measured i).point? tie = some n ∧ b.search tie digits k = ⟨n, i⟩ := by
  induction digits generalizing k with
  | zero => omega
  | succ digits ih =>
    cases hpoint : (b.measured k).point? tie with
    | some n => exact ⟨k, n, hj, hpoint, by rw [Binary.search, hpoint]⟩
    | none =>
      have hne : j ≠ k := by
        rintro rfl
        rw [hpoint] at h
        cases h
      have hstep : b.search tie (digits + 1) k = b.search tie digits (k - 1) := by
        rw [Binary.search, hpoint]
      rw [hstep]
      exact ih (k - 1) (by omega) (by push_cast at hdigits; omega)

/-- The digits before the shifted point say how large the value can be. -/
theorem Binary.value_lt_ten_pow (b : Binary) (places : ℕ) :
    b.value < 10 ^ (((Nat.toDigits 10 (b.shifted places)).length : ℤ) - places) := by
  have htwo := zpow_mul_pow_toNat (a := 2) (by norm_num) b.exponent
  have hfloor : b.value * 10 ^ places < (b.shifted places : ℚ) + 1 := by
    have hdiv := Nat.lt_mul_div_succ (b.mantissa * 2 ^ b.exponent.toNat * 10 ^ places)
      (b := 2 ^ (-b.exponent).toNat) (by positivity)
    have hcast : ((b.mantissa * 2 ^ b.exponent.toNat * 10 ^ places : ℕ) : ℚ) <
        ((2 ^ (-b.exponent).toNat * (b.shifted places + 1) : ℕ) : ℚ) := by exact_mod_cast hdiv
    push_cast at hcast
    rw [← htwo] at hcast
    refine lt_of_mul_lt_mul_left ?_ (by positivity : (0 : ℚ) ≤ 2 ^ (-b.exponent).toNat)
    refine lt_of_eq_of_lt ?_ hcast
    rw [Binary.value]
    ring
  have hdigits : b.shifted places + 1 ≤ 10 ^ (Nat.toDigits 10 (b.shifted places)).length :=
    (Nat.length_toDigits_le_iff (by decide) Nat.length_toDigits_pos).mp le_rfl
  have hdigits' : (b.shifted places : ℚ) + 1 ≤
      10 ^ (Nat.toDigits 10 (b.shifted places)).length := by exact_mod_cast hdigits
  rw [zpow_sub₀ (by norm_num), zpow_natCast, zpow_natCast, lt_div_iff₀ (by positivity)]
  exact hfloor.trans_le hdigits'

/-- The search starts at the leading digit, and not below it. -/
theorem Binary.value_lt_leading (b : Binary) : b.value < 10 ^ (b.leadingExponent + 1) := by
  have hexponent : b.leadingExponent + 1 =
      ((Nat.toDigits 10 (b.shifted 340)).length : ℤ) - (340 : ℕ) := by
    rw [b.leadingExponent_eq]
    ring
  rw [hexponent]
  exact b.value_lt_ten_pow 340

/-! ## Fifteen digits -/

section
variable {b : Binary} (hfull : 2 ^ 52 ≤ b.mantissa) {n : ℕ} (hn : n < 10 ^ 15) {k : ℤ}
  (hrounds : b.Rounds (n * 10 ^ k))

theorem near_of_rounds (h : b.Rounds (n * 10 ^ k)) :
    b.value - 2 ^ (b.exponent - 1) ≤ n * 10 ^ k ∧ n * 10 ^ k ≤ b.value + 2 ^ (b.exponent - 1) :=
  b.near_of_contains ((b.contains_iff k n).mpr h)

include hfull in
theorem two_pow_le_value : 2 ^ 52 * 2 ^ b.exponent ≤ b.value := by
  have hcast : (2 ^ 52 : ℚ) ≤ b.mantissa := by exact_mod_cast hfull
  rw [Binary.value]
  gcongr

include hfull hn hrounds in
/-- The last place of the float is finer than that of the decimal, and than fifteen digits. -/
theorem two_pow_lt_ten_pow : (2 : ℚ) ^ b.exponent < 10 ^ min k b.leadingExponent := by
  have hvalue := two_pow_le_value hfull
  have hplace : (2 : ℚ) ^ b.exponent < 10 ^ k := by
    obtain ⟨hlow, -⟩ := near_of_rounds hrounds
    have hhalf : (2 : ℚ) ^ (b.exponent - 1) = 2 ^ b.exponent / 2 := zpow_sub_one₀ (by norm_num) _
    have hcast : (n : ℚ) ≤ 10 ^ 15 := by exact_mod_cast hn.le
    have hpoint : (n : ℚ) * 10 ^ k ≤ 10 ^ 15 * 10 ^ k := by gcongr
    have hpos : (0 : ℚ) < 2 ^ b.exponent := by positivity
    rw [hhalf] at hlow
    norm_num at hvalue hpoint
    linarith
  have hleading : (2 : ℚ) ^ b.exponent < 10 ^ b.leadingExponent := by
    have hlt := b.value_lt_leading
    have hpos : (0 : ℚ) < 10 ^ b.leadingExponent := by positivity
    rw [zpow_add_one₀ (by norm_num)] at hlt
    norm_num at hvalue
    linarith
  obtain hmin | hmin := min_choice k b.leadingExponent
  · rw [hmin]
    exact hplace
  · rw [hmin]
    exact hleading

/-- Two points of a grid that is coarser than the last place are not both rounded to the float. -/
theorem eq_of_near_points {j : ℤ} (hfine : (2 : ℚ) ^ b.exponent < 10 ^ j) {x y : ℕ}
    (hx : b.value - 2 ^ (b.exponent - 1) ≤ x * 10 ^ j)
    (hx' : x * 10 ^ j ≤ b.value + 2 ^ (b.exponent - 1))
    (hy : b.value - 2 ^ (b.exponent - 1) ≤ y * 10 ^ j)
    (hy' : y * 10 ^ j ≤ b.value + 2 ^ (b.exponent - 1)) : (x : ℚ) * 10 ^ j = y * 10 ^ j := by
  have hgrid : (0 : ℚ) < 10 ^ j := by positivity
  have hhalf : (2 : ℚ) ^ (b.exponent - 1) = 2 ^ b.exponent / 2 := zpow_sub_one₀ (by norm_num) _
  rw [hhalf] at hx hx' hy hy'
  have hle : (x : ℚ) < y + 1 := by
    refine lt_of_mul_lt_mul_right ?_ hgrid.le
    rw [add_mul, one_mul]
    linarith
  have hge : (y : ℚ) < x + 1 := by
    refine lt_of_mul_lt_mul_right ?_ hgrid.le
    rw [add_mul, one_mul]
    linarith
  have heq : x = y :=
    le_antisymm (Nat.lt_succ_iff.mp (by exact_mod_cast hle))
      (Nat.lt_succ_iff.mp (by exact_mod_cast hge))
  rw [heq]

/-- From the leading digit to a grid that is no finer than the last place it is not far. -/
theorem leadingExponent_lt (hcanonical : Canonical b.mantissa b.exponent) {j : ℤ}
    (hfine : (2 : ℚ) ^ b.exponent ≤ 10 ^ j) : b.leadingExponent < j + (18 : ℕ) := by
  have hmantissa : (b.mantissa : ℚ) ≤ 10 ^ (16 : ℤ) := by
    have hcast : (b.mantissa : ℚ) < 2 ^ 53 := by exact_mod_cast hcanonical.lt
    norm_num at hcast ⊢
    linarith
  have hpow : (10 : ℚ) ^ b.leadingExponent ≤ 10 ^ (16 + j) := calc
    (10 : ℚ) ^ b.leadingExponent ≤ b.mantissa * 2 ^ b.exponent :=
      ten_pow_leadingExponent_le hcanonical
    _ ≤ 10 ^ (16 : ℤ) * 10 ^ j := by gcongr
    _ = 10 ^ (16 + j) := (zpow_add₀ (by norm_num) _ _).symm
  have hle := (zpow_le_zpow_iff_right₀ (by norm_num)).mp hpow
  push_cast
  omega

include hfull hn hrounds in
/-- **Fifteen digits** are found again: the search ends at the decimal that was rounded. -/
theorem value_search (hcanonical : Canonical b.mantissa b.exponent) (tie : Tie) :
    (b.search tie 18 b.leadingExponent).value = n * 10 ^ k := by
  have hfine := two_pow_lt_ten_pow hfull hn hrounds
  obtain ⟨j, hj⟩ : ∃ j, j = min k b.leadingExponent := ⟨_, rfl⟩
  rw [← hj] at hfine
  -- the decimal is a point of the grid at `j`
  have hpoint := ten_pow_eq_mul (hj ▸ min_le_left k b.leadingExponent)
  have hfiner : (n : ℚ) * 10 ^ k = ((n * 10 ^ (k - j).toNat : ℕ) : ℚ) * 10 ^ j := by
    rw [hpoint]
    push_cast
    ring
  rw [hfiner] at hrounds ⊢
  obtain ⟨m, hm⟩ := Measured.exists_point tie (b.low_lt_middle hcanonical.pos j)
    (b.middle_lt_high j) (b.step_pos j) ((b.contains_iff j _).mpr hrounds)
  -- which the search does not miss
  obtain ⟨i, d, hi, hd, hsearch⟩ := search_stops hm 18 _ (hj ▸ min_le_right _ _)
    (leadingExponent_lt hcanonical hfine.le)
  rw [hsearch, Scientific.value]
  obtain ⟨hcontains, -⟩ := Measured.point?_eq_some hd
  obtain ⟨hlow, hhigh⟩ := b.near_of_contains hcontains
  obtain ⟨hlow', hhigh'⟩ := near_of_rounds hrounds
  rw [ten_pow_eq_mul hi, ← mul_assoc, ← Nat.cast_mul] at hlow hhigh ⊢
  exact eq_of_near_points hfine hlow hhigh hlow' hhigh'

end

/-! ## Reading what is written -/

/-- The number that a text shows: digits, and maybe a point and more digits behind it. -/
def amount? (cs : List Char) : Option ℚ :=
  let whole := cs.takeWhile Char.isDigit
  match cs.dropWhile Char.isDigit with
  | [] => if whole = [] then none else some (Text.naturalOf whole)
  | c :: fraction =>
    if c = '.' ∧ whole ≠ [] ∧ fraction ≠ [] ∧ fraction.all Char.isDigit then
      some (Text.naturalOf (whole ++ fraction) / 10 ^ fraction.length)
    else none

section
variable {whole fraction : List Char} (hne : whole ≠ [])
  (hwhole : ∀ c ∈ whole, c.isDigit = true)
include hne hwhole

theorem amount?_whole : amount? whole = some (Text.naturalOf whole : ℚ) := by
  have htake : whole.takeWhile Char.isDigit = whole := List.takeWhile_eq_self_iff.mpr hwhole
  have hdrop : whole.dropWhile Char.isDigit = [] := List.dropWhile_eq_nil_iff.mpr hwhole
  unfold amount?
  rw [htake, hdrop]
  exact if_neg hne

theorem amount?_point (hne' : fraction ≠ []) (hfraction : ∀ c ∈ fraction, c.isDigit = true) :
    amount? (whole ++ '.' :: fraction) =
      some (Text.naturalOf (whole ++ fraction) / 10 ^ fraction.length : ℚ) := by
  have hpoint : ∀ c ∈ ('.' :: fraction).head?, c.isDigit = false := by
    intro c hc
    rw [← Option.some.inj hc]
    decide
  obtain ⟨htake, hdrop⟩ := Text.takeWhile_dropWhile_run hwhole hpoint
  unfold amount?
  rw [htake, hdrop]
  exact if_pos ⟨rfl, hne, hne', List.all_eq_true.mpr hfraction⟩

end

theorem amount?_positionalForm {l : Layout} (hl : l.integralPoint = false) {ds : List Char}
    (hne : ds ≠ []) (hds : ∀ c ∈ ds, c.isDigit = true) (exponent : ℤ) :
    amount? (l.positionalForm ds exponent) = some (Text.naturalOf ds * 10 ^ exponent : ℚ) := by
  have hzeros : ∀ n, ∀ c ∈ List.replicate n '0', c.isDigit = true :=
    forall_mem_zeros (p := (·.isDigit = true)) rfl
  unfold Layout.positionalForm
  dsimp only
  split
  · next hwhole =>
    -- zeros behind the digits
    have hdigits : ∀ c ∈ ds ++ List.replicate exponent.toNat '0', c.isDigit = true :=
      List.forall_mem_append.mpr ⟨hds, hzeros _⟩
    rw [if_neg (by simp [hl]), List.append_nil,
      amount?_whole (List.append_ne_nil_of_left_ne_nil hne _) hdigits, naturalOf_append,
      naturalOf_zeros, List.length_replicate, add_zero]
    conv_rhs => rw [← Int.toNat_of_nonneg hwhole, zpow_natCast]
    push_cast
    rfl
  · next hfraction =>
    obtain ⟨places, hplaces⟩ : ∃ places : ℕ, exponent = -places := ⟨(-exponent).toNat, by omega⟩
    have hpower : (10 : ℚ) ^ exponent = 1 / 10 ^ places := by
      rw [hplaces, zpow_neg, zpow_natCast, one_div]
    have htoNat : (-exponent).toNat = places := by omega
    have hsome : 0 < places := by omega
    rw [htoNat, hpower, mul_one_div]
    split
    · next hshort =>
      -- a point among the digits
      have hlength : (ds.drop (ds.length - places)).length = places := by
        rw [List.length_drop]
        omega
      have hfront : ds.take (ds.length - places) ≠ [] := by
        rw [Ne, List.take_eq_nil_iff, not_or]
        exact ⟨by omega, hne⟩
      have hback : ds.drop (ds.length - places) ≠ [] :=
        List.ne_nil_of_length_pos (hsome.trans_eq hlength.symm)
      rw [amount?_point hfront (fun c hc => hds c (List.mem_of_mem_take hc)) hback
        (fun c hc => hds c (List.mem_of_mem_drop hc)), List.take_append_drop, hlength]
    · next hlong =>
      -- zeros in front of the digits
      have hlength : (List.replicate (places - ds.length) '0' ++ ds).length = places := by
        rw [List.length_append, List.length_replicate]
        omega
      have hvalue : Text.naturalOf (['0'] ++ (List.replicate (places - ds.length) '0' ++ ds)) =
          Text.naturalOf ds := by
        have hzero : Text.naturalOf ['0'] = 0 := naturalOf_zeros 1
        rw [naturalOf_append, naturalOf_append, hzero, naturalOf_zeros, zero_mul, zero_mul,
          zero_add, zero_add]
      have hfront : ∀ c ∈ ['0'], c.isDigit = true := by simp
      have hback : List.replicate (places - ds.length) '0' ++ ds ≠ [] :=
        List.append_ne_nil_of_right_ne_nil _ hne
      have hread := amount?_point (List.cons_ne_nil '0' []) hfront hback
        (List.forall_mem_append.mpr ⟨hzeros _, hds⟩)
      rw [hvalue, hlength] at hread
      exact hread

/-! ## Hundredths -/

/-- A float that is not negative, and that a number is rounded to. -/
structure RoundsTo (q : ℚ) (v : Float) : Prop where
  finite : v.isFinite = true
  sign : signBit v = .positive
  rounds : (Binary.ofFloat v).Rounds q

theorem amount?_magnitude (d : Scientific) :
    amount? (markupLayout.magnitude d) = some d.value := by
  have hread := amount?_positionalForm (l := markupLayout) rfl (digits_ne_nil d.coefficient)
    isDigit_of_mem_digits d.exponent
  rw [naturalOf_digits] at hread
  exact hread

/-- What is read from the bits of a zero. -/
theorem ofFloat_zero {v : Float} (h : v.isFinite = true)
    (hzero : v.toModel.unpack = .zero (signBit v)) : Binary.ofFloat v = ⟨0, -1074, false⟩ := by
  by_cases hlowest : v.toBits.toNat / 2 ^ 52 % 2 ^ 11 = 0
  · have hunpack := unpack_subnormal (b := v.toModel.toBits.toBitVec) hlowest
    have hmantissa : v.toBits.toNat % 2 ^ 52 = 0 := by
      by_contra hne
      cases hzero.symm.trans (hunpack.trans (dif_neg hne))
    rw [ofFloat_subnormal hlowest, hmantissa]
  · cases hzero.symm.trans (unpack_normal (unpackExponent_ne h) hlowest)

/-- Nothing but zero is so close to zero that it is rounded to it. -/
theorem eq_zero_of_rounds {n : ℕ} (h : (⟨0, -1074, false⟩ : Binary).Rounds (n * 10 ^ (-2 : ℤ))) :
    n = 0 := by
  obtain ⟨-, hhigh⟩ := near_of_rounds h
  have htiny : (2 : ℚ) ^ (-1075 : ℤ) ≤ 2 ^ (-7 : ℤ) :=
    zpow_le_zpow_right₀ (by norm_num) (by norm_num)
  have hvalue : (⟨0, -1074, false⟩ : Binary).value = 0 := by
    rw [Binary.value, Nat.cast_zero, zero_mul]
  have hexponent : (-1074 : ℤ) - 1 = -1075 := rfl
  rw [hvalue, zero_add, hexponent] at hhigh
  have hnear := hhigh.trans htiny
  have hlt : (n : ℚ) < 1 := by
    norm_num at hnear
    linarith
  exact Nat.lt_one_iff.mp (by exact_mod_cast hlt)

/-- Hundredths have all of their bits. -/
theorem full_of_rounds {b : Binary} (hcanonical : Canonical b.mantissa b.exponent) {n : ℕ}
    (h : b.Rounds (n * 10 ^ (-2 : ℤ))) : 2 ^ 52 ≤ b.mantissa := by
  refine hcanonical.full.resolve_right fun hlowest => ?_
  obtain ⟨hlow, hhigh⟩ := near_of_rounds h
  have hplace : (0 : ℚ) < 2 ^ b.exponent := by positivity
  have hhalf : (2 : ℚ) ^ (b.exponent - 1) = 2 ^ b.exponent / 2 := zpow_sub_one₀ (by norm_num) _
  have hpos : (1 : ℚ) ≤ b.mantissa := by exact_mod_cast hcanonical.pos
  have hlt : (b.mantissa : ℚ) < 2 ^ 53 := by exact_mod_cast hcanonical.lt
  have htiny : (2 : ℚ) ^ b.exponent ≤ 2 ^ (-63 : ℤ) :=
    zpow_le_zpow_right₀ (by norm_num) (by omega)
  rw [hhalf, Binary.value] at hlow hhigh
  generalize (2 : ℚ) ^ b.exponent = place at hplace htiny hlow hhigh
  have hsome : (0 : ℚ) < n := by
    have hmantissa : place ≤ b.mantissa * place := le_mul_of_one_le_left hplace.le hpos
    have hpoint : (0 : ℚ) < n * 10 ^ (-2 : ℤ) := lt_of_lt_of_le (by linarith) hlow
    exact pos_of_mul_pos_left hpoint (by positivity)
  have hone : (1 : ℚ) ≤ n := by exact_mod_cast hsome
  have hproduct : (b.mantissa : ℚ) * place ≤ 2 ^ 53 * 2 ^ (-63 : ℤ) := by gcongr
  norm_num at hhigh hproduct htiny
  linarith

/-- **Hundredths** of up to fifteen digits are read as they were before they were rounded. -/
theorem amount?_render {v : Float} {n : ℕ} (hn : n < 10 ^ 15) (h : RoundsTo (n / 100) v) :
    amount? (markupLayout.render v).toList = some (n / 100 : ℚ) := by
  obtain ⟨hfinite, hsign, hrounds⟩ := h
  have hplus : ¬ (signBit v == .negative) = true := by
    rw [hsign]
    decide
  have hhundredths : (n / 100 : ℚ) = n * 10 ^ (-2 : ℤ) := by
    norm_num
    ring
  rw [hhundredths] at hrounds ⊢
  rw [markupLayout.render_of_isFinite hfinite, String.toList_ofList, if_neg hplus, List.nil_append]
  obtain ⟨hzero, -⟩ | ⟨hcanonical, hne, -⟩ := exactValue_cases hfinite
  · have heq : (v == 0) = true := by
      show Float.Model.UnpackedFloat.beq v.toModel.unpack (.zero .positive) = true
      rw [hzero]
      cases signBit v <;> rfl
    have hread := amount?_positionalForm (l := markupLayout) rfl (List.cons_ne_nil '0' [])
      (by simp) 0
    rw [ofFloat_zero hfinite hzero] at hrounds
    have hnone : Text.naturalOf ['0'] = 0 := naturalOf_zeros 1
    rw [heq, if_pos rfl, hread, hnone, eq_zero_of_rounds hrounds, Nat.cast_zero, zero_mul, zero_mul]
  · rw [hne, if_neg Bool.false_ne_true, amount?_magnitude, shortest, value_stripZeros,
      value_search (full_of_rounds hcanonical hrounds) hn hrounds hcanonical]

end EmbedUI.Decimal
