import EmbedUI.Chart.Scalar
import Mathlib

/-!
# Charts over exact numbers

Bars and slices are worked out in a handful of operations, which floats round. Over the rational
numbers nothing is rounded, and the operations are the ones of arithmetic: the peak is the maximum,
the total is the sum, and rounding to hundredths is rounding and nothing else.
-/

namespace EmbedUI.Chart

theorem less_iff {a b : ℚ} : Scalar.less a b = true ↔ a < b := decide_eq_true_iff

theorem zero_eq : (0.0 : ℚ) = 0 := by norm_num

/-- A value, or zero if it is negative. -/
theorem positivePart_eq (v : ℚ) : positivePart v = max v 0 := by
  show (if decide ((0.0 : ℚ) < v) then v else 0.0) = max v 0
  rw [zero_eq]
  by_cases h : 0 < v
  · rw [if_pos (decide_eq_true h), max_eq_left h.le]
  · rw [if_neg (mt of_decide_eq_true h), max_eq_right (not_lt.mp h)]

/-- **The total** is the sum. -/
theorem total_eq_sum (values : List ℚ) : total values = values.sum := by
  show values.foldl (· + ·) (0.0 : ℚ) = values.sum
  rw [zero_eq, List.sum_eq_foldl]

/-- A fold that keeps the greater of what it has and what comes next. -/
theorem foldl_eq_some_max {step : Option ℚ → ℚ → Option ℚ}
    (h : ∀ b v, step (some b) v = some (max b v)) (values : List ℚ) (b : ℚ) :
    values.foldl step (some b) = some (values.foldl max b) := by
  induction values generalizing b with
  | nil => rfl
  | cons v rest ih => rw [List.foldl_cons, List.foldl_cons, h, ih]

/-- **The peak** is the maximum. -/
theorem peak?_eq_max? (values : List ℚ) : peak? values = values.max? := by
  have hnumbers : values.filter (fun v => !Scalar.isNaN v) = values :=
    List.filter_eq_self.mpr fun _ _ => rfl
  unfold peak?
  rw [hnumbers]
  cases values with
  | nil => rfl
  | cons v rest =>
    rw [List.max?_cons']
    refine foldl_eq_some_max (fun b w => ?_) rest v
    by_cases h : b < w
    · rw [max_eq_right h.le]
      exact if_pos (less_iff.mpr h)
    · rw [max_eq_left (not_lt.mp h)]
      exact if_neg (mt less_iff.mp h)

/-! ## Hundredths -/

/-- The whole number of hundredths nearest to a number, halves upwards. -/
def hundredths (v : ℚ) : ℕ := ⌊v * 100 + 1 / 2⌋₊

theorem hundredths_mono {v w : ℚ} (h : v ≤ w) : hundredths v ≤ hundredths w := by
  unfold hundredths
  gcongr

/-- **Rounding** a number that is not negative and not beyond the limit. -/
theorem toHundredths_eq {v : ℚ} (h : 0 ≤ v) (hlimit : v ≤ 10 ^ 15) :
    toHundredths v = hundredths v / 100 := by
  have hroundingLimit : (roundingLimit : ℚ) = 10 ^ 15 := by
    show (1e15 : ℚ) = 10 ^ 15
    norm_num
  have hhundred : (100.0 : ℚ) = 100 := by norm_num
  have hwithin : ¬ (Scalar.less roundingLimit v || Scalar.less v (0.0 - roundingLimit)) = true := by
    rw [Bool.or_eq_true, less_iff, less_iff, hroundingLimit, not_or]
    refine ⟨not_lt.mpr hlimit, not_lt.mpr ?_⟩
    show (0.0 : ℚ) - 10 ^ 15 ≤ v
    rw [zero_eq]
    linarith
  have hnonneg : ¬ v * 100 < 0 := by linarith
  have hfloor : (⌊v * 100 + 1 / 2⌋ : ℚ) = hundredths v :=
    (natCast_floor_eq_intCast_floor (by linarith)).symm
  unfold toHundredths
  rw [if_neg hwithin]
  show (if v * 100.0 < 0 then -((-(v * 100.0) + 1 / 2).floor : ℚ)
    else ((v * 100.0 + 1 / 2).floor : ℚ)) / 100.0 = _
  rw [hhundred, if_neg hnonneg]
  exact congrArg (· / 100) hfloor

end EmbedUI.Chart
