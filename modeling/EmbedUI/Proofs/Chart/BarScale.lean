import EmbedUI.Chart.Bars
import EmbedUI.Proofs.Chart.ExactScalar

/-!
# Bars are drawn to scale

Read over exact numbers, the height of a bar depends on its own value and on the greatest one, and
on nothing else of the series (`barHeights_eq`). So everything about bars is about `heightUnder`, a
function of a single value, and about the maximum, which a common factor scales and another order of
the values leaves alone.
-/

namespace EmbedUI.Chart

/-! ## One bar -/

/-- The height of the bar of a value when the greatest value is `peak`. -/
def heightUnder (peak scale v : ℚ) : ℚ := if 0 < peak then max v 0 * scale / peak else 0

section
variable {peak scale v w : ℚ}

theorem heightUnder_of_nonpos (h : peak ≤ 0) : heightUnder peak scale v = 0 :=
  if_neg (not_lt.mpr h)

theorem heightUnder_mul (h : 0 < peak) : heightUnder peak scale v * peak = max v 0 * scale := by
  rw [heightUnder, if_pos h, div_mul_cancel₀ _ h.ne']

/-- A common factor of the value and of the greatest one does not show. -/
theorem heightUnder_factor {k : ℚ} (hk : 0 < k) :
    heightUnder (k * peak) scale (k * v) = heightUnder peak scale v := by
  have hmax : max (k * v) 0 = k * max v 0 := by
    rw [mul_max_of_nonneg _ _ hk.le, mul_zero]
  rw [heightUnder, heightUnder, hmax, mul_assoc, mul_div_mul_left _ _ hk.ne']
  exact if_congr (mul_pos_iff_of_pos_left hk) rfl rfl

variable (hscale : 0 ≤ scale)
include hscale

theorem heightUnder_mono (h : v ≤ w) : heightUnder peak scale v ≤ heightUnder peak scale w := by
  unfold heightUnder
  split
  · gcongr
  · exact le_rfl

theorem heightUnder_nonneg : 0 ≤ heightUnder peak scale v := by
  unfold heightUnder
  split
  · positivity
  · exact le_rfl

theorem heightUnder_le (h : v ≤ peak) : heightUnder peak scale v ≤ scale := by
  unfold heightUnder
  split
  · next hpeak =>
    rw [div_le_iff₀ hpeak, mul_comm]
    exact mul_le_mul_of_nonneg_left (max_le h hpeak.le) hscale
  · exact hscale

omit hscale in
/-- The full height is that of the greatest value, unless there is no height at all. -/
theorem heightUnder_eq_scale_iff (h : 0 < peak) :
    heightUnder peak scale v = scale ↔ v = peak ∨ scale = 0 := by
  have hmax : max v 0 = peak ↔ v = peak := by
    constructor
    · intro heq
      obtain hv | hzero := max_choice v 0
      · rw [← heq, hv]
      · exact absurd (heq.symm.trans hzero) h.ne'
    · rintro rfl
      exact max_eq_left h.le
  rw [heightUnder, if_pos h, div_eq_iff h.ne', mul_comm, mul_eq_mul_left_iff, hmax]

end

/-! ## All bars -/

/-- The greatest of some values; zero when there are none. -/
def greatest (values : List ℚ) : ℚ := values.max?.getD 0

theorem greatest_eq {values : List ℚ} {m : ℚ} (h : values.max? = some m) : greatest values = m := by
  rw [greatest, h, Option.getD_some]

theorem le_greatest {values : List ℚ} {v : ℚ} (h : v ∈ values) : v ≤ greatest values := by
  obtain ⟨m, hm⟩ := Option.isSome_iff_exists.mp
    (List.isSome_max?_iff.mpr (List.ne_nil_of_mem h))
  rw [greatest_eq hm]
  exact (List.max?_eq_some_iff.mp hm).2 v h

/-- The program divides first, and drops what is not positive at the end. -/
theorem positivePart_share {peak scale : ℚ} (hpeak : 0 < peak) (hscale : 0 ≤ scale) (v : ℚ) :
    positivePart (v / peak * scale) = heightUnder peak scale v := by
  have hfactor : 0 ≤ scale / peak := by positivity
  have hshare : v / peak * scale = v * (scale / peak) := by ring
  rw [positivePart_eq, heightUnder, if_pos hpeak, hshare, mul_div_assoc,
    max_mul_of_nonneg _ _ hfactor, zero_mul]

/-- **Each height is a function of its value.** -/
theorem barHeights_eq (values : List ℚ) {scale : ℚ} (hscale : 0 ≤ scale) :
    barHeights values scale = values.map (heightUnder (greatest values) scale) := by
  unfold barHeights
  rw [peak?_eq_max?]
  cases hmax : values.max? with
  | none =>
    rw [List.max?_eq_none_iff.mp hmax]
    rfl
  | some m =>
    dsimp only
    rw [greatest_eq hmax]
    by_cases hpos : 0 < m
    · have hdrawn : (Scalar.isFinite m && Scalar.less 0.0 m) = true :=
        less_iff.mpr (zero_eq.symm ▸ hpos)
      rw [if_pos hdrawn]
      exact List.map_congr_left fun v _ => positivePart_share hpos hscale v
    · have hflat : ¬ (Scalar.isFinite m && Scalar.less 0.0 m) = true := fun hdrawn =>
        hpos (zero_eq ▸ less_iff.mp hdrawn)
      rw [if_neg hflat]
      refine List.map_congr_left fun v _ => ?_
      rw [heightUnder_of_nonpos (not_lt.mp hpos)]
      exact zero_eq

/-- The bar of a value has the height under the greatest one. -/
theorem height_of_mem_zip {values : List ℚ} {scale v h : ℚ} (hscale : 0 ≤ scale)
    (hmem : (v, h) ∈ values.zip (barHeights values scale)) :
    v ∈ values ∧ h = heightUnder (greatest values) scale v := by
  rw [barHeights_eq values hscale, ← List.map_prod_left_eq_zip] at hmem
  obtain ⟨w, hw, heq⟩ := List.mem_map.mp hmem
  cases heq
  exact ⟨hw, rfl⟩

/-- A common factor is one of the maximum. -/
theorem greatest_map_mul {k : ℚ} (hk : 0 < k) (values : List ℚ) :
    greatest (values.map (k * ·)) = k * greatest values := by
  cases hmax : values.max? with
  | none =>
    rw [List.max?_eq_none_iff.mp hmax]
    exact (mul_zero k).symm
  | some m =>
    obtain ⟨hmem, hle⟩ := List.max?_eq_some_iff.mp hmax
    rw [greatest_eq hmax]
    refine greatest_eq (List.max?_eq_some_iff.mpr ⟨List.mem_map_of_mem hmem, ?_⟩)
    intro w hw
    obtain ⟨v, hv, rfl⟩ := List.mem_map.mp hw
    exact mul_le_mul_of_nonneg_left (hle v hv) hk.le

/-- The order of values does not matter for their maximum. -/
theorem greatest_perm {values values' : List ℚ} (h : values.Perm values') :
    greatest values = greatest values' := by
  cases hmax : values'.max? with
  | none =>
    rw [List.max?_eq_none_iff.mp hmax] at h ⊢
    rw [h.eq_nil]
  | some m =>
    obtain ⟨hmem, hle⟩ := List.max?_eq_some_iff.mp hmax
    rw [greatest_eq hmax]
    exact greatest_eq (List.max?_eq_some_iff.mpr
      ⟨h.mem_iff.mpr hmem, fun v hv => hle v (h.mem_iff.mp hv)⟩)

/-! ## The main statement -/

/-- Heights of bars that are in proportion to some values, the greatest of which gets the full
height; no bar is drawn when none of the values is positive. -/
structure ToScale (values : List ℚ) (scale : ℚ) (heights : List ℚ) : Prop where
  length : heights.length = values.length
  flat : ∀ m, values.max? = some m → m ≤ 0 → ∀ h ∈ heights, h = 0
  ratio : ∀ m, values.max? = some m → 0 < m →
    ∀ v h, (v, h) ∈ values.zip heights → h * m = max v 0 * scale
  bounded : ∀ h ∈ heights, 0 ≤ h ∧ h ≤ scale
  full : ∀ m, values.max? = some m → 0 < m →
    ∀ v h, (v, h) ∈ values.zip heights → (h = scale ↔ v = m ∨ scale = 0)
  monotone : ∀ v h w k, (v, h) ∈ values.zip heights → (w, k) ∈ values.zip heights →
    v ≤ w → h ≤ k

theorem toScale_barHeights (values : List ℚ) {scale : ℚ} (hscale : 0 ≤ scale) :
    ToScale values scale (barHeights values scale) := by
  refine ⟨length_barHeights values scale, ?_, ?_, ?_, ?_, ?_⟩
  · intro m hmax hm h hmem
    rw [barHeights_eq values hscale, greatest_eq hmax] at hmem
    obtain ⟨v, -, rfl⟩ := List.mem_map.mp hmem
    exact heightUnder_of_nonpos hm
  · intro m hmax hm v h hmem
    obtain ⟨-, rfl⟩ := height_of_mem_zip hscale hmem
    rw [greatest_eq hmax]
    exact heightUnder_mul hm
  · intro h hmem
    rw [barHeights_eq values hscale] at hmem
    obtain ⟨v, hv, rfl⟩ := List.mem_map.mp hmem
    exact ⟨heightUnder_nonneg hscale, heightUnder_le hscale (le_greatest hv)⟩
  · intro m hmax hm v h hmem
    obtain ⟨-, rfl⟩ := height_of_mem_zip hscale hmem
    rw [greatest_eq hmax]
    exact heightUnder_eq_scale_iff hm
  · intro v h w k hv hw hle
    obtain ⟨-, rfl⟩ := height_of_mem_zip hscale hv
    obtain ⟨-, rfl⟩ := height_of_mem_zip hscale hw
    exact heightUnder_mono hscale hle

/-- **Bars are drawn to scale**, whatever the unit and the order of the values. -/
theorem bars_to_scale (values : List ℚ) {scale : ℚ} (hscale : 0 ≤ scale) :
    ToScale values scale (barHeights values scale) ∧
      (∀ k, 0 < k → barHeights (values.map (k * ·)) scale = barHeights values scale) ∧
      ∀ σ : Equiv.Perm (Fin values.length),
        barHeights (List.ofFn fun i => values.get (σ i)) scale =
          List.ofFn fun i => (barHeights values scale).get
            ((σ i).cast (length_barHeights values scale).symm) := by
  refine ⟨toScale_barHeights values hscale, ?_, ?_⟩
  · intro k hk
    rw [barHeights_eq _ hscale, barHeights_eq _ hscale, greatest_map_mul hk, List.map_map]
    exact List.map_congr_left fun v _ => heightUnder_factor hk
  · intro σ
    have hperm : (List.ofFn fun i => values.get (σ i)).Perm values := by
      have hcomp := Equiv.Perm.ofFn_comp_perm σ values.get
      rwa [List.ofFn_get] at hcomp
    rw [barHeights_eq _ hscale, greatest_perm hperm, List.map_ofFn]
    congr 1
    funext i
    simp [barHeights_eq _ hscale]

/-- A negative value and two greatest ones. -/
theorem bars_to_scale_mixedSigns :
    (0 : ℚ) ≤ 200 ∧ ToScale [-1, 3, 3 / 2, 3] 200 (barHeights [-1, 3, 3 / 2, 3] 200) ∧
      barHeights ([-1, 3, 3 / 2, 3].map ((7 : ℚ) * ·)) 200 = [0, 200, 100, 200] := by
  have hscale : (0 : ℚ) ≤ 200 := by norm_num
  obtain ⟨htoScale, hfactor, -⟩ := bars_to_scale [-1, 3, 3 / 2, 3] hscale
  refine ⟨hscale, htoScale, (hfactor 7 (by norm_num)).trans ?_⟩
  decide +kernel

end EmbedUI.Chart
