import EmbedUI.Chart.Pie
import EmbedUI.Proofs.Chart.ExactScalar
import EmbedUI.Proofs.Decimal.FewDigits

/-!
# Slices share the circle

Slices follow each other around the circle in the colours of the palette, whatever the numbers are
that they are computed with. Over exact numbers more is true: nothing is lost on the way, so the
last slice ends where the circle does, and what a slice spans is the share of its value.

## The architecture

* **`slicesFrom_color`**, **`slicesFrom_chain`**: any numbers.
* **`reached`**: how much of the circle is taken after some of the values; **`slicesFrom_bounds`**:
  a slice goes from one such bound to the next.
* **`Partition`**, **`partition_slices`**: the exact slices.
* **`PrintedInOrder`**, **`Partition.printedInOrder`**: their bounds, rounded one by one and then
  written.
* **`circle_shared`**: both.
-/

namespace EmbedUI.Chart

/-! ## Any numbers -/

section
variable {α : Type} [Scalar α]

theorem slicesFrom_color (sum : α) (values : List α) (i : Nat) (start : α) (k : Nat)
    (s : Slice α) (h : (slicesFrom sum i start values)[k]? = some s) :
    palette[(i + k) % 5]? = some s.color := by
  induction values generalizing i start k with
  | nil => simp [slicesFrom] at h
  | cons v rest ih =>
    cases k with
    | zero =>
      simp only [slicesFrom, List.getElem?_cons_zero, Option.some.injEq] at h
      have hlt : i % 5 < palette.length := Nat.mod_lt i (by decide)
      rw [← h, Nat.add_zero, List.getElem?_eq_getElem hlt]
      show some palette[i % 5] = some (palette.getD (i % 5) "")
      rw [List.getD_eq_getElem?_getD, List.getElem?_eq_getElem hlt]
      rfl
    | succ k =>
      simp only [slicesFrom, List.getElem?_cons_succ] at h
      have hrest := ih _ _ k h
      have hindex : i + 1 + k = i + (k + 1) := by omega
      rwa [hindex] at hrest

theorem slicesFrom_chain (sum : α) (values : List α) (i : Nat) (start : α) :
    (slicesFrom sum i start values).IsChain fun s t => t.start = s.stop := by
  induction values generalizing i start with
  | nil => exact .nil
  | cons v rest ih =>
    -- the rest goes on from where the first slice stops
    refine List.isChain_cons.mpr ⟨?_, ih _ _⟩
    intro next hnext
    cases rest with
    | nil => cases hnext
    | cons w others =>
      cases hnext
      rfl

/-- The bounds of slices in their order, each of them twice where slices meet. -/
def bounds (parts : List (Slice α)) : List α := parts.flatMap fun s => [s.start, s.stop]

end

/-! ## Exact numbers -/

/-- How much of the circle is taken after the first `k` of some values, in percent. -/
def reached (values : List ℚ) (k : ℕ) : ℚ := 100 * (values.take k).sum / values.sum

theorem reached_zero (values : List ℚ) : reached values 0 = 0 := by
  rw [reached, List.take_zero, List.sum_nil, mul_zero, zero_div]

theorem reached_length {values : List ℚ} (h : 0 < values.sum) :
    reached values values.length = 100 := by
  rw [reached, List.take_length, mul_div_assoc, div_self h.ne', mul_one]

theorem reached_mono {values : List ℚ} (h : ∀ v ∈ values, 0 ≤ v) {i j : ℕ} (hij : i ≤ j) :
    reached values i ≤ reached values j := by
  have hnonneg : 0 ≤ values.sum := List.sum_nonneg h
  have htake : (values.take i).sum ≤ (values.take j).sum :=
    (List.take_sublist_take_left hij).sum_le_sum fun v hv => h v (List.mem_of_mem_take hv)
  unfold reached
  gcongr

/-- **A slice** goes from one bound to the next. -/
theorem slicesFrom_bounds (sum : ℚ) (values : List ℚ) (i : ℕ) (start : ℚ) (k : ℕ) (s : Slice ℚ)
    (h : (slicesFrom sum i start values)[k]? = some s) :
    s.start = start + 100 * (values.take k).sum / sum ∧
      s.stop = start + 100 * (values.take (k + 1)).sum / sum := by
  induction values generalizing i start k with
  | nil => simp [slicesFrom] at h
  | cons v rest ih =>
    have hhundred : (100.0 : ℚ) = 100 := by norm_num
    have hstop : start + v / sum * 100.0 = start + 100 * v / sum := by
      rw [hhundred]
      ring
    cases k with
    | zero =>
      rw [slicesFrom, List.getElem?_cons_zero, Option.some.injEq] at h
      subst h
      refine ⟨?_, hstop.trans ?_⟩
      · rw [List.take_zero, List.sum_nil, mul_zero, zero_div, add_zero]
      · rw [List.take_succ_cons, List.take_zero, List.sum_singleton]
    | succ k =>
      rw [slicesFrom, List.getElem?_cons_succ] at h
      obtain ⟨hstart, hstop'⟩ := ih _ _ k h
      rw [hstart, hstop', List.take_succ_cons, List.take_succ_cons, List.sum_cons, List.sum_cons]
      refine ⟨?_, ?_⟩
      · refine (congrArg (· + _) hstop).trans ?_
        ring
      · refine (congrArg (· + _) hstop).trans ?_
        ring

theorem slices_bounds {values : List ℚ} {k : ℕ} {s : Slice ℚ} (h : (slices values)[k]? = some s) :
    s.start = reached values k ∧ s.stop = reached values (k + 1) := by
  rw [slices, total_eq_sum] at h
  obtain ⟨hstart, hstop⟩ := slicesFrom_bounds _ _ _ _ k s h
  have hzero : ∀ q : ℚ, 0.0 + q = q := fun q => by rw [zero_eq, zero_add]
  exact ⟨hstart.trans (hzero _), hstop.trans (hzero _)⟩

/-- Slices of some values that are a partition of the circle: one for each value in order, from the
start of the circle to its end, each with the share of its value. -/
structure Partition (values : List ℚ) (parts : List (Slice ℚ)) : Prop where
  length : parts.length = values.length
  first : parts.head?.map Slice.start = some 0
  next : parts.IsChain fun s t => t.start = s.stop
  last : parts.getLast?.map Slice.stop = some 100
  span : ∀ v s, (v, s) ∈ values.zip parts → s.stop - s.start = 100 * v / values.sum
  forward : ∀ s ∈ parts, s.start ≤ s.stop
  within : ∀ b ∈ bounds parts, 0 ≤ b ∧ b ≤ 100
  circle : (parts.map Slice.degrees).sum = 360
  color : ∀ i s, parts[i]? = some s → palette[i % 5]? = some s.color

section
variable {values : List ℚ} (hnonneg : ∀ v ∈ values, 0 ≤ v) (hpos : 0 < values.sum)

theorem length_slices : (slices values).length = values.length :=
  length_slicesFrom _ _ _ _

/-- The slice of a value spans its share. -/
theorem span_of_mem_zip {v : ℚ} {s : Slice ℚ} (h : (v, s) ∈ values.zip (slices values)) :
    s.stop - s.start = 100 * v / values.sum := by
  obtain ⟨k, hk⟩ := List.mem_iff_getElem?.mp h
  obtain ⟨hv, hs⟩ := List.getElem?_zip_eq_some.mp hk
  obtain ⟨hstart, hstop⟩ := slices_bounds hs
  have hsum : (values.take (k + 1)).sum = (values.take k).sum + v := by
    rw [List.take_add_one, hv, Option.toList_some, List.sum_append, List.sum_singleton]
  rw [hstart, hstop, reached, reached, hsum]
  ring

include hnonneg in
theorem start_le_stop {s : Slice ℚ} (h : s ∈ slices values) : s.start ≤ s.stop := by
  obtain ⟨k, hk⟩ := List.mem_iff_getElem?.mp h
  obtain ⟨hstart, hstop⟩ := slices_bounds hk
  rw [hstart, hstop]
  exact reached_mono hnonneg (Nat.le_succ k)

include hnonneg hpos in
theorem within_circle {b : ℚ} (h : b ∈ bounds (slices values)) : 0 ≤ b ∧ b ≤ 100 := by
  have hreached : ∀ k ≤ values.length, 0 ≤ reached values k ∧ reached values k ≤ 100 := by
    intro k hk
    rw [← reached_zero values, ← reached_length hpos]
    exact ⟨reached_mono hnonneg (Nat.zero_le k), reached_mono hnonneg hk⟩
  obtain ⟨s, hs, hb⟩ := List.mem_flatMap.mp h
  obtain ⟨k, hk⟩ := List.mem_iff_getElem?.mp hs
  obtain ⟨hstart, hstop⟩ := slices_bounds hk
  have hlt : k < values.length := by
    rw [← length_slices]
    exact (List.getElem?_eq_some_iff.mp hk).1
  rw [List.mem_cons, List.mem_singleton] at hb
  obtain rfl | rfl := hb
  · exact hstart ▸ hreached k hlt.le
  · exact hstop ▸ hreached (k + 1) hlt

/-- The degrees of slices are a share of the full turn. -/
theorem sum_degrees_slicesFrom (sum : ℚ) (values : List ℚ) (i : ℕ) (start : ℚ) :
    ((slicesFrom sum i start values).map Slice.degrees).sum = 360 * values.sum / sum := by
  induction values generalizing i start with
  | nil => rw [slicesFrom, List.map_nil, List.sum_nil, mul_zero, zero_div]
  | cons v rest ih =>
    have hdegrees : (start + v / sum * 100.0 - start) * 3.6 = 360 * v / sum := by
      norm_num
      ring
    rw [slicesFrom, List.map_cons, List.sum_cons, List.sum_cons, ih]
    refine (congrArg (· + _) hdegrees).trans ?_
    ring

theorem exists_slice {k : ℕ} (h : k < values.length) :
    ∃ s, (slices values)[k]? = some s ∧ s.start = reached values k ∧
      s.stop = reached values (k + 1) := by
  rw [← length_slices] at h
  exact ⟨_, List.getElem?_eq_getElem h, slices_bounds (List.getElem?_eq_getElem h)⟩

include hnonneg hpos in
/-- **Exact slices** are a partition of the circle. -/
theorem partition_slices (hne : values ≠ []) : Partition values (slices values) := by
  have hlength : 0 < values.length := List.length_pos_iff.mpr hne
  constructor
  · exact length_slices
  · obtain ⟨s, hs, hstart, -⟩ := exists_slice hlength
    rw [List.head?_eq_getElem?, hs, Option.map_some, hstart, reached_zero]
  · exact slicesFrom_chain _ _ _ _
  · obtain ⟨s, hs, -, hstop⟩ := exists_slice (Nat.sub_lt hlength Nat.one_pos)
    rw [List.getLast?_eq_getElem?, length_slices, hs, Option.map_some, hstop,
      Nat.sub_add_cancel hlength, reached_length hpos]
  · exact fun v s => span_of_mem_zip
  · exact fun s => start_le_stop hnonneg
  · exact fun b => within_circle hnonneg hpos
  · rw [slices, total_eq_sum, sum_degrees_slicesFrom, mul_div_assoc, div_self hpos.ne', mul_one]
  · intro i s hs
    have hcolor := slicesFrom_color _ _ _ _ i s hs
    rwa [Nat.zero_add] at hcolor

end

/-! ## Rounded bounds -/

/-- Bounds of slices that follow each other are in order. -/
theorem isChain_bounds {parts : List (Slice ℚ)} (hnext : parts.IsChain fun s t => t.start = s.stop)
    (hforward : ∀ s ∈ parts, s.start ≤ s.stop) : (bounds parts).IsChain (· ≤ ·) := by
  induction parts with
  | nil => exact .nil
  | cons s rest ih =>
    obtain ⟨hs, hrest⟩ := List.forall_mem_cons.mp hforward
    obtain ⟨hhead, htail⟩ := List.isChain_cons.mp hnext
    have hbounds : bounds (s :: rest) = s.start :: s.stop :: bounds rest := rfl
    rw [hbounds]
    refine List.isChain_cons_cons.mpr ⟨hs, List.isChain_cons.mpr ⟨?_, ih htail hrest⟩⟩
    intro b hb
    cases rest with
    | nil => cases hb
    | cons t others =>
      cases hb
      exact (hhead t rfl).symm.le

theorem head?_bounds (parts : List (Slice ℚ)) :
    (bounds parts).head? = parts.head?.map Slice.start := by
  cases parts with
  | nil => rfl
  | cons s rest => rfl

theorem getLast?_bounds (parts : List (Slice ℚ)) :
    (bounds parts).getLast? = parts.getLast?.map Slice.stop := by
  obtain rfl | ⟨rest, s, rfl⟩ := parts.eq_nil_or_concat
  · rfl
  · rw [List.concat_eq_append, bounds, List.flatMap_append, List.flatMap_singleton,
      List.getLast?_append_of_ne_nil _ (List.cons_ne_nil _ _), List.getLast?_concat,
      Option.map_some]
    rfl

/-- **Percentages** are rounded to at most ten thousand hundredths. -/
theorem toHundredths_percentage {b : ℚ} (h : 0 ≤ b ∧ b ≤ 100) :
    toHundredths b = hundredths b / 100 :=
  toHundredths_eq h.1 (h.2.trans (by norm_num))

theorem toHundredths_mono {b c : ℚ} (hb : 0 ≤ b ∧ b ≤ 100) (hc : 0 ≤ c ∧ c ≤ 100) (h : b ≤ c) :
    toHundredths b ≤ toHundredths c := by
  have hcast : (hundredths b : ℚ) ≤ hundredths c := by exact_mod_cast hundredths_mono h
  rw [toHundredths_percentage hb, toHundredths_percentage hc]
  gcongr

theorem toHundredths_zero : toHundredths (0 : ℚ) = 0 := by decide +kernel

theorem toHundredths_hundred : toHundredths (100 : ℚ) = 100 := by decide +kernel

/-- Bounds that go from `0` to `100` in order when each of them is rounded to two decimals, and that
are read as these decimals when the floats nearest to them are written. -/
structure PrintedInOrder (bounds : List ℚ) : Prop where
  first : (bounds.map toHundredths).head? = some 0
  sorted : (bounds.map toHundredths).Pairwise (· ≤ ·)
  last : (bounds.map toHundredths).getLast? = some 100
  text : ∀ b ∈ bounds, ∀ v : Float, Decimal.RoundsTo (toHundredths b) v →
    Decimal.amount? (Decimal.markupLayout.render v).toList = some (toHundredths b)

/-- **Rounded bounds** of a partition are in order, since rounding is monotone. -/
theorem Partition.printedInOrder {values : List ℚ} {parts : List (Slice ℚ)}
    (h : Partition values parts) : PrintedInOrder (bounds parts) := by
  constructor
  · rw [List.head?_map, head?_bounds, h.first, Option.map_some, toHundredths_zero]
  · have hsorted : (bounds parts).Pairwise (· ≤ ·) :=
      List.isChain_iff_pairwise.mp (isChain_bounds h.next h.forward)
    rw [List.pairwise_map]
    exact hsorted.imp_of_mem fun hb hc => toHundredths_mono (h.within _ hb) (h.within _ hc)
  · rw [List.getLast?_map, getLast?_bounds, h.last, Option.map_some, toHundredths_hundred]
  · intro b hb v hv
    have hpercentage := h.within b hb
    have hle : hundredths b ≤ hundredths 100 := hundredths_mono hpercentage.2
    have hhundred : hundredths 100 < 10 ^ 15 := by decide +kernel
    rw [toHundredths_percentage hpercentage] at hv ⊢
    exact Decimal.amount?_render (hle.trans_lt hhundred) hv

/-- **The circle is shared** among values that are not negative and not all zero, and what is
printed of the bounds goes around it once. -/
theorem circle_shared {values : List ℚ} (hne : values ≠ []) (hnonneg : ∀ v ∈ values, 0 ≤ v)
    (hpos : 0 < values.sum) :
    Partition values (slices values) ∧ PrintedInOrder (bounds (slices values)) :=
  have hpartition := partition_slices hnonneg hpos hne
  ⟨hpartition, hpartition.printedInOrder⟩

/-- Six slices, one of them empty, and the first of the bounds that has to be rounded. -/
theorem circle_shared_sixths :
    ([1, 0, 2, 1 / 2, 1, 3 / 2] : List ℚ) ≠ [] ∧
      (∀ v ∈ ([1, 0, 2, 1 / 2, 1, 3 / 2] : List ℚ), 0 ≤ v) ∧
      0 < ([1, 0, 2, 1 / 2, 1, 3 / 2] : List ℚ).sum ∧
      Partition [1, 0, 2, 1 / 2, 1, 3 / 2] (slices [1, 0, 2, 1 / 2, 1, 3 / 2]) ∧
      (bounds (slices ([1, 0, 2, 1 / 2, 1, 3 / 2] : List ℚ))).map toHundredths =
        [0, 16.67, 16.67, 16.67, 16.67, 50, 50, 58.33, 58.33, 75, 75, 100] ∧
      Decimal.RoundsTo 16.67 16.67 ∧
      Decimal.amount? (Decimal.markupLayout.render 16.67).toList = some 16.67 := by
  have hne : ([1, 0, 2, 1 / 2, 1, 3 / 2] : List ℚ) ≠ [] := List.cons_ne_nil _ _
  have hnonneg : ∀ v ∈ ([1, 0, 2, 1 / 2, 1, 3 / 2] : List ℚ), 0 ≤ v := by
    decide +kernel
  have hpos : 0 < ([1, 0, 2, 1 / 2, 1, 3 / 2] : List ℚ).sum := by
    norm_num
  have hbounds : (bounds (slices ([1, 0, 2, 1 / 2, 1, 3 / 2] : List ℚ))).map toHundredths =
      [0, 16.67, 16.67, 16.67, 16.67, 50, 50, 58.33, 58.33, 75, 75, 100] := by
    decide +kernel
  have hrounds : Decimal.RoundsTo 16.67 16.67 := ⟨by decide +kernel, rfl, by decide +kernel⟩
  obtain ⟨hpartition, hprinted⟩ := circle_shared hne hnonneg hpos
  refine ⟨hne, hnonneg, hpos, hpartition, hbounds, hrounds, ?_⟩
  have hmem : (50 / 3 : ℚ) ∈ bounds (slices ([1, 0, 2, 1 / 2, 1, 3 / 2] : List ℚ)) := by
    decide +kernel
  have hrounded : toHundredths (50 / 3 : ℚ) = 16.67 := by decide +kernel
  have htext := hprinted.text (50 / 3) hmem 16.67
  rw [hrounded] at htext
  exact htext hrounds

end EmbedUI.Chart
