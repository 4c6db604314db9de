import EmbedUI.Text.Digits
import EmbedUI.Proofs.Decimal.Layout
import EmbedUI.Proofs.Decimal.ShortestValue

/-!
# The integer that a written number begins with

A number in positional form begins with its integer part. One in exponent form begins with its
leading digit, whatever its exponent. The JSON layout writes the first form for zero and from
`10 ^ -5` up to `10 ^ 16`, and the second one for all other numbers.

## The architecture

* **`naturalOf_append`**, **`naturalOf_lt`**: digits as numbers.
* **`Begins`**: the integer at the front of a text; **`begins_positionalForm`**,
  **`begins_exponentForm`**: the two forms.
* **`begins_magnitude`**: the JSON layout.
-/

namespace EmbedUI.Decimal

open Text

/-! ## Digits -/

theorem naturalOf_eq (ds : List Char) : naturalOf ds = Nat.ofDigitChars 10 ds 0 := by
  rw [Nat.ofDigitChars_eq_foldl]
  unfold naturalOf digitValue
  simp only [mul_comm 10]

theorem naturalOf_append (ds es : List Char) :
    naturalOf (ds ++ es) = naturalOf ds * 10 ^ es.length + naturalOf es := by
  rw [naturalOf_eq, naturalOf_eq ds, naturalOf_eq es, Nat.ofDigitChars_append,
    Nat.ofDigitChars_eq_ofDigitChars_zero, mul_comm]

theorem naturalOf_digits (n : ℕ) : naturalOf (digits n) = n := by
  rw [naturalOf_eq, digits, Nat.ofDigitChars_ten_toDigits]

theorem naturalOf_zeros (n : ℕ) : naturalOf (List.replicate n '0') = 0 := by
  rw [naturalOf_eq, Nat.ofDigitChars_replicate_zero, mul_zero]

theorem digitValue_le {c : Char} (h : c.isDigit = true) : digitValue c ≤ 9 := by
  have hhigh : c.toNat ≤ 57 := of_decide_eq_true (Bool.and_eq_true_iff.mp h).2
  show c.toNat - 48 ≤ 9
  omega

/-- A number has no more digits than are written. -/
theorem naturalOf_lt {ds : List Char} (h : ∀ c ∈ ds, c.isDigit = true) :
    naturalOf ds < 10 ^ ds.length := by
  induction ds with
  | nil => exact Nat.one_pos
  | cons d ds ih =>
    obtain ⟨hd, hds⟩ := List.forall_mem_cons.mp h
    have hsplit := naturalOf_append [d] ds
    have hone : naturalOf [d] = digitValue d := by simp [naturalOf]
    have hle := digitValue_le hd
    rw [List.singleton_append, hone] at hsplit
    rw [hsplit, List.length_cons, pow_succ]
    calc digitValue d * 10 ^ ds.length + naturalOf ds
        < digitValue d * 10 ^ ds.length + 10 ^ ds.length := Nat.add_lt_add_left (ih hds) _
      _ = (digitValue d + 1) * 10 ^ ds.length := by ring
      _ ≤ 10 ^ ds.length * 10 := by rw [mul_comm]; gcongr; omega

/-- Dropping digits from the end is a division. -/
theorem naturalOf_take {ds : List Char} (h : ∀ c ∈ ds, c.isDigit = true) (n : ℕ) :
    naturalOf (ds.take n) = naturalOf ds / 10 ^ (ds.length - n) := by
  have hsplit := naturalOf_append (ds.take n) (ds.drop n)
  have hlt := naturalOf_lt fun c hc => h c (List.mem_of_mem_drop (i := n) hc)
  rw [List.take_append_drop, List.length_drop] at hsplit
  rw [List.length_drop] at hlt
  rw [hsplit, mul_comm, Nat.mul_add_div (by positivity), Nat.div_eq_of_lt hlt, add_zero]

/-! ## The front of a text -/

/-- The characters of written numbers. -/
def isNumeralChar (c : Char) : Bool := c.isDigit || ".e+-".toList.contains c

/-- The text of a number begins with an integer: with its digits, and then with something that is
no digit. -/
structure Begins (cs : List Char) (n : ℕ) : Prop where
  chars : ∀ c ∈ cs, isNumeralChar c = true
  front : ∃ whole rest, cs = whole ++ rest ∧ whole ≠ [] ∧ (∀ c ∈ whole, c.isDigit = true) ∧
    (∀ c ∈ rest.head?, c.isDigit = false) ∧ naturalOf whole = n

theorem isNumeralChar_of_isDigit {c : Char} (h : c.isDigit = true) : isNumeralChar c = true := by
  rw [isNumeralChar, h]
  rfl

/-- **Positional form.** It begins with the integer part. -/
theorem begins_positionalForm (l : Layout) {ds : List Char} (hne : ds ≠ [])
    (hds : ∀ c ∈ ds, c.isDigit = true) (exponent : ℤ) :
    Begins (l.positionalForm ds exponent) ⌊(naturalOf ds : ℚ) * 10 ^ exponent⌋₊ := by
  refine ⟨forall_mem_positionalForm l (fun c hc => isNumeralChar_of_isDigit (hds c hc))
    (by decide) (by decide) exponent, ?_⟩
  unfold Layout.positionalForm
  dsimp only
  split
  · next hwhole =>
    -- zeros behind the digits
    refine ⟨ds ++ List.replicate exponent.toNat '0', _, rfl, ?_, ?_, ?_, ?_⟩
    · exact List.append_ne_nil_of_left_ne_nil hne _
    · intro c hc
      obtain hc | hc := List.mem_append.mp hc
      · exact hds c hc
      · exact forall_mem_zeros (p := (·.isDigit = true)) rfl _ c hc
    · intro c hc
      split at hc
      · obtain rfl := Option.some.inj hc
        decide
      · cases hc
    · have hpow : (10 : ℚ) ^ exponent = ((10 ^ exponent.toNat : ℕ) : ℚ) := by
        rw [Nat.cast_pow, ← zpow_natCast, Int.toNat_of_nonneg hwhole]
        rfl
      rw [naturalOf_append, naturalOf_zeros, List.length_replicate, hpow, ← Nat.cast_mul,
        Nat.floor_natCast, add_zero]
  · next hfraction =>
    have hpow : (naturalOf ds : ℚ) * 10 ^ exponent =
        (naturalOf ds : ℚ) / ((10 ^ (-exponent).toNat : ℕ) : ℚ) := by
      rw [Nat.cast_pow, ← zpow_natCast, Int.toNat_of_nonneg (by omega), zpow_neg, div_inv_eq_mul]
      rfl
    rw [hpow, Nat.floor_div_natCast, Nat.floor_natCast]
    split
    · next hshort =>
      -- a point among the digits
      refine ⟨ds.take (ds.length - (-exponent).toNat), _, rfl, ?_, ?_, ?_, ?_⟩
      · rw [Ne, List.take_eq_nil_iff, not_or]
        exact ⟨by omega, hne⟩
      · exact fun c hc => hds c (List.mem_of_mem_take hc)
      · intro c hc
        obtain rfl := Option.some.inj hc
        decide
      · rw [naturalOf_take hds, Nat.sub_sub_self hshort.le]
    · next hlong =>
      -- zeros in front of the digits
      refine ⟨['0'], _, rfl, by decide, ?_, ?_, ?_⟩
      · intro c hc
        rw [List.mem_singleton.mp hc]
        decide
      · intro c hc
        obtain rfl := Option.some.inj hc
        decide
      · have hlt : naturalOf ds < 10 ^ (-exponent).toNat :=
          (naturalOf_lt hds).trans_le (Nat.pow_le_pow_right (by decide) (by omega))
        rw [Nat.div_eq_of_lt hlt]
        decide

/-- **Exponent form.** It begins with the leading digit. -/
theorem begins_exponentForm (l : Layout) {ds : List Char} (hne : ds ≠ [])
    (hds : ∀ c ∈ ds, c.isDigit = true) (leading : ℤ) :
    Begins (l.exponentForm ds leading) (naturalOf (ds.take 1)) := by
  refine ⟨forall_mem_exponentForm (fun c hc => isNumeralChar_of_isDigit hc) (by decide) l
    (fun c hc => isNumeralChar_of_isDigit (hds c hc)) (by decide) (by decide) (by decide) leading,
    ?_⟩
  unfold Layout.exponentForm
  dsimp only
  rw [List.append_assoc]
  refine ⟨ds.take 1, _, rfl, ?_, fun c hc => hds c (List.mem_of_mem_take hc), ?_, rfl⟩
  · rw [Ne, List.take_eq_nil_iff, not_or]
    exact ⟨by decide, hne⟩
  · intro c hc
    split at hc <;> obtain rfl := Option.some.inj hc <;> decide

/-- A finite float is written with its sign, and zero like the other whole numbers. -/
theorem Layout.render_of_isFinite (l : Layout) {v : Float} (h : v.isFinite = true) :
    l.render v = String.ofList ((if signBit v == .negative then ['-'] else []) ++
      if v == 0 then l.positionalForm ['0'] 0 else l.magnitude (shortest l.tie v)) := by
  have hkind : v.isNaN = false ∧ v.isInf = false := by
    show v.toModel.unpack.isNaN = false ∧ v.toModel.unpack.isInf = false
    obtain hzero | ⟨-, hpos, hfinite⟩ := unpack_cases h
    · rw [hzero]
      exact ⟨rfl, rfl⟩
    · rw [hfinite]
      exact ⟨rfl, rfl⟩
  have hsign : (if v.toBits.toNat / Nat.pow 2 63 = 1 then ['-'] else []) =
      if signBit v == .negative then ['-'] else [] := by
    unfold signBit
    split <;> rfl
  unfold Layout.render
  dsimp only
  rw [hkind.1, hkind.2, hsign, if_neg Bool.false_ne_true, if_neg Bool.false_ne_true]

/-! ## The JSON layout -/

/-- The exponent of the leading digit says which powers of ten a decimal reaches. -/
theorem Scientific.ten_pow_le_value_iff {d : Scientific} (hpos : 0 < d.coefficient) (x : ℤ) :
    (10 : ℚ) ^ x ≤ d.value ↔ x ≤ d.exponent + (digits d.coefficient).length - 1 := by
  have hlength : 0 < (digits d.coefficient).length := Nat.length_toDigits_pos
  have hlow : ((10 ^ ((digits d.coefficient).length - 1) : ℕ) : ℚ) ≤ d.coefficient := by
    exact_mod_cast pow_le_of_length_toDigits hpos
  have hhigh : (d.coefficient : ℚ) < ((10 ^ (digits d.coefficient).length : ℕ) : ℚ) := by
    exact_mod_cast (Nat.length_toDigits_le_iff (by decide) hlength).mp le_rfl
  rw [Nat.cast_pow, Nat.cast_ofNat, ← zpow_natCast] at hlow hhigh
  have hstep : (0 : ℚ) < 10 ^ d.exponent := by positivity
  rw [Scientific.value]
  constructor
  · intro hle
    have hlt : (10 : ℚ) ^ x < 10 ^ ((digits d.coefficient).length + d.exponent : ℤ) := by
      rw [zpow_add₀ (by norm_num)]
      exact hle.trans_lt (mul_lt_mul_of_pos_right hhigh hstep)
    have hless := (zpow_lt_zpow_iff_right₀ (by norm_num)).mp hlt
    omega
  · intro hle
    calc (10 : ℚ) ^ x
        ≤ 10 ^ ((((digits d.coefficient).length - 1 : ℕ) : ℤ) + d.exponent) :=
          zpow_le_zpow_right₀ (by norm_num) (by omega)
      _ = 10 ^ (((digits d.coefficient).length - 1 : ℕ) : ℤ) * 10 ^ d.exponent :=
          zpow_add₀ (by norm_num) _ _
      _ ≤ d.coefficient * 10 ^ d.exponent := by gcongr

/-- A number that is not zero has no zero for its leading digit. -/
theorem leadingDigit_bounds {n : ℕ} (hpos : 0 < n) :
    1 ≤ naturalOf ((digits n).take 1) ∧ naturalOf ((digits n).take 1) ≤ 9 := by
  have hlength : 0 < (digits n).length := Nat.length_toDigits_pos
  have hlow : 10 ^ ((digits n).length - 1) ≤ n := pow_le_of_length_toDigits hpos
  have hhigh : n < 10 ^ (digits n).length :=
    (Nat.length_toDigits_le_iff (by decide) hlength).mp le_rfl
  have hpow : 10 ^ (digits n).length = 10 * 10 ^ ((digits n).length - 1) := by
    rw [← pow_succ', Nat.sub_add_cancel hlength]
  rw [naturalOf_take isDigit_of_mem_digits, naturalOf_digits]
  refine ⟨(Nat.one_le_div_iff (by positivity)).mpr hlow, ?_⟩
  rw [hpow] at hhigh
  exact Nat.lt_succ_iff.mp (Nat.div_lt_of_lt_mul (by rwa [mul_comm]))

/-- The sizes that the JSON layout writes without an exponent. -/
def Positional (value : ℚ) : Prop := 10 ^ (-5 : ℤ) ≤ value ∧ ¬ 10 ^ (16 : ℤ) ≤ value

/-- **The JSON layout.** It begins with the integer part, or else with one digit. -/
theorem begins_magnitude {d : Scientific} (hpos : 0 < d.coefficient) :
    (Positional d.value → Begins (jsonLayout.magnitude d) ⌊d.value⌋₊) ∧
      (¬ Positional d.value → ∃ n, 1 ≤ n ∧ n ≤ 9 ∧ Begins (jsonLayout.magnitude d) n) := by
  have hne := digits_ne_nil d.coefficient
  have hdigits : ∀ c ∈ digits d.coefficient, c.isDigit = true := isDigit_of_mem_digits
  have hpositional : jsonLayout.positional (d.exponent + (digits d.coefficient).length - 1) = true ↔
      Positional d.value := by
    rw [Positional, Scientific.ten_pow_le_value_iff hpos, Scientific.ten_pow_le_value_iff hpos]
    simp [jsonLayout]
  unfold Layout.magnitude
  dsimp only
  split
  · next h =>
    refine ⟨fun _ => ?_, fun hnot => absurd (hpositional.mp h) hnot⟩
    have hbegins := begins_positionalForm jsonLayout hne hdigits d.exponent
    rwa [naturalOf_digits] at hbegins
  · next h =>
    obtain ⟨hlow, hhigh⟩ := leadingDigit_bounds hpos
    exact ⟨fun hplain => absurd (hpositional.mpr hplain) h,
      fun _ => ⟨_, hlow, hhigh, begins_exponentForm jsonLayout hne hdigits _⟩⟩

end EmbedUI.Decimal
