import EmbedUI.Decimal.Layout

/-!
# The characters of written numbers

Whatever a layout writes is made of the digits it is given and of a few characters of its own. So a
property that the digits and these few have is one of every character that is written.
-/

namespace EmbedUI.Decimal

theorem isDigit_of_mem_digits {n : Nat} : ∀ c ∈ digits n, c.isDigit = true := fun _ hc =>
  Nat.isDigit_of_mem_toDigits (by decide) (by decide) hc

theorem digits_ne_nil (n : Nat) : digits n ≠ [] := Nat.toDigits_ne_nil

theorem positionalForm_ne_nil (l : Layout) {ds : List Char} (h : ds ≠ []) (exponent : Int) :
    l.positionalForm ds exponent ≠ [] := by
  unfold Layout.positionalForm
  split
  · simp [h]
  · dsimp only
    split <;> simp

section
variable {p : Char → Prop}

theorem forall_mem_zeros (hzero : p '0') (n : Nat) : ∀ c ∈ List.replicate n '0', p c :=
  fun _ hc => List.eq_of_mem_replicate hc ▸ hzero

/-- **Positional form** has digits, zeros and a point. -/
theorem forall_mem_positionalForm (l : Layout) {ds : List Char} (hds : ∀ c ∈ ds, p c)
    (hzero : p '0') (hpoint : p '.') (exponent : Int) :
    ∀ c ∈ l.positionalForm ds exponent, p c := by
  unfold Layout.positionalForm
  intro c hc
  -- a whole number, a point among the digits, or zeros in front of them
  split at hc
  · rw [List.mem_append, List.mem_append] at hc
    obtain (hc | hc) | hc := hc
    · exact hds c hc
    · exact forall_mem_zeros hzero _ c hc
    · split at hc
      · rw [List.mem_cons, List.mem_singleton] at hc
        obtain rfl | rfl := hc
        · exact hpoint
        · exact hzero
      · cases hc
  · dsimp only at hc
    split at hc
    · rw [List.mem_append, List.mem_cons] at hc
      obtain hc | rfl | hc := hc
      · exact hds c (List.mem_of_mem_take hc)
      · exact hpoint
      · exact hds c (List.mem_of_mem_drop hc)
    · simp only [List.cons_append, List.mem_cons, List.mem_append] at hc
      obtain rfl | rfl | hc | hc := hc
      · exact hzero
      · exact hpoint
      · exact forall_mem_zeros hzero _ c hc
      · exact hds c hc

variable (hdigit : ∀ c : Char, c.isDigit = true → p c) (hminus : p '-')
include hdigit hminus

/-- An integer has digits and a minus sign. -/
theorem forall_mem_integerText (n : Int) : ∀ c ∈ (integerText n).toList, p c := by
  intro c hc
  rw [integerText, String.toList_ofList, List.mem_append] at hc
  obtain hc | hc := hc
  · split at hc
    · exact List.mem_singleton.mp hc ▸ hminus
    · cases hc
  · exact hdigit c (isDigit_of_mem_digits c hc)

/-- **Exponent form** has digits, a point, the letter and the signs of the exponent. -/
theorem forall_mem_exponentForm (l : Layout) {ds : List Char} (hds : ∀ c ∈ ds, p c)
    (hpoint : p '.') (hletter : p 'e') (hplus : p '+') (leading : Int) :
    ∀ c ∈ l.exponentForm ds leading, p c := by
  unfold Layout.exponentForm
  intro c hc
  simp only [List.mem_append, List.mem_cons] at hc
  obtain (hc | hc) | rfl | hc | hc := hc
  · exact hds c (List.mem_of_mem_take hc)
  · split at hc
    · cases hc
    · obtain rfl | hc := List.mem_cons.mp hc
      · exact hpoint
      · exact hds c (List.mem_of_mem_drop hc)
  · exact hletter
  · split at hc
    · exact List.mem_singleton.mp hc ▸ hplus
    · cases hc
  · exact forall_mem_integerText hdigit hminus leading c hc

end

end EmbedUI.Decimal
