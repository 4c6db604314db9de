import EmbedUI.Markup.Style
import EmbedUI.Proofs.Decimal.Layout
import EmbedUI.Text.Blank

/-!
# Numbers in markup

Numbers are written in styles and between tags. Whatever float is written, its text is made of the
same few characters, none of which separates anything in a style.
-/

namespace EmbedUI.Markup

open Decimal

/-- The characters of numbers, and of what is written for floats that are none. -/
def isAmountChar (c : Char) : Bool := c.isDigit || "-.NaNinf".toList.contains c

theorem isAmountChar_of_isDigit {c : Char} (h : c.isDigit = true) : isAmountChar c = true := by
  rw [isAmountChar, h]
  rfl

/-- Text that only has characters of numbers, and at least one. -/
structure IsAmount (cs : List Char) : Prop where
  ne_nil : cs ≠ []
  chars : cs.all isAmountChar = true

theorem isAmount_positionalForm (l : Layout) {ds : List Char} (hne : ds ≠ [])
    (hds : ∀ c ∈ ds, c.isDigit = true) (exponent : Int) :
    IsAmount (l.positionalForm ds exponent) :=
  ⟨positionalForm_ne_nil l hne exponent,
    List.all_eq_true.mpr (forall_mem_positionalForm l
      (fun c hc => isAmountChar_of_isDigit (hds c hc)) (by decide) (by decide) exponent)⟩

theorem IsAmount.signed {cs : List Char} (h : IsAmount cs) (negative : Prop)
    [Decidable negative] : IsAmount ((if negative then ['-'] else []) ++ cs) := by
  refine ⟨List.append_ne_nil_of_right_ne_nil _ h.ne_nil, ?_⟩
  rw [List.all_append, h.chars, Bool.and_true]
  split <;> rfl

/-- **Numbers.** -/
theorem isAmount_amountText (v : Float) : IsAmount (amountText v).toList := by
  unfold amountText Layout.render
  generalize Chart.toHundredths v = v
  split
  · exact ⟨by decide, by decide⟩
  · dsimp only
    rw [String.toList_ofList]
    refine IsAmount.signed ?_ _
    split
    · exact ⟨by decide, by decide⟩
    · split
      · exact ⟨by decide, by decide⟩
      · exact isAmount_positionalForm _ (digits_ne_nil _) isDigit_of_mem_digits _

/-- A character that no number has in it. -/
theorem IsAmount.not_mem {cs : List Char} (h : IsAmount cs) {c : Char}
    (hc : isAmountChar c = false) : c ∉ cs := by
  intro hmem
  rw [List.all_eq_true.mp h.chars c hmem] at hc
  cases hc

theorem isBlank_of_isAmountChar {c : Char} (h : isAmountChar c = true) :
    Text.isBlank c = false := by
  rw [isAmountChar, Bool.or_eq_true] at h
  obtain hdigit | hother := h
  · exact Text.isBlank_of_isDigit hdigit
  · have hall : ("-.NaNinf".toList.all fun d => !Text.isBlank d) = true := by decide
    have hc := List.all_eq_true.mp hall c (List.contains_iff_mem.mp hother)
    simpa using hc

theorem amountText_zero : amountText 0.0 = "0" := by decide +kernel

end EmbedUI.Markup
