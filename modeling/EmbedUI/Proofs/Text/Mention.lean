import EmbedUI.Text.Keyword
import Mathlib.Data.List.Infix

/-!
# What a text mentions

A keyword is looked for as a run of consecutive characters. When the text is put together from words
with a separator that is in no keyword, nothing is found across two words: the text mentions what
its words mention.
-/

namespace EmbedUI.Text

/-- **Search finds what is there.** -/
theorem occursIn_iff {word cs : List Char} : occursIn word cs = true ↔ word <:+: cs := by
  induction cs with
  | nil => rw [occursIn, List.isEmpty_iff, List.infix_nil]
  | cons c cs ih => rw [occursIn, Bool.or_eq_true, List.isPrefixOf_iff_prefix, ih,
      List.infix_cons_iff]

theorem mentions_iff {text : List Char} {keyword : String} :
    mentions text keyword = true ↔ keyword.toList <:+: text :=
  occursIn_iff

/-! ## Separated words -/

/-- Nothing without the separator goes across it. -/
theorem infix_append_cons_iff {word before after : List Char} {separator : Char}
    (h : separator ∉ word) :
    word <:+: before ++ separator :: after ↔ word <:+: before ∨ word <:+: after := by
  rw [List.infix_append_iff, List.infix_cons_iff]
  constructor
  · rintro (hbefore | (hstart | hafter) | ⟨front, back, rfl, hfront, hback⟩)
    · exact Or.inl hbefore
    · -- what starts at the separator is empty
      cases word with
      | nil => exact Or.inl List.nil_infix
      | cons c rest =>
        rw [List.cons_prefix_cons] at hstart
        exact absurd (hstart.1 ▸ List.mem_cons_self) h
    · exact Or.inr hafter
    · cases back with
      | nil =>
        rw [List.append_nil]
        exact Or.inl hfront.isInfix
      | cons c rest =>
        rw [List.cons_prefix_cons] at hback
        exact absurd (List.mem_append_right front (hback.1 ▸ List.mem_cons_self)) h
  · rintro (hbefore | hafter)
    · exact Or.inl hbefore
    · exact Or.inr (Or.inl (Or.inr hafter))

/-- **Separated words.** A text mentions what one of its words mentions. -/
theorem infix_intercalate_iff {word : List Char} {separator : Char} (hne : word ≠ [])
    (h : separator ∉ word) {parts : List (List Char)} :
    word <:+: [separator].intercalate parts ↔ ∃ p ∈ parts, word <:+: p := by
  induction parts with
  | nil => simp [hne]
  | cons p rest ih =>
    cases rest with
    | nil => simp
    | cons q others =>
      rw [List.intercalate_cons_cons, List.append_assoc, List.singleton_append,
        infix_append_cons_iff h, ih]
      exact (List.exists_mem_cons_iff (fun p => word <:+: p) p (q :: others)).symm

/-! ## Lowering -/

/-- The blanks between words stay where they are. -/
theorem lowered_intercalate (ws : List String) :
    lowered (" ".intercalate ws) = [' '].intercalate (ws.map lowered) := by
  induction ws with
  | nil => rfl
  | cons w rest ih =>
    cases rest with
    | nil => rw [String.intercalate_singleton, List.map_singleton, List.intercalate_singleton]
    | cons v others =>
      have hblank : lowered " " = [' '] := rfl
      rw [String.intercalate_cons_cons, lowered_append, lowered_append, ih, hblank]
      exact List.intercalate_cons_cons.symm

end EmbedUI.Text
