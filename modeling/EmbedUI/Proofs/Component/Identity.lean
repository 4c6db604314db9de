import EmbedUI.Component.Id
import EmbedUI.Text.Blank
import Mathlib.Data.List.DropRight
import Mathlib.Data.List.TakeWhile

/-!
# Identities as text

The text of an identity joins a kind, a user id and a number by hyphens, and the user id is free
text that may contain hyphens and digits itself. What can be told from the text is what stands
before the first hyphen and behind the last one: the kind and the digits. A sign before the digits
cannot be told from a hyphen at the end of the user id (`text_eq_text_iff`), so the text decides
everything only for components that were made since the epoch.

## The architecture

* **`eq_and_eq_of_append_cons`**: the last separator of a text is where it is cut.
* **`stem`**: everything before the digits; `toList_text` cuts an identity there.
* **`text_eq_text_iff`**, **`Mirrors`**: which identities have one text.
* **`lastSegment_address`**: the identity is the last segment of its address.
-/

namespace EmbedUI

namespace ComponentId

/-! ## Cutting at the last separator -/

/-- What stands behind the last slash of an address. -/
def lastSegment (address : String) : String :=
  String.ofList (address.toList.rtakeWhile (· ≠ '/'))

theorem rtakeWhile_append_cons {c : Char} {rest : List Char} (h : c ∉ rest) (before : List Char) :
    (before ++ c :: rest).rtakeWhile (· ≠ c) = rest := by
  have hrest : ∀ d ∈ rest.reverse, decide (d ≠ c) = true := by
    intro d hd
    rw [decide_eq_true_iff]
    rintro rfl
    exact h (List.mem_reverse.mp hd)
  rw [List.rtakeWhile, List.reverse_append, List.reverse_cons, List.append_assoc,
    List.takeWhile_append_of_pos hrest]
  simp

theorem eq_and_eq_of_append_cons {c : Char} {before before' rest rest' : List Char}
    (h : c ∉ rest) (h' : c ∉ rest') (heq : before ++ c :: rest = before' ++ c :: rest') :
    before = before' ∧ rest = rest' := by
  have hrest : rest = rest' := by
    rw [← rtakeWhile_append_cons h before, heq, rtakeWhile_append_cons h' before']
  subst hrest
  exact ⟨List.append_cancel_right heq, rfl⟩

/-! ## Digits -/

theorem not_mem_digits {c : Char} (hc : c.isDigit = false) (n : Nat) : c ∉ Decimal.digits n := by
  intro h
  have hdigit := Nat.isDigit_of_mem_toDigits (by decide) (by decide) h
  rw [hc] at hdigit
  exact Bool.false_ne_true hdigit

theorem digits_injective {m n : Nat} (h : Decimal.digits m = Decimal.digits n) : m = n := by
  have hread := congrArg (fun ds => Nat.ofDigitChars 10 ds 0) h
  simpa [Decimal.digits] using hread

/-! ## The text of an identity -/

/-- The sign of a component that was made before the epoch. -/
def sign (id : ComponentId) : List Char := if id.created < 0 then ['-'] else []

/-- An identity up to its digits. The hyphen before the digits is not part of it, be it the one
that joins or the sign. -/
def stem (id : ComponentId) : List Char := id.kind.name.toList ++ '-' :: (id.user.toList ++ id.sign)

theorem toList_text (id : ComponentId) :
    id.text.toList = id.stem ++ '-' :: Decimal.digits id.created.natAbs := by
  unfold text stem sign Decimal.integerText
  by_cases hsign : id.created < 0
  · simp [hsign]
  · simp [hsign]

theorem kind_eq_of_name_append {k k' : ComponentKind} {rest rest' : List Char}
    (h : k.name.toList ++ rest = k'.name.toList ++ rest') : k = k' := by
  -- no name is the beginning of another one
  cases k <;> cases k' <;> simp [ComponentKind.name] at h ⊢

theorem stem_eq_stem_iff {a b : ComponentId} :
    a.stem = b.stem ↔ a.kind = b.kind ∧ a.user.toList ++ a.sign = b.user.toList ++ b.sign := by
  constructor
  · intro h
    have hkind : a.kind = b.kind := kind_eq_of_name_append h
    rw [stem, stem, hkind] at h
    exact ⟨hkind, (List.cons.inj (List.append_cancel_left h)).2⟩
  · rintro ⟨hkind, huser⟩
    rw [stem, stem, hkind, huser]

/-- **Which identities have one text.** -/
theorem text_eq_text_iff {a b : ComponentId} :
    a.text = b.text ↔
      a.kind = b.kind ∧ a.created.natAbs = b.created.natAbs ∧
        a.user.toList ++ a.sign = b.user.toList ++ b.sign := by
  have hyphen : ∀ n, '-' ∉ Decimal.digits n := not_mem_digits (by decide)
  rw [← String.toList_inj, toList_text, toList_text]
  constructor
  · intro h
    obtain ⟨hstem, hdigits⟩ := eq_and_eq_of_append_cons (hyphen _) (hyphen _) h
    obtain ⟨hkind, huser⟩ := stem_eq_stem_iff.mp hstem
    exact ⟨hkind, digits_injective hdigits, huser⟩
  · rintro ⟨hkind, hcreated, huser⟩
    rw [stem_eq_stem_iff.mpr ⟨hkind, huser⟩, hcreated]

/-- The first was made as long before the epoch as the second one after it, for a user whose id
lacks the hyphen at the end. -/
def Mirrors (a b : ComponentId) : Prop :=
  a.kind = b.kind ∧ a.created < 0 ∧ b.created = -a.created ∧ b.user = a.user ++ "-"

instance (a b : ComponentId) : Decidable (a.Mirrors b) :=
  inferInstanceAs (Decidable (_ ∧ _ ∧ _ ∧ _))

/-- At different times two identities get one text only across the epoch. -/
theorem text_eq_text_iff_mirrors {a b : ComponentId} (h : a.created ≠ b.created) :
    a.text = b.text ↔ a.Mirrors b ∨ b.Mirrors a := by
  have happend : ∀ {s t : String}, s = t ++ "-" ↔ s.toList = t.toList ++ ['-'] := by
    intro s t
    rw [← String.toList_inj, String.toList_append]
    rfl
  rw [text_eq_text_iff]
  unfold Mirrors sign
  rw [happend, happend]
  -- on one side of the epoch the digits tell the time; across it the sign is the last hyphen of a
  -- user id
  rcases Int.lt_or_le a.created 0 with ha | ha <;> rcases Int.lt_or_le b.created 0 with hb | hb
  · constructor
    · rintro ⟨-, hcreated, -⟩
      omega
    · rintro (⟨-, -, hcreated, -⟩ | ⟨-, -, hcreated, -⟩) <;> omega
  · rw [if_pos ha, if_neg (by omega), List.append_nil]
    constructor
    · rintro ⟨hkind, hcreated, huser⟩
      exact Or.inl ⟨hkind, ha, by omega, huser.symm⟩
    · rintro (⟨hkind, -, hcreated, huser⟩ | ⟨-, hneg, -, -⟩)
      · exact ⟨hkind, by omega, huser.symm⟩
      · omega
  · rw [if_neg (by omega), if_pos hb, List.append_nil]
    constructor
    · rintro ⟨hkind, hcreated, huser⟩
      exact Or.inr ⟨hkind.symm, hb, by omega, huser⟩
    · rintro (⟨-, hneg, -, -⟩ | ⟨hkind, -, hcreated, huser⟩)
      · omega
      · exact ⟨hkind.symm, by omega, huser⟩
  · constructor
    · rintro ⟨-, hcreated, -⟩
      omega
    · rintro (⟨-, hneg, -, -⟩ | ⟨-, hneg, -, -⟩) <;> omega

theorem allBlank_text (id : ComponentId) : Text.allBlank id.text = false := by
  rw [Text.allBlank, toList_text, stem, List.append_assoc, List.all_append]
  -- a name is made of letters
  have hname : id.kind.name.toList.all Text.isBlank = false := by
    cases id.kind <;> decide
  rw [hname, Bool.false_and]

/-! ## The address -/

theorem slash_not_mem_text {id : ComponentId} (h : '/' ∉ id.user.toList) :
    '/' ∉ id.text.toList := by
  have hname : '/' ∉ id.kind.name.toList := by cases id.kind <;> decide
  have hsign : '/' ∉ id.sign := by
    unfold sign
    split <;> decide
  have hdigits : '/' ∉ Decimal.digits id.created.natAbs := not_mem_digits (by decide) _
  rw [toList_text, stem]
  simp [hname, h, hsign, hdigits]

/-- **The identity can be read off the address,** whatever the namespace is. -/
theorem lastSegment_address {id : ComponentId} (h : '/' ∉ id.user.toList) :
    lastSegment id.address = id.text := by
  have haddress : id.address.toList =
      ("ui://" ++ id.space ++ "/" ++ id.kind.name).toList ++ '/' :: id.text.toList := by
    rw [address, String.toList_append, String.toList_append]
    exact List.append_assoc _ _ _
  rw [lastSegment, haddress, rtakeWhile_append_cons (slash_not_mem_text h)]
  exact String.ofList_toList

end ComponentId

end EmbedUI
