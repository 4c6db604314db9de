import EmbedUI.Proofs.Text.Mention
import Mathlib.Data.List.Forall2

/-!
# Keywords and full lower case

`lowered` changes no more letters than a keyword can tell. The lower case that a text has in full is
another one: nearly every alphabet has capitals, some of them become several characters, and a
capital sigma becomes one of two letters, depending on what stands around it. So the lower case of a
text that is put together from parts need not be put together from theirs. Here it is shown that no
keyword notices.

## The architecture

* **`LowersTo`**, **`LowerCase`**: what is known of the full lower case of a character in its place,
  and of a text.
* **`Alike`**: two texts in which the same keywords begin and occur. Both may be continued in front
  by the same characters (`Alike.append`), or by any that are in no keyword (`Alike.foreign`).
* **`SameMentions`**: two texts that mention the same keywords.
* **`sameMentions_lowerCase`**: a keyword is found in every full lower case of a text, or in none.
-/

namespace EmbedUI.Text

/-! ## Full lower case -/

/-- A keyword is written in ASCII. -/
def IsKeyword (word : List Char) : Prop := ∀ c ∈ word, c.toNat < 128

-- the characters of the word are looked at, and not all that there are
instance : DecidablePred IsKeyword := fun word => List.decidableBAll _ word

/-- No ASCII character, and neither of the two others that have an ASCII letter in their lower
case. -/
def IsForeign (c : Char) : Prop := 128 ≤ c.toNat ∧ c ≠ '\u0130' ∧ c ≠ '\u212a'

/-- What a character becomes in a full lower case of the text it stands in. Of a foreign one it is
only known that it becomes other characters that are no ASCII; which ones, may depend on its
place. -/
inductive LowersTo (c : Char) : List Char → Prop
  | told : LowersTo c (lowerChar c)
  | foreign {cs : List Char} (hc : IsForeign c) (hne : cs ≠ []) (hcs : ∀ d ∈ cs, 128 ≤ d.toNat) :
      LowersTo c cs

/-- The second text is a full lower case of the first one. -/
def LowerCase (text lower : List Char) : Prop :=
  ∃ pieces, List.Forall₂ LowersTo text pieces ∧ lower = pieces.flatten

theorem lowerCase_lowered (s : String) : LowerCase s.toList (lowered s) := by
  refine ⟨s.toList.map lowerChar, ?_, List.flatMap_def⟩
  rw [List.forall₂_map_right_iff, List.forall₂_same]
  exact fun _ _ => .told

/-! ## Texts in which keywords cannot tell a difference -/

/-- The same keywords begin and occur in both texts. -/
structure Alike (t u : List Char) : Prop where
  starts : ∀ {word}, IsKeyword word → (word <+: t ↔ word <+: u)
  occurs : ∀ {word}, IsKeyword word → (word <:+: t ↔ word <:+: u)

theorem Alike.refl (t : List Char) : Alike t t := ⟨fun _ => Iff.rfl, fun _ => Iff.rfl⟩

theorem Alike.cons {t u : List Char} (h : Alike t u) (c : Char) : Alike (c :: t) (c :: u) := by
  have hstarts : ∀ {word}, IsKeyword word → (word <+: c :: t ↔ word <+: c :: u) := by
    intro word hword
    cases word with
    | nil => exact iff_of_true List.nil_prefix List.nil_prefix
    | cons d word =>
      rw [List.cons_prefix_cons, List.cons_prefix_cons,
        h.starts (List.forall_mem_cons.mp hword).2]
  exact ⟨hstarts, fun hword => by
    rw [List.infix_cons_iff, List.infix_cons_iff, hstarts hword, h.occurs hword]⟩

theorem Alike.append {t u : List Char} (h : Alike t u) (front : List Char) :
    Alike (front ++ t) (front ++ u) := by
  induction front with
  | nil => exact h
  | cons c front ih => exact ih.cons c

/-- Nothing begins with a character that is in no keyword. -/
theorem not_prefix_foreign {word cs : List Char} {c d : Char} (hword : IsKeyword (d :: word))
    (hc : 128 ≤ c.toNat) : ¬ d :: word <+: c :: cs := by
  rw [List.cons_prefix_cons]
  rintro ⟨rfl, -⟩
  exact absurd (hword _ List.mem_cons_self) (not_lt.mpr hc)

/-- What occurs behind characters that are in no keyword. -/
theorem infix_foreign_iff {word front : List Char} (hword : IsKeyword word)
    (hfront : ∀ c ∈ front, 128 ≤ c.toNat) (t : List Char) :
    word <:+: front ++ t ↔ word <:+: t := by
  cases word with
  | nil => exact iff_of_true List.nil_infix List.nil_infix
  | cons d word =>
    induction front with
    | nil => rfl
    | cons c front ih =>
      obtain ⟨hc, hfront⟩ := List.forall_mem_cons.mp hfront
      rw [List.cons_append, List.infix_cons_iff, or_iff_right (not_prefix_foreign hword hc),
        ih hfront]

theorem Alike.foreign {t u front front' : List Char} (h : Alike t u) (hne : front ≠ [])
    (hne' : front' ≠ []) (hfront : ∀ c ∈ front, 128 ≤ c.toNat)
    (hfront' : ∀ c ∈ front', 128 ≤ c.toNat) : Alike (front ++ t) (front' ++ u) where
  starts {word} hword := by
    cases word with
    | nil => exact iff_of_true List.nil_prefix List.nil_prefix
    | cons d word =>
      obtain ⟨c, rest, rfl⟩ := List.exists_cons_of_ne_nil hne
      obtain ⟨c', rest', rfl⟩ := List.exists_cons_of_ne_nil hne'
      exact iff_of_false (not_prefix_foreign hword (hfront c List.mem_cons_self))
        (not_prefix_foreign hword (hfront' c' List.mem_cons_self))
  occurs hword := by
    rw [infix_foreign_iff hword hfront, infix_foreign_iff hword hfront', h.occurs hword]

/-! ## Keywords -/

/-- A foreign character stays what it is in the short lower case. -/
theorem lowerChar_of_isForeign {c : Char} (h : IsForeign c) : lowerChar c = [c] := by
  obtain ⟨hascii, hi, hk⟩ := h
  have hupper : ¬ c.isUpper = true := by
    intro hc
    have hle : c.toNat ≤ 90 := (of_decide_eq_true hc).2
    omega
  rw [lowerChar, if_neg hupper, if_neg hi, if_neg hk]

/-- **Every full lower case reads like the short one.** -/
theorem alike_lowerCase {text lower : List Char} (h : LowerCase text lower) :
    Alike lower (text.flatMap lowerChar) := by
  obtain ⟨pieces, hpieces, rfl⟩ := h
  induction hpieces with
  | nil => exact Alike.refl _
  | @cons c piece text pieces hpiece _ ih =>
    rw [List.flatten_cons, List.flatMap_cons]
    cases hpiece with
    | told => exact ih.append _
    | foreign hc hne hcs =>
      rw [lowerChar_of_isForeign hc]
      exact ih.foreign hne (List.cons_ne_nil _ _) hcs (List.forall_mem_singleton.mpr hc.1)

/-- The same keywords are found in both texts. -/
def SameMentions (t u : List Char) : Prop :=
  ∀ keyword : String, IsKeyword keyword.toList → mentions t keyword = mentions u keyword

theorem SameMentions.any {t u : List Char} (h : SameMentions t u) (keywords : List String)
    (hkeywords : ∀ k ∈ keywords, IsKeyword k.toList) :
    mentionsAny t keywords = mentionsAny u keywords := by
  rw [Bool.eq_iff_iff, mentionsAny, mentionsAny, List.any_eq_true, List.any_eq_true]
  refine exists_congr fun k => and_congr_right fun hk => ?_
  rw [h k (hkeywords k hk)]

/-- **A keyword is found in every full lower case of a text, or in none.** -/
theorem sameMentions_lowerCase {s : String} {lower : List Char} (h : LowerCase s.toList lower) :
    SameMentions lower (lowered s) := by
  intro keyword hkeyword
  rw [Bool.eq_iff_iff, mentions_iff, mentions_iff]
  exact (alike_lowerCase h).occurs hkeyword

end EmbedUI.Text
