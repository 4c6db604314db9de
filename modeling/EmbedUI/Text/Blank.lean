/-!
# Blank characters

Whether a character is blank decides what is trimmed and what counts as "nothing was written":
user ids, field names, descriptions, storage keys, themes. One table answers for all of them.
Trimming is defined on lists of characters; on strings it goes through that list.
-/

namespace EmbedUI.Text

/-- The ranges of Unicode's `White_Space` property, first and last code point of each. -/
def blankRanges : List (Nat × Nat) :=
  [(0x09, 0x0D), (0x20, 0x20), (0x85, 0x85), (0xA0, 0xA0), (0x1680, 0x1680), (0x2000, 0x200A),
   (0x2028, 0x2029), (0x202F, 0x202F), (0x205F, 0x205F), (0x3000, 0x3000)]

/-- Whether a character lies in one of the ranges. -/
def inRanges (ranges : List (Nat × Nat)) (c : Char) : Bool :=
  ranges.any fun (first, last) => decide (first ≤ c.toNat) && decide (c.toNat ≤ last)

def isBlank (c : Char) : Bool := inRanges blankRanges c

/-- Drops blanks from the front, then from the back. -/
def trimmed (cs : List Char) : List Char :=
  ((cs.dropWhile isBlank).reverse.dropWhile isBlank).reverse

/-- A string without the blanks around it; blanks between other characters stay. -/
def trim (s : String) : String := String.ofList (trimmed s.toList)

/-- Nothing but blanks: what is left after trimming is empty (`trim_eq_empty_iff`). -/
def allBlank (s : String) : Bool := s.toList.all isBlank

theorem isBlank_of_isDigit {c : Char} (h : c.isDigit = true) : isBlank c = false := by
  have hlow : 48 ≤ c.toNat := of_decide_eq_true (Bool.and_eq_true_iff.mp h).1
  have hhigh : c.toNat ≤ 57 := of_decide_eq_true (Bool.and_eq_true_iff.mp h).2
  simp [isBlank, inRanges, blankRanges]
  omega

theorem dropWhile_eq_nil_iff_all (p : Char → Bool) (cs : List Char) :
    cs.dropWhile p = [] ↔ cs.all p = true := by
  induction cs with
  | nil => simp
  | cons c cs ih => by_cases h : p c = true <;> simp [h, ih]

/-- Trimming leaves nothing exactly when every character is blank. -/
theorem trimmed_eq_nil_iff (cs : List Char) : trimmed cs = [] ↔ cs.all isBlank = true := by
  rw [trimmed, List.reverse_eq_nil_iff, dropWhile_eq_nil_iff_all, List.all_reverse,
    ← dropWhile_eq_nil_iff_all isBlank cs]
  constructor
  · intro h
    cases hd : cs.dropWhile isBlank with
    | nil => rfl
    | cons c rest =>
      have hc : isBlank c = true := by
        rw [hd, List.all_cons, Bool.and_eq_true] at h
        exact h.1
      have hn := List.head?_dropWhile_not isBlank cs
      rw [hd] at hn
      simp [hc] at hn
  · intro h
    rw [h]
    rfl

theorem trim_eq_empty_iff {s : String} : trim s = "" ↔ allBlank s = true := by
  rw [trim, allBlank, ← trimmed_eq_nil_iff, ← String.toList_inj, String.toList_ofList]
  rfl

end EmbedUI.Text
