import EmbedUI.Proofs.Decimal.LeadingInteger
import EmbedUI.Proofs.Host.ValidSettings

/-!
# Which settings can be applied

A request to apply settings holds a theme and a font size. The size is an integer, or a text: range
controls post the number alone, and a unit may follow it. The unit is dropped as often as it stands
there, so `18pxpx` is read like `18px`. Apart from that the texts are those of a number of at most
thirty-two bits above zero, perhaps with a plus sign before it, a unit behind it and blanks around.

## The architecture

* **`FontSize.Numeral`**, **`FontSize.Written`**: the text of a size, and how often the unit stands
  behind it.
* **`ofDigits?_eq_some_iff`**: the number; **`dropUnits_append`**, **`exists_units`**: the units
  behind it, of which none is left; **`ofText?_eq_some_iff`**: both together.
* **`ToolCall.Appearance`**: the parameters hold a theme and a size with so many units.
* **`applied_settings`**: the calls that are read from a request.
-/

namespace EmbedUI.Host

open Json (lookup)

namespace FontSize

/-! ## Texts of sizes -/

/-- Digits of a number, perhaps behind a plus sign. -/
def Numeral (cs : List Char) (n : ℕ) : Prop :=
  ∃ sign digits, (sign = [] ∨ sign = ['+']) ∧ digits ≠ [] ∧ (∀ d ∈ digits, d.isDigit = true) ∧
    Nat.ofDigitChars 10 digits 0 = n ∧ cs = sign ++ digits

/-- So many units. -/
def unitText (units : ℕ) : List Char := (List.replicate units ['p', 'x']).flatten

/-- Between blanks, the text is a number with so many units behind it. -/
def Written (s : String) (n units : ℕ) : Prop :=
  ∃ cs, Numeral cs n ∧ Text.trimmed s.toList = cs ++ unitText units

/-- The digits that are read as a number, whatever stands before them. -/
theorem digits_eq_some_iff {ds : List Char} {n : UInt32} :
    (if !ds.isEmpty && ds.all Char.isDigit && decide (Text.naturalOf ds < UInt32.size) then
      some (Text.naturalOf ds).toUInt32 else none) = some n ↔
    ds ≠ [] ∧ (∀ d ∈ ds, d.isDigit = true) ∧ Nat.ofDigitChars 10 ds 0 = n.toNat := by
  rw [← Decimal.naturalOf_eq]
  constructor
  · intro h
    split at h
    next hall =>
      simp only [Bool.and_eq_true, Bool.not_eq_true', List.isEmpty_eq_false_iff, List.all_eq_true,
        decide_eq_true_eq] at hall
      obtain ⟨⟨hne, hdigits⟩, hlt⟩ := hall
      cases h
      exact ⟨hne, hdigits, (UInt32.toNat_ofNat_of_lt' hlt).symm⟩
    next => cases h
  · rintro ⟨hne, hdigits, hn⟩
    have hlt : Text.naturalOf ds < UInt32.size := hn ▸ n.toNat_lt
    rw [if_pos (by simpa [hne, hlt] using hdigits), hn]
    simp

theorem plus_ne_of_isDigit {d : Char} (h : d.isDigit = true) : d ≠ '+' := by
  rintro rfl
  cases h

theorem ofDigits?_eq_some_iff {cs : List Char} {n : UInt32} :
    ofDigits? cs = some n ↔ Numeral cs n.toNat := by
  unfold ofDigits? Numeral
  constructor
  · intro h
    split at h
    next rest =>
      obtain ⟨hne, hdigits, hn⟩ := digits_eq_some_iff.mp h
      exact ⟨['+'], rest, Or.inr rfl, hne, hdigits, hn, rfl⟩
    next =>
      obtain ⟨hne, hdigits, hn⟩ := digits_eq_some_iff.mp h
      exact ⟨[], cs, Or.inl rfl, hne, hdigits, hn, rfl⟩
  · rintro ⟨sign, digits, rfl | rfl, hne, hdigits, hn, rfl⟩
    · obtain ⟨d, ds, rfl⟩ := List.exists_cons_of_ne_nil hne
      -- a digit is no sign, so all of the text is read
      have hd : d ≠ '+' := plus_ne_of_isDigit (hdigits d List.mem_cons_self)
      split
      next rest heq => exact absurd (List.cons.inj heq).1 hd
      next => exact digits_eq_some_iff.mpr ⟨hne, hdigits, hn⟩
    · exact digits_eq_some_iff.mpr ⟨hne, hdigits, hn⟩

/-! ## Units -/

/-- The units back to front. -/
theorem reverse_unitText (units : ℕ) :
    (unitText units).reverse = (List.replicate units ['x', 'p']).flatten := by
  simp [unitText, List.reverse_flatten]

/-- All units are dropped, where nothing before them could be taken for one. -/
theorem dropUnits_append (units : ℕ) {cs : List Char} (h : cs.head? ≠ some 'x') :
    dropUnits ((unitText units).reverse ++ cs) = cs := by
  rw [reverse_unitText]
  induction units with
  | zero =>
    show dropUnits cs = cs
    unfold dropUnits
    split
    next => exact absurd rfl h
    next => rfl
  | succ units ih => exact ih

/-- Nothing but units is dropped. -/
theorem exists_units (cs : List Char) :
    ∃ units, cs = (unitText units).reverse ++ dropUnits cs := by
  fun_induction dropUnits cs with
  | case1 rest ih =>
    obtain ⟨units, hunits⟩ := ih
    refine ⟨units + 1, ?_⟩
    rw [reverse_unitText] at hunits ⊢
    exact congrArg ('x' :: 'p' :: ·) hunits
  | case2 cs => exact ⟨0, rfl⟩

theorem Numeral.head?_reverse_ne {cs : List Char} {n : ℕ} (h : Numeral cs n) :
    cs.reverse.head? ≠ some 'x' := by
  obtain ⟨sign, digits, -, hne, hdigits, -, rfl⟩ := h
  rw [List.head?_reverse, List.getLast?_append_of_ne_nil _ hne]
  intro hx
  exact absurd (hdigits _ (List.mem_of_getLast? hx)) (by decide)

/-- **The texts that are read as a size:** numbers with any number of units behind them. -/
theorem ofText?_eq_some_iff {s : String} {n : UInt32} :
    ofText? s = some n ↔ ∃ units, Written s n.toNat units := by
  rw [ofText?, ofDigits?_eq_some_iff]
  constructor
  · intro hnumeral
    obtain ⟨units, hunits⟩ := exists_units (Text.trimmed s.toList).reverse
    refine ⟨units, _, hnumeral, ?_⟩
    have htext := congrArg List.reverse hunits
    rw [List.reverse_reverse, List.reverse_append, List.reverse_reverse] at htext
    exact htext
  · rintro ⟨units, cs, hnumeral, htext⟩
    rw [htext, List.reverse_append, dropUnits_append units hnumeral.head?_reverse_ne,
      List.reverse_reverse]
    exact hnumeral

end FontSize

namespace ToolCall

/-! ## Requests -/

/-- The value is an integer, or a text of one with so many units behind it. -/
def HoldsSize (v : Json) (n units : ℕ) : Prop :=
  (∃ h, v = .num (.integer n h)) ∨ ∃ s, v = .str s ∧ FontSize.Written s n units

/-- The parameters hold a theme that is not blank, and a size of at least one and at most thirty-two
bits, with so many units. -/
structure Appearance (entries : List (String × Json)) (theme : String) (n units : ℕ) : Prop where
  hasTheme : lookup "theme" entries = some (.str theme)
  shown : Text.trim theme ≠ ""
  hasSize : ∃ v, lookup "fontSize" entries = some v ∧ HoldsSize v n units
  lower : 1 ≤ n
  upper : n ≤ 4294967295

theorem denotes_iff {v : Json} {n : UInt32} :
    FontSize.Denotes v n ↔ 1 ≤ n.toNat ∧ ∃ units, HoldsSize v n.toNat units := by
  have hzero : n ≠ 0 ↔ 1 ≤ n.toNat := by
    rw [Nat.one_le_iff_ne_zero, ne_eq, ne_eq, ← UInt32.toNat_inj]
    rfl
  unfold FontSize.Denotes
  rw [hzero]
  refine and_congr_right fun _ => ?_
  constructor
  · rintro (rfl | ⟨s, rfl, hs⟩)
    · exact ⟨0, Or.inl ⟨_, rfl⟩⟩
    · obtain ⟨units, hwritten⟩ := FontSize.ofText?_eq_some_iff.mp hs
      exact ⟨units, Or.inr ⟨s, rfl, hwritten⟩⟩
  · rintro ⟨units, ⟨_, rfl⟩ | ⟨s, rfl, hwritten⟩⟩
    · exact Or.inl rfl
    · exact Or.inr ⟨s, rfl, FontSize.ofText?_eq_some_iff.mpr ⟨units, hwritten⟩⟩

/-- A request for settings with parameters of these entries. -/
def applying (entries : List (String × Json)) : ToolRequest := ⟨"applySettings", .obj entries⟩

/-- The call that a request asks for, its size as it stands in the parameters. -/
theorem asks_applying {entries : List (String × Json)} {call : ToolCall} :
    Asks (applying entries) call ↔ ∃ theme n units, Appearance entries theme n units ∧
      call = .applySettings theme n.toUInt32 := by
  constructor
  · intro hasks
    cases call with
    | setAnimationSpeed s =>
      have htool : "applySettings" = "setAnimationSpeed" := hasks.1
      exact absurd htool (by decide)
    | applySettings theme n =>
      obtain ⟨-, hshown, v, ⟨htheme, hsize⟩, hdenotes⟩ := hasks
      obtain ⟨hlower, units, hholds⟩ := denotes_iff.mp hdenotes
      have hupper : n.toNat ≤ 4294967295 := Nat.le_of_lt_succ n.toNat_lt
      exact ⟨theme, n.toNat, units, ⟨htheme, hshown, ⟨v, hsize, hholds⟩, hlower, hupper⟩,
        by simp⟩
  · rintro ⟨theme, n, units, ⟨htheme, hshown, ⟨v, hsize, hholds⟩, hlower, hupper⟩, rfl⟩
    have hn : n.toUInt32.toNat = n := UInt32.toNat_ofNat_of_lt' (Nat.lt_succ_of_le hupper)
    refine ⟨rfl, hshown, v, ⟨htheme, hsize⟩, denotes_iff.mpr ?_⟩
    rw [hn]
    exact ⟨hlower, units, hholds⟩

/-- A text that does not end in a repeated unit has at most one. -/
theorem units_le_one {s : String} {n units : ℕ} (hwritten : FontSize.Written s n units)
    (h : ¬ ['p', 'x', 'p', 'x'] <:+ Text.trimmed s.toList) : units ≤ 1 := by
  obtain ⟨cs, -, htext⟩ := hwritten
  by_contra hunits
  obtain ⟨k, rfl⟩ : ∃ k, units = k + 2 := ⟨units - 2, by omega⟩
  refine h ⟨cs ++ FontSize.unitText k, ?_⟩
  rw [htext, FontSize.unitText, FontSize.unitText, List.replicate_add, List.flatten_append,
    ← List.append_assoc]
  rfl

/-- **Settings that can be applied.** From the parameters of a request for settings a call is read
exactly when they hold a theme that is not blank and a size, and it is the call for this theme and
this size; any number of units may stand behind the text of a size. Where the text does not end in a
repeated unit, this is to say that there is at most one. -/
theorem applied_settings {entries : List (String × Json)} (h : Json.Canonical (.obj entries))
    (call : ToolCall) :
    (ofRequest (applying entries) = .ok call ↔
      ∃ theme n units, Appearance entries theme n units ∧
        call = .applySettings theme n.toUInt32) ∧
    ((∀ s, lookup "fontSize" entries = some (.str s) →
        ¬ ['p', 'x', 'p', 'x'] <:+ Text.trimmed s.toList) →
      (ofRequest (applying entries) = .ok call ↔
        ∃ theme n units, Appearance entries theme n units ∧ units ≤ 1 ∧
          call = .applySettings theme n.toUInt32)) := by
  have hread : ofRequest (applying entries) = .ok call ↔
      ∃ theme n units, Appearance entries theme n units ∧
        call = .applySettings theme n.toUInt32 :=
    (ofRequest_eq_ok_iff h).trans asks_applying
  refine ⟨hread, fun hsingle => hread.trans ⟨?_, ?_⟩⟩
  · rintro ⟨theme, n, units, happearance, hcall⟩
    obtain ⟨v, hv, ⟨_, rfl⟩ | ⟨s, rfl, hwritten⟩⟩ := happearance.hasSize
    · -- an integer has no units
      refine ⟨theme, n, 0, ?_, Nat.zero_le 1, hcall⟩
      exact { happearance with hasSize := ⟨_, hv, Or.inl ⟨_, rfl⟩⟩ }
    · exact ⟨theme, n, units, happearance, units_le_one hwritten (hsingle s hv), hcall⟩
  · rintro ⟨theme, n, units, happearance, -, hcall⟩
    exact ⟨theme, n, units, happearance, hcall⟩

/-- A size with a sign, leading zeros and a unit, and an entry that nobody asks for. -/
def signedSize : List (String × Json) :=
  [("fontSize", .str "\u3000+0018px\n"), ("theme", .str " dark "), ("zoom", .null)]

theorem appearance_signedSize : Appearance signedSize " dark " 18 1 where
  hasTheme := rfl
  shown := by decide
  hasSize := by
    refine ⟨_, rfl, Or.inr ⟨_, rfl, ['+', '0', '0', '1', '8'], ?_, by decide +kernel⟩⟩
    exact ⟨['+'], ['0', '0', '1', '8'], Or.inr rfl, by decide, List.all_eq_true.mp rfl,
      by decide, rfl⟩
  lower := by decide
  upper := by decide

theorem applied_settings_signedSize :
    Json.Canonical (.obj signedSize) ∧
      (∀ s, lookup "fontSize" signedSize = some (.str s) →
        ¬ ['p', 'x', 'p', 'x'] <:+ Text.trimmed s.toList) ∧
      ofRequest (applying signedSize) = .ok (.applySettings " dark " 18) := by
  have hcanonical : Json.Canonical (.obj signedSize) :=
    ⟨by decide, trivial, trivial, trivial, trivial⟩
  have hsingle : ∀ s, lookup "fontSize" signedSize = some (.str s) →
      ¬ ['p', 'x', 'p', 'x'] <:+ Text.trimmed s.toList := by
    rintro s hs
    cases hs
    decide
  refine ⟨hcanonical, hsingle, ?_⟩
  refine ((applied_settings hcanonical _).2 hsingle).mpr ?_
  exact ⟨_, _, _, appearance_signedSize, le_refl 1, rfl⟩

/-- A size with the unit behind the unit. -/
def repeatedUnit : List (String × Json) := [("fontSize", .str "18pxpx"), ("theme", .str "dark")]

/-- **A repeated unit is accepted**, though the text has no single unit behind a number. -/
theorem repeated_unit_accepted :
    ¬ ∀ (entries : List (String × Json)) (call : ToolCall), Json.Canonical (.obj entries) →
      (ofRequest (applying entries) = .ok call ↔
        ∃ theme n units, Appearance entries theme n units ∧ units ≤ 1 ∧
          call = .applySettings theme n.toUInt32) := by
  intro h
  have hcanonical : Json.Canonical (.obj repeatedUnit) := ⟨by decide, trivial, trivial, trivial⟩
  have happearance : Appearance repeatedUnit "dark" 18 2 :=
    { hasTheme := rfl
      shown := by decide
      hasSize := by
        refine ⟨_, rfl, Or.inr ⟨_, rfl, ['1', '8'], ?_, by decide +kernel⟩⟩
        exact ⟨[], ['1', '8'], Or.inl rfl, by decide, List.all_eq_true.mp rfl, by decide, rfl⟩
      lower := by decide
      upper := by decide }
  have hread : ofRequest (applying repeatedUnit) = .ok (.applySettings "dark" 18) :=
    (ofRequest_eq_ok_iff hcanonical).mpr (asks_applying.mpr ⟨_, _, _, happearance, rfl⟩)
  obtain ⟨theme, n, units, hsecond, hunits, -⟩ := (h repeatedUnit _ hcanonical).mp hread
  obtain ⟨v, hv, hsize⟩ := hsecond.hasSize
  cases hv
  obtain ⟨_, hnumber⟩ | ⟨s, hs, cs, hnumeral, htext⟩ := hsize
  · cases hnumber
  · cases hs
    -- without its last unit the text still ends in one, and not in a digit
    have hreverse : (FontSize.unitText units).reverse ++ cs.reverse =
        ['x', 'p', 'x', 'p', '8', '1'] := by
      rw [← List.reverse_append, ← htext]
      decide +kernel
    refine hnumeral.head?_reverse_ne ?_
    interval_cases units
    · have hall : cs.reverse = ['x', 'p', 'x', 'p', '8', '1'] := hreverse
      rw [hall]
      rfl
    · have hrest : cs.reverse = ['x', 'p', '8', '1'] := (List.cons.inj (List.cons.inj hreverse).2).2
      rw [hrest]
      rfl

end ToolCall

end EmbedUI.Host
