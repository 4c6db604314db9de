import EmbedUI.Proofs.Dashboard.NumericMetric

/-!
# Metrics that people write

A metric is text: `1,234`, `+007`, `42 users`. However a number is written, with zeros in front of
its digits, with commas anywhere between them and with something else behind them, the number is
what is read. Text with no digit in front stands for zero.

Blanks are dropped first, and then commas, so what is behind a number may lose both. It does not
matter: what begins with another character still does, and blanks are no digits.

## The architecture

* **`Text.trimmed_within`**: what trimming leaves of a text with blanks around it.
* **`Writing`**: the ways of writing an integer.
* **`leadingInteger_writing`**: the stages of the reader.
* **`metric_read`**: the amount.
-/

namespace EmbedUI

/-! ## Trimming -/

namespace Text

theorem dropWhile_isBlank_append {cs : List Char} (h : ∀ c ∈ cs, isBlank c = false) (hne : cs ≠ [])
    (rest : List Char) : (cs ++ rest).dropWhile isBlank = cs ++ rest := by
  obtain ⟨c, cs, rfl⟩ := List.exists_cons_of_ne_nil hne
  have hc : ¬ isBlank c = true := by rw [h c List.mem_cons_self]; decide
  exact List.dropWhile_cons_of_neg hc

/-- **Trimming.** A part without blanks is kept, and of what is behind it a beginning: nothing, if
it is all blank. -/
theorem trimmed_within {front middle back : List Char} (rest : List Char)
    (hfront : ∀ c ∈ front, isBlank c = true) (hmiddle : ∀ c ∈ middle, isBlank c = false)
    (hne : middle ≠ []) (hback : ∀ c ∈ back, isBlank c = true) :
    ∃ left, left <+: rest ∧ trimmed (front ++ (middle ++ rest) ++ back) = middle ++ left := by
  have hreverse : ∀ c ∈ middle.reverse, isBlank c = false := fun c hc =>
    hmiddle c (List.mem_reverse.mp hc)
  have hkept := dropWhile_isBlank_append hreverse (mt List.reverse_eq_nil_iff.mp hne) []
  rw [List.append_nil] at hkept
  have hbehind : trimmed (front ++ (middle ++ rest) ++ back) =
      ((rest.reverse ++ middle.reverse).dropWhile isBlank).reverse := by
    rw [List.append_assoc, List.append_assoc, trimmed, List.dropWhile_append_of_pos hfront,
      dropWhile_isBlank_append hmiddle hne, ← List.append_assoc, List.reverse_append,
      List.dropWhile_append_of_pos fun c hc => hback c (List.mem_reverse.mp hc),
      List.reverse_append]
  rw [hbehind, List.dropWhile_append]
  split
  · refine ⟨[], List.nil_prefix, ?_⟩
    rw [hkept, List.reverse_reverse, List.append_nil]
  · refine ⟨rest.rdropWhile isBlank, List.rdropWhile_prefix _ _, ?_⟩
    rw [List.reverse_append, List.reverse_reverse]
    rfl

end Text

namespace Dashboard

open Decimal
open Float.Model.UnpackedFloat (Sign)

/-! ## Writing -/

/-- The signs in front of numbers; a plus sign may be left out. -/
inductive SignedBy : Sign → List Char → Prop where
  | none : SignedBy .positive []
  | plus : SignedBy .positive ['+']
  | minus : SignedBy .negative ['-']

/-- Text without its commas. -/
def withoutCommas (cs : List Char) : List Char := cs.filter (· ≠ ',')

/-- The ways of writing an integer: a sign, any zeros, its digits, and commas at any places. -/
def Writing (s : Sign) (n : ℕ) (cs : List Char) : Prop :=
  ∃ sign zeros, SignedBy s sign ∧
    withoutCommas cs = sign ++ (List.replicate zeros '0' ++ digits n)

/-- What may stand behind a number: nothing, or something else than a digit or a comma first. -/
def Ends (tail : List Char) : Prop := ∀ c ∈ tail.head?, c.isDigit = false ∧ c ≠ ','

theorem withoutCommas_append (cs ds : List Char) :
    withoutCommas (cs ++ ds) = withoutCommas cs ++ withoutCommas ds :=
  List.filter_append cs ds

/-- What is left of an end is one. -/
theorem Ends.withoutCommas {tail left : List Char} (h : Ends tail) (hleft : left <+: tail) :
    Ends (withoutCommas left) := by
  cases left with
  | nil => exact fun c hc => nomatch hc
  | cons c left =>
    obtain ⟨behind, rfl⟩ := hleft
    have hc := h c rfl
    have hkept : Dashboard.withoutCommas (c :: left) = c :: Dashboard.withoutCommas left :=
      List.filter_cons_of_pos (decide_eq_true hc.2)
    rw [hkept]
    rintro d hd
    obtain rfl := Option.some.inj hd
    exact hc

section
variable {s : Sign} {n : ℕ} {cs : List Char}

theorem isDigit_of_mem_numeral {zeros : ℕ} :
    ∀ c ∈ List.replicate zeros '0' ++ digits n, c.isDigit = true :=
  List.forall_mem_append.mpr ⟨forall_mem_zeros (by decide) zeros, isDigit_of_mem_digits⟩

theorem naturalOf_numeral (zeros n : ℕ) :
    Text.naturalOf (List.replicate zeros '0' ++ digits n) = n := by
  rw [naturalOf_append, naturalOf_zeros, naturalOf_digits, zero_mul, zero_add]

theorem isBlank_of_mem_sign {sign : List Char} (h : SignedBy s sign) :
    ∀ c ∈ sign, Text.isBlank c = false := by
  cases h <;> simp <;> decide

/-- A number is written without blanks. -/
theorem Writing.isBlank (h : Writing s n cs) : ∀ c ∈ cs, Text.isBlank c = false := by
  obtain ⟨sign, zeros, hsign, hcs⟩ := h
  intro c hc
  by_cases hcomma : c = ','
  · rw [hcomma]
    decide
  · have hmem : c ∈ withoutCommas cs := List.mem_filter.mpr ⟨hc, decide_eq_true hcomma⟩
    rw [hcs, List.mem_append] at hmem
    obtain hmem | hmem := hmem
    · exact isBlank_of_mem_sign hsign c hmem
    · exact Text.isBlank_of_isDigit (isDigit_of_mem_numeral c hmem)

theorem Writing.ne_nil (h : Writing s n cs) : cs ≠ [] := by
  obtain ⟨sign, zeros, -, hcs⟩ := h
  rintro rfl
  have hnil := List.append_eq_nil_iff.mp hcs.symm
  exact digits_ne_nil n (List.append_eq_nil_iff.mp hnil.2).2

/-! ## Reading -/

/-- The sign is split off. -/
theorem splitSign_of_signedBy {sign : List Char} (h : SignedBy s sign) {c : Char}
    (hc : c.isDigit = true) (rest : List Char) :
    Metric.splitSign (sign ++ (c :: rest)) = (s == .negative, c :: rest) := by
  cases h with
  | none => exact splitSign_of_isDigit hc rest
  | plus => rfl
  | minus => rfl

/-- **The stages.** Blanks and commas are dropped, the sign is split off, and the digits are all of
the number. -/
theorem leadingInteger_writing {front tail back : List Char} (h : Writing s n cs)
    (htail : Ends tail) (hfront : ∀ c ∈ front, Text.isBlank c = true)
    (hback : ∀ c ∈ back, Text.isBlank c = true) :
    ∃ ds, ds ≠ [] ∧ Text.naturalOf ds = n ∧
      Metric.leadingInteger (String.ofList (front ++ (cs ++ tail) ++ back)) =
        (s == .negative, ds) := by
  obtain ⟨left, hleft, htrimmed⟩ :=
    Text.trimmed_within tail hfront h.isBlank h.ne_nil hback
  obtain ⟨sign, zeros, hsign, hcs⟩ := h
  have hcleaned : (Text.trimmed (front ++ (cs ++ tail) ++ back)).filter (· ≠ ',') =
      sign ++ (List.replicate zeros '0' ++ digits n ++ withoutCommas left) := by
    rw [htrimmed, ← List.append_assoc, ← hcs]
    exact withoutCommas_append cs left
  have hne : List.replicate zeros '0' ++ digits n ≠ [] :=
    List.append_ne_nil_of_right_ne_nil _ (digits_ne_nil n)
  obtain ⟨c, ds, hds⟩ := List.exists_cons_of_ne_nil hne
  have hdigits : ∀ d ∈ c :: ds, d.isDigit = true := hds ▸ isDigit_of_mem_numeral
  obtain ⟨hrun, -⟩ := Text.takeWhile_dropWhile_run hdigits
    fun d hd => ((htail.withoutCommas hleft) d hd).1
  refine ⟨c :: ds, List.cons_ne_nil c ds, hds ▸ naturalOf_numeral zeros n, ?_⟩
  unfold Metric.leadingInteger
  rw [String.toList_ofList, hcleaned, hds, List.cons_append,
    splitSign_of_signedBy hsign (hdigits c List.mem_cons_self)]
  dsimp only
  rw [← List.cons_append, hrun]

end

/-- The amount is made of the sign and the digits. -/
theorem amount_of_leadingInteger {text : String} {negative : Bool} {ds : List Char}
    (h : Metric.leadingInteger text = (negative, ds)) (hne : ds ≠ []) :
    Metric.amount text =
      if negative then -1.0 * Float.ofNat (Text.naturalOf ds)
      else Float.ofNat (Text.naturalOf ds) := by
  obtain ⟨d, ds, rfl⟩ := List.exists_cons_of_ne_nil hne
  rw [Metric.amount, h]

/-! ## The main statement -/

/-- Text without the sign in front of it, if there is one. -/
def withoutSign : List Char → List Char
  | [] => []
  | c :: cs => if c = '-' ∨ c = '+' then cs else c :: cs

theorem snd_splitSign (cs : List Char) : (Metric.splitSign cs).2 = withoutSign cs := by
  unfold Metric.splitSign
  split
  · rfl
  · rfl
  · next hminus hplus =>
    cases cs with
    | nil => rfl
    | cons c cs =>
      have hc : ¬ (c = '-' ∨ c = '+') := by
        rintro (rfl | rfl)
        · exact hminus cs rfl
        · exact hplus cs rfl
      exact (if_neg hc).symm

/-- Without a digit in front nothing is read. -/
theorem amount_of_no_digit {text : String}
    (h : ∀ c ∈ (withoutSign (withoutCommas (Text.trimmed text.toList))).head?,
      c.isDigit = false) : Metric.amount text = 0.0 := by
  have hdigits : (Metric.leadingInteger text).2 = [] := by
    show (Metric.splitSign (withoutCommas (Text.trimmed text.toList))).2.takeWhile Char.isDigit = []
    rw [snd_splitSign]
    exact (Text.takeWhile_dropWhile_run (List.forall_mem_nil _) h).1
  cases hread : Metric.leadingInteger text with
  | mk negative ds =>
    rw [hread] at hdigits
    dsimp only at hdigits
    rw [Metric.amount, hread, hdigits]

/-- **Metrics that people write.** Whatever way an integer is written, and whatever stands behind
it, that integer is read with its sign; the amount is the float for it, and the integer itself as
long as floats have room for it. Text that has no digit in front stands for zero. -/
theorem metric_read :
    (∀ (s : Sign) (n : ℕ) (front cs tail back : List Char), Writing s n cs → Ends tail →
      (∀ c ∈ front, Text.isBlank c = true) → (∀ c ∈ back, Text.isBlank c = true) →
      let text := String.ofList (front ++ (cs ++ tail) ++ back)
      (∃ ds, Metric.leadingInteger text = (s == .negative, ds) ∧ Text.naturalOf ds = n) ∧
        Metric.amount text = signedFloat s n ∧
        (n < 2 ^ 53 → exactValue (Metric.amount text) = signFactor s * n)) ∧
    ∀ text : String,
      (∀ c ∈ (withoutSign (withoutCommas (Text.trimmed text.toList))).head?, c.isDigit = false) →
      Metric.amount text = 0.0 := by
  refine ⟨?_, fun text => amount_of_no_digit⟩
  intro s n front cs tail back hcs htail hfront hback
  obtain ⟨ds, hne, hds, hread⟩ := leadingInteger_writing hcs htail hfront hback
  have hamount : Metric.amount (String.ofList (front ++ (cs ++ tail) ++ back)) =
      signedFloat s n := by
    rw [amount_of_leadingInteger hread hne, hds]
    cases s <;> rfl
  refine ⟨⟨ds, hread, hds⟩, hamount, fun hsmall => ?_⟩
  rw [hamount, exactValue_signedFloat s (hsmall.le.trans (by norm_num)),
    exactValue_ofNat_of_lt hsmall]

/-- A sign, zeros and commas in front of a number with a unit, and a text with two signs. -/
theorem metric_read_decorated :
    (Writing .negative 1234 "-,0,01,234".toList ∧ Ends " users, 5".toList) ∧
      exactValue (Metric.amount "  -,0,01,234 users, 5  ") = -1234 ∧
      Metric.amount " -+5 " = 0.0 := by
  have hwriting : Writing .negative 1234 "-,0,01,234".toList :=
    ⟨['-'], 2, .minus, by decide +kernel⟩
  have hends : Ends " users, 5".toList := by
    intro c hc
    obtain rfl := Option.some.inj hc
    decide
  have hblank : ∀ c ∈ [' ', ' '], Text.isBlank c = true := List.all_eq_true.mp (by decide)
  have hfirst : (withoutSign (withoutCommas (Text.trimmed " -+5 ".toList))).head? = some '+' := by
    decide +kernel
  obtain ⟨hnumber, hnothing⟩ := metric_read
  obtain ⟨-, -, hexact⟩ := hnumber .negative 1234 [' ', ' '] _ _ [' ', ' '] hwriting hends hblank
    hblank
  refine ⟨⟨hwriting, hends⟩, ?_, hnothing " -+5 " ?_⟩
  · have hvalue := hexact (by norm_num)
    norm_num [signFactor] at hvalue
    exact hvalue
  · intro c hc
    rw [hfirst] at hc
    obtain rfl := Option.some.inj hc
    decide

end Dashboard

end EmbedUI
