import EmbedUI.Dashboard.Basic
import EmbedUI.Proofs.Decimal.LeadingInteger
import EmbedUI.Proofs.Json.FiniteFloat
import EmbedUI.Proofs.Json.RoundTrip
import EmbedUI.Proofs.Text.Words

/-!
# Metrics that are numbers

A chart widget that is handed a metric draws a single bar. When the value of the metric is a number,
the number is first written as text and the bar is read from that text, as with any other metric. An
integer comes through as the float nearest to it. Any other number that is written without an
exponent loses its fraction and nothing else; one that is written with an exponent loses all but its
leading digit.

## The architecture

* **`amount_of_begins`**: the bar is the integer at the front of the text.
* **`amount_integer`**, **`amount_real`**: the text of an integer, and of a float.
* **`NumericMetric`**, **`decode_numericMetric`**: the data that a widget is handed.
* **`numeric_metric_bar`**: the bar, and **`exponent_is_lost`** where it is not what was handed in.
-/

namespace EmbedUI.Dashboard

open Decimal
open Float.Model.UnpackedFloat (Sign)

/-! ## Text -/

theorem isBlank_of_isNumeralChar {c : Char} (h : isNumeralChar c = true) :
    Text.isBlank c = false ∧ c ≠ ',' := by
  rw [isNumeralChar, Bool.or_eq_true] at h
  obtain hdigit | hother := h
  · refine ⟨Text.isBlank_of_isDigit hdigit, ?_⟩
    rintro rfl
    exact absurd hdigit (by decide)
  · have hall : (".e+-".toList.all fun d => !Text.isBlank d && d != ',') = true := by decide
    have hc := List.all_eq_true.mp hall c (List.contains_iff_mem.mp hother)
    simpa using hc

/-- The text of a number is read as it stands. -/
theorem trimmed_numeral {cs : List Char} (h : ∀ c ∈ cs, isNumeralChar c = true) :
    (Text.trimmed cs).filter (· ≠ ',') = cs := by
  have htrimmed : Text.trimmed cs = cs :=
    Text.trimmed_eq_self
      (fun c hc => (isBlank_of_isNumeralChar (h c (List.mem_of_mem_head? hc))).1)
      (fun c hc => (isBlank_of_isNumeralChar (h c (List.mem_of_mem_getLast? hc))).1)
  rw [htrimmed, List.filter_eq_self]
  exact fun c hc => decide_eq_true (isBlank_of_isNumeralChar (h c hc)).2

theorem splitSign_of_isDigit {c : Char} (h : c.isDigit = true) (cs : List Char) :
    Metric.splitSign (c :: cs) = (false, c :: cs) := by
  unfold Metric.splitSign
  split
  · next heq =>
    obtain ⟨rfl, -⟩ := List.cons.inj heq
    exact absurd h (by decide)
  · next heq =>
    obtain ⟨rfl, -⟩ := List.cons.inj heq
    exact absurd h (by decide)
  · rfl

/-- A natural number with a sign. -/
def signedFloat (s : Sign) (n : ℕ) : Float :=
  match s with
  | .negative => -1.0 * Float.ofNat n
  | .positive => Float.ofNat n

/-- How a sign is written. -/
def signText : Sign → List Char
  | .negative => ['-']
  | .positive => []

/-- **The front of a text.** The integer that a number begins with is its amount. -/
theorem amount_of_begins {cs : List Char} {n : ℕ} (h : Begins cs n) (s : Sign) :
    Metric.amount (String.ofList (signText s ++ cs)) = signedFloat s n := by
  obtain ⟨hchars, whole, rest, rfl, hne, hwhole, hrest, rfl⟩ := h
  obtain ⟨d, ds, rfl⟩ := List.exists_cons_of_ne_nil hne
  have hnumeral : ∀ c ∈ signText s ++ (d :: ds ++ rest), isNumeralChar c = true := by
    intro c hc
    obtain hc | hc := List.mem_append.mp hc
    · cases s with
      | negative =>
        rw [List.mem_singleton.mp hc]
        decide
      | positive => cases hc
    · exact hchars c hc
  have hsign : Metric.splitSign (signText s ++ (d :: ds ++ rest)) =
      (s == .negative, d :: ds ++ rest) := by
    cases s with
    | negative => rfl
    | positive => exact splitSign_of_isDigit (hwhole d List.mem_cons_self) _
  obtain ⟨hdigits, -⟩ := Text.takeWhile_dropWhile_run hwhole hrest
  unfold Metric.amount Metric.leadingInteger
  rw [String.toList_ofList, trimmed_numeral hnumeral, hsign]
  dsimp only
  rw [hdigits]
  cases s <;> rfl

/-! ## Numbers -/

theorem neg_one_mul_ofNat {n : ℕ} (h : n ≤ 2 ^ 64) : -1.0 * Float.ofNat n = -Float.ofNat n :=
  neg_one_mul_of_isFinite (Json.Number.tame_ofNat h).isFinite

theorem isFinite_signedFloat (s : Sign) {n : ℕ} (h : n ≤ 2 ^ 64) :
    (signedFloat s n).isFinite = true := by
  cases s with
  | positive => exact (Json.Number.tame_ofNat h).isFinite
  | negative =>
    show (-1.0 * Float.ofNat n).isFinite = true
    rw [neg_one_mul_ofNat h]
    exact ((Json.Number.tame_ofNat h).neg (by decide) (by decide)).isFinite

theorem exactValue_signedFloat (s : Sign) {n : ℕ} (h : n ≤ 2 ^ 64) :
    exactValue (signedFloat s n) = signFactor s * exactValue (Float.ofNat n) := by
  cases s with
  | positive => exact (one_mul _).symm
  | negative =>
    show exactValue (-1.0 * Float.ofNat n) = -1 * _
    rw [neg_one_mul_ofNat h, exactValue_neg (Json.Number.tame_ofNat h).isFinite, neg_one_mul]

/-- **Integers.** The text of an integer is read as the float nearest to it. -/
theorem amount_integer {z : ℤ} (h : Json.IsExact z) :
    Metric.amount (integerText z) = Float.ofInt z := by
  have hbegins : Begins (digits z.natAbs) z.natAbs :=
    ⟨fun c hc => isNumeralChar_of_isDigit (isDigit_of_mem_digits c hc), _, [],
      (List.append_nil _).symm, digits_ne_nil _, isDigit_of_mem_digits, by simp,
      naturalOf_digits _⟩
  obtain ⟨hlow, hhigh⟩ := h
  unfold integerText
  cases z with
  | ofNat n =>
    have hnonneg : ¬ Int.ofNat n < 0 := not_lt.mpr (Int.natCast_nonneg n)
    rw [if_neg hnonneg]
    exact amount_of_begins hbegins .positive
  | negSucc n =>
    rw [if_pos (Int.negSucc_lt_zero n)]
    refine (amount_of_begins hbegins .negative).trans (neg_one_mul_ofNat ?_)
    omega

/-- A number without its fraction: truncation toward zero. -/
def truncated (q : ℚ) : ℤ := if 0 ≤ q then ⌊q⌋ else ⌈q⌉

theorem truncated_signed (s : Sign) {q : ℚ} (h : 0 ≤ q) :
    (truncated (signFactor s * q) : ℚ) = signFactor s * (⌊q⌋₊ : ℕ) := by
  have hfloor : ((⌊q⌋₊ : ℕ) : ℚ) = ⌊q⌋ := natCast_floor_eq_intCast_floor h
  rw [hfloor]
  cases s with
  | positive =>
    show (truncated (1 * q) : ℚ) = 1 * ⌊q⌋
    rw [one_mul, one_mul, truncated, if_pos h]
  | negative =>
    show (truncated (-1 * q) : ℚ) = -1 * ⌊q⌋
    rw [neg_one_mul, neg_one_mul, truncated]
    split
    · next hnonneg =>
      obtain rfl : q = 0 := le_antisymm (by linarith) h
      simp
    · rw [Int.ceil_neg, Int.cast_neg]

/-- The sizes of numbers that are written without an exponent. -/
def InFull (q : ℚ) : Prop := q = 0 ∨ Positional |q|

theorem abs_signFactor (s : Sign) (q : ℚ) : |signFactor s * q| = |q| := by
  cases s with
  | positive => exact congrArg abs (one_mul q)
  | negative => exact (congrArg abs (neg_one_mul q)).trans (abs_neg q)

theorem render_eq {v : Float} (h : v.isFinite = true) :
    jsonLayout.render v = String.ofList (signText (signBit v) ++
      if v == 0 then jsonLayout.positionalForm ['0'] 0
      else jsonLayout.magnitude (shortest jsonLayout.tie v)) := by
  have hsign : (if signBit v == .negative then ['-'] else []) = signText (signBit v) := by
    cases signBit v <;> rfl
  rw [jsonLayout.render_of_isFinite h, hsign]

/-- The size of a finite float that is not zero. -/
theorem abs_exactValue {v : Float}
    (h : exactValue v = signFactor (signBit v) * (Binary.ofFloat v).value) :
    |exactValue v| = (Binary.ofFloat v).value := by
  have hnonneg : 0 ≤ (Binary.ofFloat v).value := by
    unfold Binary.value
    positivity
  rw [h, abs_signFactor, abs_of_nonneg hnonneg]

theorem signFactor_mul_abs {v : Float} (h : v.isFinite = true) :
    signFactor (signBit v) * |exactValue v| = exactValue v := by
  obtain ⟨-, hzero⟩ | ⟨-, -, hvalue⟩ := exactValue_cases h
  · rw [hzero, abs_zero, mul_zero]
  · rw [abs_exactValue hvalue, hvalue]

/-- **The text of a float** is read as its integer part, or else as one digit. -/
theorem amount_render {v : Float} (h : v.isFinite = true) :
    (InFull (exactValue v) →
      Metric.amount (jsonLayout.render v) = signedFloat (signBit v) ⌊|exactValue v|⌋₊) ∧
      (¬ InFull (exactValue v) → ∃ n, 1 ≤ n ∧ n ≤ 9 ∧
        Metric.amount (jsonLayout.render v) = signedFloat (signBit v) n) := by
  rw [render_eq h]
  obtain ⟨hunpack, hzero⟩ | ⟨hcanonical, hne, hvalue⟩ := exactValue_cases h
  · have heq : (v == 0) = true := by
      show Float.Model.UnpackedFloat.beq v.toModel.unpack (.zero .positive) = true
      rw [hunpack]
      cases signBit v <;> rfl
    have hbegins : Begins (jsonLayout.positionalForm ['0'] 0) ⌊(0 : ℚ)⌋₊ := by
      have hdigits : ∀ c ∈ ['0'], c.isDigit = true := by simp
      have hzeros := begins_positionalForm jsonLayout (List.cons_ne_nil '0' []) hdigits 0
      have hnone : Text.naturalOf ['0'] = 0 := naturalOf_zeros 1
      rwa [hnone, Nat.cast_zero, zero_mul] at hzeros
    rw [heq, if_pos rfl, hzero, abs_zero]
    exact ⟨fun _ => amount_of_begins hbegins _, fun hnot => absurd (Or.inl rfl) hnot⟩
  · obtain ⟨hpos, hhigh, hlow, hfloor⟩ := tells_shortest hcanonical jsonLayout.tie
    have habs := abs_exactValue hvalue
    have hnonzero : exactValue v ≠ 0 := by
      rw [← abs_pos, habs]
      exact hcanonical.value_pos
    have hinFull : InFull (exactValue v) ↔ Positional (shortest jsonLayout.tie v).value := by
      rw [InFull, or_iff_right hnonzero, habs, Positional, Positional, hhigh, hlow]
    rw [hne, if_neg Bool.false_ne_true, hinFull, habs]
    obtain ⟨hpositional, hexponent⟩ := begins_magnitude hpos
    refine ⟨fun hcase => ?_, fun hcase => ?_⟩
    · have hsmall : (Binary.ofFloat v).value < 10 ^ (16 : ℤ) := not_le.mp (mt hhigh.mpr hcase.2)
      have hfloor' : ⌊(shortest jsonLayout.tie v).value⌋₊ = ⌊(Binary.ofFloat v).value⌋₊ :=
        congrArg Int.toNat (hfloor hsmall)
      rw [← hfloor']
      exact amount_of_begins (hpositional hcase) _
    · obtain ⟨n, hn, hn', hbegins⟩ := hexponent hcase
      exact ⟨n, hn, hn', amount_of_begins hbegins _⟩

/-- The integer part of a number that is written in full is the value of a float. -/
theorem exactValue_floor {v : Float} (h : v.isFinite = true) (hfull : InFull (exactValue v)) :
    ⌊|exactValue v|⌋₊ ≤ 2 ^ 64 ∧
      exactValue (Float.ofNat ⌊|exactValue v|⌋₊) = (⌊|exactValue v|⌋₊ : ℕ) := by
  obtain ⟨-, hzero⟩ | ⟨hcanonical, -, hvalue⟩ := exactValue_cases h
  · rw [hzero, abs_zero, Nat.floor_zero]
    exact ⟨Nat.zero_le _, exactValue_ofNat_of_lt (by decide)⟩
  · have habs := abs_exactValue hvalue
    have hsmall : |exactValue v| < 10 ^ (16 : ℤ) := by
      obtain hzero | hpositional := hfull
      · rw [hzero, abs_zero]
        positivity
      · exact not_le.mp hpositional.2
    refine ⟨Nat.floor_le_of_le (hsmall.le.trans (by norm_num)), ?_⟩
    rw [habs] at hsmall ⊢
    exact hcanonical.exactValue_floor (exponent_le_one hcanonical hsmall)

/-- **Floats.** A float that is written in full keeps all but its fraction; of another one a single
digit is left. -/
theorem amount_real {v : Float} (h : v.isFinite = true) :
    (Metric.amount (jsonLayout.render v)).isFinite = true ∧
      (InFull (exactValue v) →
        exactValue (Metric.amount (jsonLayout.render v)) = truncated (exactValue v)) ∧
      (¬ InFull (exactValue v) →
        1 ≤ |exactValue (Metric.amount (jsonLayout.render v))| ∧
          |exactValue (Metric.amount (jsonLayout.render v))| ≤ 9) := by
  obtain ⟨hfull, hexponent⟩ := amount_render h
  by_cases hcase : InFull (exactValue v)
  · obtain ⟨hbound, hfloat⟩ := exactValue_floor h hcase
    rw [hfull hcase]
    refine ⟨isFinite_signedFloat _ hbound, fun _ => ?_, fun hnot => absurd hcase hnot⟩
    rw [exactValue_signedFloat _ hbound, hfloat, ← truncated_signed _ (abs_nonneg _),
      signFactor_mul_abs h]
  · obtain ⟨n, hn, hn', hamount⟩ := hexponent hcase
    have hbound : n ≤ 2 ^ 64 := by omega
    rw [hamount]
    refine ⟨isFinite_signedFloat _ hbound, fun hpositive => absurd hpositive hcase, fun _ => ?_⟩
    rw [exactValue_signedFloat _ hbound, abs_signFactor,
      exactValue_ofNat_of_lt (by omega), Nat.abs_cast]
    exact ⟨by exact_mod_cast hn, by exact_mod_cast hn'⟩

/-! ## The data of a widget -/

/-- Data in the shape of a metric: a number, a label that is not empty, and no values. Labels may
stand beside them. -/
structure NumericMetric (entries : List (String × Json)) (n : Json.Number) (label : String) :
    Prop where
  distinct : (entries.map Prod.fst).Nodup
  hasValue : Json.lookup "value" entries = some (.num n)
  hasLabel : Json.lookup "label" entries = some (.str label)
  labelled : label ≠ ""
  noValues : Json.lookup "values" entries = none ∨ Json.lookup "values" entries = some .null
  readable : ∀ v, Json.lookup "labels" entries = some v →
    ∃ labels, Json.optional (Json.list Json.string) v = .ok labels

section
variable {α : Type} {name : String} {decode : Json.Decoder Empty α} {entries : List (String × Json)}
  (hdistinct : (entries.map Prod.fst).Nodup)
include hdistinct

theorem finds_entry {v : Json} {x : Option α} (hv : Json.lookup name entries = some v)
    (hx : Json.optional decode v = .ok x) :
    (Json.Record.optional name decode).Finds [name] entries x :=
  ⟨Json.Record.owns_defaulted _ _ _,
    (Json.Record.ofEntries_defaulted hdistinct).mpr (Or.inl ⟨v, hv, hx⟩)⟩

theorem finds_nothing (hv : Json.lookup name entries = none) :
    (Json.Record.optional name decode).Finds [name] entries none :=
  ⟨Json.Record.owns_defaulted _ _ _,
    (Json.Record.ofEntries_defaulted hdistinct).mpr (Or.inr ⟨hv, rfl⟩)⟩

end

/-- The number is kept as its text. -/
theorem decode_numericMetric {entries : List (String × Json)} {n : Json.Number} {label : String}
    (h : NumericMetric entries n label) :
    ∃ labels, ChartData.decode (.obj entries) = .ok ⟨none, labels, some n.toText, some label⟩ := by
  have hvalues : (Json.Record.optional "values" (Json.list Json.float)).Finds ["values"] entries
      none := by
    obtain hnone | hnull := h.noValues
    · exact finds_nothing h.distinct hnone
    · exact finds_entry h.distinct hnull rfl
  obtain ⟨labels, hlabels⟩ : ∃ labels, (Json.Record.optional "labels"
      (Json.list Json.string)).Finds ["labels"] entries labels := by
    cases hfound : Json.lookup "labels" entries with
    | none => exact ⟨none, finds_nothing h.distinct hfound⟩
    | some v =>
      obtain ⟨labels, hread⟩ := h.readable v hfound
      exact ⟨labels, finds_entry h.distinct hfound hread⟩
  have hvalue : (Json.Record.optional "value" Metric.decodeText).Finds ["value"] entries
      (some n.toText) :=
    finds_entry h.distinct h.hasValue rfl
  have hlabel : (Json.Record.optional "label" Json.string).Finds ["label"] entries (some label) :=
    finds_entry h.distinct h.hasLabel rfl
  have hrecord := (((hvalues.map ChartData.mk).seq hlabels (by simp)).seq hvalue (by simp)).seq
    hlabel (by simp)
  exact ⟨labels, hrecord.reads⟩

theorem magnitude_ne_nil (d : Scientific) : jsonLayout.magnitude d ≠ [] := by
  unfold Layout.magnitude
  dsimp only
  split
  · exact positionalForm_ne_nil jsonLayout (digits_ne_nil _) _
  · unfold Layout.exponentForm
    simp

theorem toText_ne_empty (n : Json.Number) : n.toText ≠ "" := by
  cases n with
  | integer z exact =>
    show integerText z ≠ ""
    unfold integerText
    rw [Ne, ← String.toList_inj, String.toList_ofList]
    exact List.append_ne_nil_of_right_ne_nil _ (digits_ne_nil _)
  | real v finite =>
    show jsonLayout.render v ≠ ""
    rw [render_eq finite, Ne, ← String.toList_inj, String.toList_ofList]
    refine List.append_ne_nil_of_right_ne_nil _ ?_
    split
    · exact positionalForm_ne_nil jsonLayout (by decide) _
    · exact magnitude_ne_nil _

theorem normalize_numericMetric {labels : Option (List String)} {n : Json.Number} {label : String}
    (h : label ≠ "") :
    (⟨none, labels, some n.toText, some label⟩ : ChartData).normalize =
      ⟨[Metric.amount n.toText], [label]⟩ := by
  have hvalue : n.toText.isEmpty = false := by
    rw [Bool.eq_false_iff, Ne, String.isEmpty_iff]
    exact toText_ne_empty n
  have hlabel : label.isEmpty = false := by
    rw [Bool.eq_false_iff, Ne, String.isEmpty_iff]
    exact h
  simp [ChartData.normalize, ChartData.metric?, hvalue, hlabel]

/-! ## The main statement -/

/-- A bar keeps a number: it is the float nearest to an integer, and has lost no more than the
fraction of any other number. -/
def Keeps : Json.Number → Float → Prop
  | .integer z _, bar => bar = Float.ofInt z
  | .real v _, bar => exactValue bar = truncated (exactValue v)

/-- The numbers whose text has no exponent: all integers, zero, and sizes from `10 ^ -5` up to
`10 ^ 16`. -/
def WrittenInFull : Json.Number → Prop
  | .integer _ _ => True
  | .real v _ => InFull (exactValue v)

theorem amount_toText (n : Json.Number) :
    (Metric.amount n.toText).isFinite = true ∧
      (WrittenInFull n → Keeps n (Metric.amount n.toText)) ∧
      (¬ WrittenInFull n → 1 ≤ |exactValue (Metric.amount n.toText)| ∧
        |exactValue (Metric.amount n.toText)| ≤ 9) := by
  cases n with
  | integer z hexact =>
    have hamount : Metric.amount (Json.Number.integer z hexact).toText = Float.ofInt z :=
      amount_integer hexact
    rw [hamount]
    exact ⟨Json.Number.isFinite_ofInt hexact, fun _ => rfl, fun hnot => absurd trivial hnot⟩
  | real v hfinite => exact amount_real hfinite

/-- **The bar of a number.** Whatever number is handed in with a label, a single bar of that label
comes out. An integer is kept up to rounding. A float that is written in full is truncated toward
zero; of one that is written with an exponent only the leading digit is left. -/
theorem numeric_metric_bar {entries : List (String × Json)} {n : Json.Number} {label : String}
    (h : NumericMetric entries n label) :
    ∃ data bar, ChartData.decode (.obj entries) = .ok data ∧ data.normalize = ⟨[bar], [label]⟩ ∧
      bar.isFinite = true ∧ (WrittenInFull n → Keeps n bar) ∧
      (¬ WrittenInFull n → 1 ≤ |exactValue bar| ∧ |exactValue bar| ≤ 9) := by
  obtain ⟨labels, hdecode⟩ := decode_numericMetric h
  exact ⟨_, Metric.amount n.toText, hdecode, normalize_numericMetric h.labelled, amount_toText n⟩

/-- A number with a fraction, handed in with labels beside it. -/
def fractionEntries : List (String × Json) :=
  [("label", .str "Users"), ("labels", .arr [.str "unused"]), ("value", .num (.real 1234.5 rfl))]

theorem numericMetric_fractionEntries :
    NumericMetric fractionEntries (.real 1234.5 rfl) "Users" where
  distinct := by decide
  hasValue := rfl
  hasLabel := rfl
  labelled := by decide
  noValues := Or.inl rfl
  readable := by
    intro v hv
    obtain rfl := Option.some.inj hv
    exact ⟨some ["unused"], rfl⟩

theorem exactValue_fraction : exactValue 1234.5 = 1234 + 1 / 2 := by
  have hunpack : (1234.5 : Float).toModel.unpack =
      .finite .positive 5429388417957888 (-42) (by decide) := rfl
  rw [exactValue, hunpack]
  norm_num [unpackedValue, signFactor]

theorem numeric_metric_bar_fraction :
    NumericMetric fractionEntries (.real 1234.5 rfl) "Users" ∧
      ∃ data bar, ChartData.decode (.obj fractionEntries) = .ok data ∧
        data.normalize = ⟨[bar], ["Users"]⟩ ∧ bar.isFinite = true ∧ exactValue bar = 1234 := by
  have hvalue := exactValue_fraction
  have hfull : WrittenInFull (.real 1234.5 rfl) := by
    refine Or.inr ?_
    rw [hvalue, Positional]
    norm_num
  have htruncated : truncated (exactValue 1234.5) = 1234 := by
    rw [hvalue, truncated, if_pos (by norm_num), Int.floor_eq_iff]
    norm_num
  obtain ⟨data, bar, hdecode, hnormalize, hfinite, hkeeps, -⟩ :=
    numeric_metric_bar numericMetric_fractionEntries
  refine ⟨numericMetric_fractionEntries, data, bar, hdecode, hnormalize, hfinite, ?_⟩
  have hbar : exactValue bar = truncated (exactValue 1234.5) := hkeeps hfull
  rw [hbar, htruncated]
  norm_num

/-- The smallest power of ten that is written with an exponent. -/
def largeNumber : Json.Number := .real (Float.ofNat 10000000000000000) rfl

/-- **The exponent is lost.** The bar of `1e16` is not `1e16`: it is the bar of a digit. -/
theorem exponent_is_lost :
    ¬ ∀ (entries : List (String × Json)) (n : Json.Number) (label : String),
      NumericMetric entries n label → ∃ data bar, ChartData.decode (.obj entries) = .ok data ∧
        data.normalize = ⟨[bar], [label]⟩ ∧ Keeps n bar := by
  intro h
  have hmetric : NumericMetric [("label", .str "a"), ("value", .num largeNumber)] largeNumber "a" :=
    { distinct := by decide
      hasValue := rfl
      hasLabel := rfl
      labelled := by decide
      noValues := Or.inl rfl
      readable := fun v hv => nomatch hv }
  have hvalue : exactValue (Float.ofNat 10000000000000000) = 10 ^ (16 : ℤ) := by
    have hfloat : Canonical 5000000000000000 1 :=
      ⟨by decide, by decide, by decide, by decide, Or.inl (by decide)⟩
    rw [hfloat.exactValue_ofNat (by norm_num)]
    norm_num
  have hexponent : ¬ WrittenInFull largeNumber := by
    show ¬ InFull (exactValue (Float.ofNat 10000000000000000))
    rw [hvalue]
    norm_num [InFull, Positional]
  have htruncated : truncated (exactValue (Float.ofNat 10000000000000000)) = 10 ^ 16 := by
    rw [hvalue, truncated, if_pos (by norm_num), Int.floor_eq_iff]
    norm_num
  obtain ⟨data, bar, hdecode, hnormalize, hkeeps⟩ := h _ _ _ hmetric
  obtain ⟨labels, hread⟩ := decode_numericMetric hmetric
  -- there is only one bar, and it is at most nine
  obtain rfl := Except.ok.inj (hread.symm.trans hdecode)
  have hseries := (normalize_numericMetric hmetric.labelled).symm.trans hnormalize
  obtain ⟨hbars, -⟩ := Chart.Series.mk.inj hseries
  have hsmall := ((amount_toText largeNumber).2.2 hexponent).2
  have hlarge : exactValue bar = truncated (exactValue (Float.ofNat 10000000000000000)) := hkeeps
  rw [(List.cons.inj hbars).1, hlarge, htruncated] at hsmall
  norm_num at hsmall

end EmbedUI.Dashboard
