import EmbedUI.Decimal.Layout
import EmbedUI.Text.Digits

/-!
# JSON numbers

A number is either an exact integer of at most sixty-four bits or a finite float. Which of the two
a literal becomes is part of its meaning: `3` may fill an integer field and `3.0` may not, and the
two are written back differently.
-/

namespace EmbedUI.Json

/-- The integers that are kept exactly: sixty-four bits, signed below zero and unsigned above. -/
def IsExact (n : Int) : Prop := -9223372036854775808 ≤ n ∧ n < 18446744073709551616

instance (n : Int) : Decidable (IsExact n) := by unfold IsExact; infer_instance

inductive Number where
  | integer (value : Int) (exact : IsExact value)
  | real (value : Float) (finite : value.isFinite = true)

namespace Number

def ofUInt64 (n : UInt64) : Number :=
  .integer n.toNat (by
    have h := n.toNat_lt
    unfold IsExact
    omega)

def ofUInt32 (n : UInt32) : Number :=
  .integer n.toNat (by
    have h := n.toNat_lt
    unfold IsExact
    omega)

/-- The float nearest to a number. -/
def toFloat : Number → Float
  | .integer n _ => Float.ofInt n
  | .real v _ => v

/-- The text of a number: integers in full, floats with the fewest digits that read back. -/
def toText : Number → String
  | .integer n _ => Decimal.integerText n
  | .real v _ => Decimal.jsonLayout.render v

/-- Equality of values of one kind; an integer never equals a float. -/
def same : Number → Number → Bool
  | .integer m _, .integer n _ => m == n
  | .real u _, .real v _ => u == v
  | _, _ => false

/-! ### Literals

A literal is given by its sign, the digits before the point, the digits after it and the exponent.
At most sixty-four bits of its digits are significant: once one more digit would not fit, the
remaining digits of that part only move the point. The significand is then scaled by one power of
ten in float arithmetic. -/

/-- Extends a significand by digits as long as it fits sixty-four bits, and counts the digits that
were taken. -/
def takeDigits (significand : Nat) : List Char → Nat × Nat
  | [] => (significand, 0)
  | c :: cs =>
    let next := significand * 10 + Text.digitValue c
    if next < UInt64.size then
      let (s, taken) := takeDigits next cs
      (s, taken + 1)
    else (significand, 0)

/-- `10 ^ n` as a float. -/
def powerOfTen (n : Nat) : Float := Float.ofScientific 1 false n

/-- Scales by `10 ^ e`; nothing when the result is beyond the floats. Powers beyond `10 ^ 308` are
not floats, so a division by a larger one is done in steps. -/
def scale (v : Float) (e : Int) : Option Float :=
  if 308 < e then (if v == 0 then some v else none)
  else if 0 ≤ e then
    let scaled := v * powerOfTen e.toNat
    if scaled.isInf then none else some scaled
  else if -308 ≤ e then some (v / powerOfTen (-e).toNat)
  else if v == 0 then some v
  else scale (v / powerOfTen 308) (e + 308)
termination_by (-e).toNat

/-- The digits of a literal. -/
structure Literal where
  negative : Bool
  whole : List Char
  fraction : Option (List Char)
  exponent : Option (Bool × List Char)

/-- A literal with a point, with an exponent or with too many digits is a float. Nothing when it is
beyond the floats; an exponent that itself is out of all proportion makes a zero or nothing. -/
def Literal.float? (l : Literal) : Option Float :=
  let (s, taken) := takeDigits 0 l.whole
  let (s, places) := takeDigits s (l.fraction.getD [])
  let shift : Int := ((l.whole.length - taken : Nat) : Int) - (places : Int)
  let size :=
    match l.exponent with
    | none => scale (Float.ofNat s) shift
    | some (down, ds) =>
      let e := Text.naturalOf ds
      if e < 2147483648 then scale (Float.ofNat s) (if down then shift - e else shift + e)
      else if s = 0 || down then some 0
      else none
  size.map fun v => if l.negative then -v else v

/-- The number that a literal denotes. Minus zero is a float, because no integer is. -/
def Literal.number? (l : Literal) : Option Number :=
  let n := Text.naturalOf l.whole
  let value : Int := if l.negative then -(n : Int) else n
  if h : IsExact value ∧ l.fraction.isNone ∧ l.exponent.isNone ∧ ¬ (l.negative ∧ n = 0) then
    some (.integer value h.1)
  else
    l.float?.bind fun v => if h : v.isFinite = true then some (.real v h) else none

end Number

end EmbedUI.Json
