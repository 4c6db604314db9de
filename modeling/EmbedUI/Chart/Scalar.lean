import EmbedUI.Decimal.Shortest

/-!
# Numbers that charts are measured in

Bar heights and slice bounds are computed with a handful of operations. They are collected in a
class, so that one definition runs on machine floats and can be read over exact rationals.
-/

namespace EmbedUI.Chart

class Scalar (α : Type) extends Add α, Sub α, Mul α, Div α, OfScientific α where
  less : α → α → Bool
  isNaN : α → Bool
  isFinite : α → Bool
  /-- The nearest whole number, halves away from zero. -/
  nearestWhole : α → α

/-- The nearest whole float, halves away from zero. A float whose last place is a whole number is
whole already, and so is what is not finite; zero keeps the sign of what is rounded to it. -/
def roundHalfAway (v : Float) : Float :=
  let b := Decimal.Binary.ofFloat v
  if 0 ≤ b.exponent then v
  else
    let places := Nat.pow 2 (-b.exponent).toNat
    let size := ((2 * b.mantissa + places) / (2 * places)).toUInt64.toFloat
    if v.toBits.toNat / Nat.pow 2 63 = 1 then -size else size

instance : Scalar Float where
  less a b := decide (a < b)
  isNaN := Float.isNaN
  isFinite := Float.isFinite
  nearestWhole := roundHalfAway

instance : Scalar Rat where
  less a b := decide (a < b)
  isNaN _ := false
  isFinite _ := true
  nearestWhole a := if a < 0 then -((-a + 1 / 2).floor : Rat) else ((a + 1 / 2).floor : Rat)

variable {α : Type} [Scalar α]

/-- The greatest of some values; what is not a number does not count. -/
def peak? (values : List α) : Option α :=
  (values.filter fun v => !Scalar.isNaN v).foldl
    (fun best v =>
      match best with
      | none => some v
      | some b => if Scalar.less b v then some v else some b)
    none

/-- A value, or zero if it is not positive. -/
def positivePart (v : α) : α := if Scalar.less 0.0 v then v else 0.0

def total (values : List α) : α := values.foldl (· + ·) 0.0

/-- Beyond this magnitude a float has no second decimal to round to. -/
def roundingLimit : α := 1e15

/-- A value rounded to two decimals. -/
def toHundredths (v : α) : α :=
  if Scalar.less roundingLimit v || Scalar.less v (0.0 - roundingLimit) then v
  else Scalar.nearestWhole (v * 100.0) / 100.0

end EmbedUI.Chart
