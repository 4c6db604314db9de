import EmbedUI.Decimal.Shortest

/-!
# How numbers are laid out

The digits of a number come from `Decimal.shortest`; where the point stands, when an exponent is
written and what an integral value looks like is one `Layout` for each place that prints numbers.
-/

namespace EmbedUI.Decimal

/-- The written form of floats in one place of the output. -/
structure Layout where
  /-- Which of two equally short and equally near decimals is written. -/
  tie : Tie
  /-- The exponents of the leading digit at which a value is written without an exponent. -/
  positional : Int → Bool
  /-- Whether an integral value in positional form ends in `.0`. -/
  integralPoint : Bool
  /-- Whether a positive exponent carries a plus sign. -/
  exponentPlus : Bool

/-- Numbers inside markup: never an exponent, no point after an integral value. -/
def markupLayout : Layout :=
  { tie := .up, positional := fun _ => true, integralPoint := false, exponentPlus := false }

/-- Numbers in JSON text: an exponent from `10 ^ 16` upwards and below `10 ^ -5`, with a sign. -/
def jsonLayout : Layout :=
  { tie := .even, positional := fun e => decide (-5 ≤ e) && decide (e < 16), integralPoint := true,
    exponentPlus := true }

/-- The decimal digits of a natural number. -/
def digits (n : Nat) : List Char := Nat.toDigits 10 n

/-- An integer in decimal, with a minus sign when it is negative. -/
def integerText (n : Int) : String :=
  String.ofList ((if n < 0 then ['-'] else []) ++ digits n.natAbs)

/-- Digits with the point where the exponent puts it. -/
def Layout.positionalForm (l : Layout) (ds : List Char) (exponent : Int) : List Char :=
  if 0 ≤ exponent then
    ds ++ List.replicate exponent.toNat '0' ++ (if l.integralPoint then ['.', '0'] else [])
  else
    let places := (-exponent).toNat
    if places < ds.length then
      ds.take (ds.length - places) ++ '.' :: ds.drop (ds.length - places)
    else '0' :: '.' :: List.replicate (places - ds.length) '0' ++ ds

/-- One digit, the others behind a point, and the exponent of the leading digit. -/
def Layout.exponentForm (l : Layout) (ds : List Char) (leading : Int) : List Char :=
  let fraction := ds.drop 1
  ds.take 1 ++ (if fraction.isEmpty then [] else '.' :: fraction) ++ 'e' ::
    ((if 0 ≤ leading && l.exponentPlus then ['+'] else []) ++ (integerText leading).toList)

/-- The magnitude of a decimal. -/
def Layout.magnitude (l : Layout) (d : Scientific) : List Char :=
  let ds := digits d.coefficient
  let leading := d.exponent + ds.length - 1
  if l.positional leading then l.positionalForm ds d.exponent else l.exponentForm ds leading

/-- The text of a float. The sign of zero is kept; what is not a number has no sign. -/
def Layout.render (l : Layout) (v : Float) : String :=
  if v.isNaN then "NaN"
  else
    let sign := if v.toBits.toNat / Nat.pow 2 63 = 1 then ['-'] else []
    let size :=
      if v.isInf then ['i', 'n', 'f']
      else if v == 0 then l.positionalForm ['0'] 0
      else l.magnitude (shortest l.tie v)
    String.ofList (sign ++ size)

end EmbedUI.Decimal
