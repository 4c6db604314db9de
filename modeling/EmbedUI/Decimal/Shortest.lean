/-!
# Shortest decimal of a float

A finite positive float is `m · 2 ^ q` with natural `m`. Every real number between the midpoints to
its two neighbours rounds to it (the midpoints themselves exactly when `m` is even). The shortest
decimal is the point of the coarsest power-of-ten grid that lies in this interval; of two such
points of one grid it is the nearer one. All arithmetic is exact, on natural numbers: the interval
and the grid are scaled by common powers of two and ten until both are whole.
-/

namespace EmbedUI.Decimal

/-- A finite positive float as `mantissa · 2 ^ exponent`, and whether its lower neighbour is only
half as far away as its upper one (at a power of two above the subnormal range). -/
structure Binary where
  mantissa : Nat
  exponent : Int
  narrowBelow : Bool

/-- The magnitude `coefficient · 10 ^ exponent`. -/
structure Scientific where
  coefficient : Nat
  exponent : Int
deriving DecidableEq, Repr

/-- The fields of the interchange format: eleven exponent bits above fifty-two fraction bits. The
sign bit is ignored; the value is meant for finite floats other than zero. -/
def Binary.ofFloat (v : Float) : Binary :=
  let bits : Nat := v.toBits.toNat
  let fraction : Nat := bits % Nat.pow 2 52
  let biased : Nat := bits / Nat.pow 2 52 % Nat.pow 2 11
  if biased = 0 then ⟨fraction, -1074, false⟩
  else
    ⟨Nat.pow 2 52 + fraction, (biased : Int) - 1075, decide (fraction = 0) && decide (1 < biased)⟩

/-- Which of two equally near points is taken. -/
inductive Tie where
  | up
  | even
deriving DecidableEq, Repr

/-- The interval of a float measured in units that make its ends, its middle and one step of a
power-of-ten grid whole numbers. -/
structure Measured where
  low : Nat
  middle : Nat
  high : Nat
  step : Nat
  closed : Bool

/-- Measures the interval against the grid of step `10 ^ k`. A quarter of the float's last place is
the finest length that occurs. -/
def Binary.measured (b : Binary) (k : Int) : Measured :=
  let q := b.exponent - 2
  let unit := Nat.pow 2 q.toNat * Nat.pow 10 (-k).toNat
  { low := (4 * b.mantissa - (if b.narrowBelow then 1 else 2)) * unit
    middle := 4 * b.mantissa * unit
    high := (4 * b.mantissa + 2) * unit
    step := Nat.pow 2 (-q).toNat * Nat.pow 10 k.toNat
    closed := b.mantissa % 2 = 0 }

/-- Whether the `n`-th point of the grid lies in the interval. -/
def Measured.contains (i : Measured) (n : Nat) : Bool :=
  if i.closed then decide (i.low ≤ n * i.step) && decide (n * i.step ≤ i.high)
  else decide (i.low < n * i.step) && decide (n * i.step < i.high)

/-- The point of the grid that stands for the float, if one lies in the interval: only the two
points on either side of the middle need to be tried. -/
def Measured.point? (i : Measured) (tie : Tie) : Option Nat :=
  let below := i.middle / i.step
  let above := below + 1
  match i.contains below, i.contains above with
  | false, false => none
  | true, false => some below
  | false, true => some above
  | true, true =>
    let twice := 2 * i.middle
    let halfway := (below + above) * i.step
    if twice < halfway then some below
    else if halfway < twice then some above
    else if tie = .even && below % 2 = 0 then some below
    else some above

/-- The exponent of the leading decimal digit: `10 ^ e ≤ value < 10 ^ (e + 1)`. The value is first
multiplied by `10 ^ 340`, which leaves at least one digit before the point for every float. -/
def Binary.leadingExponent (b : Binary) : Int :=
  let scaled :=
    b.mantissa * Nat.pow 2 b.exponent.toNat * Nat.pow 10 340 / Nat.pow 2 (-b.exponent).toNat
  ((Nat.toDigits 10 scaled).length : Int) - 341

/-- Removes zeros from the end of a coefficient; `fuel` bounds how many. -/
def Scientific.stripZeros (fuel : Nat) (d : Scientific) : Scientific :=
  match fuel with
  | 0 => d
  | fuel + 1 =>
    if d.coefficient ≠ 0 ∧ d.coefficient % 10 = 0 then
      stripZeros fuel ⟨d.coefficient / 10, d.exponent + 1⟩
    else d

/-- Tries grids from `10 ^ k` downwards. Seventeen digits always suffice for a float, so the search
for `digits` grids does not run out. -/
def Binary.search (b : Binary) (tie : Tie) (digits : Nat) (k : Int) : Scientific :=
  match digits with
  | 0 => ⟨(b.measured k).middle / (b.measured k).step, k⟩
  | digits + 1 =>
    match (b.measured k).point? tie with
    | some n => ⟨n, k⟩
    | none => search b tie digits (k - 1)

/-- The shortest decimal of a finite positive float, without trailing zeros in its coefficient. -/
def shortest (tie : Tie) (v : Float) : Scientific :=
  let b := Binary.ofFloat v
  (b.search tie 18 b.leadingExponent).stripZeros 18

end EmbedUI.Decimal
