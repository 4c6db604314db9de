import EmbedUI.Text.Digits

/-!
# Numbers of TOML

Integers are written in base ten, sixteen, eight or two and have sixty-four bits. Reals are kept as
their decimal digits. Digits may be grouped by underscores, each of which stands between two digits.
-/

namespace EmbedUI.Toml

inductive Real where
  /-- The number `digits * 10 ^ exponent`, or its negative. -/
  | finite (negative : Bool) (digits : Nat) (exponent : Int)
  | infinite (negative : Bool)
  | notANumber
deriving DecidableEq, Repr

inductive Number where
  | integer (value : Int)
  | real (value : Real)
deriving DecidableEq, Repr

namespace Number

/-! ### Digits -/

/-- Whether underscores stand only between digits. -/
def grouped (afterDigit : Bool) : List Char → Bool
  | [] => afterDigit
  | c :: rest => if c = '_' then afterDigit && grouped false rest else grouped true rest

/-- The digits at the front of a text, without the underscores between them. -/
def readDigits (isDigit : Char → Bool) (cs : List Char) : Option (List Char × List Char) :=
  let (run, rest) := cs.span fun c => isDigit c || c = '_'
  if grouped false run then some (run.filter (· ≠ '_'), rest) else none

/-! ### Integers -/

/-- An integer, if sixty-four bits hold it. -/
def integer? (n : Int) : Option Number :=
  if -9223372036854775808 ≤ n ∧ n ≤ 9223372036854775807 then some (.integer n) else none

/-- An integer in another base than ten, after its mark. -/
def readBased (base : Nat) (cs : List Char) : Option (Number × List Char) := do
  let (ds, rest) ← readDigits (fun c => (Text.baseValue? base c).isSome) cs
  let n ← Text.numeral? base ds
  return (← integer? n, rest)

/-! ### Reals -/

/-- The least number that lies beyond the floats: everything from half a unit above the largest of
them. -/
def floatLimit : Nat := Nat.pow 2 1024 - Nat.pow 2 970

/-- Whether `digits * 10 ^ exponent` lies beyond the floats. The limit has 309 digits, so only
numbers with as many are compared in full. -/
def beyondFloats (digits : Nat) (exponent : Int) : Bool :=
  let places := ((Nat.toDigits 10 digits).length : Int) + exponent
  if digits = 0 ∨ places < 309 then false
  else if 309 < places then true
  else if 0 ≤ exponent then decide (floatLimit ≤ digits * Nat.pow 10 exponent.toNat)
  else decide (floatLimit * Nat.pow 10 (-exponent).toNat ≤ digits)

/-- A real from its digits. Below the floats lies minus infinity; above them there is nothing. -/
def real? (negative : Bool) (digits : Nat) (exponent : Int) : Option Number :=
  if !beyondFloats digits exponent then some (.real (.finite negative digits exponent))
  else if negative then some (.real (.infinite true))
  else none

/-- The digits after the point, if there is one; at least one digit follows it. -/
def readFraction : List Char → Option (Option (List Char) × List Char)
  | '.' :: rest => (readDigits Char.isDigit rest).map fun (ds, rest) => (some ds, rest)
  | cs => some (none, cs)

/-- The exponent, if there is one; at least one digit belongs to it. -/
def readExponent : List Char → Option (Option Int × List Char)
  | [] => some (none, [])
  | c :: rest =>
    if c = 'e' ∨ c = 'E' then
      let (down, rest) :=
        match rest with
        | '-' :: rest => (true, rest)
        | '+' :: rest => (false, rest)
        | rest => (false, rest)
      (readDigits Char.isDigit rest).map fun (ds, rest) =>
        let n : Int := Text.naturalOf ds
        (some (if down then -n else n), rest)
    else some (none, c :: rest)

/-! ### Both -/

/-- A decimal number, after its sign. A zero is not followed by further digits. -/
def readDecimal (negative : Bool) (cs : List Char) : Option (Number × List Char) := do
  let (whole, rest) ← readDigits Char.isDigit cs
  if whole.head? = some '0' ∧ 1 < whole.length then none
  else
    let (fraction, rest) ← readFraction rest
    let (exponent, rest) ← readExponent rest
    if fraction.isNone && exponent.isNone then
      let n : Int := Text.naturalOf whole
      return (← integer? (if negative then -n else n), rest)
    else
      let places := fraction.getD []
      let digits := Text.naturalOf (whole ++ places)
      return (← real? negative digits (exponent.getD 0 - places.length), rest)

/-- A number, after its sign. -/
def readUnsigned (negative : Bool) : List Char → Option (Number × List Char)
  | 'i' :: 'n' :: 'f' :: rest => some (.real (.infinite negative), rest)
  | 'n' :: 'a' :: 'n' :: rest => some (.real .notANumber, rest)
  | cs => readDecimal negative cs

/-- The number at the front of a text. -/
def read : List Char → Option (Number × List Char)
  | '0' :: 'x' :: rest => readBased 16 rest
  | '0' :: 'o' :: rest => readBased 8 rest
  | '0' :: 'b' :: rest => readBased 2 rest
  | '+' :: rest => readUnsigned false rest
  | '-' :: rest => readUnsigned true rest
  | cs => readUnsigned false cs

end Number

end EmbedUI.Toml
