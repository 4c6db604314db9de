/-!
# Digits

The numbers that runs of digits denote, the first digit being the most significant one.
-/

namespace EmbedUI.Text

/-- The value of a decimal digit. -/
def digitValue (c : Char) : Nat := c.toNat - '0'.toNat

/-- The number that decimal digits denote. -/
def naturalOf (ds : List Char) : Nat := ds.foldl (fun n c => n * 10 + digitValue c) 0

/-- The value of a hexadecimal digit of either case. -/
def hexValue? (c : Char) : Option Nat :=
  if '0' ≤ c ∧ c ≤ '9' then some (c.toNat - '0'.toNat)
  else if 'a' ≤ c ∧ c ≤ 'f' then some (c.toNat - 'a'.toNat + 10)
  else if 'A' ≤ c ∧ c ≤ 'F' then some (c.toNat - 'A'.toNat + 10)
  else none

/-- The value of a digit in a base of at most sixteen. -/
def baseValue? (base : Nat) (c : Char) : Option Nat :=
  (hexValue? c).bind fun d => if d < base then some d else none

/-- The number that digits denote in a base; nothing if one of them is no digit of that base. -/
def numeral? (base : Nat) (ds : List Char) : Option Nat :=
  ds.foldlM (fun n c => (baseValue? base c).map fun d => n * base + d) 0

end EmbedUI.Text
