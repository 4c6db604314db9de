import EmbedUI.Text.Digits

/-!
# Dates and times of TOML

A date, a time of day, or both; together they may tell how far the time is from universal time.
-/

namespace EmbedUI.Toml

structure Date where
  year : Nat
  month : Nat
  day : Nat
deriving DecidableEq, Repr

structure Time where
  hour : Nat
  minute : Nat
  second : Nat
  nanos : Nat
deriving DecidableEq, Repr

inductive Moment where
  | date (date : Date)
  | time (time : Time)
  /-- The offset is in minutes, ahead of universal time. -/
  | both (date : Date) (time : Time) (offset : Option Int)
deriving DecidableEq, Repr

namespace Moment

/-- Two digits within bounds. -/
def readTwo (first last : Nat) : List Char → Option (Nat × List Char)
  | c :: d :: rest =>
    let n := Text.naturalOf [c, d]
    if c.isDigit ∧ d.isDigit ∧ first ≤ n ∧ n ≤ last then some (n, rest) else none
  | _ => none

/-- A character that must stand here. -/
def readChar (wanted : Char) : List Char → Option (List Char)
  | c :: rest => if c = wanted then some rest else none
  | [] => none

/-- Four digits and a hyphen can only begin a date. -/
def beginsDate : List Char → Bool
  | a :: b :: c :: d :: '-' :: _ => [a, b, c, d].all Char.isDigit
  | _ => false

/-- Two digits and a colon can only begin a time. -/
def beginsTime : List Char → Bool
  | a :: b :: ':' :: _ => a.isDigit && b.isDigit
  | _ => false

def isLeap (year : Nat) : Bool := year % 4 = 0 && (year % 100 ≠ 0 || year % 400 = 0)

def daysIn (year month : Nat) : Nat :=
  if month = 2 then (if isLeap year then 29 else 28)
  else if month ∈ [4, 6, 9, 11] then 30
  else 31

def readDate (cs : List Char) : Option (Date × List Char) := do
  let year := Text.naturalOf (cs.take 4)
  let rest ← readChar '-' (cs.drop 4)
  let (month, rest) ← readTwo 1 12 rest
  let rest ← readChar '-' rest
  let (day, rest) ← readTwo 1 (daysIn year month) rest
  return (⟨year, month, day⟩, rest)

/-- The nanoseconds that the digits after a point denote; what is finer is cut off. -/
def nanosOf (ds : List Char) : Nat := Text.naturalOf ((ds ++ List.replicate 9 '0').take 9)

/-- A time of day. A minute may have a leap second. -/
def readTime (cs : List Char) : Option (Time × List Char) := do
  let (hour, rest) ← readTwo 0 23 cs
  let rest ← readChar ':' rest
  let (minute, rest) ← readTwo 0 59 rest
  let rest ← readChar ':' rest
  let (second, rest) ← readTwo 0 60 rest
  match rest with
  | '.' :: fraction =>
    let (ds, after) := fraction.span Char.isDigit
    return (⟨hour, minute, second, nanosOf ds⟩, if ds.isEmpty then rest else after)
  | rest => return (⟨hour, minute, second, 0⟩, rest)

def readOffset : List Char → Option (Option Int × List Char)
  | [] => some (none, [])
  | c :: rest =>
    if c = 'Z' ∨ c = 'z' then some (some 0, rest)
    else if c = '+' ∨ c = '-' then do
      let (hours, rest) ← readTwo 0 23 rest
      let rest ← readChar ':' rest
      let (minutes, rest) ← readTwo 0 59 rest
      let ahead : Int := 60 * hours + minutes
      return (some (if c = '-' then -ahead else ahead), rest)
    else some (none, c :: rest)

/-- The date, and the time if one follows after a `T` or a blank. -/
def readDated (cs : List Char) : Option (Moment × List Char) := do
  let (d, rest) ← readDate cs
  match rest with
  | c :: after =>
    if (c = 'T' || c = 't' || c = ' ') && beginsTime after then
      let (t, rest) ← readTime after
      let (offset, rest) ← readOffset rest
      return (.both d t offset, rest)
    else return (.date d, rest)
  | [] => return (.date d, [])

/-- Whether a date or a time begins here. -/
def begins (cs : List Char) : Bool := beginsDate cs || beginsTime cs

/-- The date or time at the front of a text. -/
def read (cs : List Char) : Option (Moment × List Char) :=
  if beginsDate cs then readDated cs
  else (readTime cs).map fun (t, rest) => (.time t, rest)

end Moment

end EmbedUI.Toml
