import EmbedUI.Json.Number

/-!
# JSON documents

One tree type serves two purposes. A `Json` is a value: nothing in it can be missing. A document
that is still being read from text is the same tree with *flaws*: a flaw stands where the text stops
being JSON, and nothing follows it. Reading front to back meets the first problem first, whether it
is a flaw of the text or a value of the wrong kind, so decoders work on trees with flaws and values
are the special case in which the type of flaws is empty.

A `Json` that is held as data keeps its keys sorted and distinct (`Json.kept`).
-/

namespace EmbedUI

/-- A JSON document in which flaws of type `ε` may occur. -/
inductive Tree (ε : Type) where
  | null
  | bool (value : Bool)
  | num (value : Json.Number)
  | str (value : String)
  | arr (items : List (Tree ε))
  | obj (entries : List (String × Tree ε))
  | flaw (cause : ε)

/-- A JSON value. -/
abbrev Json := Tree Empty

namespace Json

/-- Why a text is not JSON: it contains what JSON does not allow, or it ends too early. -/
inductive Fault where
  | malformed
  | truncated
deriving DecidableEq, Repr

/-- Where in a document a flaw stands. A flaw at a key or at a separator is kept as the value of an
entry or item of its own, which has no key. -/
inductive Place where
  | value
  | key
  | separator
deriving DecidableEq, Repr

/-- What is wrong at the place where a text stops being JSON. It depends on what the reader wants
there: a value, the name of a variant (which starts with a quote or a brace, so that a broken word
or number is no longer looked at), or just to pass over it. Numbers beyond the floats and strings
with half a surrogate pair can be passed over. -/
structure Flaw where
  place : Place
  reading : Fault
  naming : Fault
  skipping : Option Fault
deriving DecidableEq, Repr

/-- Whether a document can be flawed, how, and whether it is read front to back. A value is held
whole: the number of its items and keys is known before the first of them is looked at. -/
class Source (ε : Type) where
  flaw : ε → Flaw
  frontToBack : Bool

instance : Source Empty := ⟨Empty.elim, false⟩
instance : Source Flaw := ⟨fun e => e, true⟩

/-- A float as a value; what is not finite has no JSON form and becomes `null`. -/
def ofFloat (v : Float) : Json :=
  if h : v.isFinite = true then .num (.real v h) else .null

/-- A count as a value. Counts stay below `2 ^ 64`. -/
def ofCount (n : Nat) : Json := .num (.ofUInt64 n.toUInt64)

def ofStrings (texts : List String) : Json := .arr (texts.map .str)

/-- An entry that is left out when there is no value for it. -/
def optionalEntry (key : String) (value : Option Json) : List (String × Json) :=
  (value.map fun v => (key, v)).toList

/-- Adds an entry to sorted entries, in the place of an earlier one with the same key. -/
def insert (key : String) (value : Json) : List (String × Json) → List (String × Json)
  | [] => [(key, value)]
  | (k, v) :: rest =>
    if key < k then (key, value) :: (k, v) :: rest
    else if key = k then (key, value) :: rest
    else (k, v) :: insert key value rest

mutual

/-- A value as it is held: keys are sorted, and the last of repeated keys stays. -/
def kept : Json → Json
  | .arr items => .arr (keptItems items)
  | .obj entries => .obj (keptEntries [] entries)
  | v => v

def keptItems : List Json → List Json
  | [] => []
  | v :: rest => kept v :: keptItems rest

/-- Adds entries to the sorted ones held before. -/
def keptEntries (held : List (String × Json)) : List (String × Json) → List (String × Json)
  | [] => held
  | (key, v) :: rest => keptEntries (insert key (kept v) held) rest

end

/-- The value of the first entry with a key. -/
def lookup (key : String) : List (String × Json) → Option Json
  | [] => none
  | (k, v) :: rest => if k = key then some v else lookup key rest

/-- The value under a key, if this is an object that has it. -/
def get? (key : String) : Json → Option Json
  | .obj entries => lookup key entries
  | _ => none

def str? : Json → Option String
  | .str s => some s
  | _ => none

/-- The natural number that an exact integer is. -/
def nat? : Json → Option Nat
  | .num (.integer n _) => if 0 ≤ n then some n.toNat else none
  | _ => none

mutual

/-- Equality of values: numbers by kind and value, objects entry by entry. -/
def same : Json → Json → Bool
  | .null, .null => true
  | .bool a, .bool b => a == b
  | .num a, .num b => a.same b
  | .str a, .str b => a == b
  | .arr as, .arr bs => sameItems as bs
  | .obj as, .obj bs => sameEntries as bs
  | _, _ => false

def sameItems : List Json → List Json → Bool
  | [], [] => true
  | a :: as, b :: bs => same a b && sameItems as bs
  | _, _ => false

def sameEntries : List (String × Json) → List (String × Json) → Bool
  | [], [] => true
  | (k, a) :: as, (l, b) :: bs => k == l && same a b && sameEntries as bs
  | _, _ => false

end

end Json

end EmbedUI
