import EmbedUI.Json.Decode

/-!
# Records

A record is an object with known keys, or an array of the same fields in their declared order.
A `Record` describes how one is read: it is built from single fields with `<$>` and `<*>`, and the
order in which the fields are written down is the declared order.

Entries are offered one by one as they stand in the document, so the first problem in the document
is the one reported; fields that never turned up are reported afterwards, in declared order.
-/

namespace EmbedUI.Json

/-- How a record of type `α` is read. `Slots` holds the fields that have turned up so far. -/
structure Record (ε α : Type) where
  Slots : Type
  empty : Slots
  /-- The number of fields. -/
  size : Nat
  /-- Takes an entry, or leaves it to others when its key is none of this record's. -/
  offer : Slots → String → Tree ε → Option (Except DecodeError Slots)
  /-- The record, once every entry has been offered. -/
  finish : Slots → Except DecodeError α
  /-- Takes the fields from the front of an array; the error is `none` when it is too short. -/
  take : List (Tree ε) → Except (Option DecodeError) (α × List (Tree ε))

namespace Record
section
variable {ε α β : Type}

/-- A single field, under its name or an alias. `absent` is its value when it is left out, if that
is allowed. -/
def field (name : String) (aliases : List String) (absent : Option α) (decode : Decoder ε α) :
    Record ε α where
  Slots := Option α
  empty := none
  size := 1
  offer slot key t :=
    if key = name ∨ key ∈ aliases then
      some (match slot with
        | some _ => .error (.duplicateField name)
        | none => (decode t).map some)
    else none
  finish slot :=
    match slot.or absent with
    | some v => .ok v
    | none => .error (.missingField name)
  take
    | [] =>
      match absent with
      | some v => .ok (v, [])
      | none => .error none
    | t :: rest =>
      match decode t with
      | .ok v => .ok (v, rest)
      | .error e => .error (some e)

/-- A field that must be there. -/
def required (name : String) (decode : Decoder ε α) : Record ε α := field name [] none decode

/-- A field with a default. -/
def defaulted (name : String) (absent : α) (decode : Decoder ε α) : Record ε α :=
  field name [] (some absent) decode

/-- A field that may be left out or be `null`. -/
def optional (name : String) (decode : Decoder ε α) : Record ε (Option α) :=
  defaulted name none (Json.optional decode)

def map (f : α → β) (r : Record ε α) : Record ε β where
  Slots := r.Slots
  empty := r.empty
  size := r.size
  offer := r.offer
  finish slots := (r.finish slots).map f
  take items := (r.take items).map fun (v, rest) => (f v, rest)

/-- Two groups of fields, the first declared before the second. -/
def both (r : Record ε α) (s : Record ε β) : Record ε (α × β) where
  Slots := r.Slots × s.Slots
  empty := (r.empty, s.empty)
  size := r.size + s.size
  offer slots key t :=
    match r.offer slots.1 key t with
    | some taken => some (taken.map fun left => (left, slots.2))
    | none => (s.offer slots.2 key t).map fun taken => taken.map fun right => (slots.1, right)
  finish slots := do
    let a ← r.finish slots.1
    let b ← s.finish slots.2
    return (a, b)
  take items := do
    let (a, rest) ← r.take items
    let (b, rest) ← s.take rest
    return ((a, b), rest)

instance : Functor (Record ε) where
  map := map

instance : Seq (Record ε) where
  seq f r := map (fun (g, v) => g v) (both f (r ()))

end

section
variable {ε α : Type} [Source ε]

/-- Offers the entries of an object in their order. Entries under other keys are passed over. -/
def fill (r : Record ε α) (slots : r.Slots) :
    List (String × Tree ε) → Except DecodeError r.Slots
  | [] => .ok slots
  | (key, t) :: rest => do
    if let some fault := keyFault? t then throw (.broken fault)
    match r.offer slots key t with
    | some taken => fill r (← taken) rest
    | none => do
      skip t
      fill r slots rest

/-- Reads the entries of an object. -/
def ofEntries (r : Record ε α) (entries : List (String × Tree ε)) : Except DecodeError α := do
  r.finish (← r.fill r.empty entries)

/-- Reads the items of an array. `wanted` names the record in the error for a short one. -/
def ofItems (r : Record ε α) (wanted : String) (items : List (Tree ε)) : Except DecodeError α :=
  match r.take items with
  | .error none => .error (.tooFewItems items.length wanted)
  | .error (some e) => .error e
  | .ok (v, []) => .ok v
  | .ok (_, t :: _) => .error (notClosed t (.tooManyItems items.length))

/-- Reads a record of a given name. -/
def decode (r : Record ε α) (name : String) : Decoder ε α
  | .obj entries => r.ofEntries entries
  | .arr items =>
    let elements := if r.size = 1 then " element" else " elements"
    r.ofItems ("struct " ++ name ++ " with " ++ Decimal.integerText r.size ++ elements) items
  | t => .error (mismatch ("struct " ++ name) t)

end
end Record

end EmbedUI.Json
