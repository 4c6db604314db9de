import EmbedUI.Json.DecodeError
import EmbedUI.Json.Reader

/-!
# Decoders

A decoder reads a tree front to back and stops at the first problem. It serves values and texts
alike: for a value the type of flaws is empty, and the cases that mention a flaw do not arise.
-/

namespace EmbedUI.Json

/-- Reads a document as an `α`. -/
abbrev Decoder (ε α : Type) := Tree ε → Except DecodeError α

section
variable {ε : Type} [Source ε]

/-- The error of a decoder that wanted something else than what stands here. -/
def mismatch (wanted : String) : Tree ε → DecodeError
  | .null => .wrongType .null wanted
  | .bool b => .wrongType (.boolean b) wanted
  | .num n => .wrongType (.number n) wanted
  | .str s => .wrongType (.string s) wanted
  | .arr _ => .wrongType .sequence wanted
  | .obj _ => .wrongType .map wanted
  | .flaw e => .broken (Source.flaw e).reading

/-- Passes over a value. -/
def skip (t : Tree ε) : Except DecodeError Unit :=
  match skipFault? t with
  | none => .ok ()
  | some fault => .error (.broken fault)

/-- The fault of an entry that stands for a flaw at a key or separator, not for a key. -/
def keyFault? : Tree ε → Option Fault
  | .flaw e => if (Source.flaw e).place = .value then none else some (Source.flaw e).reading
  | _ => none

/-- The error when a closing bracket is due and something else comes. -/
def notClosed (t : Tree ε) (otherwise : DecodeError) : DecodeError :=
  match t with
  | .flaw e =>
    if (Source.flaw e).place = .separator then .broken (Source.flaw e).reading
    else .broken .malformed
  | _ => otherwise

/-! ### Plain values -/

def string : Decoder ε String
  | .str s => .ok s
  | t => .error (mismatch "a string" t)

def boolean : Decoder ε Bool
  | .bool b => .ok b
  | t => .error (mismatch "a boolean" t)

/-- A float; an integer is taken as the nearest one. -/
def float : Decoder ε Float
  | .num n => .ok n.toFloat
  | t => .error (mismatch "f64" t)

/-- An integer between zero and a limit; a float is not taken for one, even if it is whole. -/
def natural (limit : Nat) (wanted : String) : Decoder ε Nat
  | .num (.integer n _) =>
    if 0 ≤ n ∧ n < limit then .ok n.toNat else .error (.outOfRange n wanted)
  | t => .error (mismatch wanted t)

def uint32 : Decoder ε UInt32 := fun t => (natural UInt32.size "u32" t).map Nat.toUInt32

def uint64 : Decoder ε UInt64 := fun t => (natural UInt64.size "u64" t).map Nat.toUInt64

def listItems {α : Type} (decode : Decoder ε α) : List (Tree ε) → Except DecodeError (List α)
  | [] => .ok []
  | t :: rest => do
    let v ← decode t
    let vs ← listItems decode rest
    return v :: vs

def list {α : Type} (decode : Decoder ε α) : Decoder ε (List α)
  | .arr items => listItems decode items
  | t => .error (mismatch "a sequence" t)

/-- A value that may be `null`. -/
def optional {α : Type} (decode : Decoder ε α) : Decoder ε (Option α)
  | .null => .ok none
  | t => (decode t).map some

def unit : Decoder ε Unit
  | .null => .ok ()
  | t => .error (mismatch "unit" t)

/-! ### Values kept as they are -/

mutual

/-- A value set aside as it stands, repeated keys included. -/
def hold : Tree ε → Except DecodeError Json
  | .null => .ok .null
  | .bool b => .ok (.bool b)
  | .num n => .ok (.num n)
  | .str s => .ok (.str s)
  | .arr items => do return .arr (← holdItems items)
  | .obj entries => do return .obj (← holdEntries entries)
  | .flaw e => .error (.broken (Source.flaw e).reading)

def holdItems : List (Tree ε) → Except DecodeError (List Json)
  | [] => .ok []
  | t :: rest => do
    let v ← hold t
    let vs ← holdItems rest
    return v :: vs

def holdEntries : List (String × Tree ε) → Except DecodeError (List (String × Json))
  | [] => .ok []
  | (key, t) :: rest => do
    let v ← hold t
    let es ← holdEntries rest
    return (key, v) :: es

end

mutual

/-- A value kept as data: keys are sorted, and the last of repeated keys stays. -/
def anyValue : Tree ε → Except DecodeError Json
  | .null => .ok .null
  | .bool b => .ok (.bool b)
  | .num n => .ok (.num n)
  | .str s => .ok (.str s)
  | .arr items => do return .arr (← anyItems items)
  | .obj entries => do return .obj (← anyEntries [] entries)
  | .flaw e => .error (.broken (Source.flaw e).reading)

def anyItems : List (Tree ε) → Except DecodeError (List Json)
  | [] => .ok []
  | t :: rest => do
    let v ← anyValue t
    let vs ← anyItems rest
    return v :: vs

/-- Adds entries to the sorted ones read before. -/
def anyEntries (held : List (String × Json)) :
    List (String × Tree ε) → Except DecodeError (List (String × Json))
  | [] => .ok held
  | (key, t) :: rest => do
    let v ← anyValue t
    anyEntries (insert key v held) rest

end

/-- An object kept as data. -/
def anyObject : Decoder ε (List (String × Json))
  | .obj entries => anyEntries [] entries
  | t => .error (mismatch "a map" t)

/-! ### Variants -/

/-- The value that a name stands for. -/
def variant {α : Type} (known : List (String × α)) (name : String) : Except DecodeError α :=
  match known.find? fun (n, _) => n = name with
  | some (_, v) => .ok v
  | none => .error (.unknownVariant name (known.map Prod.fst))

/-- One of a fixed set of names, given as a string or as an object with the name as its only key
and `null` under it. The keys of a value are counted first, those of a text as they come. -/
def oneOf {α : Type} (known : List (String × α)) : Decoder ε α
  | .str s => variant known s
  | .obj entries =>
    match entries with
    | [] => .error .notOneKey
    | (key, t) :: rest => do
      if !Source.frontToBack ε && !rest.isEmpty then throw .notOneKey
      if let some fault := keyFault? t then throw (.broken fault)
      let v ← variant known key
      unit t
      match rest with
      | [] => return v
      | (_, t) :: _ => throw (notClosed t .notOneKey)
  | .flaw e => .error (.broken (Source.flaw e).naming)
  | .null => .error (.notAName .null)
  | .bool b => .error (.notAName (.boolean b))
  | .num n => .error (.notAName (.number n))
  | .arr _ => .error (.notAName .sequence)

end

/-! ### Whole texts -/

/-- Reads a text with a decoder; nothing but blanks may follow the value. -/
def decodeText {α : Type} (decode : Decoder Flaw α) (text : String) : Except DecodeError α := do
  let document := Document.ofText text
  let v ← decode document.root
  if document.trailing then throw (.broken .malformed)
  return v

/-- Reads a text as a value. -/
def ofText (text : String) : Except DecodeError Json := decodeText anyValue text

end EmbedUI.Json
