import EmbedUI.Toml.Value

/-!
# Tables under construction

A table is written down in several places: under its own header, by headers of tables within it,
and by dotted keys. How it came about decides what may still be added to it, so until the text ends
every table remembers that. No key is written twice, and nothing that was written as a value is
extended.
-/

namespace EmbedUI.Toml

/-- How a table came about. -/
inductive Origin where
  /-- It has a header of its own. -/
  | header
  /-- The header of a table within it was written. -/
  | implied
  /-- A dotted key leads through it. -/
  | dotted
deriving DecidableEq, Repr

inductive Draft where
  | value (value : Value)
  | table (origin : Origin) (entries : List (String × Draft))
  /-- Tables that share a repeated header. -/
  | tables (items : List (List (String × Draft)))

namespace Draft

/-- The entries of a table under construction. -/
abbrev Entries := List (String × Draft)

/-- Puts a draft under a key: in the place of what is there, or at the end. -/
def put (key : String) (d : Draft) : Entries → Entries
  | [] => [(key, d)]
  | (k, e) :: rest => if k = key then (k, d) :: rest else (k, e) :: put key d rest

/-- Changes what stands at the end of a path. Tables that are missing on the way come about as `via`
says. Of tables that share a header, the last one is meant. A dotted key leads through no table that
has a header of its own, and it ends in a table that came about by dotted keys; `closed` tells that
this one did not. -/
def alter (via : Origin) (closed : Bool) (change : Option Draft → Option Draft)
    (entries : Entries) : List String → Option Entries
  | [] => none
  | [key] =>
    if closed then none
    else (change (entries.lookup key)).map fun d => put key d entries
  | key :: path =>
    match entries.lookup key with
    | none => (alter via false change [] path).map fun es => put key (.table via es) entries
    | some (.value _) => none
    | some (.table origin es) =>
      if via = .dotted ∧ origin = .header then none
      else
        (alter via (via = .dotted && origin ≠ .dotted) change es path).map fun es =>
          put key (.table origin es) entries
    | some (.tables items) =>
      (alter via (via = .dotted) change (items.getLast?.getD []) path).map fun es =>
        put key (.tables (items.dropLast ++ [es])) entries

/-- Writes a value under a dotted key that is still free. -/
def assign (entries : Entries) (entry : List String × Value) : Option Entries :=
  alter .dotted false
    (fun
      | none => some (.value entry.2)
      | some _ => none)
    entries entry.1

/-- Writes values one after the other. -/
def fill (entries : Entries) (body : List (List String × Value)) : Option Entries :=
  body.foldlM assign entries

mutual

/-- The value that a draft has become. -/
def finish : Draft → Value
  | .value v => v
  | .table _ entries => .table (finishEntries entries)
  | .tables items => .list (finishItems items)

def finishEntries : List (String × Draft) → Table
  | [] => []
  | (k, d) :: rest => (k, finish d) :: finishEntries rest

def finishItems : List (List (String × Draft)) → List Value
  | [] => []
  | es :: rest => .table (finishEntries es) :: finishItems rest

end

/-- The table that consists of given entries and nothing else. -/
def table? (body : List (List String × Value)) : Option Table := (fill [] body).map finishEntries

end Draft

end EmbedUI.Toml
