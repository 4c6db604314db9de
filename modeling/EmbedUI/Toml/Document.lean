import EmbedUI.Toml.Line

/-!
# TOML texts

A text is one table. The entries before the first header belong to it directly; those behind a
header belong to the table that the header names.
-/

namespace EmbedUI.Toml

/-- A header and the entries behind it. -/
structure Section where
  path : List String
  /-- Whether several tables share the header. -/
  shared : Bool
  body : List (List String × Value)

namespace Section

/-- The entries before the first header, and the sections. -/
def split : List Line → List (List String × Value) × List Section
  | [] => ([], [])
  | .entry path v :: rest => let (body, ss) := split rest; ((path, v) :: body, ss)
  | .table path :: rest => let (body, ss) := split rest; ([], ⟨path, false, body⟩ :: ss)
  | .item path :: rest => let (body, ss) := split rest; ([], ⟨path, true, body⟩ :: ss)

/-- What stands under the header once the section is written. A table that headers within it have
brought about may get its own header afterwards; nothing else may be there already, unless the
header is shared. -/
def write (s : Section) (old : Option Draft) : Option Draft :=
  if s.shared then
    match old with
    | none => (Draft.fill [] s.body).map fun es => .tables [es]
    | some (.tables items) => (Draft.fill [] s.body).map fun es => .tables (items ++ [es])
    | some _ => none
  else
    match old with
    | none => (Draft.fill [] s.body).map (.table .header)
    | some (.table .implied es) => (Draft.fill es s.body).map (.table .header)
    | some _ => none

/-- Writes a section into the table of the text. -/
def place (root : Draft.Entries) (s : Section) : Option Draft.Entries :=
  Draft.alter .implied false s.write root s.path

end Section

/-- The table that lines denote. -/
def Table.ofLines? (lines : List Line) : Option Table := do
  let (body, ss) := Section.split lines
  let root ← ss.foldlM Section.place (← Draft.fill [] body)
  return Draft.finishEntries root

/-- The table that a text denotes. A byte order mark at its start does not count. -/
def Table.ofText? (text : String) : Option Table :=
  let cs :=
    match text.toList with
    | '\ufeff' :: rest => rest
    | cs => cs
  (Line.readAll (cs.length + 1) cs).bind Table.ofLines?

end EmbedUI.Toml
