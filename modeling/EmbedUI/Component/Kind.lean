import EmbedUI.Json.Record

/-!
# Kinds of components

Everything the library produces is a component of one of four kinds. A kind is known by its name in
ids, addresses and records and on the command line, and by its tag in wire values.
-/

namespace EmbedUI

inductive ComponentKind where
  | form
  | dashboard
  | chart
  | custom
deriving DecidableEq, Repr

namespace ComponentKind

def all : List ComponentKind := [form, dashboard, chart, custom]

def name : ComponentKind → String
  | form => "form"
  | dashboard => "dashboard"
  | chart => "chart"
  | custom => "custom"

/-- The kind with a name. -/
def ofName? (s : String) : Option ComponentKind := all.find? fun k => k.name = s

theorem ofName?_name (k : ComponentKind) : ofName? k.name = some k := by cases k <;> rfl

def tag : ComponentKind → String
  | form => "form"
  | dashboard => "dashboard"
  | chart => "chart"
  | custom => "custom"

def encode (k : ComponentKind) : Json := .str k.tag

def decode {ε : Type} [Json.Source ε] : Json.Decoder ε ComponentKind :=
  Json.oneOf (all.map fun k => (k.tag, k))

end ComponentKind

end EmbedUI
