import EmbedUI.Component.Kind

/-!
# Charts

A chart shows values with one label each, as bars or as a pie. On the wire its kind may also be
called `type`; a chart without a kind has bars.
-/

namespace EmbedUI

namespace Chart

inductive Style where
  | bar
  | pie
deriving DecidableEq, Repr

namespace Style

def all : List Style := [bar, pie]

def name : Style → String
  | bar => "bar"
  | pie => "pie"

def encode (s : Style) : Json := .str s.name

def decode {ε : Type} [Json.Source ε] : Json.Decoder ε Style :=
  Json.oneOf (all.map fun s => (s.name, s))

end Style

/-- Values and their labels. -/
structure Series where
  values : List Float
  labels : List String

namespace Series

/-- Shown when there is nothing to draw. -/
def noData : Series := ⟨[0.0], ["No Data"]⟩

def encodeValues (values : List Float) : Json := .arr (values.map Json.ofFloat)

def encode (s : Series) : Json :=
  .obj [("values", encodeValues s.values), ("labels", Json.ofStrings s.labels)]

def record {ε : Type} [Json.Source ε] : Json.Record ε Series :=
  Series.mk <$> .required "values" (Json.list Json.float)
    <*> .required "labels" (Json.list Json.string)

def decode {ε : Type} [Json.Source ε] : Json.Decoder ε Series := record.decode "Series"

end Series

/-- What a description says about a chart: everything but its title. -/
structure Data where
  style : Style
  values : List Float
  labels : List String

namespace Data

def empty : Data := ⟨.bar, [], []⟩

def encode (d : Data) : Json :=
  .obj [("kind", d.style.encode), ("values", Series.encodeValues d.values),
    ("labels", Json.ofStrings d.labels)]

/-- Unlike a chart, this has no default for any part and no second name for its kind. -/
def record {ε : Type} [Json.Source ε] : Json.Record ε Data :=
  Data.mk <$> .required "kind" Style.decode <*> .required "values" (Json.list Json.float)
    <*> .required "labels" (Json.list Json.string)

def decode {ε : Type} [Json.Source ε] : Json.Decoder ε Data := record.decode "ChartData"

end Data

end Chart

structure Chart where
  title : String
  style : Chart.Style
  values : List Float
  labels : List String

namespace Chart

def encode (c : Chart) : Json :=
  .obj [("title", .str c.title), ("kind", c.style.encode),
    ("values", Series.encodeValues c.values), ("labels", Json.ofStrings c.labels)]

def record {ε : Type} [Json.Source ε] : Json.Record ε Chart :=
  Chart.mk <$> .required "title" Json.string
    <*> .field "kind" ["type"] (some .bar) Style.decode
    <*> .required "values" (Json.list Json.float)
    <*> .defaulted "labels" [] (Json.list Json.string)

def decode {ε : Type} [Json.Source ε] : Json.Decoder ε Chart := record.decode "ChartSpec"

end Chart

end EmbedUI
