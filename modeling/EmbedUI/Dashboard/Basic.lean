import EmbedUI.Chart.Basic
import EmbedUI.Dashboard.Metric

/-!
# Dashboards

A dashboard is a titled grid of widgets: single metrics, lists, and small bar charts. The data of a
widget is read after its kind is known. A chart widget takes what callers hand it, including data in
the shape of a metric, and `ChartData.normalize` makes a series of it.
-/

namespace EmbedUI.Dashboard

/-- The data of a metric widget. -/
structure MetricData where
  value : String
  label : String
deriving DecidableEq, Repr

namespace MetricData

def encode (d : MetricData) : Json := .obj [("value", .str d.value), ("label", .str d.label)]

def record {ε : Type} [Json.Source ε] : Json.Record ε MetricData :=
  MetricData.mk <$> .required "value" Metric.decodeText <*> .defaulted "label" "" Json.string

def decode {ε : Type} [Json.Source ε] : Json.Decoder ε MetricData := record.decode "MetricData"

end MetricData

/-- The data of a list widget. -/
structure ListData where
  items : List String
deriving DecidableEq, Repr

namespace ListData

def encode (d : ListData) : Json := .obj [("items", Json.ofStrings d.items)]

def record {ε : Type} [Json.Source ε] : Json.Record ε ListData :=
  ListData.mk <$> .defaulted "items" [] (Json.list Json.string)

def decode {ε : Type} [Json.Source ε] : Json.Decoder ε ListData := record.decode "ListData"

end ListData

/-- The data of a chart widget, as it was handed in. -/
structure ChartData where
  values : Option (List Float)
  labels : Option (List String)
  value : Option String
  label : Option String

namespace ChartData

/-- Data that already is a series. -/
def ofSeries (s : Chart.Series) : ChartData := ⟨some s.values, some s.labels, none, none⟩

def encode (d : ChartData) : Json :=
  .obj (Json.optionalEntry "values" (d.values.map Chart.Series.encodeValues)
    ++ Json.optionalEntry "labels" (d.labels.map Json.ofStrings)
    ++ Json.optionalEntry "value" (d.value.map .str)
    ++ Json.optionalEntry "label" (d.label.map .str))

def record {ε : Type} [Json.Source ε] : Json.Record ε ChartData :=
  ChartData.mk <$> .optional "values" (Json.list Json.float)
    <*> .optional "labels" (Json.list Json.string)
    <*> .optional "value" Metric.decodeText <*> .optional "label" Json.string

def decode {ε : Type} [Json.Source ε] : Json.Decoder ε ChartData :=
  record.decode "ChartWidgetData"

/-- A metric's value and label, when the data is in the shape of a metric: both are there, neither
is empty, and no values are given. -/
def metric? (d : ChartData) : Option (String × String) :=
  match d.values, d.value, d.label with
  | none, some value, some label =>
    if value.isEmpty || label.isEmpty then none else some (value, label)
  | _, _, _ => none

/-- The series that is drawn. A metric becomes a single bar; without values, or without labels,
there is no data. Labels that do not match the values in number are kept, and rejected later. -/
def normalize (d : ChartData) : Chart.Series :=
  match d.metric? with
  | some (value, label) => ⟨[Metric.amount value], [label]⟩
  | none =>
    match d.values, d.labels with
    | some (v :: vs), some labels => ⟨v :: vs, labels⟩
    | _, _ => .noData

end ChartData

/-- The kinds of widgets, as they are told apart in reading. -/
inductive WidgetKind where
  | metric
  | list
  | chart
deriving DecidableEq, Repr

namespace WidgetKind

def all : List WidgetKind := [metric, list, chart]

def name : WidgetKind → String
  | metric => "metric"
  | list => "list"
  | chart => "chart"

def decode {ε : Type} [Json.Source ε] : Json.Decoder ε WidgetKind :=
  Json.oneOf (all.map fun k => (k.name, k))

end WidgetKind

inductive Widget where
  | metric (title : String) (data : MetricData)
  | list (title : String) (data : ListData)
  | chart (title : String) (data : ChartData)

namespace Widget

def title : Widget → String
  | metric title _ => title
  | list title _ => title
  | chart title _ => title

def kind : Widget → WidgetKind
  | metric .. => .metric
  | list .. => .list
  | chart .. => .chart

/-- What stands under `kind` in writing. -/
def tag : Widget → String
  | metric .. => "metric"
  | list .. => "list"
  | chart .. => "chart"

def encodeData : Widget → Json
  | metric _ data => data.encode
  | list _ data => data.encode
  | chart _ data => data.encode

def encode (w : Widget) : Json :=
  .obj [("kind", .str w.tag), ("title", .str w.title), ("data", w.encodeData)]

/-- A widget whose data has not been looked at yet. -/
structure Undecided where
  kind : WidgetKind
  title : String
  data : Json

def Undecided.record {ε : Type} [Json.Source ε] : Json.Record ε Undecided :=
  Undecided.mk <$> .field "kind" ["type"] none WidgetKind.decode
    <*> .defaulted "title" "" Json.string <*> .defaulted "data" .null Json.anyValue

/-- The data under a kind; missing data is an empty object. -/
def Undecided.decide (u : Undecided) : Except Json.DecodeError Widget :=
  let data :=
    match u.data with
    | .null => .obj []
    | data => data
  match u.kind with
  | .metric => ((MetricData.decode data).map (metric u.title)).mapError (.inWidget "metric" u.title)
  | .list => ((ListData.decode data).map (list u.title)).mapError (.inWidget "list" u.title)
  | .chart => ((ChartData.decode data).map (chart u.title)).mapError (.inWidget "chart" u.title)

def decode {ε : Type} [Json.Source ε] : Json.Decoder ε Widget := fun t => do
  (← Undecided.record.decode "RawWidget" t).decide

end Widget

end Dashboard

structure Dashboard where
  title : String
  widgets : List Dashboard.Widget

namespace Dashboard

def encode (d : Dashboard) : Json :=
  .obj [("title", .str d.title), ("widgets", .arr (d.widgets.map Widget.encode))]

def record {ε : Type} [Json.Source ε] : Json.Record ε Dashboard :=
  Dashboard.mk <$> .required "title" Json.string
    <*> .defaulted "widgets" [] (Json.list Widget.decode)

def decode {ε : Type} [Json.Source ε] : Json.Decoder ε Dashboard :=
  record.decode "DashboardConfig"

end Dashboard

end EmbedUI
