import EmbedUI.Custom
import EmbedUI.Dashboard.Markup
import EmbedUI.Form.Markup

/-!
# Requirements

Requirements say what component a description asks for. They have room for the parts of every kind;
only the part of their own kind is filled in, and each kind has its own reading of them.
-/

namespace EmbedUI

structure Requirements where
  kind : ComponentKind
  title : String
  fields : List Form.Field
  widgets : List Dashboard.Widget
  data : Chart.Data
  html : Option String

namespace Requirements

/-- Requirements of a kind with every part empty. -/
def blank (kind : ComponentKind) (title : String) : Requirements :=
  { kind := kind, title := title, fields := [], widgets := [], data := .empty, html := none }

def form (r : Requirements) : Form :=
  { title := r.title, fields := r.fields, submitText := Form.defaultSubmitText }

def dashboard (r : Requirements) : Dashboard := { title := r.title, widgets := r.widgets }

def chart (r : Requirements) : Chart :=
  { title := r.title, style := r.data.style, values := r.data.values, labels := r.data.labels }

def custom (r : Requirements) : Custom := { title := some r.title, html := r.html.getD "" }

def encode (r : Requirements) : Json :=
  .obj ([("type", r.kind.encode), ("title", .str r.title),
      ("fields", .arr (r.fields.map Form.Field.encode)),
      ("widgets", .arr (r.widgets.map Dashboard.Widget.encode)), ("data", r.data.encode)]
    ++ Json.optionalEntry "html" (r.html.map .str))

def record {ε : Type} [Json.Source ε] : Json.Record ε Requirements :=
  Requirements.mk <$> .required "type" ComponentKind.decode <*> .required "title" Json.string
    <*> .defaulted "fields" [] (Json.list Form.Field.decode)
    <*> .defaulted "widgets" [] (Json.list Dashboard.Widget.decode)
    <*> .defaulted "data" .empty Chart.Data.decode <*> .optional "html" Json.string

def decode {ε : Type} [Json.Source ε] : Json.Decoder ε Requirements :=
  record.decode "ComponentRequirements"

/-- The resource of the component that is asked for. -/
def compile (r : Requirements) (id : ComponentId) : Except Rejection Resource :=
  match r.kind with
  | .form => r.form.compile id
  | .dashboard => r.dashboard.compile id
  | .chart => r.chart.compile id
  | .custom => r.custom.compile id

end Requirements

end EmbedUI
