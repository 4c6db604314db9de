import EmbedUI.Description.ChartWords
import EmbedUI.Description.DashboardWords
import EmbedUI.Description.FormWords
import EmbedUI.Description.Snippet
import EmbedUI.Description.Title
import EmbedUI.Requirements

/-!
# What a description asks for

A description is free text. Its words decide the kind of component, in the order form, dashboard,
chart; text that has none of these words asks for a custom component. Every text asks for
something.
-/

namespace EmbedUI.Description

/-- The words of each kind, in the order in which the kinds are considered. -/
def kindWords : List (ComponentKind × List String) :=
  [(.form, ["form", "input", "submit"]),
    (.dashboard, ["dashboard", "widget", "metric"]),
    (.chart, ["chart", "graph", "visualization"])]

/-- The kind of component that a description asks for. -/
def kind (description : String) : ComponentKind :=
  let text := Text.lowered description
  match kindWords.find? fun (_, words) => Text.mentionsAny text words with
  | some (k, _) => k
  | none => .custom

/-- The title of a component whose description names none. -/
def defaultTitle : ComponentKind → String
  | .form => "Generated Form"
  | .dashboard => "Generated Dashboard"
  | .chart => "Generated Chart"
  | .custom => "Generated Component"

/-- What a description asks for. Only the part of its kind is filled in. -/
def requirements (description : String) : Requirements :=
  let text := Text.lowered description
  let k := kind description
  let base := Requirements.blank k ((title? description).getD (defaultTitle k))
  match k with
  | .form => { base with fields := formFields text }
  | .dashboard => { base with widgets := dashboardWidgets text }
  | .chart => { base with data := chartData text }
  | .custom => { base with html := some (snippet text).render }

end EmbedUI.Description
