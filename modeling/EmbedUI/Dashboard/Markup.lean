import EmbedUI.Chart.Markup
import EmbedUI.Dashboard.Basic

/-!
# Dashboards as markup

A dashboard becomes a grid with one block per widget, in order. The only widgets that can be
rejected are chart widgets, when the labels of their series do not match its values in number or one
of its values is not finite. Refreshing posts the dashboard's identity.
-/

namespace EmbedUI.Dashboard

open EmbedUI.Markup

/-- The height of the tallest bar of a chart widget. -/
def tallestBar : Float := 150.0

/-! ### Validation -/

/-- What is wrong with the series of a chart widget, and where. That it has values is not asked,
since normalizing never makes a series without them. -/
def seriesProblem? (s : Chart.Series) : Option (String × Complaint) :=
  if s.labels.length ≠ s.values.length then
    some ("labels", .labelCount s.values.length s.labels.length)
  else
    (s.values.findIdx? fun v => !v.isFinite).map fun (i : Nat) =>
      ("values[" ++ Decimal.integerText i ++ "]", .notFinite)

/-- The problem of a widget at an index. -/
def Widget.problem? (index : Nat) : Widget → Option Rejection
  | .chart _ data =>
    (seriesProblem? data.normalize).map fun (path, complaint) =>
      { kind := .dashboard,
        path := "widgets[" ++ Decimal.integerText index ++ "].data." ++ path,
        complaint := complaint }
  | _ => none

/-- The first problem among widgets, the first of which has the given index. -/
def firstProblem? (index : Nat) : List Widget → Option Rejection
  | [] => none
  | w :: rest => (w.problem? index).or (firstProblem? (index + 1) rest)

/-- The first problem of a dashboard. -/
def problem? (d : Dashboard) : Option Rejection := firstProblem? 0 d.widgets

/-! ### Widgets -/

def widgetStyle : String :=
  "background: rgba(255,255,255,0.1); padding: 1.5rem; border-radius: 8px;"
    ++ " border: 1px solid rgba(255,255,255,0.2);"

def metricNode (data : MetricData) : Node :=
  styled "div" "text-align: center;"
    [styled "div" "font-size: 2rem; font-weight: bold; color: #10b981;" [.text data.value],
      styled "div" "font-size: 0.9rem; opacity: 0.8;" [.text data.label]]

def itemNode (item : String) : Node :=
  styled "li" "padding: 0.5rem 0; border-bottom: 1px solid rgba(255,255,255,0.1);"
    [.text item]

def listNode (data : ListData) : Node :=
  styled "ul" "list-style: none; padding: 0; margin: 0;" (data.items.map itemNode)

/-- What a widget shows below its title. -/
def Widget.body : Widget → List Node
  | .metric _ data => [metricNode data]
  | .list _ data => [listNode data]
  | .chart _ data => Chart.barNodes data.normalize tallestBar (tallestBar + 50.0)

/-- The class of the block of a widget. -/
def Widget.className : Widget → String
  | .metric .. => "metric-widget"
  | .list .. => "list-widget"
  | .chart .. => "chart-widget"

/-- The block of a widget. -/
def Widget.block (w : Widget) : Node :=
  .element "div"
    [attr "class" ("widget " ++ w.className), attr "style" widgetStyle]
    ([newline 6,
        styled "h3" "margin-bottom: 1rem; font-size: 1.2rem;" [.text w.title],
        newline 6]
      ++ w.body ++ [newline 4])

/-! ### Dashboards -/

def refreshHandler : List String :=
  Block.block "function refreshDashboard(dashboardId) "
    [Script.post .dashboardRefresh (Block.braced "dashboardId: dashboardId")] ""

/-- The markup of a dashboard under an identity. -/
def node (d : Dashboard) (id : String) : Node :=
  .element "div" [attr "class" "widgetry-dashboard", attr "style" (containerStyle "800px")]
    [newline 2, styled "h2" "margin-bottom: 2rem; text-align: center;" [.text d.title],
      newline 2,
      .element "div"
        [attr "class" "widget-grid",
          attr "style" ("display: grid; grid-template-columns: repeat(auto-fit,"
            ++ " minmax(250px, 1fr)); gap: 1.5rem;")]
        (d.widgets.flatMap (fun w => [newline 4, w.block]) ++ [newline 2]),
      newline 2,
      styled "div" footerStyle
        [newline 4,
          .element "button"
            [attr "onclick" (Script.call "refreshDashboard" [Script.stringLiteral id]),
              attr "style" (buttonStyle blueGradient)]
            [.text "Refresh Dashboard"],
          newline 2],
      newline 2, Script.element refreshHandler, newline 0]

/-- The resource of a dashboard, unless one of its widgets makes no sense. -/
def compile (d : Dashboard) (id : ComponentId) : Except Rejection Resource :=
  match d.problem? with
  | some rejection => .error rejection
  | none => .ok (.ofMarkup id.address (d.node id.text).render)

end EmbedUI.Dashboard
