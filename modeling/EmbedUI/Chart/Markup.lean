import EmbedUI.Chart.Bars
import EmbedUI.Chart.Pie
import EmbedUI.Chart.Validation
import EmbedUI.Markup.Script
import EmbedUI.Markup.Style
import EmbedUI.Resource

/-!
# Charts as markup

Bars are elements whose heights are in proportion; a pie is one element with a conic gradient, next
to a legend. Exporting posts the chart's identity.
-/

namespace EmbedUI.Chart

open EmbedUI.Markup

/-! ### Bars -/

/-- A bar of a height, with its value in it. -/
def barNode (value height : Float) : Node :=
  .element "div"
    [attr "class" "bar",
      attr "style" ("background: " ++ greenGradient ++ "; width: 36px; height: "
        ++ amountText height ++ "px; border-radius: 4px; display: flex; align-items: end;"
        ++ " justify-content: center; color: white; font-size: 0.85rem; font-weight: bold;")]
    [.text (amountText value)]

/-- A label under the bars. -/
def labelNode (label : String) : Node :=
  styled "div" "font-size: 0.85rem; opacity: 0.8; text-align: center;" [.text label]

/-- The bars of a series, the tallest `scale` high in an area of height `area`, and the row of
labels below them. -/
def barNodes (s : Series) (scale area : Float) : List Node :=
  [styled "div"
      ("height: " ++ amountText area ++ "px; display: flex; align-items: end;"
        ++ " justify-content: space-around; padding: 1rem;")
      ((s.values.zip (barHeights s.values scale)).flatMap
          (fun (v, h) => [newline 4, barNode v h])
        ++ [newline 2]),
    newline 2,
    styled "div" "display: flex; justify-content: space-around; margin-top: 0.5rem;"
      (s.labels.map labelNode)]

/-- The height of the tallest bar of a chart. -/
def tallestBar : Float := 200.0

/-! ### Pies -/

/-- The stop of a slice in the gradient. -/
def Slice.gradientStop (s : Slice Float) : String :=
  s.color ++ " " ++ amountText s.start ++ "% " ++ amountText s.stop ++ "%"

/-- A line of the legend: a swatch in the slice's colour, and the label. -/
def legendNode (label color : String) : Node :=
  .element "div"
    [attr "class" "legend-item",
      attr "style" "display: flex; align-items: center; gap: 0.5rem;"]
    [styled "div"
        ("width: 12px; height: 12px; border-radius: 2px; background: " ++ color ++ ";") [],
      styled "span" "font-size: 0.9rem;" [.text label]]

/-- The pie and its legend. -/
def pieNodes (s : Series) : List Node :=
  let parts := slices s.values
  [styled "div" "display: flex; align-items: center; justify-content: center; height: 300px;"
      [newline 4,
        .element "div"
          [attr "class" "pie",
            attr "style" ("width: 200px; height: 200px; border-radius: 50%; background:"
              ++ " conic-gradient(" ++ ", ".intercalate (parts.map Slice.gradientStop) ++ ");")]
          [],
        newline 2],
    newline 2,
    styled "div"
      ("display: flex; flex-wrap: wrap; justify-content: center; gap: 1rem;"
        ++ " margin-top: 1rem;")
      ((s.labels.zip parts).flatMap
          (fun (label, part) => [newline 4, legendNode label part.color])
        ++ [newline 2])]

/-! ### Charts -/

def exportHandler : List String :=
  Block.block "function exportChart(chartId) "
    [Script.post .chartExport (Block.braced "chartId: chartId")] ""

/-- The drawing of a chart. -/
def drawing (c : Chart) : List Node :=
  match c.style with
  | .bar => barNodes c.series tallestBar (tallestBar + 100.0)
  | .pie => pieNodes c.series

/-- The markup of a chart under an identity. -/
def node (c : Chart) (id : String) : Node :=
  .element "div" [attr "class" "widgetry-chart", attr "style" (containerStyle "600px")]
    ([newline 2, styled "h2" headingStyle [.text c.title], newline 2]
      ++ c.drawing
      ++ [newline 2,
        styled "div" footerStyle
          [newline 4,
            .element "button"
              [attr "onclick" (Script.call "exportChart" [Script.stringLiteral id]),
                attr "style" (buttonStyle amberGradient)]
              [.text "Export Chart"],
            newline 2],
        newline 2, Script.element exportHandler, newline 0])

/-- The resource of a chart, unless the chart makes no sense. -/
def compile (c : Chart) (id : ComponentId) : Except Rejection Resource :=
  match c.problem? with
  | some rejection => .error rejection
  | none => .ok (.ofMarkup id.address (c.node id.text).render)

end EmbedUI.Chart
