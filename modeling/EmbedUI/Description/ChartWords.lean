import EmbedUI.Chart.Basic
import EmbedUI.Text.Keyword

/-!
# Words that shape a chart

The words of a chart description choose between bars and a pie, and between three sets of sample
data.
-/

namespace EmbedUI.Description

def salesSeries : Chart.Series :=
  ⟨[120.0, 150.0, 180.0, 200.0, 175.0], ["Jan", "Feb", "Mar", "Apr", "May"]⟩

def trafficSeries : Chart.Series :=
  ⟨[100.0, 120.0, 140.0, 160.0, 180.0], ["Mon", "Tue", "Wed", "Thu", "Fri"]⟩

def quarterSeries : Chart.Series :=
  ⟨[50.0, 75.0, 100.0, 125.0, 150.0], ["Q1", "Q2", "Q3", "Q4", "Q5"]⟩

def chartStyle (text : List Char) : Chart.Style :=
  if Text.mentionsAny text ["pie", "circle"] then .pie else .bar

def chartSeries (text : List Char) : Chart.Series :=
  if Text.mentionsAny text ["sales", "revenue"] then salesSeries
  else if Text.mentionsAny text ["user", "traffic"] then trafficSeries
  else quarterSeries

/-- The chart that a lowered description asks for. -/
def chartData (text : List Char) : Chart.Data :=
  let series := chartSeries text
  { style := chartStyle text, values := series.values, labels := series.labels }

end EmbedUI.Description
