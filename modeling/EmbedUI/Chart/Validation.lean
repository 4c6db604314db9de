import EmbedUI.Chart.Basic
import EmbedUI.Chart.Scalar
import EmbedUI.Component.Rejection

/-!
# Which charts make sense

A chart needs values, a label for each, and finite numbers. A pie also needs values that can be
shares of a whole: none negative, and a finite total above zero.
-/

namespace EmbedUI.Chart

/-- What is wrong with the series of a chart, and where. -/
def Series.problem? (s : Series) : Option (String × Complaint) :=
  if s.values.isEmpty then some ("values", .noValues)
  else if s.labels.length ≠ s.values.length then
    some ("labels", .labelCount s.values.length s.labels.length)
  else
    (s.values.findIdx? fun v => !v.isFinite).map fun (i : Nat) =>
      ("values[" ++ Decimal.integerText i ++ "]", .notFinite)

/-- What is wrong with values as the shares of a pie, and where. -/
def pieProblem? (values : List Float) : Option (String × Complaint) :=
  match values.findIdx? fun v => decide (v < 0.0) with
  | some i => some ("values[" ++ Decimal.integerText i ++ "]", .negativeSlice)
  | none =>
    let sum := total values
    if !sum.isFinite then some ("values", .infiniteTotal)
    else if sum ≤ 0.0 then some ("values", .noTotal)
    else none

def series (c : Chart) : Series := ⟨c.values, c.labels⟩

/-- The first problem of a chart. -/
def problem? (c : Chart) : Option Rejection :=
  let found := c.series.problem?.or
    (match c.style with
      | .bar => none
      | .pie => pieProblem? c.values)
  found.map fun (path, complaint) => { kind := .chart, path := path, complaint := complaint }

end EmbedUI.Chart
