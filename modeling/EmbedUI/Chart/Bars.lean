import EmbedUI.Chart.Scalar

/-!
# Bar heights

Bars are drawn in proportion: the greatest value gets the full height, values that are not positive
get none.
-/

namespace EmbedUI.Chart

/-- The height of each bar, when the tallest is to be `scale` high. Nothing is drawn when no value
is positive, or when the greatest is infinite. -/
def barHeights {α : Type} [Scalar α] (values : List α) (scale : α) : List α :=
  match peak? values with
  | some peak =>
    if Scalar.isFinite peak && Scalar.less 0.0 peak then
      values.map fun v => positivePart (v / peak * scale)
    else values.map fun _ => 0.0
  | none => values.map fun _ => 0.0

/-- Every value gets a bar, whatever the values are. -/
theorem length_barHeights {α : Type} [Scalar α] (values : List α) (scale : α) :
    (barHeights values scale).length = values.length := by
  unfold barHeights
  split
  · split <;> simp
  · simp

end EmbedUI.Chart
