import EmbedUI.Chart.Scalar

/-!
# Pie slices

A slice takes the share of the circle that its value has in the total. Slices follow each other
around the circle, each in the next colour of the palette.
-/

namespace EmbedUI.Chart

/-- The colours of slices, used in turn. -/
def palette : List String := ["#10b981", "#3b82f6", "#f59e0b", "#ef4444", "#8b5cf6"]

def sliceColor (i : Nat) : String := palette.getD (i % palette.length) ""

/-- A slice; its bounds are percentages of the full circle. -/
structure Slice (α : Type) where
  color : String
  start : α
  stop : α

variable {α : Type} [Scalar α]

/-- How much of the circle a slice takes, in degrees. -/
def Slice.degrees (s : Slice α) : α := (s.stop - s.start) * 3.6

/-- The slices of the remaining values, the first of which is the `i`-th of all and begins at
`start`. -/
def slicesFrom (sum : α) (i : Nat) (start : α) : List α → List (Slice α)
  | [] => []
  | v :: rest =>
    let stop := start + v / sum * 100.0
    { color := sliceColor i, start := start, stop := stop } :: slicesFrom sum (i + 1) stop rest

/-- The slices of some values. They are meaningful when the total is positive. -/
def slices (values : List α) : List (Slice α) := slicesFrom (total values) 0 0.0 values

theorem length_slicesFrom (sum : α) (values : List α) :
    ∀ i start, (slicesFrom sum i start values).length = values.length := by
  induction values with
  | nil => intro _ _; rfl
  | cons v rest ih => intro i start; simp [slicesFrom, ih]

end EmbedUI.Chart
