import EmbedUI.Proofs.Chart.PiePartition
import EmbedUI.Proofs.Markup.Amount
import EmbedUI.Proofs.Markup.Declaration
import EmbedUI.Proofs.Markup.Injection

/-!
# Reading pies

A pie is one element with a conic gradient, and its legend stands next to it. Whoever reads them
finds one stop of the gradient for each value and one line of the legend for each label, in the same
colours. Percentages are rounded when they are written, but since a slice starts where the one
before it ends, so do the stops that are written of them.

## The architecture

* **`Around`**: stops that share a circle.
* **`Series.PieShownBy`**: what there is to be read of a series.
* **`around_slices`**: slices are written as stops that share a circle.
* **`declared?_gradient`**, **`map_fills_legendNode`**: the gradient and the colours of the legend
  are read from their styles.
* **`pieShownBy_pieNodes`**: all of it together.
-/

namespace EmbedUI.Chart

open Markup

/-! ## Pies -/

/-- Stops that share a circle among some values: each in the next colour of the palette, the first
one from the start, and every other from where the one before it ends. -/
structure Around (n : Nat) (stops : List GradientStop) : Prop where
  length : stops.length = n
  color : ∀ i s, stops[i]? = some s → palette[i % 5]? = some s.color
  first : stops.head?.map GradientStop.start = some "0%"
  next : stops.IsChain fun s t => t.start = s.stop

/-- The colours that the elements inside another one are filled with. -/
def fills (e : Content) : List String :=
  (select everything e.children).filterMap (Content.declared? "background")

/-- The contents show a series as a pie, with a legend: a line for each label in the colour of its
stop, all in their order. -/
structure Series.PieShownBy (s : Series) (contents : List Content) : Prop where
  gradient : ∃ pie stops, select (classed "pie") contents = [pie] ∧
    (pie.declared? "background").bind gradientStops? = some stops ∧
    Around s.values.length stops ∧
    (select (classed "legend-item") contents).map fills = stops.map fun stop => [stop.color]
  legend : (select (classed "legend-item") contents).map Content.shown = s.labels

/-- What is written of a slice. -/
def Slice.written (s : Slice Float) : GradientStop :=
  ⟨s.color, amountText s.start ++ "%", amountText s.stop ++ "%"⟩

theorem Slice.text_written (s : Slice Float) : s.written.text = s.gradientStop := by
  have hpercent : "% " = "%" ++ " " := by decide
  rw [GradientStop.text, Slice.gradientStop, hpercent]
  simp only [Slice.written, String.append_assoc]

/-- What is written of slices goes around the circle. -/
theorem around_slices {values : List Float} (hne : values ≠ []) :
    Around values.length ((slices values).map Slice.written) := by
  constructor
  · rw [List.length_map, slices, length_slicesFrom]
  · intro i s hs
    rw [List.getElem?_map] at hs
    obtain ⟨slice, hslice, rfl⟩ := Option.map_eq_some_iff.mp hs
    have hcolor := slicesFrom_color _ _ _ _ i slice hslice
    rwa [Nat.zero_add] at hcolor
  · cases values with
    | nil => exact absurd rfl hne
    | cons v rest =>
      show some (amountText 0.0 ++ "%") = _
      rw [amountText_zero]
      rfl
  · refine (List.isChain_map _).mpr ((slicesFrom_chain _ _ _ _).imp ?_)
    intro s t hst
    show amountText t.start ++ "%" = amountText s.stop ++ "%"
    rw [hst]

/-! ### The gradient -/

theorem color_mem_palette {values : List Float} {s : Slice Float} (h : s ∈ slices values) :
    s.color ∈ palette := by
  obtain ⟨k, hk⟩ := List.mem_iff_getElem?.mp h
  exact List.mem_of_getElem? (slicesFrom_color _ _ _ _ k s hk)

theorem isPlainWord_percentage (v : Float) : IsPlainWord (amountText v ++ "%") := by
  have hamount := isAmount_amountText v
  have hblank : ' ' ∉ (amountText v).toList := hamount.not_mem (by decide)
  have hcomma : ',' ∉ (amountText v).toList := hamount.not_mem (by decide)
  unfold IsPlainWord
  rw [String.toList_append]
  exact ⟨by simp, by simp [hblank], by simp [hcomma]⟩

theorem plain_written {values : List Float} {s : Slice Float} (h : s ∈ slices values) :
    s.written.Plain := by
  have hpalette : ∀ color ∈ palette,
      color.toList ≠ [] ∧ ' ' ∉ color.toList ∧ ',' ∉ color.toList := by decide
  exact ⟨hpalette _ (color_mem_palette h), isPlainWord_percentage _, isPlainWord_percentage _⟩

theorem semicolon_not_mem_text {values : List Float} {s : Slice Float} (h : s ∈ slices values) :
    ';' ∉ s.written.text.toList := by
  have hpalette : ∀ color ∈ palette, ';' ∉ color.toList := by decide
  have hcolor : ';' ∉ s.color.toList := hpalette _ (color_mem_palette h)
  have hamount : ∀ v : Float, ';' ∉ (amountText v).toList := fun v =>
    (isAmount_amountText v).not_mem (by decide)
  rw [GradientStop.toList_text]
  simp [Slice.written, hcolor, hamount]

theorem gradientStops?_slices {values : List Float} (hne : values ≠ []) :
    gradientStops? ("conic-gradient("
      ++ ", ".intercalate ((slices values).map Slice.gradientStop) ++ ")") =
        some ((slices values).map Slice.written) := by
  have htexts : (slices values).map Slice.gradientStop =
      ((slices values).map Slice.written).map GradientStop.text := by
    rw [List.map_map]
    exact List.map_congr_left fun s _ => s.text_written.symm
  rw [htexts]
  refine gradientStops?_eq ?_ ?_
  · have hlength : (slices values).length = values.length := length_slicesFrom _ _ _ _
    intro hnil
    rw [List.map_eq_nil_iff] at hnil
    rw [hnil] at hlength
    exact hne (List.length_eq_zero_iff.mp hlength.symm)
  · intro stop hstop
    obtain ⟨s, hs, rfl⟩ := List.mem_map.mp hstop
    exact plain_written hs

theorem semicolon_not_mem_stops (values : List Float) :
    ';' ∉ (", ".intercalate ((slices values).map Slice.gradientStop)).toList := by
  rw [String.toList_intercalate]
  refine Text.not_mem_intercalate (by decide) ?_
  intro text htext
  rw [List.map_map] at htext
  obtain ⟨s, hs, rfl⟩ := List.mem_map.mp htext
  show ';' ∉ s.gradientStop.toList
  rw [← s.text_written]
  exact semicolon_not_mem_text hs

/-- Whatever is inside the gradient of a pie, as long as it does not end the declaration. -/
theorem styleValue?_pie {inside : String} (h : ';' ∉ inside.toList) :
    styleValue? "background"
      ("width: 200px; height: 200px; border-radius: 50%; background:" ++ " conic-gradient("
        ++ inside ++ ");") = some ("conic-gradient(" ++ inside ++ ")") := by
  have htoList : ("conic-gradient(" ++ inside ++ ")").toList =
      "conic-gradient(".toList ++ inside.toList ++ [')'] := by
    rw [String.toList_append, String.toList_append]
    repeat rw [String.toList_ofList]
  refine styleValue?_between "width: 200px; height: 200px; border-radius: 50%".toList [] ?_
    (by decide) ⟨?_, ?_⟩ (by decide)
  · rw [htoList]
    simp only [String.toList_append]
    repeat rw [String.toList_ofList]
    simp
  · rw [htoList]
    refine Text.trimmed_eq_self ?_ ?_
    · rw [List.append_assoc, String.toList_ofList]
      intro c hc
      rw [← Option.some.inj hc]
      decide
    · rw [List.getLast?_concat]
      intro c hc
      rw [← Option.some.inj hc]
      decide
  · rw [htoList, String.toList_ofList]
    simp [h]

/-! ### The legend -/

theorem map_shown_legendNode (label color : String) :
    (legendNode label color).contents.map Content.shown = [label] := by
  simp [legendNode, styled, Content.shown, Content.chars, charsOf]

theorem map_fills_legendNode {color : String} (h : color ∈ palette) (label : String) :
    (legendNode label color).contents.map fills = [[color]] := by
  have hcolor : Text.trimmed color.toList = color.toList ∧ ';' ∉ color.toList := by
    revert color
    decide
  have hswatch : styleValue? "background"
      ("width: 12px; height: 12px; border-radius: 2px; background: " ++ color ++ ";") =
      some color := by
    refine styleValue?_between "width: 12px; height: 12px; border-radius: 2px".toList [] ?_
      (by decide) hcolor (by decide)
    simp only [String.toList_append]
    repeat rw [String.toList_ofList]
    simp
  have htext : styleValue? "background" "font-size: 0.9rem;" = none := by decide
  simp [legendNode, styled, fills, hswatch, htext]

/-! ### Pies -/

theorem closed_pieNodes (s : Series) : AllClosed (pieNodes s) := by
  have hlegend := allClosed_lines
    (f := fun (p : String × Slice Float) => legendNode p.1 p.2.color)
    (fun p => by simp +decide [legendNode, styled]) 4 (s.labels.zip (slices s.values))
  unfold pieNodes
  simpa +decide [styled] using hlegend

theorem select_pie (s : Series) :
    select (classed "pie") (nodesContents (pieNodes s)) =
      [.element "div"
        [("class", "pie"),
          ("style", "width: 200px; height: 200px; border-radius: 50%; background:"
            ++ " conic-gradient(" ++ ", ".intercalate ((slices s.values).map Slice.gradientStop)
            ++ ");")]
        []] := by
  simp +decide [pieNodes, legendNode, styled, List.lookup_cons]

theorem select_legend (s : Series) :
    select (classed "legend-item") (nodesContents (pieNodes s)) =
      (s.labels.zip (slices s.values)).flatMap fun p => (legendNode p.1 p.2.color).contents := by
  simp +decide [pieNodes, legendNode, styled, List.lookup_cons]

/-- **Pies.** What is read of the pie of an aligned series with values shows the series. -/
theorem pieShownBy_pieNodes {s : Series} (hne : s.values ≠ []) (haligned : s.Aligned) :
    s.PieShownBy (nodesContents (pieNodes s)) := by
  have hlength : s.labels.length = (slices s.values).length := by
    rw [slices, length_slicesFrom, haligned]
  have hfills : ∀ p ∈ s.labels.zip (slices s.values),
      (legendNode p.1 p.2.color).contents.map fills = [[p.2.color]] := by
    rintro ⟨label, slice⟩ hp
    exact map_fills_legendNode (color_mem_palette (List.of_mem_zip hp).2) label
  constructor
  · refine ⟨_, _, select_pie s, ?_, around_slices hne, ?_⟩
    · rw [declared?_classed, styleValue?_pie (semicolon_not_mem_stops _), Option.bind_some,
        gradientStops?_slices hne]
    · rw [select_legend, List.map_flatMap, List.flatMap_congr hfills, ← List.map_eq_flatMap,
        List.map_map]
      -- a line for each slice: there are as many labels
      show (s.labels.zip (slices s.values)).map ((fun slice => [slice.color]) ∘ Prod.snd) = _
      rw [← List.map_map, List.map_snd_zip (by omega)]
      rfl
  · rw [select_legend, List.map_flatMap]
    simp only [map_shown_legendNode]
    rw [← List.map_eq_flatMap, List.map_fst_zip (by omega)]

/-- What is selected decides about pies. -/
theorem Series.PieShownBy.congr {s : Series} {contents contents' : List Content}
    (hpie : select (classed "pie") contents' = select (classed "pie") contents)
    (hlegend : select (classed "legend-item") contents' = select (classed "legend-item") contents)
    (h : s.PieShownBy contents) : s.PieShownBy contents' := by
  constructor
  · rw [hpie, hlegend]
    exact h.gradient
  · rw [hlegend, h.legend]

end EmbedUI.Chart
