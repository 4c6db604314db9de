import EmbedUI.Proofs.Chart.BarMarkup
import EmbedUI.Proofs.Chart.PieMarkup
import EmbedUI.Proofs.Component.Validity

/-!
# Charts can be read back

What is drawn of a chart is the only part of its markup that has bars, labels, a pie or a legend in
it. So whoever reads the markup finds the series that was drawn, however many values there are and
whatever the labels are.

## The architecture

* **`select_node`**: what is selected of a chart is selected of its drawing, unless the selector
  asks for a part of the card around it.
* **`chart_read_back`**: with what is read of bars and pies, for what the compiler returns.
-/

namespace EmbedUI.Chart

open Markup

theorem Series.values_ne_nil {s : Series} (h : s.problem? = none) : s.values ≠ [] := by
  rintro hnil
  unfold Series.problem? at h
  rw [hnil] at h
  cases h

theorem closed_drawing (c : Chart) : AllClosed c.drawing := by
  unfold drawing
  cases c.style with
  | bar => exact closed_barNodes _ _ _
  | pie => exact closed_pieNodes _

theorem closed_node (c : Chart) (id : String) : Closed (c.node id) := by
  simp +decide [node, styled, closed_drawing, Script.element]

/-- The card around a drawing has nothing that is looked for. -/
theorem select_node (p : Selector) (c : Chart) (id : String)
    (hcard : p "div" [("class", "widgetry-chart"), ("style", containerStyle "600px")] = false)
    (hheading : p "h2" [("style", headingStyle)] = false)
    (hfooter : p "div" [("style", footerStyle)] = false)
    (hbutton : p "button" [("onclick", Script.call "exportChart" [Script.stringLiteral id]),
      ("style", buttonStyle amberGradient)] = false)
    (hscript : p "script" [] = false) :
    select p (c.node id).contents = select p (nodesContents c.drawing) := by
  simp [node, styled, Script.element, hcard, hheading, hfooter, hbutton, hscript]

theorem select_labels_node (c : Chart) (id : String) :
    select (valued "style" labelStyle) (c.node id).contents =
      select (valued "style" labelStyle) (nodesContents c.drawing) := by
  -- `delta`, since rewriting with the equations of styles computes their characters
  have hcard : StartsApart (containerStyle "600px") := by
    have hpadding : StartsApart "padding: 2rem; font-family: " :=
      startsApart_ofList _ (by decide)
    delta containerStyle cardStyle
    exact ((((((hpadding.append _).append _).append _).append _).append _).append _).append _
  have hbutton : StartsApart (buttonStyle amberGradient) := by
    have hpadding : StartsApart
        "padding: 0.75rem 1.5rem; border: none; border-radius: 8px; background: " :=
      startsApart_ofList _ (by decide)
    delta buttonStyle
    exact ((hpadding.append _).append _).append _
  have hheading : StartsApart headingStyle := startsApart_ofList _ (by decide)
  have hfooter : StartsApart footerStyle := startsApart_ofList _ (by decide)
  apply select_node <;> simp [List.lookup_cons, hcard.ne, hheading.ne, hfooter.ne, hbutton.ne]

/-- **Charts can be read back.** Whoever reads the markup of a chart that was compiled finds its
series, as bars up to 200 pixels high or as a pie. -/
theorem chart_read_back {c : Chart} {id : ComponentId} {r : Resource} (h : c.compile id = .ok r) :
    ∃ contents, contents? r.text = some contents ∧
      match c.style with
      | .bar => c.series.ShownBy 200.0 contents
      | .pie => c.series.PieShownBy contents := by
  obtain ⟨haligned, htext⟩ := compile_eq_ok h
  have hne : c.values ≠ [] :=
    Series.values_ne_nil (problem?_eq_none_iff.mp (compile_ok_iff.mp h).1).1
  refine ⟨(c.node id.text).contents, ?_, ?_⟩
  · rw [htext]
    exact contents?_render (tame_node c id.text) (closed_node c id.text)
  · have hclassed : ∀ name ∈ ["bar", "pie", "legend-item"],
        select (classed name) (c.node id.text).contents =
          select (classed name) (nodesContents c.drawing) := by
      intro name hname
      simp only [List.mem_cons, List.not_mem_nil, or_false] at hname
      obtain rfl | rfl | rfl := hname <;> exact select_node _ c id.text rfl rfl rfl rfl rfl
    cases hstyle : c.style with
    | bar =>
      have hdrawing : c.drawing = barNodes c.series tallestBar (tallestBar + 100.0) := by
        rw [drawing, hstyle]
      refine Series.ShownBy.congr (hclassed _ (by decide)) (select_labels_node c id.text) ?_
      rw [hdrawing]
      exact shownBy_barNodes c.series 200.0 _
    | pie =>
      have hdrawing : c.drawing = pieNodes c.series := by rw [drawing, hstyle]
      refine Series.PieShownBy.congr (hclassed _ (by decide)) (hclassed _ (by decide)) ?_
      rw [hdrawing]
      exact pieShownBy_pieNodes hne haligned

/-- Values that are no shares of a whole, under labels that look like bars. -/
def lookalikeBars : Chart :=
  ⟨"</h2>", .bar, [-1.0, 3.5], ["<div class=\"bar\">", "&lt;"]⟩

/-- More slices than colours, under labels that look like lines of the legend. -/
def lookalikePie : Chart :=
  ⟨"", .pie, [1.0, 0.0, 2.5, 1.0, 1.0, 1.0],
    ["\"><div class=\"legend-item\">", "", "100%, #fff", "</span>", "</div>", "&amp;"]⟩

theorem chart_read_back_lookalikes :
    (∃ r, lookalikeBars.compile ⟨"a", .chart, "u", 1⟩ = .ok r ∧
      ∃ contents, contents? r.text = some contents ∧
        lookalikeBars.series.ShownBy 200.0 contents) ∧
    ∃ r, lookalikePie.compile ⟨"a", .chart, "\"/><script>", 2⟩ = .ok r ∧
      ∃ contents, contents? r.text = some contents ∧ lookalikePie.series.PieShownBy contents := by
  have hok : ∀ (c : Chart) (id : ComponentId), c.problem? = none →
      c.compile id = .ok (.ofMarkup id.address (c.node id.text).render) :=
    fun c id hproblem => compile_ok_iff.mpr ⟨hproblem, rfl⟩
  have hbars := hok lookalikeBars ⟨"a", .chart, "u", 1⟩ (by decide +kernel)
  have hpie := hok lookalikePie ⟨"a", .chart, "\"/><script>", 2⟩ (by decide +kernel)
  exact ⟨⟨_, hbars, chart_read_back hbars⟩, _, hpie, chart_read_back hpie⟩

end EmbedUI.Chart
