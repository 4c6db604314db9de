import EmbedUI.Proofs.Markup.Outline
import EmbedUI.Proofs.Markup.RawText

/-!
# Configured text stays text

Titles, labels, options, items, numbers and identities come from outside and end up between tags, in
attribute values and in string literals inside attribute values. None of them can open or close a
tag, add an attribute or get into a script: the outline of a component is settled by the shape of
its configuration.

## The architecture

* **`Form.shape`, `Dashboard.shape`, `Chart.shape`**: what of a configuration decides how its
  component is built.
* **`tame_node`** for each of the three: whatever the configuration, its node has proper names and
  plain scripts, so its markup has the outline of the node (`outline_render`).
* **`outline_node`** for each: nodes of the same shape have the same outline. For charts and chart
  widgets this needs as many labels as values, which is what validation asks for.
* **`same_outline`**: the three together, for what the compilers return.
-/

namespace EmbedUI

open Markup

/-! ## Forms -/

namespace Form

/-- The kind of a field, whether it is required, and the number of its options if it has any to
choose from. -/
def Field.shape (f : Field) : FieldKind × Bool × Option Nat :=
  (f.kind, f.required, if f.kind = .select then some (f.options.getD []).length else none)

def shape (form : Form) : List (FieldKind × Bool × Option Nat) := form.fields.map Field.shape

theorem outline_optionNode (value label value' label' : String) :
    (optionNode value label).outline = (optionNode value' label').outline := by
  simp [optionNode]

theorem outline_control {f g : Field} (h : f.shape = g.shape) :
    f.control.outline = g.control.outline := by
  obtain ⟨hkind, hrequired, hoptions⟩ : f.kind = g.kind ∧ f.required = g.required ∧
      (if f.kind = .select then some (f.options.getD []).length else none) =
        if g.kind = .select then some (g.options.getD []).length else none := by
    simpa [Field.shape] using h
  have hmark : requiredMark f = requiredMark g := by
    rw [requiredMark, requiredMark, hrequired]
  cases hg : g.kind with
  | select =>
    have hlength : (f.options.getD []).length = (g.options.getD []).length := by
      simpa [hkind, hg] using hoptions
    -- the blank option comes first, and then one option for each choice
    have hrest := nodesOutline_map_of_length
      (f := fun o : ChoiceOption => optionNode o.value o.label)
      (fun o p => outline_optionNode _ _ _ _) hlength
    have hfirst := outline_optionNode "" ("Select " ++ f.shownLabel) "" ("Select " ++ g.shownLabel)
    simp [Field.control, hkind, hg, hmark, hrest, hfirst]
  | _ => simp [Field.control, hkind, hg, hmark]

theorem tame_optionNode (value label : String) : Tame (optionNode value label) := by
  simp +decide [optionNode]

theorem tame_control (f : Field) : Tame f.control := by
  have hoptions : AllTame ((f.options.getD []).map fun o => optionNode o.value o.label) :=
    allTame_map (fun o : ChoiceOption => tame_optionNode o.value o.label) _
  unfold Field.control
  cases f.kind <;>
    simp +decide [requiredMark, tame_optionNode, hoptions]

theorem tame_block (f : Field) : Tame f.block := by
  simp +decide [Field.block, tame_control]

theorem tame_node (form : Form) (id : String) : Tame (form.node id) := by
  have hfields : AllTame (form.fields.flatMap Field.nodes) :=
    allTame_flatMap (f := Field.nodes) (fun f => ⟨trivial, tame_block f, trivial, trivial⟩) _
  have hscript : Tame (Script.element submitHandler) := tame_script plain_submitHandler
  simp +decide [node, styled, hfields, hscript, tame_styleSheet]

theorem outline_block {f g : Field} (h : f.shape = g.shape) :
    f.block.outline = g.block.outline := by
  simp [Field.block, outline_control h]

/-- Forms of the same shape have the same outline. -/
theorem outline_node {form form' : Form} (h : form.shape = form'.shape) (id id' : String) :
    (form.node id).outline = (form'.node id').outline := by
  have hfields : nodesOutline (form.fields.flatMap Field.nodes) =
      nodesOutline (form'.fields.flatMap Field.nodes) := by
    refine nodesOutline_flatMap (fun f _ g _ hfg => ?_) h
    simp [Field.nodes, outline_block hfg]
  simp [node, hfields]

theorem compile_eq_ok {form : Form} {id : ComponentId} {r : Resource}
    (h : form.compile id = .ok r) : r.text = (form.node id.text).render := by
  unfold compile at h
  split at h
  · cases h
  · cases h
    rfl

end Form

/-! ## Charts -/

namespace Chart

/-- How a chart is drawn, and the number of its values. -/
def shape (c : Chart) : Style × Nat := (c.style, c.values.length)

/-- As many labels as values: what validation asks of a series. -/
def Series.Aligned (s : Series) : Prop := s.labels.length = s.values.length

theorem Series.aligned_of_problem? {s : Series} (h : s.problem? = none) : s.Aligned := by
  unfold Series.problem? at h
  split at h
  · cases h
  · split at h
    · cases h
    · next hlength => exact Classical.not_not.mp hlength

theorem tame_barNode (value height : Float) : Tame (barNode value height) := by
  simp +decide [barNode]

theorem tame_labelNode (label : String) : Tame (labelNode label) := by
  simp +decide [labelNode, styled]

theorem tame_barNodes (s : Series) (scale area : Float) : AllTame (barNodes s scale area) := by
  have hbars := allTame_flatMap (f := fun (p : Float × Float) => [newline 4, barNode p.1 p.2])
    (fun p => ⟨trivial, tame_barNode p.1 p.2, trivial⟩) (s.values.zip (barHeights s.values scale))
  have hlabels : AllTame (s.labels.map labelNode) := allTame_map tame_labelNode _
  unfold barNodes
  simpa +decide [styled, hlabels] using hbars

theorem tame_legendNode (label color : String) : Tame (legendNode label color) := by
  simp +decide [legendNode, styled]

theorem tame_pieNodes (s : Series) : AllTame (pieNodes s) := by
  have hlegend := allTame_flatMap
    (f := fun (p : String × Slice Float) => [newline 4, legendNode p.1 p.2.color])
    (fun p => ⟨trivial, tame_legendNode p.1 p.2.color, trivial⟩) (s.labels.zip (slices s.values))
  unfold pieNodes
  simpa +decide [styled] using hlegend

theorem tame_node (c : Chart) (id : String) : Tame (c.node id) := by
  have hdrawing : AllTame c.drawing := by
    unfold drawing
    cases c.style with
    | bar => exact tame_barNodes _ _ _
    | pie => exact tame_pieNodes _
  have hscript : Tame (Script.element exportHandler) := tame_script plain_exportHandler
  simp +decide [node, styled, hdrawing, hscript]

theorem outline_labelNode (label label' : String) :
    (labelNode label).outline = (labelNode label').outline := by
  simp [labelNode]

/-- Bars of aligned series with equally many values have the same outline. -/
theorem outline_barNodes {s s' : Series} (hs : s.Aligned) (hs' : s'.Aligned)
    (hlength : s.values.length = s'.values.length) (scale area scale' area' : Float) :
    nodesOutline (barNodes s scale area) = nodesOutline (barNodes s' scale' area') := by
  have hbars : nodesOutline ((s.values.zip (barHeights s.values scale)).flatMap
        fun p => [newline 4, barNode p.1 p.2]) =
      nodesOutline ((s'.values.zip (barHeights s'.values scale')).flatMap
        fun p => [newline 4, barNode p.1 p.2]) := by
    -- a bar for each value: pairing with the heights loses none
    refine nodesOutline_flatMap_of_length (fun p q => ?_) ?_
    · simp [barNode]
    · rw [List.length_zip, List.length_zip, length_barHeights, length_barHeights, hlength]
  have hlabels : nodesOutline (s.labels.map labelNode) = nodesOutline (s'.labels.map labelNode) :=
    nodesOutline_map_of_length outline_labelNode (by rw [hs, hs', hlength])
  simp [barNodes, hbars, hlabels]

theorem outline_pieNodes {s s' : Series} (hs : s.Aligned) (hs' : s'.Aligned)
    (hlength : s.values.length = s'.values.length) :
    nodesOutline (pieNodes s) = nodesOutline (pieNodes s') := by
  have hlegend : nodesOutline ((s.labels.zip (slices s.values)).flatMap
        fun p => [newline 4, legendNode p.1 p.2.color]) =
      nodesOutline ((s'.labels.zip (slices s'.values)).flatMap
        fun p => [newline 4, legendNode p.1 p.2.color]) := by
    -- a line for each label: there are as many slices
    refine nodesOutline_flatMap_of_length (fun p q => ?_) ?_
    · simp [legendNode]
    · rw [List.length_zip, List.length_zip, slices, slices, length_slicesFrom, length_slicesFrom,
        hs, hs', hlength]
  simp [pieNodes, hlegend]

theorem outline_node {c c' : Chart} (h : c.shape = c'.shape) (hc : c.series.Aligned)
    (hc' : c'.series.Aligned) (id id' : String) :
    (c.node id).outline = (c'.node id').outline := by
  obtain ⟨hstyle, hlength⟩ : c.style = c'.style ∧ c.values.length = c'.values.length := by
    simpa [shape] using h
  have hdrawing : nodesOutline c.drawing = nodesOutline c'.drawing := by
    unfold drawing
    rw [hstyle]
    cases c'.style with
    | bar => exact outline_barNodes hc hc' hlength _ _ _ _
    | pie => exact outline_pieNodes hc hc' hlength
  simp [node, hdrawing]

theorem aligned_of_problem? {c : Chart} (h : c.problem? = none) : c.series.Aligned := by
  have hfound := Option.map_eq_none_iff.mp h
  rw [Option.or_eq_none_iff] at hfound
  exact Series.aligned_of_problem? hfound.1

theorem compile_eq_ok {c : Chart} {id : ComponentId} {r : Resource} (h : c.compile id = .ok r) :
    c.series.Aligned ∧ r.text = (c.node id.text).render := by
  unfold compile at h
  split at h
  · cases h
  · next hproblem =>
    cases h
    exact ⟨aligned_of_problem? hproblem, rfl⟩

end Chart

/-! ## Dashboards -/

namespace Dashboard

/-- The kind of a widget, and the number of its items or of the points it draws. -/
def Widget.shape (w : Widget) : WidgetKind × Option Nat :=
  match w with
  | .metric _ _ => (.metric, none)
  | .list _ data => (.list, some data.items.length)
  | .chart _ data => (.chart, some data.normalize.values.length)

def shape (d : Dashboard) : List (WidgetKind × Option Nat) := d.widgets.map Widget.shape

/-- A chart widget draws an aligned series. -/
def Widget.Aligned : Widget → Prop
  | .chart _ data => data.normalize.Aligned
  | _ => True

theorem aligned_of_seriesProblem? {s : Chart.Series} (h : seriesProblem? s = none) :
    s.Aligned := by
  unfold seriesProblem? at h
  split at h
  · cases h
  · next hlength => exact Classical.not_not.mp hlength

theorem Widget.aligned_of_problem? {w : Widget} {index : Nat} (h : w.problem? index = none) :
    w.Aligned := by
  cases w with
  | chart title data => exact aligned_of_seriesProblem? (Option.map_eq_none_iff.mp h)
  | _ => trivial

theorem aligned_of_firstProblem? {widgets : List Widget} {index : Nat}
    (h : firstProblem? index widgets = none) : ∀ w ∈ widgets, w.Aligned := by
  induction widgets generalizing index with
  | nil => simp
  | cons w rest ih =>
    rw [firstProblem?, Option.or_eq_none_iff] at h
    exact List.forall_mem_cons.mpr ⟨Widget.aligned_of_problem? h.1, ih h.2⟩

theorem tame_body (w : Widget) : AllTame w.body := by
  cases w with
  | metric title data => simp +decide [Widget.body, metricNode, styled]
  | list title data =>
    have hitems : AllTame (data.items.map itemNode) := by
      refine allTame_map (fun item => ?_) _
      simp +decide [itemNode, styled]
    simp +decide [Widget.body, listNode, styled, hitems]
  | chart title data => exact Chart.tame_barNodes _ _ _

theorem tame_block (w : Widget) : Tame w.block := by
  simp +decide [Widget.block, styled, tame_body]

theorem tame_node (d : Dashboard) (id : String) : Tame (d.node id) := by
  have hwidgets : AllTame (d.widgets.flatMap fun w => [newline 4, w.block]) :=
    allTame_flatMap (f := fun w : Widget => [newline 4, w.block])
      (fun w => ⟨trivial, tame_block w, trivial⟩) _
  have hscript : Tame (Script.element refreshHandler) := tame_script plain_refreshHandler
  simp +decide [node, styled, hwidgets, hscript]

theorem outline_body {v w : Widget} (h : v.shape = w.shape) (hv : v.Aligned) (hw : w.Aligned) :
    nodesOutline v.body = nodesOutline w.body := by
  -- equal shapes have equal kinds
  cases v with
  | metric title data =>
    cases w with
    | metric title' data' => simp [Widget.body, metricNode]
    | _ => cases h
  | list title data =>
    cases w with
    | list title' data' =>
      have hlength : data.items.length = data'.items.length := by simpa [Widget.shape] using h
      have hitems : nodesOutline (data.items.map itemNode) =
          nodesOutline (data'.items.map itemNode) :=
        nodesOutline_map_of_length (fun item item' => by simp [itemNode]) hlength
      simp [Widget.body, listNode, hitems]
    | _ => cases h
  | chart title data =>
    cases w with
    | chart title' data' =>
      have hlength : data.normalize.values.length = data'.normalize.values.length := by
        simpa [Widget.shape] using h
      exact Chart.outline_barNodes hv hw hlength _ _ _ _
    | _ => cases h

theorem outline_node {d d' : Dashboard} (h : d.shape = d'.shape)
    (hd : ∀ w ∈ d.widgets, w.Aligned) (hd' : ∀ w ∈ d'.widgets, w.Aligned) (id id' : String) :
    (d.node id).outline = (d'.node id').outline := by
  have hwidgets : nodesOutline (d.widgets.flatMap fun w => [newline 4, w.block]) =
      nodesOutline (d'.widgets.flatMap fun w => [newline 4, w.block]) := by
    refine nodesOutline_flatMap (fun v hv w hw hvw => ?_) h
    simp [Widget.block, outline_body hvw (hd v hv) (hd' w hw)]
  simp [node, hwidgets]

theorem compile_eq_ok {d : Dashboard} {id : ComponentId} {r : Resource}
    (h : d.compile id = .ok r) :
    (∀ w ∈ d.widgets, w.Aligned) ∧ r.text = (d.node id.text).render := by
  unfold compile at h
  split at h
  · cases h
  · next hproblem =>
    cases h
    exact ⟨aligned_of_firstProblem? hproblem, rfl⟩

end Dashboard

/-! ## The main statement -/

/-- **Injection safety.** Two configurations of the same shape are compiled to markup with the same
tags, the same attribute names and the same scripts and style sheets, whatever text they contain and
whatever their components are called. -/
theorem same_outline :
    (∀ (form form' : Form) (id id' : ComponentId) (r r' : Resource), form.shape = form'.shape →
      form.compile id = .ok r → form'.compile id' = .ok r' → outline r.text = outline r'.text) ∧
    (∀ (d d' : Dashboard) (id id' : ComponentId) (r r' : Resource), d.shape = d'.shape →
      d.compile id = .ok r → d'.compile id' = .ok r' → outline r.text = outline r'.text) ∧
    ∀ (c c' : Chart) (id id' : ComponentId) (r r' : Resource), c.shape = c'.shape →
      c.compile id = .ok r → c'.compile id' = .ok r' → outline r.text = outline r'.text := by
  refine ⟨?_, ?_, ?_⟩
  · intro form form' id id' r r' hshape hr hr'
    rw [Form.compile_eq_ok hr, Form.compile_eq_ok hr', outline_render (Form.tame_node _ _),
      outline_render (Form.tame_node _ _)]
    exact Form.outline_node hshape _ _
  · intro d d' id id' r r' hshape hr hr'
    obtain ⟨hd, htext⟩ := Dashboard.compile_eq_ok hr
    obtain ⟨hd', htext'⟩ := Dashboard.compile_eq_ok hr'
    rw [htext, htext', outline_render (Dashboard.tame_node _ _),
      outline_render (Dashboard.tame_node _ _)]
    exact Dashboard.outline_node hshape hd hd' _ _
  · intro c c' id id' r r' hshape hr hr'
    obtain ⟨hc, htext⟩ := Chart.compile_eq_ok hr
    obtain ⟨hc', htext'⟩ := Chart.compile_eq_ok hr'
    rw [htext, htext', outline_render (Chart.tame_node _ _), outline_render (Chart.tame_node _ _)]
    exact Chart.outline_node hshape hc hc' _ _

/-- A form whose every text tries to get out of its place. -/
def hostileForm : Form :=
  ⟨"</h2><script>", [⟨"\"><p class=\"", .text, "<b>", some "' onfocus='", true, none⟩], "</button>"⟩

def harmlessForm : Form := ⟨"Title", [⟨"name", .text, "", none, true, some []⟩], "Send"⟩

theorem same_outline_hostileForm :
    ∃ r r', hostileForm.compile ⟨"a", .form, "\"/><script>", 1⟩ = .ok r ∧
      harmlessForm.compile ⟨"b", .form, "user", 2⟩ = .ok r' ∧ outline r.text = outline r'.text :=
  ⟨_, _, rfl, rfl, same_outline.1 hostileForm harmlessForm _ _ _ _ rfl rfl rfl⟩

end EmbedUI
