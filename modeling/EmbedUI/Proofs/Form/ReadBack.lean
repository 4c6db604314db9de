import EmbedUI.Proofs.Markup.Injection
import EmbedUI.Proofs.Markup.Selection

/-!
# Forms can be read back

Whoever reads the markup of a form finds its fields again: one block for each, in their order, with
everything that the form says about the field. No text of a form adds a block or takes one away.

## The architecture

* **`Field.ShownBy`**: what there is to be read of a field in its block.
* **`select_node`**: the blocks of a form are those of its fields.
* **`shownBy_block`**: the block of a field shows it.
* **`fields_read_back`**: the two together, for what the compiler returns.
-/

namespace EmbedUI.Form

open Markup

/-! ## What is shown of a field -/

/-- Elements that take input. -/
def isControl : Selector := fun name _ => ["input", "select", "textarea"].contains name

@[simp] theorem isControl_apply (name : String) (attributes : List (String × String)) :
    isControl name attributes = ["input", "select", "textarea"].contains name := rfl

/-- The label, or the name for want of one. -/
def Field.caption (f : Field) : String := if Text.allBlank f.label then f.name else f.label

/-- The control of a field, by everything that is said about it. -/
structure Field.ControlledBy (f : Field) (e : Content) : Prop where
  kind : match f.kind with
    | .text => e.name = "input" ∧ e.attribute? "type" = some "text"
    | .email => e.name = "input" ∧ e.attribute? "type" = some "email"
    | .tel => e.name = "input" ∧ e.attribute? "type" = some "tel"
    | .number => e.name = "input" ∧ e.attribute? "type" = some "number"
    | .url => e.name = "input" ∧ e.attribute? "type" = some "url"
    | .select => e.name = "select"
    | .textarea => e.name = "textarea"
  id : e.attribute? "id" = some f.name
  name : e.attribute? "name" = some f.name
  required : (e.attribute? "required").isSome = f.required
  placeholder : f.kind ≠ .select → e.attribute? "placeholder" = some (f.placeholder.getD "")
  options : f.kind = .select →
    (select (named "option") e.children).map (fun o => (o.attribute? "value", o.shown)) =
      (some "", "Select " ++ f.caption) ::
        (f.options.getD []).map fun o => (some o.value, o.label)

/-- The block of a field, with one label and one control. -/
structure Field.ShownBy (f : Field) (block : Content) : Prop where
  field : block.attribute? "data-field" = some f.name
  label : ∃ e, select (named "label") block.children = [e] ∧ e.attribute? "for" = some f.name ∧
    e.shown = f.caption ++ if f.required then " *" else ""
  control : ∃ e, select isControl block.children = [e] ∧ f.ControlledBy e

/-! ## Controls -/

theorem closed_optionNode (value label : String) : Closed (optionNode value label) := by
  simp +decide [optionNode]

theorem closed_control (f : Field) : Closed f.control := by
  have hoptions : AllClosed ((f.options.getD []).map fun o => optionNode o.value o.label) :=
    allClosed_map (fun o : ChoiceOption => closed_optionNode o.value o.label) _
  unfold Field.control
  cases f.kind <;> simp +decide [closed_optionNode, hoptions]

theorem closed_node (form : Form) (id : String) : Closed (form.node id) := by
  have hfields : AllClosed (form.fields.flatMap Field.nodes) := by
    refine allClosed_flatMap (fun f => ?_) _
    simp +decide [Field.nodes, Field.block, closed_control]
  simp +decide [node, styled, hfields, Script.element, styleSheet]

theorem select_control (f : Field) :
    select isControl f.control.contents = f.control.contents ∧
      select (named "label") f.control.contents = [] ∧
      select (classed "form-field") f.control.contents = [] := by
  unfold Field.control requiredMark
  cases f.kind <;> cases f.required <;>
    simp +decide [optionNode, List.lookup_cons]

theorem caption_eq (f : Field) : f.caption = f.shownLabel := rfl

/-- The options of a select control, behind the blank one. -/
theorem options_read (f : Field) :
    (select (named "option") (nodesContents
        (optionNode "" ("Select " ++ f.shownLabel) ::
          (f.options.getD []).map fun o => optionNode o.value o.label))).map
        (fun o => (o.attribute? "value", o.shown)) =
      (some "", "Select " ++ f.caption) ::
        (f.options.getD []).map fun o => (some o.value, o.label) := by
  have hoption : ∀ value label, (select (named "option") (optionNode value label).contents).map
      (fun o => (o.attribute? "value", o.shown)) = [(some value, label)] := by
    intro value label
    simp [optionNode]
  rw [nodesContents_cons, nodesContents_map, select_append, select_flatMap, List.map_append,
    hoption, List.map_flatMap]
  simp only [hoption]
  rw [← List.map_eq_flatMap, caption_eq]
  rfl

/-- What is read of a control is the control of its field. -/
theorem controlledBy_control (f : Field) : ∃ e, f.control.contents = [e] ∧ f.ControlledBy e := by
  have hmark : (((requiredMark f).map Attribute.pair).lookup "required").isSome = f.required := by
    unfold requiredMark
    cases f.required <;> rfl
  unfold Field.control
  cases hkind : f.kind with
  | select =>
    refine ⟨_, contents_element _ _ _, ?_⟩
    -- the options are left as nodes, for `options_read`
    constructor <;> simp [hkind, hmark, List.lookup_cons, -nodesContents_cons]
    exact options_read f
  | textarea =>
    refine ⟨_, contents_element _ _ _, ?_⟩
    constructor <;> simp [hkind, hmark, List.lookup_cons]
  | _ =>
    refine ⟨_, contents_void _ _, ?_⟩
    constructor <;> simp [hkind, hmark, List.lookup_cons, FieldKind.inputType]

/-! ## Blocks -/

/-- What is read of a block shows its field. -/
theorem shownBy_block (f : Field) :
    ∃ block, select (classed "form-field") f.block.contents = [block] ∧ f.ShownBy block := by
  obtain ⟨e, he, hcontrolled⟩ := controlledBy_control f
  obtain ⟨hcontrol, hlabels, hblocks⟩ := select_control f
  refine ⟨.element "div" [("class", "form-field"), ("data-field", f.name)]
    (nodesContents
      [newline 6,
        .element "label" [attr "for" f.name] [.text (f.caption ++ if f.required then " *" else "")],
        newline 6, f.control, newline 4]), ?_, ?_⟩
  · simp +decide [Field.block, List.lookup_cons, hblocks, caption_eq, -String.toList_append]
  · constructor
    · simp [List.lookup_cons]
    · refine ⟨.element "label" [("for", f.name)]
        ((f.caption ++ if f.required then " *" else "").toList.map .text), ?_, ?_, ?_⟩
      · simp [hlabels, -String.toList_append]
      · simp
      · rw [shown_text]
    · refine ⟨e, ?_, hcontrolled⟩
      have hselected : select isControl f.control.contents = [e] := hcontrol.trans he
      simp +decide [hselected]

/-- The blocks of a form are those of its fields. -/
theorem select_node (form : Form) (id : String) :
    select (classed "form-field") (form.node id).contents =
      form.fields.flatMap fun f => select (classed "form-field") f.block.contents := by
  have hfield : ∀ f : Field, select (classed "form-field") (nodesContents f.nodes) =
      select (classed "form-field") f.block.contents := by
    intro f
    simp [Field.nodes]
  simp +decide [node, styled, List.lookup_cons, Script.element, styleSheet, hfield]

/-! ## The main statement -/

/-- **Forms can be read back.** The markup of every form that is compiled has one block for each
field, in their order and no others, and each of them shows its field, whatever text is in the form
and whatever the form is called. -/
theorem fields_read_back {form : Form} {id : ComponentId} {r : Resource}
    (h : form.compile id = .ok r) :
    ∃ contents, contents? r.text = some contents ∧
      List.Forall₂ Field.ShownBy form.fields (select (classed "form-field") contents) := by
  refine ⟨(form.node id.text).contents, ?_, ?_⟩
  · rw [compile_eq_ok h]
    exact contents?_render (tame_node form id.text) (closed_node form id.text)
  · rw [select_node]
    exact forall₂_flatMap_singleton fun f _ => shownBy_block f

/-- A form whose texts look like fields. -/
def lookalikeForm : Form :=
  ⟨"<div class=\"form-field\">",
    [⟨"\"><div class=\"form-field\" data-field=\"", .select, " ", none, false,
        some [⟨"\" required=\"", "</option><option>"⟩, ⟨"", ""⟩]⟩,
      ⟨"body", .textarea, "required *", some "</textarea>", true, none⟩,
      ⟨"mail", .email, "", some "&amp;", true, none⟩],
    "</form>"⟩

theorem fields_read_back_lookalikeForm :
    ∃ r, lookalikeForm.compile ⟨"a", .form, "\"/><script>", 1⟩ = .ok r ∧
      ∃ contents, contents? r.text = some contents ∧
        List.Forall₂ Field.ShownBy lookalikeForm.fields
          (select (classed "form-field") contents) := by
  have hok : lookalikeForm.compile ⟨"a", .form, "\"/><script>", 1⟩ =
      .ok (.ofMarkup _ (lookalikeForm.node _).render) := rfl
  exact ⟨_, hok, fields_read_back hok⟩

end EmbedUI.Form
