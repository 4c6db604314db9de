import EmbedUI.Proofs.Markup.Injection
import EmbedUI.Proofs.Markup.Reference

/-!
# What of markup can act

Markup acts through its scripts and through inline handlers, the attributes that are named for an
event. The rest of it only shows something. Both are found in the tokens of markup, where the value
of a handler still has its character references, and both can be computed from a node
(`Node.behavior`); what is computed is what is found, as long as the node is tame.

## The architecture

* **`Act`**, **`actsFrom`**: the handlers and the characters of scripts among tokens.
* **`behavior`**: what of a text can act.
* **`Node.behavior`**, **`behavior_render`**: the same, computed from a node.
* **`handlers`**, **`scriptOf`**: the two kinds apart.
* **`behavior_card`**: the shape that forms, charts and dashboards share.
-/

namespace EmbedUI.Markup

/-! ## Of tokens -/

inductive Act where
  /-- An inline handler: the attribute, and its code with all references decoded. -/
  | handler (event code : List Char)
  /-- A character of a script. -/
  | script (c : Char)
deriving DecidableEq, Repr

/-- Handlers are the attributes whose names start with `on`. -/
def IsHandlerName (name : List Char) : Prop := name.take 2 = ['o', 'n']

instance : DecidablePred IsHandlerName := fun _ => inferInstanceAs (Decidable (_ = _))

/-- The handler that an attribute is, as it is read. -/
def handler? (a : List Char × List Char) : Option Act :=
  if IsHandlerName a.1 then some (.handler a.1 (decode a.2)) else none

/-- The handlers and the characters of scripts among tokens; `inside` tells that these are behind
the opening tag of a script. -/
def actsFrom (inside : Bool) : List Token → List Act
  | [] => []
  | .opening name attributes :: rest =>
    attributes.filterMap handler? ++ actsFrom (name = "script".toList) rest
  | .closing _ :: rest => actsFrom false rest
  | .raw c :: rest => (if inside then [.script c] else []) ++ actsFrom inside rest
  | .text _ :: rest => actsFrom inside rest
  | .declaration _ :: rest => actsFrom inside rest

/-- What of markup can act, in its order. -/
def behavior (text : String) : List Act := actsFrom false (tokenize text)

/-! ## Of nodes -/

def Attribute.behavior (a : Attribute) : List Act :=
  if IsHandlerName a.name.toList then
    match a with
    | .valued name value => [.handler name.toList value.toList]
    | .bare name => [.handler name.toList []]
  else []

mutual

def Node.behavior : Node → List Act
  | .text _ => []
  | .element _ attributes children =>
    attributes.flatMap Attribute.behavior ++ nodesBehavior children
  | .void _ attributes => attributes.flatMap Attribute.behavior
  | .raw tag content => if tag = "script" then content.toList.map .script else []
  | .reference _ => []
  | .verbatim _ => []

def nodesBehavior : List Node → List Act
  | [] => []
  | n :: rest => n.behavior ++ nodesBehavior rest

end

attribute [simp] Node.behavior nodesBehavior

@[simp] theorem behavior_newline (indent : Nat) : (newline indent).behavior = [] := by
  rw [newline, Node.behavior]

@[simp] theorem nodesBehavior_append (before after : List Node) :
    nodesBehavior (before ++ after) = nodesBehavior before ++ nodesBehavior after := by
  induction before with
  | nil => rfl
  | cons n rest ih => rw [List.cons_append, nodesBehavior, nodesBehavior, ih, List.append_assoc]

/-- Items that cannot act. -/
theorem nodesBehavior_flatMap {α : Type} {f : α → List Node} (h : ∀ x, nodesBehavior (f x) = [])
    (xs : List α) : nodesBehavior (xs.flatMap f) = [] := by
  induction xs with
  | nil => rfl
  | cons x rest ih => rw [List.flatMap_cons, nodesBehavior_append, h, ih, List.append_nil]

theorem nodesBehavior_map {α : Type} {f : α → Node} (h : ∀ x, (f x).behavior = []) (xs : List α) :
    nodesBehavior (xs.map f) = [] := by
  rw [List.map_eq_flatMap]
  exact nodesBehavior_flatMap (fun x => by rw [nodesBehavior, h x, nodesBehavior]; rfl) xs

/-- An attribute that is no handler. -/
theorem behavior_attr {name : String} (h : ¬IsHandlerName name.toList) (value : String) :
    (attr name value).behavior = [] :=
  if_neg h

/-- An attribute that is one. -/
theorem behavior_handler {name : String} (h : IsHandlerName name.toList) (code : String) :
    (attr name code).behavior = [.handler name.toList code.toList] :=
  if_pos h

/-! ## What is computed is found -/

/-- **Attributes.** Decoding undoes the escaping of a value. -/
theorem toList_handler?_read (a : Attribute) : (handler? a.read).toList = a.behavior := by
  have hname : a.read.1 = a.name.toList := by cases a <;> rfl
  unfold handler? Attribute.behavior
  rw [hname]
  by_cases hhandler : IsHandlerName a.name.toList
  · rw [if_pos hhandler, if_pos hhandler]
    cases a with
    | valued name value =>
      show [Act.handler name.toList (decode (escapeValue value.toList))] = _
      rw [decode_escapeValue]
    | bare name => rfl
  · rw [if_neg hhandler, if_neg hhandler]
    rfl

theorem filterMap_handler?_read (attributes : List Attribute) :
    (attributes.map Attribute.read).filterMap handler? =
      attributes.flatMap Attribute.behavior := by
  induction attributes with
  | nil => rfl
  | cons a rest ih =>
    rw [List.map_cons, List.flatMap_cons, ← ih, ← toList_handler?_read, List.filterMap_cons]
    cases handler? a.read <;> rfl

theorem actsFrom_text (inside : Bool) (cs : List Char) (rest : List Token) :
    actsFrom inside (cs.map .text ++ rest) = actsFrom inside rest := by
  induction cs with
  | nil => rfl
  | cons c cs ih => exact ih

theorem actsFrom_raw (inside : Bool) (cs : List Char) (rest : List Token) :
    actsFrom inside (cs.map .raw ++ rest) =
      (if inside then cs.map .script else []) ++ actsFrom inside rest := by
  induction cs with
  | nil => cases inside <;> rfl
  | cons c cs ih =>
    rw [List.map_cons, List.cons_append, actsFrom, ih]
    cases inside <;> rfl

theorem ne_script_of_not_raw {tag : String} (h : tag.toList ∉ rawNames) :
    tag.toList ≠ "script".toList := by
  intro heq
  refine h ?_
  rw [heq]
  exact List.mem_cons_self

mutual

theorem actsFrom_tokens : ∀ n : Node, Tame n → ∀ rest,
    actsFrom false (n.tokens ++ rest) = n.behavior ++ actsFrom false rest
  | .text s, _, rest => by
    rw [Node.tokens, Node.behavior]
    exact actsFrom_text false _ rest
  | .element tag attributes children, h, rest => by
    rw [Tame] at h
    obtain ⟨-, hraw, -, hchildren⟩ := h
    have houtside : decide (tag.toList = "script".toList) = false :=
      decide_eq_false (ne_script_of_not_raw hraw)
    rw [Node.tokens, Node.behavior, List.cons_append, List.cons_append, actsFrom, houtside,
      filterMap_handler?_read, List.append_assoc, actsFrom_nodesTokens children hchildren,
      List.append_assoc]
    rfl
  | .void tag attributes, h, rest => by
    rw [Tame] at h
    obtain ⟨-, hraw, -⟩ := h
    have houtside : decide (tag.toList = "script".toList) = false :=
      decide_eq_false (ne_script_of_not_raw hraw)
    rw [Node.tokens, Node.behavior, List.cons_append, actsFrom, houtside, filterMap_handler?_read]
    rfl
  | .raw tag content, _, rest => by
    -- the closing tag of the element is behind its characters
    rw [Node.tokens, Node.behavior, List.cons_append, List.cons_append, List.append_assoc, actsFrom,
      actsFrom_raw]
    by_cases htag : tag = "script"
    · subst htag
      rfl
    · have houtside : decide (tag.toList = "script".toList) = false :=
        decide_eq_false fun heq => htag (String.toList_inj.mp heq)
      rw [houtside, if_neg htag]
      rfl
  | .reference code, _, rest => by
    rw [Node.tokens, Node.behavior]
    exact actsFrom_text false _ rest
  | .verbatim _, h, _ => by
    rw [Tame] at h
    exact h.elim

theorem actsFrom_nodesTokens : ∀ nodes : List Node, AllTame nodes → ∀ rest,
    actsFrom false (nodesTokens nodes ++ rest) = nodesBehavior nodes ++ actsFrom false rest
  | [], _, _ => rfl
  | n :: others, h, rest => by
    rw [AllTame] at h
    rw [nodesTokens, nodesBehavior, List.append_assoc, actsFrom_tokens n h.1,
      actsFrom_nodesTokens others h.2, List.append_assoc]

end

/-- **Behavior.** What of the markup of a tame node can act is the behavior of the node. -/
theorem behavior_render {n : Node} (h : Tame n) : behavior n.render = n.behavior := by
  have htokens := actsFrom_tokens n h []
  rw [List.append_nil] at htokens
  rw [behavior, tokenize_render h, htokens]
  exact List.append_nil _

/-! ## Handlers and scripts -/

/-- The code of each handler. -/
def handlers (acts : List Act) : List (List Char) :=
  acts.filterMap fun
    | .handler _ code => some code
    | .script _ => none

/-- The text of all scripts. -/
def scriptOf (acts : List Act) : List Char :=
  acts.filterMap fun
    | .handler _ _ => none
    | .script c => some c

theorem handlers_script (cs : List Char) : handlers (cs.map .script) = [] := by
  induction cs with
  | nil => rfl
  | cons c rest ih => exact ih

theorem scriptOf_script (cs : List Char) : scriptOf (cs.map .script) = cs := by
  induction cs with
  | nil => rfl
  | cons c rest ih => exact congrArg (c :: ·) ih

end EmbedUI.Markup

namespace EmbedUI

open Markup

/-! ## The behavior of components

A component has one handler and one script, and nothing else of it can act, whatever it shows. -/

@[simp] theorem behavior_styled (tag style : String) (children : List Node) :
    (styled tag style children).behavior = nodesBehavior children := by
  have hstyle : ¬IsHandlerName "style".toList := by decide
  simp [styled, behavior_attr hstyle]

/-- The script of a component with its handlers. -/
def Markup.Script.text (functions : List String) : String :=
  Script.prologue ++ if functions.isEmpty then "" else Block.content functions

@[simp] theorem behavior_script (functions : List String) :
    (Script.element functions).behavior = (Script.text functions).toList.map .script := by
  rw [Script.element, Node.behavior, if_pos rfl]
  rfl

/-- **Cards.** Before its script a card has one part that acts, and nothing else of it does. -/
theorem behavior_card {tag : String} {attributes : List Attribute}
    (hattributes : attributes.flatMap Attribute.behavior = []) {before after : List Node}
    (hbefore : nodesBehavior before = []) (hafter : nodesBehavior after = [])
    {acting script : Node} {handler : Act} {acts : List Act} (hacting : acting.behavior = [handler])
    (hscript : script.behavior = acts) :
    (Node.element tag attributes
      (before ++ newline 2 :: acting :: newline 2 :: script :: after)).behavior =
        handler :: acts := by
  simp [hattributes, hbefore, hafter, hacting, hscript]

theorem behavior_cardAttributes (name style : String) :
    [attr "class" name, attr "style" style].flatMap Attribute.behavior = [] := by
  simp [behavior_attr, IsHandlerName]

/-- The button below a dashboard or a chart. -/
theorem behavior_footer (code style label : String) :
    (styled "div" footerStyle
      [newline 4,
        .element "button" [attr "onclick" code, attr "style" style] [.text label],
        newline 2]).behavior = [.handler "onclick".toList code.toList] := by
  have hclick := behavior_handler (show IsHandlerName "onclick".toList by decide) code
  simp [behavior_attr, IsHandlerName, hclick]

theorem behavior_ending : nodesBehavior [newline 0] = [] := by simp

/-! ### Forms -/

namespace Form

theorem behavior_optionNode (value label : String) : (optionNode value label).behavior = [] := by
  simp [optionNode, behavior_attr, IsHandlerName]

theorem behavior_control (f : Field) : f.control.behavior = [] := by
  have hmark : (requiredMark f).flatMap Attribute.behavior = [] := by
    unfold requiredMark
    split <;> decide
  have hoptions := nodesBehavior_map
    (fun o : ChoiceOption => behavior_optionNode o.value o.label) (f.options.getD [])
  unfold Field.control
  cases f.kind <;> simp [behavior_attr, IsHandlerName, behavior_optionNode, hmark, hoptions]

theorem behavior_fieldNodes (f : Field) : nodesBehavior f.nodes = [] := by
  simp [Field.nodes, Field.block, behavior_attr, IsHandlerName, behavior_control]

/-- **Forms.** -/
theorem behavior_node (form : Form) (id : String) :
    (form.node id).behavior =
      .handler "onsubmit".toList
          (Script.call "handleFormSubmit" ["event", Script.stringLiteral id]).toList ::
        (Script.text submitHandler).toList.map .script := by
  have hheading : nodesBehavior [newline 2, styled "h2" headingStyle [.text form.title]] = [] := by
    simp
  have hstyle : nodesBehavior [newline 2, styleSheet, newline 0] = [] := by
    have hsheet : styleSheet.behavior = [] := by
      rw [styleSheet, Node.behavior]
      exact if_neg (by decide)
    simp [hsheet]
  have hsubmit := behavior_handler (show IsHandlerName "onsubmit".toList by decide)
    (Script.call "handleFormSubmit" ["event", Script.stringLiteral id])
  have hfields := nodesBehavior_flatMap behavior_fieldNodes form.fields
  refine behavior_card (behavior_cardAttributes _ _) hheading hstyle ?_ (behavior_script _)
  simp [behavior_attr, IsHandlerName, hsubmit, hfields]

end Form

/-! ### Charts -/

namespace Chart

theorem behavior_barNodes (s : Series) (scale area : Float) :
    nodesBehavior (barNodes s scale area) = [] := by
  have hbars := nodesBehavior_flatMap
    (f := fun (p : Float × Float) => [newline 4, barNode p.1 p.2])
    (fun p => by simp [barNode, behavior_attr, IsHandlerName])
    (s.values.zip (barHeights s.values scale))
  have hlabels := nodesBehavior_map (f := labelNode) (fun l => by simp [labelNode]) s.labels
  simp [barNodes, hbars, hlabels]

theorem behavior_pieNodes (s : Series) : nodesBehavior (pieNodes s) = [] := by
  have hlegend := nodesBehavior_flatMap
    (f := fun (p : String × Slice Float) => [newline 4, legendNode p.1 p.2.color])
    (fun p => by simp [legendNode, behavior_attr, IsHandlerName]) (s.labels.zip (slices s.values))
  simp [pieNodes, behavior_attr, IsHandlerName, hlegend]

/-- **Charts.** -/
theorem behavior_node (c : Chart) (id : String) :
    (c.node id).behavior =
      .handler "onclick".toList (Script.call "exportChart" [Script.stringLiteral id]).toList ::
        (Script.text exportHandler).toList.map .script := by
  have hdrawing : nodesBehavior c.drawing = [] := by
    unfold drawing
    cases c.style with
    | bar => exact behavior_barNodes _ _ _
    | pie => exact behavior_pieNodes _
  have hbefore : nodesBehavior
      ([newline 2, styled "h2" headingStyle [.text c.title], newline 2] ++ c.drawing) = [] := by
    simp [hdrawing]
  exact behavior_card (behavior_cardAttributes _ _) hbefore behavior_ending
    (behavior_footer _ _ _) (behavior_script _)

end Chart

/-! ### Dashboards -/

namespace Dashboard

theorem behavior_body (w : Widget) : nodesBehavior w.body = [] := by
  cases w with
  | metric title data => simp [Widget.body, metricNode]
  | list title data =>
    have hitems := nodesBehavior_map (f := itemNode) (fun i => by simp [itemNode]) data.items
    simp [Widget.body, listNode, hitems]
  | chart title data => exact Chart.behavior_barNodes _ _ _

/-- **Dashboards.** -/
theorem behavior_node (d : Dashboard) (id : String) :
    (d.node id).behavior =
      .handler "onclick".toList (Script.call "refreshDashboard" [Script.stringLiteral id]).toList ::
        (Script.text refreshHandler).toList.map .script := by
  have hwidgets := nodesBehavior_flatMap (f := fun w : Widget => [newline 4, w.block])
    (fun w => by simp [Widget.block, behavior_attr, IsHandlerName, behavior_body]) d.widgets
  have hbefore : ∀ heading name style, nodesBehavior
      [newline 2, styled "h2" heading [.text d.title], newline 2,
        .element "div" [attr "class" name, attr "style" style]
          (d.widgets.flatMap (fun w => [newline 4, w.block]) ++ [newline 2])] = [] := by
    simp [behavior_attr, IsHandlerName, hwidgets]
  exact behavior_card (behavior_cardAttributes _ _) (hbefore _ _ _) behavior_ending
    (behavior_footer _ _ _) (behavior_script _)

end Dashboard

end EmbedUI
