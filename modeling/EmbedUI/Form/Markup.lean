import EmbedUI.Form.Validation
import EmbedUI.Markup.Script
import EmbedUI.Markup.Style
import EmbedUI.Resource

/-!
# Forms as markup

A form becomes one block per field, in order, and a submit button. Submitting posts the values of
all named controls together with the form's identity.
-/

namespace EmbedUI.Form

open EmbedUI.Markup

/-- An option element. -/
def optionNode (value label : String) : Node :=
  .element "option" [attr "value" value] [.text label]

def requiredMark (f : Field) : List Attribute := if f.required then [.bare "required"] else []

/-- The control of a field. A select control starts with a blank option that asks for a choice. -/
def Field.control (f : Field) : Node :=
  let named := [attr "id" f.name, attr "name" f.name]
  let hinted := named ++ [attr "placeholder" (f.placeholder.getD "")] ++ requiredMark f
  match f.kind with
  | .select =>
    .element "select" (named ++ requiredMark f)
      (optionNode "" ("Select " ++ f.shownLabel)
        :: (f.options.getD []).map fun o => optionNode o.value o.label)
  | .textarea => .element "textarea" hinted []
  | kind => .void "input" (attr "type" kind.inputType :: hinted)

/-- The block of a field: its label, starred when the field is required, and its control. -/
def Field.block (f : Field) : Node :=
  .element "div" [attr "class" "form-field", attr "data-field" f.name]
    [newline 6,
      .element "label" [attr "for" f.name]
        [.text (f.shownLabel ++ if f.required then " *" else "")],
      newline 6, f.control, newline 4]

/-- The block of a field on lines of its own. -/
def Field.nodes (f : Field) : List Node := [.text "    ", f.block, newline 0]

/-- Collects the values of the named controls and posts them. -/
def submitHandler : List String :=
  Block.block "function handleFormSubmit(event, formId) "
    (["event.preventDefault();", "const data = " ++ Block.emptyBraces ++ ";"]
      ++ Block.block "new FormData(event.target).forEach(function (value, key) "
          ["data[key] = value;"] ");"
      ++ [Script.post .formSubmit (Block.braced "formId: formId, data: data"),
          "alert('Form submitted successfully!');"])
    ""

def styleSheet : Node :=
  .raw "style" (Block.content (
    [".form-field " ++ Block.braced "margin-bottom: 1.5rem;",
      ".form-field label "
        ++ Block.braced "display: block; margin-bottom: 0.5rem; font-weight: 500;"]
    ++ Block.block ".form-field input, .form-field select, .form-field textarea "
        ["width: 100%; padding: 0.75rem; border: 2px solid rgba(255,255,255,0.3);"
            ++ " border-radius: 8px;",
          "background: rgba(255,255,255,0.1); color: white; font-size: 1rem;"
            ++ " transition: border-color 0.2s;"] ""
    ++ Block.block
        ".form-field input:focus, .form-field select:focus, .form-field textarea:focus "
        ["outline: none; border-color: #10b981;"] ""
    ++ [".form-field textarea " ++ Block.braced "min-height: 100px; resize: vertical;"]))

/-- The markup of a form under an identity. -/
def node (form : Form) (id : String) : Node :=
  .element "div" [attr "class" "widgetry-form", attr "style" (containerStyle "600px")]
    [newline 2, styled "h2" headingStyle [.text form.title],
      newline 2,
      .element "form"
        [attr "id" id,
          attr "onsubmit" (Script.call "handleFormSubmit" ["event", Script.stringLiteral id])]
        (newline 0 :: form.fields.flatMap Field.nodes
          ++ [newline 4,
            styled "div" footerStyle
              [newline 6,
                .element "button" [attr "type" "submit", attr "style" (buttonStyle greenGradient)]
                  [.text form.submitText],
                newline 4],
            newline 2]),
      newline 2, Script.element submitHandler, newline 2, styleSheet, newline 0]

/-- The resource of a form, unless the form makes no sense. -/
def compile (form : Form) (id : ComponentId) : Except Rejection Resource :=
  match form.problem? with
  | some rejection => .error rejection
  | none => .ok (.ofMarkup id.address (form.node id.text).render)

end EmbedUI.Form
