import EmbedUI.Component.Kind
import EmbedUI.Text.Blank

/-!
# Forms

A form has a title, fields in order and the text of its submit button. A field is one control with
a name, a kind and a label; a select control also has options to choose from.

On the wire a field's kind may also be called `type`, and an option may be given as a bare string,
which is then both its value and its label.
-/

namespace EmbedUI.Form

/-- The kinds of controls. -/
inductive FieldKind where
  | text
  | email
  | tel
  | number
  | url
  | select
  | textarea
deriving DecidableEq, Repr

namespace FieldKind

def all : List FieldKind := [text, email, tel, number, url, select, textarea]

def tag : FieldKind → String
  | text => "text"
  | email => "email"
  | tel => "tel"
  | number => "number"
  | url => "url"
  | select => "select"
  | textarea => "textarea"

def encode (k : FieldKind) : Json := .str k.tag

def decode {ε : Type} [Json.Source ε] : Json.Decoder ε FieldKind :=
  Json.oneOf (all.map fun k => (k.tag, k))

/-- The type of a control on one line in markup. -/
def inputType : FieldKind → String
  | text => "text"
  | email => "email"
  | tel => "tel"
  | number => "number"
  | url => "url"
  | select => "select"
  | textarea => "textarea"

end FieldKind

/-- A choice of a select control. -/
structure ChoiceOption where
  value : String
  label : String
deriving DecidableEq, Repr

namespace ChoiceOption

/-- The option whose label is its value. -/
def same (s : String) : ChoiceOption := ⟨s, s⟩

def encode (o : ChoiceOption) : Json := .obj [("value", .str o.value), ("label", .str o.label)]

/-- The full form of an option. A missing label is the value. -/
def record : Json.Record Empty ChoiceOption :=
  (fun value label => ⟨value, label.getD value⟩)
    <$> .required "value" Json.string <*> .optional "label" Json.string

/-- An option is set aside first, so that its two forms can be tried one after the other. The full
form is an object; an array of its fields is not accepted. -/
def decode {ε : Type} [Json.Source ε] : Json.Decoder ε ChoiceOption := fun t => do
  match ← Json.hold t with
  | .str s => return same s
  | .obj entries =>
    match record.ofEntries entries with
    | .ok o => return o
    | .error _ => throw (.noAlternative "RawSelectOption")
  | _ => throw (.noAlternative "RawSelectOption")

end ChoiceOption

structure Field where
  name : String
  kind : FieldKind
  label : String
  placeholder : Option String
  required : Bool
  options : Option (List ChoiceOption)
deriving DecidableEq, Repr

namespace Field

/-- The label that is shown: the name stands in for a blank one. -/
def shownLabel (f : Field) : String := if Text.allBlank f.label then f.name else f.label

def encode (f : Field) : Json :=
  .obj ([("name", .str f.name), ("kind", f.kind.encode), ("label", .str f.label)]
    ++ Json.optionalEntry "placeholder" (f.placeholder.map .str)
    ++ [("required", .bool f.required)]
    ++ Json.optionalEntry "options" (f.options.map fun os => .arr (os.map ChoiceOption.encode)))

def record {ε : Type} [Json.Source ε] : Json.Record ε Field :=
  Field.mk <$> .required "name" Json.string <*> .field "kind" ["type"] none FieldKind.decode
    <*> .defaulted "label" "" Json.string <*> .optional "placeholder" Json.string
    <*> .defaulted "required" false Json.boolean
    <*> .optional "options" (Json.list ChoiceOption.decode)

def decode {ε : Type} [Json.Source ε] : Json.Decoder ε Field := record.decode "FieldSpec"

end Field

end Form

structure Form where
  title : String
  fields : List Form.Field
  submitText : String
deriving DecidableEq, Repr

namespace Form

def defaultSubmitText : String := "Submit"

def encode (f : Form) : Json :=
  .obj [("title", .str f.title), ("fields", .arr (f.fields.map Field.encode)),
    ("submitText", .str f.submitText)]

def record {ε : Type} [Json.Source ε] : Json.Record ε Form :=
  Form.mk <$> .required "title" Json.string <*> .defaulted "fields" [] (Json.list Field.decode)
    <*> .defaulted "submitText" defaultSubmitText Json.string

def decode {ε : Type} [Json.Source ε] : Json.Decoder ε Form := record.decode "FormConfig"

end Form

end EmbedUI
