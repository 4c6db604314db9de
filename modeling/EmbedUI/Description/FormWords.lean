import EmbedUI.Form.Basic
import EmbedUI.Text.Keyword

/-!
# Words that ask for form fields

Ten words each stand for a field of that name. A form description gets the fields whose words it
mentions, in the order of the dictionary.
-/

namespace EmbedUI.Description

open EmbedUI.Form

/-- A field with a label and no options. -/
def plainField (name : String) (kind : FieldKind) (label : String) (required : Bool) : Field :=
  { name := name, kind := kind, label := label, placeholder := none, required := required,
    options := none }

/-- An optional field that offers choices. -/
def choiceField (name label : String) (choices : List String) : Field :=
  { name := name, kind := .select, label := label, placeholder := none, required := false,
    options := some (choices.map ChoiceOption.same) }

/-- The fields that have a word; the word is the field's name. -/
def fieldDictionary : List Field :=
  [plainField "name" .text "Full Name" true,
    plainField "email" .email "Email Address" true,
    plainField "phone" .tel "Phone Number" false,
    plainField "message" .textarea "Message" false,
    plainField "age" .number "Age" false,
    choiceField "gender" "Gender" ["Male", "Female", "Other"],
    choiceField "country" "Country" ["USA", "Canada", "UK", "Other"],
    plainField "subject" .text "Subject" true,
    plainField "company" .text "Company" false,
    plainField "website" .url "Website" false]

/-- The fields of a form whose description mentions none. -/
def defaultFieldNames : List String := ["name", "email", "message"]

/-- The fields that a lowered description asks for. -/
def formFields (text : List Char) : List Field :=
  match fieldDictionary.filter fun f => Text.mentions text f.name with
  | [] => fieldDictionary.filter fun f => defaultFieldNames.contains f.name
  | fields => fields

end EmbedUI.Description
