import EmbedUI.Component.Rejection
import EmbedUI.Form.Basic

/-!
# Which forms make sense

Every field needs a name of its own, and a select field needs something to select. Fields are
checked in order and the first offender is reported; a problem with its name comes before one with
its options.
-/

namespace EmbedUI.Form

def reject (index : Nat) (part : String) (complaint : Complaint) : Rejection :=
  { kind := .form, path := "fields[" ++ Decimal.integerText index ++ "]." ++ part,
    complaint := complaint }

/-- What is wrong with the field at an index, behind fields with the given names. -/
def Field.problem? (earlier : List String) (index : Nat) (f : Field) : Option Rejection :=
  if Text.allBlank f.name then some (reject index "name" .blankFieldName)
  else if f.name ∈ earlier then some (reject index "name" (.duplicateFieldName f.name))
  else if f.kind = .select ∧ f.options.getD [] = [] then
    some (reject index "options" (.noOptions f.name))
  else none

/-- The first problem among fields, the first of which has the given index. -/
def firstProblem? (earlier : List String) (index : Nat) : List Field → Option Rejection
  | [] => none
  | f :: rest =>
    (f.problem? earlier index).or (firstProblem? (earlier ++ [f.name]) (index + 1) rest)

/-- The first problem of a form. -/
def problem? (form : Form) : Option Rejection := firstProblem? [] 0 form.fields

end EmbedUI.Form
