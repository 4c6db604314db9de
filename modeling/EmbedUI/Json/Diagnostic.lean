import EmbedUI.Json.Basic
import EmbedUI.Text.Quoted

/-!
# Values in diagnostics

A diagnostic shows a value with the kind of each of its parts, so that the number `1` and the string
`"1"` are told apart at a glance.
-/

namespace EmbedUI.Json

/-- Content between braces. -/
def inBraces (content : String) : String := "\x7b" ++ content ++ "\x7d"

mutual

def diagnostic : Json → String
  | .null => "Null"
  | .bool true => "Bool(true)"
  | .bool false => "Bool(false)"
  | .num n => "Number(" ++ n.toText ++ ")"
  | .str s => "String(" ++ Text.quoted s ++ ")"
  | .arr items => "Array [" ++ ", ".intercalate (diagnosticItems items) ++ "]"
  | .obj entries => "Object " ++ inBraces (", ".intercalate (diagnosticEntries entries))

def diagnosticItems : List Json → List String
  | [] => []
  | v :: rest => diagnostic v :: diagnosticItems rest

def diagnosticEntries : List (String × Json) → List String
  | [] => []
  | (k, v) :: rest => (Text.quoted k ++ ": " ++ diagnostic v) :: diagnosticEntries rest

end

/-- A record in a diagnostic: its name, and its fields with their values already shown. -/
def diagnosticRecord (name : String) (fields : List (String × String)) : String :=
  name ++ " " ++ inBraces (" " ++ ", ".intercalate (fields.map fun (k, v) => k ++ ": " ++ v) ++ " ")

end EmbedUI.Json
