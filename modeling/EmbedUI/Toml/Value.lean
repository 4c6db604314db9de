import EmbedUI.Toml.Calendar
import EmbedUI.Toml.Number

/-!
# TOML values
-/

namespace EmbedUI.Toml

inductive Value where
  | text (value : String)
  | number (value : Number)
  | flag (value : Bool)
  | moment (value : Moment)
  | list (items : List Value)
  | table (entries : List (String × Value))

/-- The entries of a table. No key occurs twice. -/
abbrev Table := List (String × Value)

end EmbedUI.Toml
