import EmbedUI.Host.Settings
import EmbedUI.Message.Envelope
import EmbedUI.Text.Blank

/-!
# Tools of a host

A host offers two tools: one applies a theme and a font size together, the other sets the animation
speed. A request is decoded completely before anything changes, so it applies as a whole or not at
all.
-/

namespace EmbedUI.Host

/-- A request that can be carried out. -/
inductive ToolCall where
  | applySettings (theme : String) (fontSize : UInt32)
  | setAnimationSpeed (speed : AnimationSpeed)
deriving DecidableEq, Repr

/-- Why the parameters of a known tool are of no use. -/
inductive ParameterFault where
  | shape (cause : Json.DecodeError)
  | blankTheme
  | notANumber (text : String)
  | zeroFontSize

inductive ToolError where
  | unknownTool (tool : String)
  | badParameters (tool : String) (fault : ParameterFault)

def ParameterFault.message : ParameterFault → String
  | .shape cause => cause.message
  | .blankTheme => "theme must not be empty"
  | .notANumber text => "font size " ++ Text.quoted text ++ " is not a number"
  | .zeroFontSize => "font size must be positive"

def ToolError.message : ToolError → String
  | .unknownTool tool => "unknown tool: " ++ tool
  | .badParameters tool fault => "invalid params for tool " ++ tool ++ ": " ++ fault.message

/-! ### Font sizes -/

/-- A font size as it is posted: range controls post their value as text. -/
inductive FontSize where
  | number (n : UInt32)
  | text (s : String)

namespace FontSize

/-- Removes every `px` from the end of a text, which is given back to front. -/
def dropUnits : List Char → List Char
  | 'x' :: 'p' :: rest => dropUnits rest
  | cs => cs

/-- A text of digits, perhaps behind a plus sign, as a number of thirty-two bits. -/
def ofDigits? (cs : List Char) : Option UInt32 :=
  let ds :=
    match cs with
    | '+' :: rest => rest
    | cs => cs
  let n := Text.naturalOf ds
  if !ds.isEmpty && ds.all Char.isDigit && decide (n < UInt32.size) then some n.toUInt32 else none

/-- The size that a text denotes. -/
def ofText? (s : String) : Option UInt32 :=
  ofDigits? (dropUnits (Text.trimmed s.toList).reverse).reverse

def decode : Json.Decoder Empty FontSize := fun t =>
  match Json.uint32 t with
  | .ok n => .ok (.number n)
  | .error _ =>
    match t with
    | .str s => .ok (.text s)
    | _ => .error (.noAlternative "FontSize")

/-- The size in pixels. Zero is no size. -/
def pixels : FontSize → Except ParameterFault UInt32
  | .number n => if n = 0 then .error .zeroFontSize else .ok n
  | .text s =>
    match ofText? s with
    | none => .error (.notANumber s)
    | some n => if n = 0 then .error .zeroFontSize else .ok n

end FontSize

/-! ### Calls -/

namespace ToolCall

def appearance : Json.Record Empty (String × FontSize) :=
  Prod.mk <$> .required "theme" Json.string <*> .required "fontSize" FontSize.decode

def speed : Json.Record Empty AnimationSpeed := .required "speed" AnimationSpeed.decode

/-- The parameters of the tool that applies settings. The theme is looked at first. -/
def ofAppearance (parameters : Json) : Except ParameterFault ToolCall := do
  let (theme, size) ← (appearance.decode "ApplySettingsParams" parameters).mapError .shape
  if Text.allBlank theme then throw .blankTheme
  return .applySettings theme (← size.pixels)

def ofSpeed (parameters : Json) : Except ParameterFault ToolCall := do
  let s ← (speed.decode "SetAnimationSpeedParams" parameters).mapError .shape
  return .setAnimationSpeed s

/-- The tools by name. -/
def tools : List (String × (Json → Except ParameterFault ToolCall)) :=
  [("applySettings", ofAppearance), ("setAnimationSpeed", ofSpeed)]

/-- The call that a request asks for. -/
def ofRequest (request : ToolRequest) : Except ToolError ToolCall :=
  match tools.find? fun (name, _) => name = request.tool with
  | none => .error (.unknownTool request.tool)
  | some (_, read) => (read request.parameters).mapError (.badParameters request.tool)

/-- The settings after a call. -/
def apply : ToolCall → Settings → Settings
  | .applySettings theme fontSize, s => { s with theme := theme, fontSize := fontSize }
  | .setAnimationSpeed speed, s => { s with animationSpeed := speed }

end ToolCall

end EmbedUI.Host
