import EmbedUI.Json.Printer
import EmbedUI.Markup.Block
import EmbedUI.Markup.Node
import EmbedUI.Message.ActionType

/-!
# The embedded script

Every component carries the same prologue: the version of the message protocol, the list of action
types, and one function that posts a message to the embedding window if its type is in the list.
The handlers of a component reach the host through that function alone, and the type in each call
comes from `ActionType`.
-/

namespace EmbedUI.Markup.Script

open Block

/-- The version of the message protocol. -/
def protocolVersion : Nat := 1

/-- The windows that a message is addressed to. -/
def targetOrigin : String := "*"

/-- Keeps a closing tag from appearing inside a string literal: the slash behind `<` is escaped,
which string literals allow. -/
def guardClosers : List Char → List Char
  | '<' :: '/' :: rest => '<' :: '\\' :: '/' :: guardClosers rest
  | c :: rest => c :: guardClosers rest
  | [] => []

/-- A string literal that may stand in a script and, once escaped, in an attribute. -/
def stringLiteral (s : String) : String := String.ofList (guardClosers (Json.literal s.toList))

/-- A call that posts an action with a payload expression. -/
def post (action : ActionType) (payload : String) : String :=
  "postAction(" ++ stringLiteral action.name ++ ", " ++ payload ++ ");"

/-- A call of a function with the arguments as they are written. -/
def call (function : String) (arguments : List String) : String :=
  function ++ "(" ++ ", ".intercalate arguments ++ ")"

/-! ### The prologue -/

/-- Posts messages whose type is listed. -/
def postFunction : List String :=
  block "function postAction(type, payload) "
    (block "if (WIDGETRY_ACTIONS.indexOf(type) === -1) " ["return;"] "" ++
      [call "window.parent.postMessage"
        [braced "type: type, payload: payload", stringLiteral targetOrigin] ++ ";"])
    ""

/-- What a button does while the pointer enters or leaves it. -/
def hover (event transform shadow : String) : List String :=
  block ("button.addEventListener('" ++ event ++ "', function () ")
    ["this.style.transform = '" ++ transform ++ "';",
      "this.style.boxShadow = '" ++ shadow ++ "';"]
    ");"

def hoverEffects : List String :=
  block "document.querySelectorAll('button').forEach(function (button) "
    (hover "mouseenter" "translateY(-2px)" "0 6px 16px rgba(0,0,0,0.3)" ++
      hover "mouseleave" "translateY(0)" "")
    ");"

def prologue : String :=
  content (["const WIDGETRY_PROTOCOL = " ++ Decimal.integerText protocolVersion ++ ";",
      "const WIDGETRY_ACTIONS = ["
        ++ ", ".intercalate (ActionType.all.map fun t => stringLiteral t.name) ++ "];"]
    ++ postFunction ++ hoverEffects)

/-- The script of a component: the prologue and its handlers. -/
def element (handlers : List String) : Node :=
  .raw "script" (prologue ++ if handlers.isEmpty then "" else content handlers)

end EmbedUI.Markup.Script
