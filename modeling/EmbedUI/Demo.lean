import EmbedUI.Markup.Script
import EmbedUI.Markup.Style
import EmbedUI.Resource

/-!
# The settings demo

A fixed resource that exercises the tools of a host and its notices: themes, a font size, animation
speeds, and three buttons that show a notice.
-/

namespace EmbedUI.Demo

open EmbedUI.Markup

def address : String := "ui://example/interactive-demo"

def themes : List (String × String) :=
  [("light", "Light Theme"), ("dark", "Dark Theme"), ("blue", "Blue Theme"),
    ("green", "Green Theme")]

def speeds : List (String × String) := [("slow", "Slow"), ("normal", "Normal"), ("fast", "Fast")]

/-- Label, colour and message of each notice button. -/
def notices : List (String × String × String) :=
  [("Info", "#3b82f6", "This is an info notification!"),
    ("Success", "#10b981", "This is a success notification!"),
    ("Warning", "#f59e0b", "This is a warning notification!")]

/-! ### Handlers -/

/-- A call that runs a tool of the host. -/
def toolCall (tool parameters : String) : String :=
  Script.post .tool
    (Block.braced ("toolName: " ++ Script.stringLiteral tool ++ ", params: " ++ parameters))

def handlers : List String :=
  Block.block "document.getElementById('font-size').addEventListener('input', function () "
      ["document.getElementById('font-size-value').textContent = this.value + 'px';"] ");"
    ++ Block.block "function setAnimationSpeed(speed) "
      [toolCall "setAnimationSpeed" (Block.braced "speed: speed")] ""
    ++ Block.block "function notify(message) "
      [Script.post .notify (Block.braced "message: message")] ""
    ++ Block.block "function applySettings() "
      [toolCall "applySettings"
        (Block.braced ("theme: document.getElementById('theme-select').value,"
          ++ " fontSize: document.getElementById('font-size').value"))] ""

/-! ### Controls -/

def sectionStyle : String := "margin-bottom: 1.5rem;"

def labelStyle : String := "display: block; margin-bottom: 0.5rem; font-weight: 500;"

def rowStyle : String := "display: flex; gap: 0.5rem;"

def choiceStyle : String :=
  "flex: 1; padding: 0.5rem; border: 2px solid rgba(255,255,255,0.3); border-radius: 6px;"
    ++ " background: rgba(255,255,255,0.1); color: white; cursor: pointer;"
    ++ " transition: all 0.2s;"

/-- A call with one quoted argument. -/
def quotedCall (function argument : String) : String :=
  Script.call function ["'" ++ argument ++ "'"]

def themeNode (theme : String × String) : Node :=
  .element "option" [attr "value" theme.1] [.text theme.2]

def speedNode (speed : String × String) : Node :=
  .element "button"
    [attr "onclick" (quotedCall "setAnimationSpeed" speed.1), attr "style" choiceStyle]
    [.text speed.2]

def noticeNode (notice : String × String × String) : Node :=
  .element "button"
    [attr "onclick" (quotedCall "notify" notice.2.2),
      attr "style" ("flex: 1; padding: 0.75rem; border: none; border-radius: 6px; background: "
        ++ notice.2.1
        ++ "; color: white; cursor: pointer; font-weight: 500; transition: all 0.2s;")]
    [.text notice.1]

/-- A section of the demo: a label and what it is for. -/
def sectionNode (label : Node) (controls : List Node) : Node :=
  styled "div" sectionStyle
    ([newline 4, label] ++ controls.flatMap (fun n => [newline 4, n]) ++ [newline 2])

/-- A label for the control with an id. -/
def labelFor (id text : String) : Node :=
  .element "label" [attr "for" id, attr "style" labelStyle] [.text text]

def themeSection : Node :=
  sectionNode (labelFor "theme-select" "Color Theme:")
    [.element "select"
      [attr "id" "theme-select",
        attr "style" ("width: 100%; padding: 0.75rem; border: 2px solid rgba(255,255,255,0.3);"
          ++ " border-radius: 8px; background: rgba(255,255,255,0.1); color: white;"
          ++ " font-size: 1rem;")]
      (themes.map themeNode)]

def fontSection : Node :=
  sectionNode (labelFor "font-size" "Font Size:")
    [.void "input"
        [attr "type" "range", attr "id" "font-size", attr "min" "12", attr "max" "24",
          attr "value" "16", attr "style" "width: 100%;"],
      styled "div" "text-align: center; margin-top: 0.5rem; font-size: 0.9rem;"
        [.text "Size: ", .element "span" [attr "id" "font-size-value"] [.text "16px"]]]

def speedSection : Node :=
  sectionNode (styled "label" labelStyle [.text "Animation Speed:"])
    [styled "div" rowStyle (speeds.map speedNode)]

def noticeSection : Node :=
  sectionNode (styled "label" labelStyle [.text "Notifications:"])
    [styled "div" rowStyle (notices.map noticeNode)]

def applyButton : Node :=
  styled "div" "text-align: center;"
    [newline 4,
      .element "button"
        [attr "onclick" (Script.call "applySettings" []),
          attr "style" ("padding: 1rem 2rem; border: none; border-radius: 8px; background: "
            ++ greenGradient ++ "; color: white; font-size: 1.1rem; font-weight: 600;"
            ++ " cursor: pointer;")]
        [.text "Apply Settings"],
      newline 2]

def node : Node :=
  .element "div" [attr "class" "widgetry-demo", attr "style" (containerStyle "500px")]
    [newline 2, styled "h2" headingStyle [.text "Interactive Demo"],
      newline 2, themeSection, newline 2, fontSection, newline 2, speedSection,
      newline 2, noticeSection, newline 2, applyButton,
      newline 2, Script.element handlers, newline 0]

def resource : Resource := .ofMarkup address node.render

end EmbedUI.Demo
