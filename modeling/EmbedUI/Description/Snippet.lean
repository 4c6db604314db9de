import EmbedUI.Markup.Block
import EmbedUI.Markup.Node
import EmbedUI.Markup.Style
import EmbedUI.Text.Keyword

/-!
# Ready-made markup

A description that asks for no form, dashboard or chart gets one of three ready-made pieces of
markup: a profile card, a call to action, or a plain block.
-/

namespace EmbedUI.Description

open EmbedUI.Markup

/-- The card that every piece sits in, with a style of its own behind the common one. -/
def snippetCard (name style : String) (children : List Node) : Node :=
  .element "div" [attr "class" name, attr "style" (cardStyle ++ " " ++ style)] children

/-- A figure with a caption. -/
def figureNode (figure caption : String) : Node :=
  .element "div" []
    [styled "div" "font-size: 1.5rem; font-weight: bold;" [.text figure],
      styled "div" "font-size: 0.9rem; opacity: 0.8;" [.text caption]]

def profileCard : Node :=
  snippetCard "profile-card" "max-width: 400px; margin: 0 auto; text-align: center;"
    [newline 2,
      styled "div"
        ("width: 80px; height: 80px; border-radius: 50%; background: rgba(255,255,255,0.2);"
          ++ " margin: 0 auto 1rem; display: flex; align-items: center;"
          ++ " justify-content: center; font-size: 2rem;")
        [.reference 128100],
      newline 2, styled "h2" "margin-bottom: 0.5rem;" [.text "John Doe"],
      newline 2,
      styled "p" "margin-bottom: 1rem; opacity: 0.8;" [.text "Software Developer"],
      newline 2,
      styled "div" "display: flex; justify-content: space-around; margin-top: 1.5rem;"
        [newline 4, figureNode "150" "Projects", newline 4, figureNode "5+" "Years",
          newline 4, figureNode "4.9" "Rating", newline 2],
      newline 0]

/-- The call that a button of a piece makes: it shows a notice. -/
def noticeCall (message : String) : String :=
  "postAction('notify', " ++ Block.braced ("message: '" ++ message ++ "'") ++ ")"

def callToAction : Node :=
  snippetCard "call-to-action" "text-align: center;"
    [newline 2, styled "h2" "margin-bottom: 1rem;" [.text "Call to Action"],
      newline 2,
      styled "p" "margin-bottom: 2rem; opacity: 0.9;"
        [.text "Ready to get started? Click the button below!"],
      newline 2,
      .element "button"
        [attr "onclick" (noticeCall "Get Started clicked"),
          attr "style" ("padding: 1rem 2rem; border: none; border-radius: 8px; background: "
            ++ greenGradient ++ "; color: white; font-size: 1.1rem; font-weight: 600;"
            ++ " cursor: pointer; transition: all 0.2s;"
            ++ " box-shadow: 0 4px 12px rgba(0,0,0,0.2);")]
        [.text "Get Started"],
      newline 0]

/-- A button of the plain block. -/
def plainButton (label : String) : Node :=
  .element "button"
    [attr "onclick" (noticeCall label),
      attr "style" ("padding: 0.75rem 1.5rem; border: none; border-radius: 6px; background:"
        ++ " rgba(255,255,255,0.2); color: white; cursor: pointer;")]
    [.text label]

def plainBlock : Node :=
  snippetCard "custom-block" "text-align: center;"
    [newline 2, styled "h2" "margin-bottom: 1rem;" [.text "Custom Component"],
      newline 2,
      styled "p" "margin-bottom: 1rem; opacity: 0.9;"
        [.text "This is a custom component generated based on your description."],
      newline 2,
      styled "div" "display: flex; justify-content: center; gap: 1rem; margin-top: 1.5rem;"
        [newline 4, plainButton "Action 1", newline 4, plainButton "Action 2", newline 2],
      newline 0]

/-- The piece that a lowered description gets. -/
def snippet (text : List Char) : Node :=
  if Text.mentionsAny text ["card", "profile"] then profileCard
  else if Text.mentionsAny text ["button", "cta"] then callToAction
  else plainBlock

end EmbedUI.Description
