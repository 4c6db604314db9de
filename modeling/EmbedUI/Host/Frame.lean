import EmbedUI.Markup.Node
import EmbedUI.Resource

/-!
# Frames

Markup from a resource is shown inside a frame that may run scripts and nothing else: its only way
out is to post messages. A resource that is not markup is refused, or replaced by a visible
placeholder.
-/

namespace EmbedUI.Host

open EmbedUI.Markup

/-- What a frame may do. -/
def sandbox : String := "allow-scripts"

/-- The resource cannot be shown in a frame. -/
structure Unsupported where
  mediaType : String
deriving DecidableEq, Repr

def Unsupported.message (u : Unsupported) : String :=
  "unsupported resource type: " ++ u.mediaType

/-- A frame around the text of a resource. -/
def frameNode (r : Resource) : Node :=
  .element "iframe"
    [attr "class" "widgetry-frame", attr "title" r.address, attr "sandbox" sandbox,
      attr "srcdoc" r.text,
      attr "style" ("width: 100%; height: 600px; border: none; border-radius: 16px;"
        ++ " background-color: transparent;")]
    []

/-- What is shown in place of a resource that is not markup. -/
def placeholderNode (u : Unsupported) : Node :=
  .element "div" [attr "class" "widgetry-unsupported"]
    [.text ("Unsupported resource type: " ++ u.mediaType)]

/-- The frame of a resource, if it is markup. -/
def frame (r : Resource) : Except Unsupported String :=
  if r.isMarkup then .ok (frameNode r).render else .error ⟨r.mediaType⟩

/-- The frame of a resource, or the placeholder. -/
def frameOrPlaceholder (r : Resource) : String :=
  match frame r with
  | .ok markup => markup
  | .error u => (placeholderNode u).render

end EmbedUI.Host
