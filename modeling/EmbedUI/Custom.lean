import EmbedUI.Component.Rejection
import EmbedUI.Markup.Script
import EmbedUI.Resource
import EmbedUI.Text.Blank

/-!
# Custom components

Markup of the caller's own, embedded as it is given. Its title is kept but not shown. The script
that comes with it lets the markup post actions like any other component.
-/

namespace EmbedUI

structure Custom where
  title : Option String
  html : String
deriving DecidableEq, Repr

namespace Custom

def encode (c : Custom) : Json :=
  .obj (Json.optionalEntry "title" (c.title.map .str) ++ [("html", .str c.html)])

def record {ε : Type} [Json.Source ε] : Json.Record ε Custom :=
  Custom.mk <$> .optional "title" Json.string <*> .required "html" Json.string

def decode {ε : Type} [Json.Source ε] : Json.Decoder ε Custom := record.decode "CustomConfig"

/-- A custom component without markup makes no sense. -/
def problem? (c : Custom) : Option Rejection :=
  if Text.allBlank c.html then some { kind := .custom, path := "html", complaint := .noMarkup }
  else none

open EmbedUI.Markup

/-- The markup of a custom component under an identity. -/
def node (c : Custom) (id : String) : Node :=
  .element "div" [attr "class" "widgetry-custom", attr "data-component-id" id]
    [.verbatim c.html, Script.element []]

/-- The resource of a custom component, unless it makes no sense. -/
def compile (c : Custom) (id : ComponentId) : Except Rejection Resource :=
  match c.problem? with
  | some rejection => .error rejection
  | none => .ok (.ofMarkup id.address (c.node id.text).render)

end Custom

end EmbedUI
