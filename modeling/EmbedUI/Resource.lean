import EmbedUI.Component.Id

/-!
# Resources

A resource is what a host receives: an address, a media type and a text. The library itself only
makes resources that carry markup; a host may be handed others and has to tell them apart.
-/

namespace EmbedUI

structure Resource where
  address : String
  mediaType : String
  text : String
  encoding : String
deriving DecidableEq, Repr

namespace Resource

/-- The media type of markup. -/
def markupType : String := "text/html"

def defaultEncoding : String := "text"

/-- A resource that carries markup. -/
def ofMarkup (address markup : String) : Resource :=
  { address := address, mediaType := markupType, text := markup, encoding := defaultEncoding }

def isMarkup (r : Resource) : Bool := r.mediaType == markupType

def encode (r : Resource) : Json :=
  .obj [("uri", .str r.address), ("mimeType", .str r.mediaType), ("text", .str r.text),
    ("encoding", .str r.encoding)]

def record {ε : Type} [Json.Source ε] : Json.Record ε Resource :=
  Resource.mk <$> .required "uri" Json.string <*> .required "mimeType" Json.string
    <*> .required "text" Json.string <*> .defaulted "encoding" defaultEncoding Json.string

def decode {ε : Type} [Json.Source ε] : Json.Decoder ε Resource := record.decode "UiResource"

end Resource

end EmbedUI
