import EmbedUI.Component.Kind

/-!
# Identities and addresses of components

A component is identified by its kind, the user it was made for and the millisecond it was made in.
Its address puts the identity behind a namespace and the kind.
-/

namespace EmbedUI

structure ComponentId where
  space : String
  kind : ComponentKind
  user : String
  /-- Milliseconds since the epoch. -/
  created : Int
deriving DecidableEq, Repr

namespace ComponentId

/-- The identity as text. It does not mention the namespace, and a user id may itself contain
hyphens. -/
def text (id : ComponentId) : String :=
  id.kind.name ++ "-" ++ id.user ++ "-" ++ Decimal.integerText id.created

/-- The address of the component. -/
def address (id : ComponentId) : String :=
  "ui://" ++ id.space ++ "/" ++ id.kind.name ++ "/" ++ id.text

end ComponentId

end EmbedUI
