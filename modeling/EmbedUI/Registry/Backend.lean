import EmbedUI.Json.Diagnostic
import EmbedUI.Json.Record

/-!
# Backends of the registry

The registry remembers two things: what each generated component was made from, and one payload per
user. A backend is any state with the four operations; what they are expected to do is checked by
the conformance suite, not assumed here.
-/

namespace EmbedUI.Registry

/-- What is remembered about a component. -/
structure ComponentRecord where
  id : String
  kind : String
  config : Json
  createdAt : String

/-- A payload that is kept for a user. -/
structure UserRecord where
  user : String
  data : Json

namespace ComponentRecord

def encode (r : ComponentRecord) : Json :=
  .obj [("component_id", .str r.id), ("type", .str r.kind), ("config", r.config),
    ("created_at", .str r.createdAt)]

def record {ε : Type} [Json.Source ε] : Json.Record ε ComponentRecord :=
  ComponentRecord.mk <$> .required "component_id" Json.string <*> .required "type" Json.string
    <*> .required "config" Json.anyValue <*> .required "created_at" Json.string

def decode {ε : Type} [Json.Source ε] : Json.Decoder ε ComponentRecord :=
  record.decode "ComponentRecord"

def same (r s : ComponentRecord) : Bool :=
  r.id == s.id && r.kind == s.kind && r.config.same s.config && r.createdAt == s.createdAt

def diagnostic (r : ComponentRecord) : String :=
  Json.diagnosticRecord "ComponentRecord"
    [("component_id", Text.quoted r.id), ("kind", Text.quoted r.kind),
      ("config", r.config.diagnostic), ("created_at", Text.quoted r.createdAt)]

end ComponentRecord

namespace UserRecord

def encode (r : UserRecord) : Json := .obj [("user_id", .str r.user), ("data", r.data)]

def record {ε : Type} [Json.Source ε] : Json.Record ε UserRecord :=
  UserRecord.mk <$> .required "user_id" Json.string <*> .required "data" Json.anyValue

def decode {ε : Type} [Json.Source ε] : Json.Decoder ε UserRecord :=
  record.decode "UserDataRecord"

def diagnostic (r : UserRecord) : String :=
  Json.diagnosticRecord "UserDataRecord"
    [("user_id", Text.quoted r.user), ("data", r.data.diagnostic)]

end UserRecord

/-- What a key identifies. -/
inductive KeyKind where
  | component
  | user
deriving DecidableEq, Repr

def KeyKind.name : KeyKind → String
  | .component => "component"
  | .user => "user"

inductive StorageError where
  | componentNotFound (id : String)
  | userDataNotFound (user : String)
  | invalidKey (kind : KeyKind) (key : String)
deriving DecidableEq, Repr

namespace StorageError

def message : StorageError → String
  | componentNotFound id => "component not found: " ++ id
  | userDataNotFound user => "user data not found: " ++ user
  | invalidKey kind key => "invalid " ++ kind.name ++ " key: " ++ Text.quoted key

def diagnostic : StorageError → String
  | componentNotFound id =>
    Json.diagnosticRecord "ComponentNotFound" [("component_id", Text.quoted id)]
  | userDataNotFound user =>
    Json.diagnosticRecord "UserDataNotFound" [("user_id", Text.quoted user)]
  | invalidKey kind key =>
    Json.diagnosticRecord "InvalidKey"
      [("kind", Text.quoted kind.name), ("key", Text.quoted key)]

end StorageError

/-- A state with the operations of the registry. -/
structure Backend where
  State : Type
  empty : State
  putComponent : ComponentRecord → StateM State (Except StorageError Unit)
  getComponent : String → StateM State (Except StorageError ComponentRecord)
  putUser : UserRecord → StateM State (Except StorageError Unit)
  getUser : String → StateM State (Except StorageError UserRecord)

end EmbedUI.Registry
