import EmbedUI.Description.Requirements
import EmbedUI.Registry.Backend

/-!
# Generating components

A request asks for a component by description or by an explicit configuration. It is checked,
compiled, and only then recorded, so a request that fails leaves the registry as it was. The record
holds what the component was made from.
-/

namespace EmbedUI

/-- The namespaces that addresses are made in. -/
structure Namespaces where
  described : String
  explicit : String
deriving DecidableEq, Repr

namespace Namespaces

def standard : Namespaces := { described := "ai", explicit := "dynamic" }

def encode (n : Namespaces) : Json :=
  .obj [("described_namespace", .str n.described), ("explicit_namespace", .str n.explicit)]

def record {ε : Type} [Json.Source ε] : Json.Record ε Namespaces :=
  Namespaces.mk <$> .defaulted "described_namespace" standard.described Json.string
    <*> .defaulted "explicit_namespace" standard.explicit Json.string

def decode {ε : Type} [Json.Source ε] : Json.Decoder ε Namespaces := record.decode "FactoryConfig"

end Namespaces

namespace Generator

/-- What is asked for. -/
inductive Request where
  | described (description : String)
  | form (form : Form)
  | dashboard (dashboard : Dashboard)
  | chart (chart : Chart)
  | custom (custom : Custom)

/-- Why a request cannot be considered at all. -/
inductive RequestFault where
  | noUser
  | slashInUser (user : String)
  | noDescription
deriving DecidableEq, Repr

inductive GenerationError where
  | request (fault : RequestFault)
  | rejected (rejection : Rejection)
  | storage (error : Registry.StorageError)
deriving DecidableEq, Repr

def RequestFault.message : RequestFault → String
  | .noUser => "user id is required"
  | .slashInUser user => "user id must not contain '/': " ++ Text.quoted user
  | .noDescription => "description is required"

def GenerationError.message : GenerationError → String
  | .request fault => "invalid request: " ++ fault.message
  | .rejected rejection => rejection.message
  | .storage error => error.message

/-- When a request is carried out: the millisecond, and the time as it is shown. -/
structure Stamp where
  millis : Int
  shown : String
deriving DecidableEq, Repr

/-! ### Steps -/

/-- The user id becomes the last part of an address, so it must not contain a slash. -/
def checkUser (user : String) : Except RequestFault Unit :=
  if Text.allBlank user then .error .noUser
  else if '/' ∈ user.toList then .error (.slashInUser user)
  else .ok ()

/-- A described component needs a description. -/
def Request.check : Request → Except RequestFault Unit
  | .described d => if Text.allBlank d then .error .noDescription else .ok ()
  | _ => .ok ()

def Request.kind : Request → ComponentKind
  | .described d => Description.kind d
  | .form _ => .form
  | .dashboard _ => .dashboard
  | .chart _ => .chart
  | .custom _ => .custom

def Request.space (r : Request) (spaces : Namespaces) : String :=
  match r with
  | .described _ => spaces.described
  | _ => spaces.explicit

/-- The identity of the component that is asked for. -/
def Request.id (r : Request) (spaces : Namespaces) (user : String) (stamp : Stamp) : ComponentId :=
  { space := r.space spaces, kind := r.kind, user := user, created := stamp.millis }

def Request.compile (r : Request) (id : ComponentId) : Except Rejection Resource :=
  match r with
  | .described d => (Description.requirements d).compile id
  | .form f => f.compile id
  | .dashboard d => d.compile id
  | .chart c => c.compile id
  | .custom c => c.compile id

/-- What the component is made from, as it is written down. -/
def Request.encode : Request → Json
  | .described d => (Description.requirements d).encode
  | .form f => f.encode
  | .dashboard d => d.encode
  | .chart c => c.encode
  | .custom c => c.encode

/-- What the component is made from, as it is held. -/
def Request.config (r : Request) : Json := r.encode.kept

/-- Everything up to recording: the resource and the record to be kept. -/
def prepare (spaces : Namespaces) (user : String) (stamp : Stamp) (r : Request) :
    Except GenerationError (Resource × Registry.ComponentRecord) := do
  (checkUser user).mapError .request
  r.check.mapError .request
  let id := r.id spaces user stamp
  let resource ← (r.compile id).mapError .rejected
  return (resource,
    { id := id.text, kind := id.kind.name, config := r.config, createdAt := stamp.shown })

/-- Carries out a request on a registry. -/
def generate (b : Registry.Backend) (spaces : Namespaces) (user : String) (stamp : Stamp)
    (r : Request) : StateM b.State (Except GenerationError Resource) := do
  match prepare spaces user stamp r with
  | .error e => return .error e
  | .ok (resource, record) =>
    match ← b.putComponent record with
    | .ok () => return .ok resource
    | .error e => return .error (.storage e)

/-- What is remembered about a component. -/
def info (b : Registry.Backend) (id : String) :
    StateM b.State (Except GenerationError Registry.ComponentRecord) := do
  return (← b.getComponent id).mapError .storage

end Generator

end EmbedUI
