import EmbedUI.Json.Record
import EmbedUI.Message.ActionType

/-!
# Messages from embedded content

A message is an object with a `type` and a `payload`, whose shape depends on the type. Whatever else
embedded content posts is dropped: `Envelope.ofMessage?` is the only way in.
-/

namespace EmbedUI

structure ToolRequest where
  tool : String
  parameters : Json

structure FormSubmission where
  form : String
  /-- The values of the named controls, sorted by name. -/
  data : List (String × Json)

inductive Envelope where
  | tool (request : ToolRequest)
  | notify (message : String)
  | formSubmit (submission : FormSubmission)
  | dashboardRefresh (dashboard : String)
  | chartExport (chart : String)

namespace ToolRequest

def encode (r : ToolRequest) : Json :=
  .obj [("toolName", .str r.tool), ("params", r.parameters)]

def record {ε : Type} [Json.Source ε] : Json.Record ε ToolRequest :=
  ToolRequest.mk <$> .required "toolName" Json.string
    <*> .defaulted "params" .null Json.anyValue

def decode {ε : Type} [Json.Source ε] : Json.Decoder ε ToolRequest := record.decode "ToolPayload"

end ToolRequest

namespace FormSubmission

def encode (s : FormSubmission) : Json := .obj [("formId", .str s.form), ("data", .obj s.data)]

/-- As the payload of a message the data may be left out. -/
def payloadRecord {ε : Type} [Json.Source ε] : Json.Record ε FormSubmission :=
  FormSubmission.mk <$> .required "formId" Json.string <*> .defaulted "data" [] Json.anyObject

/-- As a submission that was kept it must be there. -/
def record {ε : Type} [Json.Source ε] : Json.Record ε FormSubmission :=
  FormSubmission.mk <$> .required "formId" Json.string <*> .required "data" Json.anyObject

def decode {ε : Type} [Json.Source ε] : Json.Decoder ε FormSubmission :=
  record.decode "Submission"

end FormSubmission

namespace Envelope

def type : Envelope → ActionType
  | tool _ => .tool
  | notify _ => .notify
  | formSubmit _ => .formSubmit
  | dashboardRefresh _ => .dashboardRefresh
  | chartExport _ => .chartExport

/-- The forms of an envelope. Their tags in writing are spelled apart from the names of the types. -/
inductive Variant where
  | tool
  | notify
  | formSubmit
  | dashboardRefresh
  | chartExport
deriving DecidableEq, Repr

namespace Variant

def all : List Variant := [tool, notify, formSubmit, dashboardRefresh, chartExport]

/-- What stands under `type` in writing. -/
def tag : Variant → String
  | tool => "tool"
  | notify => "notify"
  | formSubmit => "form-submit"
  | dashboardRefresh => "dashboard-refresh"
  | chartExport => "chart-export"

def decode {ε : Type} [Json.Source ε] : Json.Decoder ε Variant :=
  Json.oneOf (all.map fun v => (v.tag, v))

end Variant

def variant : Envelope → Variant
  | tool _ => .tool
  | notify _ => .notify
  | formSubmit _ => .formSubmit
  | dashboardRefresh _ => .dashboardRefresh
  | chartExport _ => .chartExport

def encodePayload : Envelope → Json
  | tool r => r.encode
  | notify message => .obj [("message", .str message)]
  | formSubmit s => s.encode
  | dashboardRefresh d => .obj [("dashboardId", .str d)]
  | chartExport c => .obj [("chartId", .str c)]

def encode (e : Envelope) : Json :=
  .obj [("type", .str e.variant.tag), ("payload", e.encodePayload)]

/-! ### Decoding

The tag stands before or after the payload in an object. A payload that comes first is set aside
until the variant is known; an array of tag and payload has them in this order. -/

section
variable {ε : Type} [Json.Source ε]

/-- Reads the payload of a variant. -/
def decodePayload : Variant → Json.Decoder ε Envelope
  | .tool => fun t => (ToolRequest.decode t).map tool
  | .notify => (notify <$> Json.Record.required "message" Json.string).decode "NotifyPayload"
  | .formSubmit => (formSubmit <$> FormSubmission.payloadRecord).decode "FormSubmitPayload"
  | .dashboardRefresh =>
    (dashboardRefresh <$> Json.Record.required "dashboardId" Json.string).decode
      "DashboardRefreshPayload"
  | .chartExport =>
    (chartExport <$> Json.Record.required "chartId" Json.string).decode "ChartExportPayload"

/-- The number of fields that the payload of a variant has. -/
def payloadSize : Variant → Nat
  | .tool => 2
  | .formSubmit => 2
  | _ => 1

/-- Reads a payload that was set aside. Only the wording for too long an array differs. -/
def decodeHeld (v : Variant) (payload : Json) : Except Json.DecodeError Envelope :=
  (decodePayload v payload).mapError fun
    | .tooManyItems given => .tooManyHeldItems given (payloadSize v)
    | e => e

/-- How far the reading of an object has come. -/
inductive Progress where
  | nothing
  | variant (v : Variant)
  | payload (payload : Json)
  | both (envelope : Envelope)

/-- Takes the tag or the payload as it turns up. -/
def offer (p : Progress) (key : String) (t : Tree ε) : Except Json.DecodeError Progress :=
  if key = "type" then
    match p with
    | .nothing => do return .variant (← Variant.decode t)
    | .payload payload => do return .both (← decodeHeld (← Variant.decode t) payload)
    | .variant _ | .both _ => .error (.duplicateField "type")
  else if key = "payload" then
    match p with
    | .nothing => do return .payload (← Json.hold t)
    | .variant v => do return .both (← decodePayload v t)
    | .payload _ | .both _ => .error (.duplicateField "payload")
  else do
    Json.skip t
    return p

/-- Offers the entries of an object in their order. -/
def offerAll (p : Progress) : List (String × Tree ε) → Except Json.DecodeError Progress
  | [] => .ok p
  | (key, t) :: rest => do
    if let some fault := Json.keyFault? t then throw (.broken fault)
    offerAll (← offer p key t) rest

/-- What an envelope is called in messages about its shape. -/
def wanted : String := "adjacently tagged enum ActionEnvelope"

def decode : Json.Decoder ε Envelope
  | .obj entries => do
    match ← offerAll .nothing entries with
    | .both e => return e
    | .variant _ => throw (.missingField "payload")
    | .nothing | .payload _ => throw (.missingField "type")
  | .arr [] => .error (.tooFewItems 0 wanted)
  | .arr (t :: rest) => do
    let v ← Variant.decode t
    match rest with
    | [] => throw (.tooFewItems 1 wanted)
    | [p] => decodePayload v p
    | p :: t :: _ => do
      let _ ← decodePayload v p
      throw (Json.notClosed t (.tooManyItems (rest.length + 1)))
  | t => .error (Json.mismatch wanted t)

end

/-- Accepts a message, or drops it. The type must be named by a string. -/
def ofMessage? (message : Json) : Option Envelope :=
  match (message.get? "type").bind Json.str? with
  | none => none
  | some name =>
    match ActionType.ofName? name with
    | none => none
    | some _ => (decode message).toOption

end Envelope

end EmbedUI
