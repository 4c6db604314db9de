import EmbedUI.Host.Notice
import EmbedUI.Host.Tool
import EmbedUI.Json.Printer

/-!
# Routing messages

A host holds notices, settings and the form submissions it has received, of which it keeps the most
recent ones. Each accepted message is carried out as a short sequence of steps, each of which
touches one of the three. Messages that are dropped change nothing, and a tool request that is of no
use changes nothing either.
-/

namespace EmbedUI.Host

structure Router where
  notices : NoticeQueue
  settings : Settings
  /-- The submissions that are kept, oldest first. -/
  submissions : List FormSubmission
  /-- How many submissions are kept. -/
  capacity : Nat

/-- One change of a host's state. -/
inductive Step where
  | push (message : String) (severity : Severity)
  | record (submission : FormSubmission)
  | apply (call : ToolCall)

/-- The steps that carry out a message. -/
def Step.ofEnvelope : Envelope → List Step
  | .tool request =>
    match ToolCall.ofRequest request with
    | .ok call => [.apply call]
    | .error _ => []
  | .notify message => [.push message .info]
  | .formSubmit s =>
    [.push ("Form submitted: " ++ Json.compact (.obj s.data)) .success, .record s]
  | .dashboardRefresh d => [.push ("Dashboard refreshed: " ++ d) .info]
  | .chartExport c => [.push ("Chart exported: " ++ c) .success]

namespace Router

/-- How a host is set up. -/
structure Limits where
  /-- How long a notice is visible, in nanoseconds. -/
  ttl : Nat
  maxSubmissions : Nat
deriving DecidableEq, Repr

def defaultLimits : Limits := { ttl := 5 * nanosPerSecond, maxSubmissions := 100 }

def new (limits : Limits) : Router :=
  { notices := .empty limits.ttl, settings := .initial, submissions := [],
    capacity := limits.maxSubmissions }

/-- The newest items of a list. -/
def newest {α : Type} (count : Nat) (items : List α) : List α :=
  items.drop (items.length - count)

/-- Carries out one step. Nothing when a deadline is beyond the clock. -/
def perform (r : Router) (now : Moment) : Step → Option Router
  | .push message severity =>
    (r.notices.push now message severity).map fun q => { r with notices := q }
  | .record s => some { r with submissions := newest r.capacity (r.submissions ++ [s]) }
  | .apply call => some { r with settings := call.apply r.settings }

/-- Carries out steps one after the other. -/
def performAll (r : Router) (now : Moment) : List Step → Option Router
  | [] => some r
  | s :: rest => (r.perform now s).bind fun r => r.performAll now rest

/-- Receives a message: the host afterwards, and the type of the message if it was accepted. -/
def receive (r : Router) (now : Moment) (message : Json) : Option (Router × Option ActionType) :=
  match Envelope.ofMessage? message with
  | none => some (r, none)
  | some e => (r.performAll now (Step.ofEnvelope e)).map fun r => (r, some e.type)

/-- The notices that are visible at an instant. -/
def visible (r : Router) (instant : Nat) : List Notice := r.notices.visible instant

/-- Runs every timer whose time is up. -/
def settle (r : Router) (instant : Nat) : Router :=
  { r with notices := r.notices.settle instant }

end Router

end EmbedUI.Host
