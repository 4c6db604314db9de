import EmbedUI.Host.Router
import EmbedUI.Text.Lines

/-!
# Files of messages

A file of messages holds one JSON value per line. Blank lines do not count; a line that is not JSON
counts as received and is dropped, like a message that the host does not accept.
-/

namespace EmbedUI.Host

/-- How many messages were received, and how many of them were accepted. -/
structure Tally where
  received : Nat
  routed : Nat
deriving DecidableEq, Repr

namespace Tally

def zero : Tally := ⟨0, 0⟩

/-- Every message that is not accepted is dropped. -/
def dropped (t : Tally) : Nat := t.received - t.routed

end Tally

/-- A host and what it has counted. -/
structure Dispatch where
  router : Router
  tally : Tally

namespace Dispatch

/-- Receives a line. Nothing when a deadline is beyond the clock. -/
def line (d : Dispatch) (now : Moment) (cs : List Char) : Option Dispatch :=
  let text := Text.trimmed cs
  if text.isEmpty then some d
  else
    let received := d.tally.received + 1
    match Json.ofText (String.ofList text) with
    | .error _ => some { d with tally := { d.tally with received := received } }
    | .ok message =>
      (d.router.receive now message).map fun (router, accepted) =>
        { router := router
          tally := ⟨received, d.tally.routed + if accepted.isSome then 1 else 0⟩ }

/-- Receives lines one after the other. -/
def linesAll (d : Dispatch) (now : Moment) : List (List Char) → Option Dispatch
  | [] => some d
  | l :: rest => (d.line now l).bind fun d => d.linesAll now rest

/-- Receives every line of a text. -/
def run (router : Router) (now : Moment) (text : String) : Option Dispatch :=
  linesAll ⟨router, .zero⟩ now (Text.lines text.toList)

/-- What the host holds, and what was counted on the way. -/
def report (d : Dispatch) (now : Moment) : Json :=
  .obj [("received", Json.ofCount d.tally.received),
    ("routed", Json.ofCount d.tally.routed),
    ("dropped", Json.ofCount d.tally.dropped),
    ("notifications", .arr ((d.router.visible now.instant).map Notice.encode)),
    ("settings", d.router.settings.encode),
    ("submissions", .arr (d.router.submissions.map FormSubmission.encode))]

end Dispatch

end EmbedUI.Host
