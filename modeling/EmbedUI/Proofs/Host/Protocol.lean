import EmbedUI.Proofs.Host.RouterRun
import EmbedUI.Proofs.Markup.Posting
import EmbedUI.Proofs.Message.Codec

/-!
# The protocol between components and hosts

A component and its host never meet: the one is text that was put together from templates, the other
reads messages. What they have in common are the names of the actions, the keys of the payloads, and
the identity of the component, which is escaped twice on its way. Here a message is followed from
the markup to the state of the host, for every component, every identity, all values of the controls
of a form, and every state of the host.

## The architecture

* **`Controls`**: what the controls of a form hold, as it is posted and as it is held.
* **`kept_message`**: a message that carries the fields of an envelope is held as the envelope is.
* **`Router.After`**, **`Router.receive_announced`**: a host that received an envelope.
* **`Understood`**: what is read from the markup of a component is what the host understands, put
  together in `understood_ofForm` and `understood_ofIdentity`.
* **`same_protocol`**: forms, dashboards and charts are understood.
-/

namespace EmbedUI

open Markup Host

/-! ## The values of controls -/

/-- The names and values of controls, in the order in which they are collected. -/
abbrev Controls := List (String × String)

namespace Controls

def entries (controls : Controls) : List (String × Json) :=
  controls.map fun (name, value) => (name, .str value)

/-- The values as they are posted. -/
def posted (controls : Controls) : Json := .obj controls.entries

/-- The values as a host holds them. -/
def held (controls : Controls) : List (String × Json) := Json.keptEntries [] controls.entries

theorem lookup_entries (controls : Controls) (name : String) :
    Json.lookup name controls.entries = (controls.lookup name).map .str := by
  induction controls with
  | nil => rfl
  | cons control rest ih =>
    obtain ⟨k, value⟩ := control
    show (if k = name then some (.str value) else Json.lookup name (entries rest)) = _
    rw [List.lookup_cons, ih]
    by_cases hk : k = name
    · rw [if_pos hk, hk, beq_self_eq_true]
      rfl
    · rw [if_neg hk, beq_false_of_ne (Ne.symm hk)]

/-- Of controls with one name the last one counts. -/
theorem lookup_held (controls : Controls) (name : String) :
    Json.lookup name controls.held = (controls.reverse.lookup name).map .str := by
  have hreverse : controls.entries.reverse = entries controls.reverse := List.map_reverse.symm
  rw [held, Json.lookup_keptEntries_reverse, hreverse, lookup_entries]
  cases controls.reverse.lookup name <;> rfl

theorem canonical_held (controls : Controls) : Json.Canonical (.obj controls.held) :=
  Json.canonical_kept controls.posted

end Controls

/-! ## Messages -/

/-- A payload may hold its values in any way that comes to the same. -/
theorem kept_message {type : String} {payload payload' : Json}
    (h : payload.kept = payload'.kept) :
    Json.kept (.obj [("type", .str type), ("payload", payload)]) =
      Json.kept (.obj [("type", .str type), ("payload", payload')]) := by
  -- an object is held entry by entry, so of the payload only its held form is in the result
  show (.obj (Json.insert "payload" payload.kept [("type", .str type)]) : Json) = _
  rw [h]
  rfl

theorem kept_formPayload (id : String) (controls : Controls) :
    Json.kept (.obj [("formId", .str id), ("data", controls.posted)]) =
      (FormSubmission.encode ⟨id, controls.held⟩).kept := by
  have hheld : Json.kept (.obj controls.held) = controls.posted.kept :=
    Json.kept_eq_self controls.canonical_held
  show (.obj (Json.insert "data" controls.posted.kept [("formId", .str id)]) : Json) = _
  rw [← hheld]
  rfl

/-! ## Receiving -/

namespace Host.Router

/-- A router after it received an envelope and announced it. -/
structure After (r : Router) (e : Envelope) (said : String) (r' : Router) : Prop where
  /-- There is one more notice. -/
  notices : ∃ n, r'.notices.queued = r.notices.queued ++ [n] ∧ n.notice.message = said
  settings : r'.settings = r.settings
  /-- A form is the newest submission, unless none is kept. -/
  newest : ∀ s, e = .formSubmit s → 0 < r.capacity → r'.submissions.getLast? = some s
  others : (∀ s, e ≠ .formSubmit s) → r'.submissions = r.submissions

theorem getLast?_newest {α : Type} {count : Nat} (h : 0 < count) (items : List α) (x : α) :
    (newest count (items ++ [x])).getLast? = some x := by
  have hlen : (items ++ [x]).length - count ≤ items.length := by
    rw [List.length_append, List.length_singleton]
    omega
  rw [newest, List.drop_append_of_le_length hlen, List.getLast?_concat]

/-- **Receiving.** An envelope that is announced is carried out, unless the deadline of the notice
is beyond the clock. -/
theorem receive_announced {message : Json} {e : Envelope} {said : String} {severity : Severity}
    (h : Envelope.ofMessage? message = some e) (hsaid : announcement? e = some (said, severity))
    (r : Router) (now : Moment) :
    (now.instant + r.notices.ttl < endOfTime →
      ∃ r', r.receive now message = some (r', some e.type) ∧ After r e said r') ∧
    (endOfTime ≤ now.instant + r.notices.ttl → r.receive now message = none) := by
  have htool : call? e = none := by
    cases e with
    | tool request => cases hsaid
    | _ => rfl
  rw [receive_accepted h, performAll_ofEnvelope, hsaid, htool]
  constructor
  · -- the notice is pushed, and a form is recorded behind it
    intro hfits
    have hpush : announce r.notices now (some (said, severity)) = _ :=
      congrArg (Option.map _) (if_pos hfits)
    rw [hpush]
    refine ⟨_, rfl, ⟨_, rfl, rfl⟩, rfl, ?_, ?_⟩
    · rintro s rfl hcapacity
      exact getLast?_newest hcapacity r.submissions s
    · intro hform
      cases e with
      | formSubmit s => exact absurd rfl (hform s)
      | _ => rfl
  · -- the notice comes first, so without it nothing is recorded either
    intro hlate
    have hpush : announce r.notices now (some (said, severity)) = none :=
      congrArg (Option.map _) (if_neg (Nat.not_lt.mpr hlate))
    rw [hpush]
    rfl

end Host.Router

/-! ## Understanding -/

/-- The strings among the arguments of a handler. -/
def Markup.Posting.strings (p : Posting) : List (List Char) :=
  p.given.filterMap fun
    | .text s => some s
    | _ => none

/-- What a host makes of a message: an envelope, which it announces unless the deadline of the
notice is beyond its clock. -/
structure Host.Takes (message : Json) (e : Envelope) (said : String) : Prop where
  accepted : Envelope.ofMessage? message = some e
  received : ∀ (r : Router) (now : Moment), now.instant + r.notices.ttl < endOfTime →
    ∃ r', r.receive now message = some (r', some e.type) ∧ r.After e said r'
  overflow : ∀ (r : Router) (now : Moment), endOfTime ≤ now.instant + r.notices.ttl →
    r.receive now message = none

/-- Markup under an identity posts what a host understands: an envelope that depends on the values
of the controls, and so does the notice. -/
structure Understood (text identity : String) (action : ActionType) (e : Controls → Envelope)
    (said : Controls → String) : Prop where
  type : ∀ controls, (e controls).type = action
  posted : ∃ p, posting? text = some p ∧ p.strings = [identity.toList] ∧
    p.sender.action = action.name.toList ∧ p.sender.action ∈ p.sender.listed ∧
    ∀ controls : Controls, ∃ message, p.message controls.posted = some message ∧
      Takes message.kept (e controls) (said controls)

/-- A host takes what is held like an envelope that it announces. -/
theorem Host.takes_of_kept {message : Json} {e : Envelope} {said : String} {severity : Severity}
    (hkept : message.kept = e.encode.kept) (he : e.Canonical)
    (hsaid : Router.announcement? e = some (said, severity)) : Takes message.kept e said := by
  have haccepted : Envelope.ofMessage? message.kept = some e := by
    rw [hkept]
    exact Envelope.ofMessage?_encode he
  exact {
    accepted := haccepted
    received := fun r now => (Router.receive_announced haccepted hsaid r now).1
    overflow := fun r now => (Router.receive_announced haccepted hsaid r now).2 }

theorem understood_ofForm {text id : String} (h : posting? text = some (.ofForm id)) :
    Understood text id .formSubmit (fun controls => .formSubmit ⟨id, controls.held⟩)
      (fun controls => "Form submitted: " ++ Json.compact (.obj controls.held)) where
  type := fun _ => rfl
  posted := by
    refine ⟨_, h, rfl, rfl, Posting.listed_ofAction, fun controls => ?_⟩
    exact ⟨_, Posting.message_ofForm id controls.posted,
      takes_of_kept (kept_message (kept_formPayload id controls)) controls.canonical_held rfl⟩

/-- A component that posts its identity alone, and the envelope that has it. -/
theorem understood_ofIdentity {text parameter id said : String} {e : Envelope} {severity : Severity}
    (h : posting? text = some (.ofIdentity e.type parameter id)) (he : e.Canonical)
    (hpayload : e.encodePayload = .obj [(parameter, .str id)])
    (hsaid : Router.announcement? e = some (said, severity)) :
    Understood text id e.type (fun _ => e) (fun _ => said) where
  type := fun _ => rfl
  posted := by
    refine ⟨_, h, rfl, rfl, Posting.listed_ofAction, fun controls => ?_⟩
    refine ⟨_, Posting.message_ofIdentity e.type parameter id controls.posted, ?_⟩
    refine takes_of_kept ?_ he hsaid
    rw [← hpayload, Envelope.encode, Envelope.tag_variant]

/-! ## The main statement -/

/-- **Components and hosts speak the same protocol.** Whatever is compiled under whatever identity,
its handler gives the identity and nothing else as text, and posts an action that its script lists.
The message is accepted by every host: it is answered with its type and announced by one notice,
which names the identity of dashboards and charts, and a form is the newest submission, with the
last value of each control; only a deadline beyond the clock is in the way. -/
theorem same_protocol (id : ComponentId) (r : Resource) :
    (∀ (controls : Controls) (name : String),
      Json.lookup name controls.held = (controls.reverse.lookup name).map .str) ∧
    (∀ form : Form, form.compile id = .ok r →
      Understood r.text id.text .formSubmit (fun controls => .formSubmit ⟨id.text, controls.held⟩)
        fun controls => "Form submitted: " ++ Json.compact (.obj controls.held)) ∧
    (∀ d : Dashboard, d.compile id = .ok r →
      Understood r.text id.text .dashboardRefresh (fun _ => .dashboardRefresh id.text)
        fun _ => "Dashboard refreshed: " ++ id.text) ∧
    ∀ c : Chart, c.compile id = .ok r →
      Understood r.text id.text .chartExport (fun _ => .chartExport id.text)
        fun _ => "Chart exported: " ++ id.text := by
  refine ⟨Controls.lookup_held, fun form h => ?_, fun d h => ?_, fun c h => ?_⟩
  · exact understood_ofForm (Form.posting h)
  · exact understood_ofIdentity (e := .dashboardRefresh id.text) (Dashboard.posting h)
      trivial rfl rfl
  · exact understood_ofIdentity (e := .chartExport id.text) (Chart.posting h) trivial rfl rfl

/-- An identity that has to be escaped in every way there is. -/
def quotedId (kind : ComponentKind) : ComponentId := ⟨"a", kind, "\"</script>\n&", 1⟩

def emptyDashboard : Dashboard := ⟨"Overview", []⟩

def twoBars : Chart := ⟨"Sales", .bar, [1.0, 2.0], ["a", "b"]⟩

theorem same_protocol_quotedId :
    (∃ r, hostileForm.compile (quotedId .form) = .ok r ∧
      Understood r.text "form-\"</script>\n&-1" .formSubmit
        (fun controls => .formSubmit ⟨"form-\"</script>\n&-1", controls.held⟩)
        fun controls => "Form submitted: " ++ Json.compact (.obj controls.held)) ∧
    (∃ r, emptyDashboard.compile (quotedId .dashboard) = .ok r ∧
      Understood r.text "dashboard-\"</script>\n&-1" .dashboardRefresh
        (fun _ => .dashboardRefresh "dashboard-\"</script>\n&-1")
        fun _ => "Dashboard refreshed: dashboard-\"</script>\n&-1") ∧
    ∃ r, twoBars.compile (quotedId .chart) = .ok r ∧
      Understood r.text "chart-\"</script>\n&-1" .chartExport
        (fun _ => .chartExport "chart-\"</script>\n&-1")
        fun _ => "Chart exported: chart-\"</script>\n&-1" := by
  refine ⟨⟨_, rfl, ?_⟩, ⟨_, rfl, ?_⟩, ⟨_, rfl, ?_⟩⟩
  · exact (same_protocol (quotedId .form) _).2.1 hostileForm rfl
  · exact (same_protocol (quotedId .dashboard) _).2.2.1 emptyDashboard rfl
  · exact (same_protocol (quotedId .chart) _).2.2.2 twoBars rfl

/-- A second after the clock started, a host that shows notices for the longest time that can be
configured accepts what a dashboard posts, and does not get past it. -/
theorem refresh_beyond_clock :
    ∃ r p message, emptyDashboard.compile ⟨"a", .dashboard, "u1", 1⟩ = .ok r ∧
      posting? r.text = some p ∧ p.message (Controls.posted []) = some message ∧
      Envelope.ofMessage? message.kept = some (.dashboardRefresh "dashboard-u1-1") ∧
      (Router.new ⟨9223372036854775807 * nanosPerSecond, 100⟩).receive ⟨nanosPerSecond, "12:00"⟩
        message.kept = none := by
  have hcompile : emptyDashboard.compile ⟨"a", .dashboard, "u1", 1⟩ = .ok _ := rfl
  have hposting := Dashboard.posting hcompile
  have hmessage := Posting.message_ofIdentity .dashboardRefresh "dashboardId" "dashboard-u1-1"
    (Controls.posted [])
  have htakes := takes_of_kept (e := .dashboardRefresh "dashboard-u1-1") rfl trivial rfl
  exact ⟨_, _, _, hcompile, hposting, hmessage, htakes.accepted, htakes.overflow _ _ (by decide)⟩

end EmbedUI
