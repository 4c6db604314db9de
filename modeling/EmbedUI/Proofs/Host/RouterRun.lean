import EmbedUI.Host.Router
import EmbedUI.Proofs.Host.NoticeLifecycle
import EmbedUI.Proofs.Message.Boundary

/-!
# Runs of a router

A router takes messages one after the other while the clock moves on and timers run. What it holds
at the end is settled by the messages it accepted, and each of its three parts by its own kind of
message: the settings by tool requests, the submissions by submitted forms, the notices by
everything but tool requests.

## The architecture

* **`call?`, `submission?`, `announcement?`**: what one envelope contributes to each part.
* **`performAll_ofEnvelope`**: carrying out an envelope is nothing but these three contributions.
* **`Session`**: a router in use, and `Session.step` for one event.
* **`Mirrors`**: the notices of a router are those of a queue of its own that receives the pushes
  in place of the messages (`Event.notices`). This is where a deadline beyond the clock shows.
* **`Follows`**: what the messages so far have made of the settings, the submissions and the
  answers. `Follows.step` keeps it over one event, `Follows.run` over all of them.
* **`Specified`**: what a run has to come to, put together from the two in `Follows.specified`.
* **`run_specified`**: which runs go through, and that these are as specified; `run_beyond_clock` is
  one that does not.
-/

namespace EmbedUI.Host.Router

/-! ## What an envelope contributes -/

/-- The call that an envelope asks for, if it can be carried out. -/
def call? : Envelope → Option ToolCall
  | .tool request => (ToolCall.ofRequest request).toOption
  | _ => none

def submission? : Envelope → Option FormSubmission
  | .formSubmit s => some s
  | _ => none

/-- The notice that an envelope gives rise to. -/
def announcement? : Envelope → Option (String × Severity)
  | .tool _ => none
  | .notify message => some (message, .info)
  | .formSubmit s => some ("Form submitted: " ++ Json.compact (.obj s.data), .success)
  | .dashboardRefresh d => some ("Dashboard refreshed: " ++ d, .info)
  | .chartExport c => some ("Chart exported: " ++ c, .success)

/-- The queue after a notice, if there is one. -/
def announce (q : NoticeQueue) (now : Moment) : Option (String × Severity) → Option NoticeQueue
  | none => some q
  | some (message, severity) => q.push now message severity

/-- The settings after a call, if there is one. -/
def adjust (s : Settings) (call : Option ToolCall) : Settings := call.elim s fun c => c.apply s

/-- The submissions after another one, if there is one. -/
def keep (capacity : Nat) (held : List FormSubmission) (s : Option FormSubmission) :
    List FormSubmission :=
  s.elim held fun s => newest capacity (held ++ [s])

theorem performAll_push (r : Router) (now : Moment) (message : String) (severity : Severity) :
    r.performAll now [.push message severity] =
      (r.notices.push now message severity).map fun q => { r with notices := q } := by
  show ((r.notices.push now message severity).map _).bind _ = _
  cases r.notices.push now message severity with
  | none => rfl
  | some q => rfl

/-- **Carrying out.** An envelope changes each part of a router by its contribution to it. -/
theorem performAll_ofEnvelope (r : Router) (now : Moment) (e : Envelope) :
    r.performAll now (Step.ofEnvelope e) =
      (announce r.notices now (announcement? e)).map fun q =>
        { r with
          notices := q
          settings := adjust r.settings (call? e)
          submissions := keep r.capacity r.submissions (submission? e) } := by
  cases e with
  | tool request =>
    -- a request that cannot be carried out has no steps
    simp only [Step.ofEnvelope, call?, announcement?, submission?]
    cases ToolCall.ofRequest request with
    | ok call => rfl
    | error fault => rfl
  | formSubmit s =>
    -- the notice comes first: when there is no deadline for it, nothing is kept
    show ((r.notices.push now _ _).map _).bind _ = (r.notices.push now _ _).map _
    cases r.notices.push now ("Form submitted: " ++ Json.compact (.obj s.data)) .success with
    | none => rfl
    | some q => rfl
  | notify message => exact performAll_push r now message .info
  | dashboardRefresh d => exact performAll_push r now ("Dashboard refreshed: " ++ d) .info
  | chartExport c => exact performAll_push r now ("Chart exported: " ++ c) .success

/-! ## Sessions -/

/-- What can happen to a router. -/
inductive Event where
  | receive (message : Json) (shown : String)
  | advance (duration : Nat)
  /-- The execution of a timer. Nothing happens unless it is pending and its time is up. -/
  | expire (timer : Timer)

/-- A router in use: the reading of the clock, and what each message was answered so far. -/
structure Session where
  router : Router
  clock : Nat
  answers : List (Option ActionType)

namespace Session

def start (limits : Limits) (clock : Nat) : Session := ⟨.new limits, clock, []⟩

/-- The session after an event. Nothing when a deadline is beyond the clock. -/
def step (s : Session) : Event → Option Session
  | .receive message shown =>
    (s.router.receive ⟨s.clock, shown⟩ message).map fun (router, answer) =>
      { s with router := router, answers := s.answers ++ [answer] }
  | .advance duration => some { s with clock := s.clock + duration }
  | .expire timer =>
    if timer ∈ s.router.notices.due s.clock then
      some { s with router := { s.router with notices := s.router.notices.fire timer } }
    else some s

/-- The session after events, one after the other. -/
def run (s : Session) : List Event → Option Session
  | [] => some s
  | e :: rest => (s.step e).bind fun s => s.run rest

/-- The session after a message that was accepted and announced. -/
def accepted (s : Session) (e : Envelope) (notices : NoticeQueue) : Session :=
  { s with
    router := { s.router with
      notices := notices
      settings := adjust s.router.settings (call? e)
      submissions := keep s.router.capacity s.router.submissions (submission? e) }
    answers := s.answers ++ [some e.type] }

end Session

/-- A message that is dropped changes nothing. -/
theorem receive_dropped {message : Json} (h : Envelope.ofMessage? message = none) (r : Router)
    (now : Moment) : r.receive now message = some (r, none) := by
  unfold receive
  rw [h]

theorem receive_accepted {message : Json} {e : Envelope}
    (h : Envelope.ofMessage? message = some e) (r : Router) (now : Moment) :
    r.receive now message =
      (r.performAll now (Step.ofEnvelope e)).map fun r => (r, some e.type) := by
  unfold receive
  rw [h]

theorem Session.step_dropped {message : Json} (h : Envelope.ofMessage? message = none)
    (s : Session) (shown : String) :
    s.step (.receive message shown) = some { s with answers := s.answers ++ [none] } := by
  rw [Session.step, receive_dropped h]
  rfl

theorem Session.step_accepted {message : Json} {e : Envelope}
    (h : Envelope.ofMessage? message = some e) (s : Session) (shown : String) :
    s.step (.receive message shown) =
      (announce s.router.notices ⟨s.clock, shown⟩ (announcement? e)).map (s.accepted e) := by
  rw [Session.step, receive_accepted h, performAll_ofEnvelope, Option.map_map, Option.map_map]
  rfl

/-! ## The notices

The notices of a router are a queue of their own: a message counts as the push of what it announces,
and the rest of the router does not matter. -/

/-- What an event means for the notices. -/
def Event.notices : Event → List NoticeQueue.Event
  | .receive message shown =>
    (((Envelope.ofMessage? message).bind announcement?).map fun (text, severity) =>
      NoticeQueue.Event.push text severity shown).toList
  | .advance duration => [.advance duration]
  | .expire timer => [.expire timer]

/-- A queue of its own has gone through the same as the notices of a router. -/
structure Mirrors (q : NoticeQueue.Session) (s : Session) : Prop where
  queue : q.queue = s.router.notices
  clock : q.clock = s.clock

theorem Mirrors.step {q : NoticeQueue.Session} {s : Session} (h : Mirrors q s) (e : Event) :
    Option.Rel Mirrors (q.run e.notices) (s.step e) := by
  cases e with
  | receive message shown =>
    cases hmessage : Envelope.ofMessage? message with
    | none =>
      -- no push on either side
      rw [Session.step_dropped hmessage]
      simp only [Event.notices, hmessage]
      exact .some ⟨h.queue, h.clock⟩
    | some envelope =>
      rw [Session.step_accepted hmessage]
      simp only [Event.notices, hmessage, Option.bind_some]
      cases announcement? envelope with
      | none => exact .some ⟨h.queue, h.clock⟩
      | some notice =>
        obtain ⟨text, severity⟩ := notice
        show Option.Rel Mirrors ((q.step (.push text severity shown)).bind some)
          ((s.router.notices.push ⟨s.clock, shown⟩ text severity).map _)
        -- the same push of the same queue at the same time: both go through or neither does
        rw [NoticeQueue.Session.step, h.queue, h.clock]
        cases s.router.notices.push ⟨s.clock, shown⟩ text severity with
        | none => exact .none
        | some notices => exact .some ⟨rfl, rfl⟩
  | advance duration => exact .some ⟨h.queue, by rw [h.clock]⟩
  | expire timer =>
    show Option.Rel Mirrors ((q.step (.expire timer)).bind some) _
    rw [NoticeQueue.Session.step, Session.step, h.queue, h.clock]
    split
    · exact .some ⟨rfl, rfl⟩
    · exact .some h

theorem Mirrors.run {q : NoticeQueue.Session} {s : Session} (h : Mirrors q s)
    (events : List Event) :
    Option.Rel Mirrors (q.run (events.flatMap Event.notices)) (s.run events) := by
  induction events generalizing q s with
  | nil => exact .some h
  | cons e rest ih =>
    rw [List.flatMap_cons, NoticeQueue.Session.run_append, Session.run]
    have hstep := h.step e
    generalize q.run e.notices = mirrored at hstep
    generalize s.step e = stepped at hstep
    cases hstep with
    | none => exact .none
    | some hnext => exact ih hnext

theorem Mirrors.isSome_run {q : NoticeQueue.Session} {s : Session} (h : Mirrors q s)
    (events : List Event) :
    (q.run (events.flatMap Event.notices)).isSome = (s.run events).isSome := by
  have hrun := h.run events
  generalize q.run (events.flatMap Event.notices) = mirrored at hrun ⊢
  generalize s.run events = ended at hrun ⊢
  cases hrun <;> rfl

theorem Mirrors.of_run {q : NoticeQueue.Session} {s s' : Session} (h : Mirrors q s)
    {events : List Event} (hs : s.run events = some s') :
    ∃ q', q.run (events.flatMap Event.notices) = some q' ∧ Mirrors q' s' := by
  have hrun := h.run events
  rw [hs] at hrun
  generalize q.run (events.flatMap Event.notices) = mirrored at hrun ⊢
  cases hrun with
  | some hnext => exact ⟨_, rfl, hnext⟩

/-! ## The newest items -/

section
variable {α : Type}

theorem newest_suffix (count : Nat) (items : List α) : newest count items <:+ items :=
  List.drop_suffix _ _

theorem length_newest (count : Nat) (items : List α) :
    (newest count items).length = min items.length count := by
  rw [newest, List.length_drop]
  omega

/-- Older items that were dropped before do not matter. -/
theorem newest_append (count : Nat) (items : List α) (x : α) :
    newest count (newest count items ++ [x]) = newest count (items ++ [x]) := by
  rcases Nat.eq_zero_or_pos count with rfl | hpos
  · -- nothing is ever kept
    simp [newest]
  · -- one item at most is dropped for the new one, and it is the oldest that was kept
    have hlen : (newest count items).length = min items.length count := length_newest count items
    have hleft : newest count (newest count items ++ [x]) =
        (newest count items).drop (min items.length count + 1 - count) ++ [x] := by
      rw [newest, List.length_append, List.length_singleton, hlen]
      exact List.drop_append_of_le_length (by omega)
    have hright : newest count (items ++ [x]) = items.drop (items.length + 1 - count) ++ [x] := by
      rw [newest, List.length_append, List.length_singleton]
      exact List.drop_append_of_le_length (by omega)
    rw [hleft, hright, newest, List.drop_drop]
    congr 2
    omega

end

/-! ## What a run comes to -/

/-- The messages among events. -/
def received (events : List Event) : List Json :=
  events.filterMap fun
    | .receive message _ => some message
    | _ => none

/-- The envelopes that were accepted, in order. -/
def accepted (events : List Event) : List Envelope :=
  (received events).filterMap Envelope.ofMessage?

/-- The settings after calls, from those a router starts with. -/
def settingsAfter (calls : List ToolCall) : Settings :=
  calls.foldl (fun settings call => call.apply settings) .initial

/-- What a run has made of the settings, the submissions and the answers. -/
structure Follows (limits : Limits) (events : List Event) (s : Session) : Prop where
  capacity : s.router.capacity = limits.maxSubmissions
  answers : s.answers = (received events).map fun m => (Envelope.ofMessage? m).map Envelope.type
  settings : s.router.settings = settingsAfter ((accepted events).filterMap call?)
  submissions : s.router.submissions =
    newest limits.maxSubmissions ((accepted events).filterMap submission?)

theorem follows_start (limits : Limits) (clock : Nat) :
    Follows limits [] (Session.start limits clock) where
  capacity := rfl
  answers := rfl
  settings := rfl
  submissions := (List.drop_nil ..).symm

theorem received_append (before after : List Event) :
    received (before ++ after) = received before ++ received after :=
  List.filterMap_append ..

theorem accepted_append (before after : List Event) :
    accepted (before ++ after) = accepted before ++ accepted after := by
  rw [accepted, received_append, List.filterMap_append]
  rfl

/-- An event that is no message leaves everything but the notices and the clock alone. -/
theorem Follows.idle {limits : Limits} {events : List Event} {s : Session}
    (h : Follows limits events s) {e : Event} (he : received [e] = []) (notices : NoticeQueue)
    (clock : Nat) :
    Follows limits (events ++ [e])
      { s with router := { s.router with notices := notices }, clock := clock } := by
  have hreceived : received (events ++ [e]) = received events := by
    rw [received_append, he, List.append_nil]
  have haccepted : accepted (events ++ [e]) = accepted events := by
    rw [accepted, hreceived]
    rfl
  constructor
  case capacity => exact h.capacity
  case answers =>
    rw [hreceived]
    exact h.answers
  case settings =>
    rw [haccepted]
    exact h.settings
  case submissions =>
    rw [haccepted]
    exact h.submissions

theorem Follows.dropped {limits : Limits} {events : List Event} {s : Session}
    (h : Follows limits events s) {message : Json} (hmessage : Envelope.ofMessage? message = none)
    (shown : String) :
    Follows limits (events ++ [.receive message shown])
      { s with answers := s.answers ++ [none] } := by
  have haccepted : accepted (events ++ [.receive message shown]) = accepted events := by
    rw [accepted_append]
    simp [accepted, received, hmessage]
  constructor
  case capacity => exact h.capacity
  case answers =>
    rw [received_append, List.map_append, ← h.answers]
    simp [received, hmessage]
  case settings =>
    rw [haccepted]
    exact h.settings
  case submissions =>
    rw [haccepted]
    exact h.submissions

theorem Follows.accepted {limits : Limits} {events : List Event} {s : Session}
    (h : Follows limits events s) {message : Json} {e : Envelope}
    (hmessage : Envelope.ofMessage? message = some e) (shown : String) (notices : NoticeQueue) :
    Follows limits (events ++ [.receive message shown]) (s.accepted e notices) := by
  have haccepted :
      Router.accepted (events ++ [.receive message shown]) = Router.accepted events ++ [e] := by
    rw [accepted_append]
    simp [Router.accepted, received, hmessage]
  constructor
  case capacity => exact h.capacity
  case answers =>
    show s.answers ++ [some e.type] = _
    rw [received_append, List.map_append, ← h.answers]
    simp [received, hmessage]
  case settings =>
    show adjust s.router.settings (call? e) = _
    rw [haccepted, List.filterMap_append, settingsAfter, List.foldl_append, h.settings]
    cases hcall : call? e with
    | none => simp [adjust, settingsAfter, hcall]
    | some call => simp [adjust, settingsAfter, hcall]
  case submissions =>
    show keep s.router.capacity s.router.submissions (submission? e) = _
    rw [haccepted, List.filterMap_append, h.submissions, h.capacity]
    cases hsubmission : submission? e with
    | none => simp [keep, hsubmission]
    | some submission =>
      -- what was dropped before does not count among the newest
      have hlast : [e].filterMap submission? = [submission] := by simp [hsubmission]
      rw [hlast]
      exact newest_append _ _ _

/-- **The step.** -/
theorem Follows.step {limits : Limits} {events : List Event} {s s' : Session} {e : Event}
    (h : Follows limits events s) (hs : s.step e = some s') :
    Follows limits (events ++ [e]) s' := by
  cases e with
  | receive message shown =>
    cases hmessage : Envelope.ofMessage? message with
    | none =>
      rw [Session.step_dropped hmessage] at hs
      cases hs
      exact h.dropped hmessage shown
    | some envelope =>
      rw [Session.step_accepted hmessage] at hs
      obtain ⟨notices, -, rfl⟩ := Option.map_eq_some_iff.mp hs
      exact h.accepted hmessage shown notices
  | advance duration =>
    cases hs
    exact h.idle rfl s.router.notices (s.clock + duration)
  | expire timer =>
    rw [Session.step] at hs
    split at hs
    · cases hs
      exact h.idle rfl (s.router.notices.fire timer) s.clock
    · cases hs
      exact h.idle rfl s.router.notices s.clock

/-- **The run.** Induction on the events that are still to come. -/
theorem Follows.run {limits : Limits} {done rest : List Event} {s s' : Session}
    (h : Follows limits done s) (hs : s.run rest = some s') : Follows limits (done ++ rest) s' := by
  induction rest generalizing done s with
  | nil =>
    cases hs
    rw [List.append_nil]
    exact h
  | cons e rest ih =>
    obtain ⟨s₁, hstep, hrest⟩ := Option.bind_eq_some_iff.mp hs
    have hnext := ih (h.step hstep) hrest
    rw [List.append_assoc] at hnext
    exact hnext

/-! ## The pushes among the events -/

/-- What a push says. -/
def said (p : NoticeQueue.Pushed) : String × Severity := (p.notice.message, p.notice.severity)

/-- One push for each announcement, in the order of the messages. -/
theorem said_run (h : NoticeQueue.History) (events : List Event) :
    (h.run (events.flatMap Event.notices)).pushes.map said =
      h.pushes.map said ++ (accepted events).filterMap announcement? := by
  induction events generalizing h with
  | nil => simp [accepted, received, NoticeQueue.History.run]
  | cons e rest ih =>
    have hsplit : accepted (e :: rest) = accepted [e] ++ accepted rest :=
      accepted_append [e] rest
    -- the history after the first event has its announcement at the end
    rw [List.flatMap_cons, NoticeQueue.History.run, List.foldl_append, hsplit,
      List.filterMap_append, ← List.append_assoc]
    refine (ih _).trans (congrArg (· ++ _) ?_)
    cases e with
    | receive message shown =>
      cases hmessage : Envelope.ofMessage? message with
      | none => simp [Event.notices, accepted, received, hmessage]
      | some envelope =>
        cases hnotice : announcement? envelope with
        | none => simp [Event.notices, accepted, received, hmessage, hnotice]
        | some notice =>
          simp [Event.notices, accepted, received, hmessage, hnotice,
            NoticeQueue.History.step, said]
    | advance duration =>
      simp [Event.notices, accepted, received, NoticeQueue.History.step]
    | expire timer => simp [Event.notices, accepted, received, NoticeQueue.History.step]

/-! ## Messages of a type -/

/-- The messages of a type among those that were accepted. -/
def ofType (t : ActionType) (events : List Event) : List Json :=
  (received events).filter fun m => (Envelope.ofMessage? m).any fun e => e.type = t

/-- A contribution that only one type makes depends on the messages of that type alone. -/
theorem filterMap_ofType {β : Type} {t : ActionType} {contribution : Envelope → Option β}
    (h : ∀ e, e.type ≠ t → contribution e = none) (events : List Event) :
    (accepted events).filterMap contribution =
      (ofType t events).filterMap fun m => (Envelope.ofMessage? m).bind contribution := by
  unfold accepted ofType
  rw [List.filterMap_filterMap, List.filterMap_filter]
  refine List.filterMap_congr fun m _ => ?_
  cases hmessage : Envelope.ofMessage? m with
  | none => rfl
  | some e =>
    by_cases ht : e.type = t
    · simp [ht]
    · simp [ht, h e ht]

theorem call?_eq_none {e : Envelope} (h : e.type ≠ .tool) : call? e = none := by
  cases e with
  | tool request => exact absurd rfl h
  | _ => rfl

theorem submission?_eq_none {e : Envelope} (h : e.type ≠ .formSubmit) : submission? e = none := by
  cases e with
  | formSubmit s => exact absurd rfl h
  | _ => rfl

/-! ## The main statement -/

/-- What a router with certain limits holds after events that started at a reading of the clock. -/
structure Specified (limits : Limits) (clock : Nat) (events : List Event) (s : Session) : Prop where
  /-- Every message is answered with its type, or with nothing when it was dropped. -/
  answers : s.answers = (received events).map fun m => (Envelope.ofMessage? m).map Envelope.type
  /-- A message that is dropped changes nothing. -/
  dropped : ∀ message now, Envelope.ofMessage? message = none →
    s.router.receive now message = some (s.router, none)
  settings : s.router.settings = settingsAfter ((accepted events).filterMap call?)
  /-- The submissions are the last ones of those that were accepted … -/
  submissions : s.router.submissions <:+ (accepted events).filterMap submission?
  /-- … and as many of them as are kept. -/
  kept : s.router.submissions.length =
    min ((accepted events).filterMap submission?).length limits.maxSubmissions
  /-- A submission is what was sent in the payload of its message. -/
  sent : ∀ message ∈ received events, message.Canonical → ∀ submission,
    Envelope.ofMessage? message = some (.formSubmit submission) →
      ∃ p, message.get? "payload" = some p ∧ Envelope.Carries p (.formSubmit submission)
  /-- The notices are those of a queue with these pushes, at the same times and with the same
  timers run. -/
  notices : ∃ q, (NoticeQueue.Session.start limits.ttl clock).run (events.flatMap Event.notices) =
      some q ∧ q.queue = s.router.notices ∧ q.clock = s.clock
  /-- The pushes are the announcements of the accepted messages. -/
  announced :
    ((NoticeQueue.History.start clock).run (events.flatMap Event.notices)).pushes.map said =
      (accepted events).filterMap announcement?
  /-- What is visible are the announcements that are neither older than the limit nor removed, as
  long as their numbers do not wrap around. -/
  visible : ((accepted events).filterMap announcement?).length < UInt64.size →
    s.router.visible s.clock =
      ((NoticeQueue.History.start clock).run (events.flatMap Event.notices)).live
        limits.ttl s.clock

theorem Follows.specified {limits : Limits} {clock : Nat} {events : List Event} {s : Session}
    (h : Follows limits events s) {q : NoticeQueue.Session}
    (hq : (NoticeQueue.Session.start limits.ttl clock).run (events.flatMap Event.notices) = some q)
    (hmirrors : Mirrors q s) : Specified limits clock events s where
  answers := h.answers
  dropped := fun message now hmessage => receive_dropped hmessage s.router now
  settings := h.settings
  submissions := by
    rw [h.submissions]
    exact newest_suffix _ _
  kept := by
    rw [h.submissions]
    exact length_newest _ _
  sent := fun message _ hcanonical submission hmessage =>
    ((Envelope.ofMessage?_eq_some_iff hcanonical).mp hmessage).2
  notices := ⟨q, hq, hmirrors.queue, hmirrors.clock⟩
  announced := said_run _ events
  visible := by
    intro hcount
    have hpushes : ((NoticeQueue.History.start clock).run
        (events.flatMap Event.notices)).pushes.length =
          ((Router.accepted events).filterMap announcement?).length := by
      have hsaid := congrArg List.length (said_run (.start clock) events)
      simpa [NoticeQueue.History.start] using hsaid
    -- one number for each announcement, so the invariant of the queue carries through
    rw [← hpushes, NoticeQueue.History.length_run] at hcount
    obtain ⟨fired, ht⟩ := (NoticeQueue.tracks_start limits.ttl clock).run hcount hq
    have hvisible := ht.visible
    rw [NoticeQueue.Session.run_ttl hq, hmirrors.queue, hmirrors.clock] at hvisible
    exact hvisible

/-- **The specification of runs.** Whatever the limits and whatever comes in: a run goes through
exactly when the clock can hold the deadline of every notice, and then it comes to what is
specified. Settings depend only on the tool requests, and submissions only on the forms, whatever
the rest of two runs is. -/
theorem run_specified (limits : Limits) (clock : Nat) (events : List Event) :
    (((Session.start limits clock).run events).isSome ↔
      NoticeQueue.Fits limits.ttl clock (events.flatMap Event.notices)) ∧
    ∀ s, (Session.start limits clock).run events = some s →
      Specified limits clock events s ∧
      ∀ limits' clock' events' s', (Session.start limits' clock').run events' = some s' →
        (ofType .tool events = ofType .tool events' → s.router.settings = s'.router.settings) ∧
        (limits.maxSubmissions = limits'.maxSubmissions →
          ofType .formSubmit events = ofType .formSubmit events' →
            s.router.submissions = s'.router.submissions) := by
  have hmirrors : Mirrors (.start limits.ttl clock) (.start limits clock) := ⟨rfl, rfl⟩
  refine ⟨?_, fun s hs => ⟨?_, fun limits' clock' events' s' hs' => ⟨?_, ?_⟩⟩⟩
  · rw [← hmirrors.isSome_run events]
    exact NoticeQueue.Session.run_isSome_iff _ _
  · obtain ⟨q, hq, hqs⟩ := hmirrors.of_run hs
    exact ((follows_start limits clock).run hs).specified hq hqs
  · intro htools
    rw [((follows_start limits clock).run hs).settings,
      ((follows_start limits' clock').run hs').settings, List.nil_append, List.nil_append,
      filterMap_ofType fun e => call?_eq_none, filterMap_ofType fun e => call?_eq_none, htools]
  · intro hcapacity hforms
    rw [((follows_start limits clock).run hs).submissions,
      ((follows_start limits' clock').run hs').submissions, List.nil_append, List.nil_append,
      filterMap_ofType fun e => submission?_eq_none, filterMap_ofType fun e => submission?_eq_none,
      hforms, hcapacity]

/-- A notice, two forms of which one is kept, a request for the settings, and a message that is
dropped. -/
def mixedRun : List Event :=
  [.receive (.obj [("payload", .obj [("message", .str "hi")]), ("type", .str "notify")]) "",
    .advance 3,
    .receive (.obj [("payload", .obj [("formId", .str "a")]), ("type", .str "form-submit")]) "",
    .receive .null "",
    .receive (.obj [("payload", .obj [("params", .obj [("speed", .str "fast")]),
      ("toolName", .str "setAnimationSpeed")]), ("type", .str "tool")]) "",
    .receive (.obj [("payload", .obj [("formId", .str "b")]), ("type", .str "form-submit")]) ""]

theorem run_specified_mixedRun :
    ∃ s, (Session.start ⟨5, 1⟩ 0).run mixedRun = some s ∧
      Specified ⟨5, 1⟩ 0 mixedRun s ∧
      s.router.submissions.map FormSubmission.form = ["b"] ∧
      s.router.settings.animationSpeed = .fast :=
  ⟨_, rfl, ((run_specified ⟨5, 1⟩ 0 mixedRun).2 _ rfl).1, rfl, rfl⟩

/-- A form, and nothing before it. -/
def loneForm : List Event :=
  [.receive (.obj [("payload", .obj [("formId", .str "a")]), ("type", .str "form-submit")]) ""]

/-- Not every run goes through: with the longest time that can be configured, a second after the
clock started, the form is accepted and there is no deadline for its notice. -/
theorem run_beyond_clock :
    accepted loneForm = [.formSubmit ⟨"a", []⟩] ∧
    ¬ ∀ (limits : Limits) (clock : Nat) (events : List Event),
      ∃ s, (Session.start limits clock).run events = some s ∧
        Specified limits clock events s := by
  refine ⟨rfl, fun h => ?_⟩
  obtain ⟨s, hs, -⟩ := h ⟨9223372036854775807 * nanosPerSecond, 100⟩ nanosPerSecond loneForm
  have hnone : ((Session.start ⟨9223372036854775807 * nanosPerSecond, 100⟩ nanosPerSecond).run
      loneForm).isNone = true := by decide +kernel
  rw [hs] at hnone
  cases hnone

end EmbedUI.Host.Router
