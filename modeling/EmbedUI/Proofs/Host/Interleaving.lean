import EmbedUI.Proofs.Cli.Deadline
import EmbedUI.Proofs.Host.SerialOrder
import Mathlib.Data.Fintype.Card

/-!
# Messages received at the same time

Several messages may be under way at once: each is carried out step by step, and between two steps
of one there may be any steps of the others. A step touches one part of the host, and each part has
a lock of its own, so what becomes of a part depends on the steps of its kind alone.

Most messages take one step. A form takes two, its notice first and its record after it, and nothing
holds the two together: another form may come in between. So each part looks as if the messages had
been received one after the other, and so do the notices with the settings and the submissions with
the settings; but the order that explains the notices need not explain the submissions.

## The architecture

* **`Router.performAll_eq`**: steps, taken apart into what they do to each part.
* **`Underway`**, **`Underway.Runs`**: calls under way, and the traces they may leave.
  `Underway.Runs.trace` says what a trace amounts to.
* **`Router.length_filter_ofMessage`**: no message takes two steps of a kind, unless the kind has
  both steps of a form.
* **`Router.exists_serial_notices`**, **`Router.exists_serial_submissions`**: a serial order for
  each of the two kinds without one of them. `Router.exists_serial_of_inOrder` has one for both.
* **`Router.received_together`**: what the calls come to together.
* **`Router.nested_not_serial`**: two forms that no serial order explains.
-/

namespace EmbedUI.Host

/-! ## What a step contributes -/

namespace Step

def announcement? : Step → Option (String × Severity)
  | push message severity => some (message, severity)
  | _ => none

def call? : Step → Option ToolCall
  | apply call => some call
  | _ => none

def submission? : Step → Option FormSubmission
  | record s => some s
  | _ => none

theorem isNone_submission_of_announcement {s : Step} (h : s.announcement?.isSome) :
    s.submission?.isNone = true := by
  cases s <;> trivial

theorem isNone_submission_of_call {s : Step} (h : s.call?.isSome) :
    s.submission?.isNone = true := by
  cases s <;> trivial

theorem isNone_announcement_of_submission {s : Step} (h : s.submission?.isSome) :
    s.announcement?.isNone = true := by
  cases s <;> trivial

theorem isNone_announcement_of_call {s : Step} (h : s.call?.isSome) :
    s.announcement?.isNone = true := by
  cases s <;> trivial

/-- The steps that carry out a message: none if it is dropped. -/
def ofMessage (message : Json) : List Step := ((Envelope.ofMessage? message).map ofEnvelope).getD []

end Step

/-- What the notices in a queue say, in the order of their pushes. -/
def NoticeQueue.told (q : NoticeQueue) : List (String × Severity) :=
  q.queued.map fun e => (e.notice.message, e.notice.severity)

namespace Router

/-- The submission that a message brings. -/
def sent? (message : Json) : Option FormSubmission :=
  (Envelope.ofMessage? message).bind submission?

theorem filterMap_ofMessage {β : Type} {f : Step → Option β} {g : Envelope → Option β}
    (h : ∀ e, (Step.ofEnvelope e).filterMap f = (g e).toList) (message : Json) :
    (Step.ofMessage message).filterMap f = ((Envelope.ofMessage? message).bind g).toList := by
  unfold Step.ofMessage
  cases Envelope.ofMessage? message with
  | none => rfl
  | some e => exact h e

theorem filterMap_announcement (e : Envelope) :
    (Step.ofEnvelope e).filterMap Step.announcement? = (announcement? e).toList := by
  cases e with
  | tool request =>
    rw [Step.ofEnvelope]
    cases ToolCall.ofRequest request <;> rfl
  | _ => rfl

theorem filterMap_submission (e : Envelope) :
    (Step.ofEnvelope e).filterMap Step.submission? = (submission? e).toList := by
  cases e with
  | tool request =>
    rw [Step.ofEnvelope]
    cases ToolCall.ofRequest request <;> rfl
  | _ => rfl

def announceAll (q : NoticeQueue) (now : Moment) (notices : List (String × Severity)) :
    Option NoticeQueue :=
  notices.foldlM (fun q notice => announce q now (some notice)) q

def adjustAll (settings : Settings) (calls : List ToolCall) : Settings :=
  calls.foldl (fun settings call => call.apply settings) settings

def keepAll (capacity : Nat) (held sent : List FormSubmission) : List FormSubmission :=
  sent.foldl (fun held s => newest capacity (held ++ [s])) held

/-- **The parts of a host go their own ways.** -/
theorem performAll_eq (r : Router) (now : Moment) (steps : List Step) :
    r.performAll now steps =
      (announceAll r.notices now (steps.filterMap Step.announcement?)).map fun q =>
        { r with
          notices := q
          settings := adjustAll r.settings (steps.filterMap Step.call?)
          submissions := keepAll r.capacity r.submissions
            (steps.filterMap Step.submission?) } := by
  induction steps generalizing r with
  | nil => rfl
  | cons s rest ih =>
    cases s with
    | push message severity =>
      -- the one step that may fail, and then no other step is carried out
      show ((r.notices.push now message severity).map _).bind _ =
        ((r.notices.push now message severity).bind _).map _
      cases r.notices.push now message severity with
      | none => rfl
      | some q => exact ih _
    | record submission => exact ih _
    | apply call => exact ih _

theorem performAll_eq_some_iff {r r' : Router} {now : Moment} {steps : List Step} :
    r.performAll now steps = some r' ↔
      announceAll r.notices now (steps.filterMap Step.announcement?) = some r'.notices ∧
      r'.settings = adjustAll r.settings (steps.filterMap Step.call?) ∧
      r'.submissions = keepAll r.capacity r.submissions (steps.filterMap Step.submission?) ∧
      r'.capacity = r.capacity := by
  rw [performAll_eq, Option.map_eq_some_iff]
  constructor
  · rintro ⟨q, hq, rfl⟩
    exact ⟨hq, rfl, rfl, rfl⟩
  · rintro ⟨hq, hsettings, hsubmissions, hcapacity⟩
    refine ⟨r'.notices, hq, ?_⟩
    rw [← hsettings, ← hsubmissions, ← hcapacity]

/-- Each part depends on its own kind of steps alone. -/
theorem performAll_parts {r s r' : Router} {now : Moment} {steps steps' : List Step}
    (hs : r.performAll now steps = some s) (hr : r.performAll now steps' = some r') :
    (steps.filterMap Step.announcement? = steps'.filterMap Step.announcement? →
      s.notices = r'.notices) ∧
    (steps.filterMap Step.call? = steps'.filterMap Step.call? → s.settings = r'.settings) ∧
    (steps.filterMap Step.submission? = steps'.filterMap Step.submission? →
      s.submissions = r'.submissions) := by
  obtain ⟨hnotices, hsettings, hsubmissions, -⟩ := performAll_eq_some_iff.mp hs
  obtain ⟨hnotices', hsettings', hsubmissions', -⟩ := performAll_eq_some_iff.mp hr
  refine ⟨fun h => ?_, fun h => ?_, fun h => ?_⟩
  · rw [h, hnotices'] at hnotices
    exact (Option.some.inj hnotices).symm
  · rw [hsettings, hsettings', h]
  · rw [hsubmissions, hsubmissions', h]

/-- With room for all of them, none is dropped. -/
theorem keepAll_of_le {capacity : Nat} {held sent : List FormSubmission}
    (h : held.length + sent.length ≤ capacity) : keepAll capacity held sent = held ++ sent := by
  induction sent generalizing held with
  | nil => exact (List.append_nil _).symm
  | cons s rest ih =>
    rw [List.length_cons] at h
    have hkept : newest capacity (held ++ [s]) = held ++ [s] := by
      rw [newest, List.length_append, List.length_singleton, Nat.sub_eq_zero_of_le (by omega)]
      rfl
    have hrest : keepAll capacity (held ++ [s]) rest = held ++ [s] ++ rest :=
      ih (by rw [List.length_append, List.length_singleton]; omega)
    show keepAll capacity (newest capacity (held ++ [s])) rest = _
    rw [hkept, hrest, List.append_assoc]
    rfl

theorem announceAll_isSome_iff (q : NoticeQueue) (now : Moment)
    (notices : List (String × Severity)) :
    (announceAll q now notices).isSome ↔ (notices ≠ [] → now.instant + q.ttl < endOfTime) := by
  induction notices generalizing q with
  | nil => simp [announceAll]
  | cons notice rest ih =>
    have hstep := announce_isSome_iff q now (some notice)
    show ((announce q now (some notice)).bind fun q => announceAll q now rest).isSome ↔ _
    cases hq : announce q now (some notice) with
    | none =>
      rw [hq] at hstep
      simpa using hstep
    | some q' =>
      rw [hq] at hstep
      have hfits : now.instant + q.ttl < endOfTime := hstep.mp rfl rfl
      rw [Option.bind_some, ih, ttl_announce hq]
      exact ⟨fun _ _ => hfits, fun _ _ => hfits⟩

/-- What the notices of a host say. -/
def told (r : Router) : List (String × Severity) := r.notices.told

theorem told_announceAll {q q' : NoticeQueue} {now : Moment} {notices : List (String × Severity)}
    (h : announceAll q now notices = some q') : q'.told = q.told ++ notices := by
  induction notices generalizing q with
  | nil =>
    cases h
    exact (List.append_nil _).symm
  | cons notice rest ih =>
    obtain ⟨q₁, hq₁, hrest⟩ := Option.bind_eq_some_iff.mp h
    obtain ⟨deadline, -, rfl⟩ := Option.map_eq_some_iff.mp hq₁
    rw [ih hrest]
    simp [NoticeQueue.told]

theorem told_performAll {r r' : Router} {now : Moment} {steps : List Step}
    (h : r.performAll now steps = some r') :
    r'.told = r.told ++ steps.filterMap Step.announcement? :=
  told_announceAll (performAll_eq_some_iff.mp h).1

/-! ## One message after the other -/

def receiveAll (r : Router) (now : Moment) : List Json → Option Router
  | [] => some r
  | message :: rest => (r.receive now message).bind fun received => received.1.receiveAll now rest

theorem performAll_append (r : Router) (now : Moment) (steps rest : List Step) :
    r.performAll now (steps ++ rest) =
      (r.performAll now steps).bind fun r => r.performAll now rest := by
  induction steps generalizing r with
  | nil => rfl
  | cons s steps ih =>
    show (r.perform now s).bind _ = ((r.perform now s).bind _).bind _
    rw [Option.bind_assoc]
    exact congrArg _ (funext ih)

theorem receive_eq (r : Router) (now : Moment) (message : Json) :
    (r.receive now message).map Prod.fst = r.performAll now (Step.ofMessage message) := by
  unfold Step.ofMessage
  cases hmessage : Envelope.ofMessage? message with
  | none =>
    rw [receive_dropped hmessage]
    rfl
  | some e =>
    rw [receive_accepted hmessage, Option.map_map]
    exact Option.map_id'

theorem receiveAll_eq (r : Router) (now : Moment) (messages : List Json) :
    r.receiveAll now messages = r.performAll now (messages.flatMap Step.ofMessage) := by
  induction messages generalizing r with
  | nil => rfl
  | cons message rest ih =>
    rw [List.flatMap_cons, performAll_append, ← receive_eq, Option.bind_map]
    exact congrArg _ (funext fun received : Router × Option ActionType => ih received.1)

end Router

/-! ## Interleavings -/

/-- Calls that are under way on one host, and the steps that each of them has still to take. -/
structure Underway (ι : Type) where
  router : Router
  pending : ι → List Step

section
variable {ι : Type} [DecidableEq ι]

namespace Underway

/-- Every call is a message to receive, and none has begun. -/
def start (r : Router) (messages : ι → Json) : Underway ι :=
  ⟨r, fun i => Step.ofMessage (messages i)⟩

/-- Any of the calls takes its next step, then any of them the next one, and so on. The trace tells
who took which step. -/
inductive Runs (now : Moment) : Underway ι → List (ι × Step) → Underway ι → Prop
  | stop (u : Underway ι) : Runs now u [] u
  | step {u u' : Underway ι} {i : ι} {s : Step} {rest : List Step} {r : Router}
      {trace : List (ι × Step)} (hnext : u.pending i = s :: rest)
      (hperform : u.router.perform now s = some r)
      (hruns : Runs now ⟨r, Function.update u.pending i rest⟩ trace u') :
      Runs now u ((i, s) :: trace) u'

end Underway

/-- **The run.** Every call takes its own steps in order, and the host is what all the steps make of
it, one after the other. -/
theorem Underway.Runs.trace {now : Moment} {u u' : Underway ι} {trace : List (ι × Step)}
    (h : u.Runs now trace u') :
    (∀ i, u.pending i = stepsOf trace i ++ u'.pending i) ∧
      u.router.performAll now (trace.map Prod.snd) = some u'.router := by
  induction h with
  | stop u => exact ⟨fun i => rfl, rfl⟩
  | @step u u' i s rest r trace hnext hperform _ ih =>
    obtain ⟨hpending, hrouter⟩ := ih
    refine ⟨fun j => ?_, ?_⟩
    · rw [stepsOf_cons]
      by_cases hij : i = j
      · subst hij
        have hrest : rest = stepsOf trace i ++ u'.pending i := by simpa using hpending i
        rw [if_pos rfl, hnext, hrest, List.cons_append]
      · have hother : u.pending j = stepsOf trace j ++ u'.pending j := by
          simpa [Function.update_of_ne (Ne.symm hij)] using hpending j
        rw [if_neg hij, hother]
    · show (u.router.perform now s).bind _ = _
      rw [hperform]
      exact hrouter

/-! ## What the calls come to together -/

namespace Router

/-- The one message with two steps announces what it records. -/
theorem length_filter_ofMessage {p : Step → Bool}
    (hp : ∀ text severity s, p (.push text severity) = true → p (.record s) = false)
    (message : Json) : ((Step.ofMessage message).filter p).length ≤ 1 := by
  unfold Step.ofMessage
  cases Envelope.ofMessage? message with
  | none => exact Nat.zero_le 1
  | some e =>
    cases e with
    | tool request =>
      simp only [Option.map_some, Option.getD_some, Step.ofEnvelope]
      cases ToolCall.ofRequest request with
      | ok call => exact List.length_filter_le ..
      | error fault => exact Nat.zero_le 1
    | formSubmit s =>
      simp only [Option.map_some, Option.getD_some, Step.ofEnvelope]
      cases hpush : p (.push ("Form submitted: " ++ Json.compact (.obj s.data)) .success) with
      | true => simp [hpush, hp _ _ s hpush]
      | false =>
        rw [List.filter_cons_of_neg (by simp [hpush])]
        exact List.length_filter_le ..
    | notify message => exact List.length_filter_le ..
    | dashboardRefresh d => exact List.length_filter_le ..
    | chartExport c => exact List.length_filter_le ..

omit [DecidableEq ι] in
theorem announcements_flatMap (messages : ι → Json) (order : List ι) :
    (order.flatMap fun i => Step.ofMessage (messages i)).filterMap Step.announcement? =
      order.filterMap fun i => notice? (messages i) :=
  filterMap_flatMap (fun i => filterMap_ofMessage filterMap_announcement (messages i)) order

omit [DecidableEq ι] in
theorem submissions_flatMap (messages : ι → Json) (order : List ι) :
    (order.flatMap fun i => Step.ofMessage (messages i)).filterMap Step.submission? =
      order.filterMap fun i => sent? (messages i) :=
  filterMap_flatMap (fun i => filterMap_ofMessage filterMap_submission (messages i)) order

/-- A form is announced by its data. -/
theorem notice?_of_sent? {message : Json} {s : FormSubmission} (h : sent? message = some s) :
    notice? message = some ("Form submitted: " ++ Json.compact (.obj s.data), .success) := by
  unfold sent? at h
  unfold notice?
  cases hmessage : Envelope.ofMessage? message with
  | none =>
    rw [hmessage] at h
    cases h
  | some e =>
    rw [hmessage] at h
    cases e with
    | formSubmit submission =>
      cases h
      rfl
    | _ => cases h

variable [Fintype ι]

/-- Forms are recorded in the order of their notices. -/
def InOrder (trace : List (ι × Step)) : Prop :=
  (takers (fun s => s.submission?.isSome) trace).Sublist
    (takers (fun s => s.announcement?.isSome) trace)

/-- Nothing is lost and nothing is there twice: each message is announced once and each form is
recorded once, in some order. -/
structure Accounted (messages : ι → Json) (r r' : Router) : Prop where
  notices : ∃ said, r'.told = r.told ++ said ∧
    said.Perm (Finset.univ.toList.filterMap fun i => notice? (messages i))
  submissions : ∃ sent, r'.submissions = keepAll r.capacity r.submissions sent ∧
    sent.Perm (Finset.univ.toList.filterMap fun i => sent? (messages i))

section
variable {messages : ι → Json} {r r' : Router} {now : Moment} {trace : List (ι × Step)}
  (htrace : Interleaves (fun i => Step.ofMessage (messages i)) trace)
  (hr : r.performAll now (trace.map Prod.snd) = some r')
include htrace hr

theorem accounted : Accounted messages r r' := by
  obtain ⟨-, -, hsubmissions, -⟩ := performAll_eq_some_iff.mp hr
  have hperm := htrace.perm serial_univ
  constructor
  case notices =>
    refine ⟨_, told_performAll hr, ?_⟩
    rw [← announcements_flatMap]
    exact hperm.filterMap _
  case submissions =>
    refine ⟨_, hsubmissions, ?_⟩
    rw [← submissions_flatMap]
    exact hperm.filterMap _

omit [Fintype ι] in
/-- The deadlines of the same notices fit the clock in every order. -/
theorem isSome_receiveAll {order : List ι} (horder : Serial order) :
    ∃ s, r.receiveAll now (order.map messages) = some s := by
  obtain ⟨hnotices, -⟩ := performAll_eq_some_iff.mp hr
  have hfits := (announceAll_isSome_iff ..).mp (Option.isSome_of_eq_some hnotices)
  have hperm := (htrace.perm horder).filterMap Step.announcement?
  refine Option.isSome_iff_exists.mp ?_
  rw [receiveAll_eq, List.flatMap_map, performAll_eq, Option.isSome_map, announceAll_isSome_iff]
  exact fun hne => hfits fun hnil => hne (List.nil_perm.mp (hnil ▸ hperm))

/-- There is a serial order with the steps of a kind in the order of the trace, if no message takes
two of them. -/
theorem exists_serial_receiveAll {p : Step → Bool}
    (hp : ∀ text severity s, p (.push text severity) = true → p (.record s) = false) :
    ∃ order s, Serial order ∧ (takers p trace).Sublist order ∧
      r.receiveAll now (order.map messages) = some s ∧
      r.performAll now (order.flatMap fun i => Step.ofMessage (messages i)) = some s ∧
      (order.flatMap fun i => Step.ofMessage (messages i)).filter p =
        (trace.map Prod.snd).filter p := by
  have hone : ∀ i, ((Step.ofMessage (messages i)).filter p).length ≤ 1 :=
    fun i => length_filter_ofMessage hp _
  obtain ⟨order, horder, hsub⟩ := htrace.exists_serial hone
  obtain ⟨s, hs⟩ := isSome_receiveAll htrace hr horder
  have hsteps := hs
  rw [receiveAll_eq, List.flatMap_map] at hsteps
  exact ⟨order, s, horder, hsub, hs, hsteps, htrace.filter_flatMap horder hone hsub⟩

/-- **Notices and settings.** They are those of a serial order: no message takes more than one step
that is not the recording of a form. -/
theorem exists_serial_notices : ∃ order s, Serial order ∧
    r.receiveAll now (order.map messages) = some s ∧
      s.notices = r'.notices ∧ s.settings = r'.settings := by
  obtain ⟨order, s, horder, -, hs, hsteps, hsame⟩ :=
    exists_serial_receiveAll htrace hr (p := fun s => s.submission?.isNone) fun _ _ _ _ => rfl
  obtain ⟨hnotices, hsettings, -⟩ := performAll_parts hsteps hr
  exact ⟨order, s, horder, hs,
    hnotices (filterMap_of_filter (fun _ => Step.isNone_submission_of_announcement) hsame),
    hsettings (filterMap_of_filter (fun _ => Step.isNone_submission_of_call) hsame)⟩

/-- **Submissions and settings.** They are those of a serial order: no message takes more than one
step that is not a notice. -/
theorem exists_serial_submissions : ∃ order s, Serial order ∧
    r.receiveAll now (order.map messages) = some s ∧
      s.submissions = r'.submissions ∧ s.settings = r'.settings := by
  obtain ⟨order, s, horder, -, hs, hsteps, hsame⟩ :=
    exists_serial_receiveAll htrace hr (p := fun s => s.announcement?.isNone)
      fun _ _ _ h => nomatch h
  obtain ⟨-, hsettings, hsubmissions⟩ := performAll_parts hsteps hr
  exact ⟨order, s, horder, hs,
    hsubmissions (filterMap_of_filter (fun _ => Step.isNone_announcement_of_submission) hsame),
    hsettings (filterMap_of_filter (fun _ => Step.isNone_announcement_of_call) hsame)⟩

/-- **All at once.** When forms are recorded in the order of their notices, one order serves all. -/
theorem exists_serial_of_inOrder (h : InOrder trace) : ∃ order, Serial order ∧
    r.receiveAll now (order.map messages) = some r' := by
  obtain ⟨order, -, horder, hsub, -, -, hsame⟩ :=
    exists_serial_receiveAll htrace hr (p := fun s => s.submission?.isNone) fun _ _ _ _ => rfl
  -- the order has the calls that push in the order of the trace, and so it has those that record
  have hpushes : (takers (fun s => s.announcement?.isSome) trace).Sublist
      (takers (fun s => s.submission?.isNone) trace) :=
    takers_sublist fun _ => Step.isNone_submission_of_announcement
  have hrecords := htrace.filter_flatMap horder
    (fun i => length_filter_ofMessage (p := fun s => s.submission?.isSome)
      (fun _ _ _ h => nomatch h) _) (h.trans (hpushes.trans hsub))
  have hannouncements := filterMap_of_filter (f := Step.announcement?)
    (fun _ => Step.isNone_submission_of_announcement) hsame
  have hcalls := filterMap_of_filter (f := Step.call?)
    (fun _ => Step.isNone_submission_of_call) hsame
  have hsubmissions := filterMap_of_filter (f := Step.submission?) (fun _ hsome => hsome) hrecords
  refine ⟨order, horder, ?_⟩
  rw [receiveAll_eq, List.flatMap_map, performAll_eq, hannouncements, hcalls, hsubmissions,
    ← performAll_eq]
  exact hr

/-- **Only then.** The notices tell the messages apart, and there is room for all submissions. -/
theorem inOrder_of_serial
    (hdistinct : ∀ i j said, notice? (messages i) = some said →
      notice? (messages j) = some said → i = j)
    (hroom : r.submissions.length + Fintype.card ι ≤ r.capacity) {order : List ι} {s : Router}
    (horder : Serial order) (hs : r.receiveAll now (order.map messages) = some s)
    (htold : s.told = r'.told) (hsubmissions : s.submissions = r'.submissions) :
    InOrder trace := by
  have hserial := hs
  rw [receiveAll_eq, List.flatMap_map] at hserial
  have hperm := (htrace.perm horder).filterMap Step.submission?
  -- the same notices in the same order …
  have hnotices : (order.filterMap fun i => notice? (messages i)) =
      (trace.map Prod.snd).filterMap Step.announcement? := by
    have hboth := (told_performAll hserial).symm.trans (htold.trans (told_performAll hr))
    rw [announcements_flatMap] at hboth
    exact List.append_cancel_left hboth
  have hpushed := htrace.takers_eq_filter
    (fun i => filterMap_ofMessage filterMap_announcement (messages i)) hdistinct hnotices
  -- … and the same submissions, none of which was dropped
  have hrecorded : (order.filterMap fun i => sent? (messages i)) =
      (trace.map Prod.snd).filterMap Step.submission? := by
    have hcount : (order.filterMap fun i => sent? (messages i)).length ≤ Fintype.card ι :=
      (List.length_filterMap_le ..).trans horder.nodup.length_le_card
    have hcount' := hperm.length_eq
    obtain ⟨-, -, hkept, -⟩ := performAll_eq_some_iff.mp hserial
    obtain ⟨-, -, hkept', -⟩ := performAll_eq_some_iff.mp hr
    rw [submissions_flatMap] at hkept hcount'
    rw [keepAll_of_le (by omega)] at hkept hkept'
    exact List.append_cancel_left (hkept.symm.trans (hsubmissions.trans hkept'))
  have hsent := htrace.takers_eq_filter
    (fun i => filterMap_ofMessage filterMap_submission (messages i))
    (fun i j s hi hj => hdistinct i j _ (notice?_of_sent? hi) (notice?_of_sent? hj)) hrecorded
  unfold InOrder
  rw [hpushed, hsent]
  refine List.monotone_filter_right order fun i hi => ?_
  obtain ⟨s, hs⟩ := Option.isSome_iff_exists.mp hi
  exact Option.isSome_of_eq_some (notice?_of_sent? hs)

end

/-! ## The main statement -/

/-- **Messages received together.** Any number of messages are received at the same time, and all
calls come to their end. Nothing is lost and nothing is there twice. The notices and the settings
are those of receiving the messages one after the other, in some order, and so are the submissions
and the settings. If forms are recorded in the order of their notices, one order serves all three;
and when the notices tell the messages apart and there is room for all submissions, only then. -/
theorem received_together {messages : ι → Json} {r : Router} {u : Underway ι} {now : Moment}
    {trace : List (ι × Step)} (h : (Underway.start r messages).Runs now trace u)
    (hdone : ∀ i, u.pending i = []) :
    Accounted messages r u.router ∧
    (∃ order s, Serial order ∧ r.receiveAll now (order.map messages) = some s ∧
      s.notices = u.router.notices ∧ s.settings = u.router.settings) ∧
    (∃ order s, Serial order ∧ r.receiveAll now (order.map messages) = some s ∧
      s.submissions = u.router.submissions ∧ s.settings = u.router.settings) ∧
    (InOrder trace → ∃ order, Serial order ∧
      r.receiveAll now (order.map messages) = some u.router) ∧
    ((∀ i j said, notice? (messages i) = some said → notice? (messages j) = some said → i = j) →
      r.submissions.length + Fintype.card ι ≤ r.capacity →
      (∃ order s, Serial order ∧ r.receiveAll now (order.map messages) = some s ∧
        s.told = u.router.told ∧ s.submissions = u.router.submissions) → InOrder trace) := by
  obtain ⟨hpending, hr⟩ := h.trace
  have htrace : Interleaves (fun i => Step.ofMessage (messages i)) trace := by
    intro i
    have hi := hpending i
    rw [hdone, List.append_nil] at hi
    exact hi.symm
  refine ⟨accounted htrace hr, exists_serial_notices htrace hr, exists_serial_submissions htrace hr,
    exists_serial_of_inOrder htrace hr, ?_⟩
  rintro hdistinct hroom ⟨order, s, horder, hs, htold, hsubmissions⟩
  exact inOrder_of_serial htrace hr hdistinct hroom horder hs htold hsubmissions

end Router

end

namespace Router

/-- A form with one control, sent in. -/
def sentIn (name : String) : FormSubmission := ⟨name, [("name", .str name)]⟩

def announcing (name : String) : String :=
  "Form submitted: " ++ Json.compact (.obj (sentIn name).data)

/-- One form each. -/
def twoForms (second : Bool) : Json :=
  (Envelope.formSubmit (sentIn (if second then "b" else "a"))).encode.kept

/-- The second form is announced before the first one is recorded, and recorded after it. -/
def alternating : List (Bool × Step) :=
  [(false, .push (announcing "a") .success), (true, .push (announcing "b") .success),
    (false, .record (sentIn "a")), (true, .record (sentIn "b"))]

theorem received_together_alternating : ∃ u order,
    (Underway.start (.new ⟨5, 2⟩) twoForms).Runs ⟨0, ""⟩ alternating u ∧ Serial order ∧
      (Router.new ⟨5, 2⟩).receiveAll ⟨0, ""⟩ (order.map twoForms) = some u.router := by
  have hruns : (Underway.start (.new ⟨5, 2⟩) twoForms).Runs ⟨0, ""⟩ alternating _ :=
    .step rfl rfl (.step rfl rfl (.step rfl rfl (.step rfl rfl (.stop _))))
  obtain ⟨-, -, -, hserial, -⟩ := received_together hruns fun | false => rfl | true => rfl
  have hinOrder : InOrder alternating := by
    unfold InOrder
    decide
  obtain ⟨order, horder, hs⟩ := hserial hinOrder
  exact ⟨_, order, hruns, horder, hs⟩

/-- The second form is announced and recorded between the two steps of the first one. -/
def nested : List (Bool × Step) :=
  [(false, .push (announcing "a") .success), (true, .push (announcing "b") .success),
    (true, .record (sentIn "b")), (false, .record (sentIn "a"))]

theorem serial_bool {order : List Bool} (h : Serial order) :
    order = [false, true] ∨ order = [true, false] := by
  have hperm : order.Perm [false, true] :=
    (List.perm_ext_iff_of_nodup h.nodup (by decide)).mpr fun b => by simp [h.complete b]
  obtain ⟨first, second, rfl⟩ := List.length_eq_two.mp hperm.length_eq
  have hne : first ≠ second := by simpa using h.nodup
  cases first with
  | false => exact .inl (by simpa using hne)
  | true => exact .inr (by simpa using hne)

/-- One submission is kept. The notices are those of the first form before the second one, the
submission is that of the second form before the first one. -/
theorem nested_not_serial : ∃ u,
    (Underway.start (.new ⟨5, 1⟩) twoForms).Runs ⟨0, ""⟩ nested u ∧ (∀ i, u.pending i = []) ∧
      ¬∃ order s, Serial order ∧
        (Router.new ⟨5, 1⟩).receiveAll ⟨0, ""⟩ (order.map twoForms) = some s ∧
        s.told = u.router.told ∧
        s.submissions.map FormSubmission.form = u.router.submissions.map FormSubmission.form := by
  refine ⟨_, .step rfl rfl (.step rfl rfl (.step rfl rfl (.step rfl rfl (.stop _)))),
    fun | false => rfl | true => rfl, ?_⟩
  rintro ⟨order, s, horder, hs, htold, hforms⟩
  rcases serial_bool horder with rfl | rfl
  · have hlast : ((Router.new ⟨5, 1⟩).receiveAll ⟨0, ""⟩ ([false, true].map twoForms)).map
        (fun s => s.submissions.map FormSubmission.form) = some ["b"] := rfl
    rw [hs] at hlast
    exact absurd ((Option.some.inj hlast).symm.trans hforms) (by decide)
  · have hfirst : ((Router.new ⟨5, 1⟩).receiveAll ⟨0, ""⟩ ([true, false].map twoForms)).map told =
        some [(announcing "b", .success), (announcing "a", .success)] := rfl
    rw [hs] at hfirst
    exact absurd ((Option.some.inj hfirst).symm.trans htold) (by decide)

end Router

end EmbedUI.Host
