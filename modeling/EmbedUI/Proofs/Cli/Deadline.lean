import EmbedUI.Proofs.Cli.Report
import EmbedUI.Proofs.Host.RouterRun

/-!
# Deadlines of a run

The time for which notices are visible comes from a configuration, where any count of seconds may
stand, and goes unchecked into the deadline of every notice. The clock holds sixty-three bits of
seconds, so with a long time it depends on the reading of the clock whether a notice can be pushed
at all: `endOfTime` is the exact boundary, and nothing but a notice ever meets it.

## The architecture

* **`announce_isSome_iff`**: when a notice can be pushed.
* **`Router.receive_isSome_iff`**, **`Router.ttl_receive`**: one message.
* **`Announces`**: a line with a message that makes the host show a notice.
* **`line_isSome_iff`**, **`counted_line`**: one line; **`linesAll_isSome_iff`**,
  **`counted_linesAll`**: all of them, by induction.
* **`run_dispatch`**: the whole program.
-/

namespace EmbedUI

namespace Host

/-! ## One message -/

theorem deadline?_isSome_iff {instant duration : Nat} :
    (deadline? instant duration).isSome ↔ instant + duration < endOfTime := by
  unfold deadline?
  split <;> simp_all

namespace Router

theorem announce_isSome_iff (q : NoticeQueue) (now : Moment) (notice : Option (String × Severity)) :
    (announce q now notice).isSome ↔ (notice.isSome → now.instant + q.ttl < endOfTime) := by
  cases notice with
  | none => simp [announce]
  | some said =>
    show (q.push now said.1 said.2).isSome ↔ _
    rw [NoticeQueue.push, Option.isSome_map, deadline?_isSome_iff]
    simp

theorem ttl_announce {q q' : NoticeQueue} {now : Moment} {notice : Option (String × Severity)}
    (h : announce q now notice = some q') : q'.ttl = q.ttl := by
  cases notice with
  | none =>
    cases h
    rfl
  | some said =>
    obtain ⟨deadline, -, rfl⟩ := Option.map_eq_some_iff.mp h
    rfl

/-- The notice that a message gives rise to. -/
def notice? (message : Json) : Option (String × Severity) :=
  (Envelope.ofMessage? message).bind announcement?

/-- **A message is carried out unless it brings a notice whose deadline is beyond the clock.** -/
theorem receive_isSome_iff (r : Router) (now : Moment) (message : Json) :
    (r.receive now message).isSome ↔
      ((notice? message).isSome → now.instant + r.notices.ttl < endOfTime) := by
  unfold notice?
  cases hmessage : Envelope.ofMessage? message with
  | none => simp [receive_dropped hmessage]
  | some e =>
    rw [receive_accepted hmessage, performAll_ofEnvelope, Option.isSome_map, Option.isSome_map,
      announce_isSome_iff, Option.bind_some]

theorem ttl_receive {r r' : Router} {now : Moment} {message : Json} {answer : Option ActionType}
    (h : r.receive now message = some (r', answer)) :
    r'.notices.ttl = r.notices.ttl ∧ answer = (Envelope.ofMessage? message).map Envelope.type := by
  cases hmessage : Envelope.ofMessage? message with
  | none =>
    rw [receive_dropped hmessage] at h
    cases h
    exact ⟨rfl, rfl⟩
  | some e =>
    rw [receive_accepted hmessage, performAll_ofEnvelope, Option.map_map] at h
    obtain ⟨notices, hnotices, hr⟩ := Option.map_eq_some_iff.mp h
    cases hr
    exact ⟨ttl_announce hnotices, rfl⟩

end Router

namespace Dispatch

/-! ## Lines -/

/-- The message on a line, if it holds one. -/
def message? (cs : List Char) : Option Json :=
  if (Text.trimmed cs).isEmpty then none
  else (Json.ofText (String.ofList (Text.trimmed cs))).toOption

/-- The message on a line makes the host show a notice. -/
def Announces (cs : List Char) : Prop := ((message? cs).bind Router.notice?).isSome

instance : DecidablePred Announces := fun _ => inferInstanceAs (Decidable (_ = true))

/-- The tally after a line. -/
def count (t : Tally) (cs : List Char) : Tally :=
  { received := t.received + if (Text.trimmed cs).isEmpty then 0 else 1
    routed := t.routed + if ((message? cs).bind Envelope.ofMessage?).isSome then 1 else 0 }

/-- The host keeps its limit, and the tally is what it should be. -/
structure Counted (ttl : Nat) (tally : Tally) (d : Dispatch) : Prop where
  ttl : d.router.notices.ttl = ttl
  tally : d.tally = tally

/-- **What a line is:** nothing, something that is no message, or a message that is received. -/
theorem line_cases (d : Dispatch) (now : Moment) (cs : List Char) :
    (message? cs = none ∧ d.line now cs = some { d with tally := count d.tally cs }) ∨
    ∃ message, message? cs = some message ∧ (Text.trimmed cs).isEmpty = false ∧
      d.line now cs = (d.router.receive now message).map fun (router, accepted) =>
        { router := router
          tally := ⟨d.tally.received + 1,
            d.tally.routed + if accepted.isSome then 1 else 0⟩ } := by
  unfold line count message?
  by_cases hblank : (Text.trimmed cs).isEmpty = true
  · exact Or.inl (by simp [hblank])
  · cases hjson : Json.ofText (String.ofList (Text.trimmed cs)) with
    | error fault => exact Or.inl (by simp [hblank, hjson, Except.toOption])
    | ok message => exact Or.inr ⟨message, by simp [hblank, hjson, Except.toOption]⟩

theorem line_isSome_iff (d : Dispatch) (now : Moment) (cs : List Char) :
    (d.line now cs).isSome ↔
      (Announces cs → now.instant + d.router.notices.ttl < endOfTime) := by
  unfold Announces
  rcases line_cases d now cs with ⟨hnone, hline⟩ | ⟨message, hsome, -, hline⟩
  · simp [hnone, hline]
  · rw [hline, hsome, Option.isSome_map, Router.receive_isSome_iff, Option.bind_some]

/-- **The step.** -/
theorem counted_line {ttl : Nat} {tally : Tally} {d d' : Dispatch} (h : Counted ttl tally d)
    {now : Moment} {cs : List Char} (hline : d.line now cs = some d') :
    Counted ttl (count tally cs) d' := by
  rcases line_cases d now cs with ⟨-, hcase⟩ | ⟨message, hsome, htext, hcase⟩
  · rw [hcase] at hline
    cases hline
    exact ⟨h.ttl, by rw [← h.tally]⟩
  · rw [hcase] at hline
    obtain ⟨⟨router, answer⟩, hreceive, rfl⟩ := Option.map_eq_some_iff.mp hline
    obtain ⟨httl, rfl⟩ := Router.ttl_receive hreceive
    refine ⟨httl.trans h.ttl, ?_⟩
    simp [count, ← h.tally, hsome, htext]

/-- Lines are received unless one of them announces and the clock cannot hold the deadline. -/
theorem linesAll_isSome_iff {ttl : Nat} {tally : Tally} {d : Dispatch} (h : Counted ttl tally d)
    (now : Moment) (lines : List (List Char)) :
    (d.linesAll now lines).isSome ↔
      ((∃ cs ∈ lines, Announces cs) → now.instant + ttl < endOfTime) := by
  induction lines generalizing tally d with
  | nil => simp [linesAll]
  | cons cs rest ih =>
    have hstep := line_isSome_iff d now cs
    rw [h.ttl] at hstep
    rw [linesAll, List.exists_mem_cons_iff, or_imp, ← hstep]
    cases hline : d.line now cs with
    | none => simp
    | some d' => simpa using ih (counted_line h hline)

/-- **The run.** -/
theorem counted_linesAll {ttl : Nat} {tally : Tally} {d d' : Dispatch} (h : Counted ttl tally d)
    {now : Moment} {lines : List (List Char)} (hlines : d.linesAll now lines = some d') :
    Counted ttl (lines.foldl count tally) d' := by
  induction lines generalizing tally d with
  | nil =>
    cases hlines
    exact h
  | cons cs rest ih =>
    obtain ⟨d₁, hline, hrest⟩ := Option.bind_eq_some_iff.mp hlines
    exact ih (counted_line h hline) hrest

end Dispatch

end Host

namespace Cli

open Host

/-! ## The program -/

/-- The deadline of every notice that a text brings lies within the clock. -/
def Fits (c : Configuration) (now : Moment) (text : String) : Prop :=
  (∃ cs ∈ Text.lines text.toList, Dispatch.Announces cs) →
    now.instant + c.ttlSeconds.toNat * nanosPerSecond < endOfTime

/-- What the program does with messages once it has read the configuration. -/
theorem run_of_dispatch {w : World} {args : List String} {i : Invocation} {path : String}
    {c : Configuration} (hargs : Invocation.ofArguments args = .ok i)
    (hcommand : i.command = .dispatch path)
    (hconfig : w.configuration (i.config.or w.configPath) = .ok c) :
    run w args = (w.dispatch c i.manner path).outcome := by
  rw [run_of_invocation hargs, outcome_execute hconfig, hcommand]
  rfl

/-- What becomes of messages that can be read. -/
theorem outcome_dispatch {w : World} {c : Configuration} {path text : String} (m : Manner)
    (htext : w.readMessages path = .ok text) :
    (w.dispatch c m path).outcome =
      match Dispatch.run (.new c.limits) w.now text with
      | none => ⟨101, "", w.foreign.crash⟩
      | some d => ⟨0, m.format.value (d.report w.now), ""⟩ := by
  rw [World.dispatch, htext, Manner.outcome_orFail_ok]
  cases Dispatch.run (.new c.limits) w.now text with
  | none => exact Act.outcome_crash _
  | some d => exact Act.outcome_print _

/-- **Messages are carried out to the end exactly when every deadline fits the clock.** The program
is told to dispatch messages, and the configuration and the messages can be read. If no message
brings a notice, or the clock can hold its reading and the configured time together, the report is
printed, and it counts the lines and the accepted messages among them. Otherwise the program breaks
down in the middle and prints nothing. -/
theorem run_dispatch {w : World} {args : List String} {i : Invocation} {path text : String}
    {c : Configuration} (hargs : Invocation.ofArguments args = .ok i)
    (hcommand : i.command = .dispatch path)
    (hconfig : w.configuration (i.config.or w.configPath) = .ok c)
    (htext : w.readMessages path = .ok text) :
    (Fits c w.now text → ∃ d, Dispatch.run (.new c.limits) w.now text = some d ∧
      d.tally = (Text.lines text.toList).foldl Dispatch.count .zero ∧
      run w args = ⟨0, i.format.value (d.report w.now), ""⟩) ∧
    (¬Fits c w.now text → (run w args).exit = 101 ∧ (run w args).output = "") := by
  have hstart : Dispatch.Counted (c.ttlSeconds.toNat * nanosPerSecond) .zero
      ⟨.new c.limits, .zero⟩ := ⟨rfl, rfl⟩
  have hfits := Dispatch.linesAll_isSome_iff hstart w.now (Text.lines text.toList)
  rw [run_of_dispatch hargs hcommand hconfig, outcome_dispatch i.manner htext]
  unfold Fits
  rw [← hfits]
  constructor
  · intro hsome
    obtain ⟨d, hd⟩ := Option.isSome_iff_exists.mp hsome
    have hdispatch : Dispatch.run (.new c.limits) w.now text = some d := hd
    rw [hdispatch]
    exact ⟨d, rfl, (Dispatch.counted_linesAll hstart hd).tally, rfl⟩
  · intro hnone
    have hdispatch : Dispatch.run (.new c.limits) w.now text = none :=
      Option.not_isSome_iff_eq_none.mp hnone
    rw [hdispatch]
    exact ⟨rfl, rfl⟩

/-- One notice on the standard input, a second after the clock started. -/
def noticeWorld (config : String) : World :=
  { configPath := none
    read := fun path => if path = "c.toml" then .ok config else .error .missing
    input := .ok noticeLine
    now := ⟨nanosPerSecond, "12:00"⟩
    millis := 0
    foreign := ⟨fun _ => "", fun _ => "", ""⟩ }
where
  noticeLine := "\x7b\"type\":\"notify\",\"payload\":\x7b\"message\":\"hi\"\x7d\x7d\n"

def noticeArgs : List String := ["--config", "c.toml", "dispatch", "-"]

def noticeInvocation : Invocation := ⟨.text, false, some "c.toml", .dispatch "-"⟩

theorem meansInput_hyphen : World.meansInput "-" = true := by
  have hsplit : "-".splitOn "/" = ["-"] := by
    rw [String.splitOn, if_neg (by decide), String.splitOnAux, if_neg (by decide),
      if_neg (by decide), String.splitOnAux, if_pos (by decide)]
    decide
  rw [World.meansInput, hsplit]
  rfl

theorem readMessages_noticeWorld (config : String) :
    (noticeWorld config).readMessages "-" = .ok noticeWorld.noticeLine := by
  rw [World.readMessages, if_pos meansInput_hyphen]
  rfl

theorem configuration_noticeWorld {config : String} {c : Configuration}
    (h : Configuration.ofText config = .ok c) :
    (noticeWorld config).configuration (some "c.toml") = .ok c := by
  show (Configuration.ofText config).mapError _ = _
  rw [h]
  rfl

def fiveSeconds : String := "[host]\nnotification_ttl_secs = 5\n"

theorem run_dispatch_fiveSeconds :
    ∃ d, Dispatch.run (.new ⟨5 * nanosPerSecond, 100⟩) ⟨nanosPerSecond, "12:00"⟩
        noticeWorld.noticeLine = some d ∧
      d.tally = ⟨1, 1⟩ ∧
      run (noticeWorld fiveSeconds) noticeArgs =
        ⟨0, Format.text.value (d.report ⟨nanosPerSecond, "12:00"⟩), ""⟩ := by
  have hargs : Invocation.ofArguments noticeArgs = .ok noticeInvocation := by decide +kernel
  have haccepted : Configuration.ofText fiveSeconds = .ok ⟨.standard, 5, 100⟩ := by decide +kernel
  have hconfig := configuration_noticeWorld haccepted
  obtain ⟨hfits, -⟩ := run_dispatch hargs rfl hconfig (readMessages_noticeWorld fiveSeconds)
  obtain ⟨d, hd, htally, hrun⟩ := hfits fun _ => by decide
  refine ⟨d, hd, ?_, hrun⟩
  rw [htally]
  decide +kernel

/-- The longest time that a configuration can ask for. -/
def longestTime : String := "[host]\nnotification_ttl_secs = 9223372036854775807\n"

/-- The configuration is accepted, the messages are read, and there is no report. -/
theorem longest_time_overflows :
    Configuration.ofText longestTime = .ok ⟨.standard, 9223372036854775807, 100⟩ ∧
      (noticeWorld longestTime).readMessages "-" = .ok noticeWorld.noticeLine ∧
      (run (noticeWorld longestTime) noticeArgs).exit = 101 ∧
      (run (noticeWorld longestTime) noticeArgs).output = "" := by
  have hargs : Invocation.ofArguments noticeArgs = .ok noticeInvocation := by decide +kernel
  have haccepted : Configuration.ofText longestTime =
      .ok ⟨.standard, 9223372036854775807, 100⟩ := by decide +kernel
  have hread := readMessages_noticeWorld longestTime
  refine ⟨haccepted, hread, ?_⟩
  rw [run_of_dispatch hargs rfl (configuration_noticeWorld haccepted), outcome_dispatch _ hread]
  -- the deadline is that of the first second past the clock
  have hnone : (Dispatch.run (.new (Configuration.limits ⟨.standard, 9223372036854775807, 100⟩))
      (noticeWorld longestTime).now noticeWorld.noticeLine).isNone = true := by decide +kernel
  rw [Option.isNone_iff_eq_none.mp hnone]
  exact ⟨rfl, rfl⟩

end Cli

end EmbedUI
