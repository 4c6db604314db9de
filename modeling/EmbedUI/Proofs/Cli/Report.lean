import EmbedUI.Cli.Session

/-!
# What a run leaves behind

The outcome of a run is worked out step by step: what is found is passed on without a trace,
printing ends well, and a failure leaves its report and nothing else. So a run with a command line
that is understood is that of its command, once the configuration is there.
-/

namespace EmbedUI.Cli

namespace Act

theorem outcome_print (text : String) : (print text).outcome = ⟨0, text, ""⟩ := by
  show Outcome.mk 0 ("" ++ text) "" = _
  rw [String.empty_append]

theorem outcome_complain (line : String) (code : Nat) :
    (do complain line; exit code).outcome = ⟨code, "", line ++ "\n"⟩ := by
  show Outcome.mk code "" ("" ++ (line ++ "\n")) = _
  rw [String.empty_append]

theorem outcome_crash (said : String) : (crash said).outcome = ⟨101, "", said⟩ := by
  show Outcome.mk 101 "" ("" ++ said) = _
  rw [String.empty_append]

end Act

namespace Manner

variable (m : Manner)

/-- What is written of an error. -/
def said (message : String) : String := if m.quiet then "" else m.format.error message ++ "\n"

/-- Nothing is done behind a failure. -/
theorem fail_bind {α β : Type} (cause : Failure) (act : α → Act β) :
    (m.fail cause >>= act) = m.fail cause := by
  unfold fail
  rw [bind_assoc]
  rfl

theorem outcome_fail (cause : Failure) :
    (m.fail cause).outcome = ⟨1, "", m.said cause.message⟩ := by
  unfold fail report said
  split
  · rfl
  · exact Act.outcome_complain _ 1

theorem outcome_orFail_ok {α : Type} (found : α) (act : α → Act Unit) :
    (m.orFail (.ok found) >>= act).outcome = (act found).outcome := rfl

theorem outcome_orFail_error {α : Type} (cause : Failure) (act : α → Act Unit) :
    (m.orFail (.error cause) >>= act).outcome = ⟨1, "", m.said cause.message⟩ := by
  rw [orFail, fail_bind, outcome_fail]

end Manner

theorem run_of_invocation {w : World} {args : List String} {i : Invocation}
    (hargs : Invocation.ofArguments args = .ok i) : run w args = (w.execute i).outcome := by
  rw [run, hargs]

theorem outcome_execute {w : World} {i : Invocation} {c : Configuration}
    (hconfig : w.configuration (i.config.or w.configPath) = .ok c) :
    (w.execute i).outcome = (w.perform c i.manner i.command).outcome := by
  rw [World.execute, hconfig, Manner.outcome_orFail_ok]

theorem outcome_execute_error {w : World} {i : Invocation} {cause : Failure}
    (hconfig : w.configuration (i.config.or w.configPath) = .error cause) :
    (w.execute i).outcome = ⟨1, "", i.manner.said cause.message⟩ := by
  rw [World.execute, hconfig, Manner.outcome_orFail_error]

end EmbedUI.Cli
