/-!
# Writing

A run writes to two outputs as it goes along, and it may end at any point with an exit code. What
was written until then stays written.
-/

namespace EmbedUI.Cli

/-- The text on both outputs. -/
structure Console where
  output : String
  errors : String
deriving DecidableEq, Repr

def Console.empty : Console := ⟨"", ""⟩

/-- What a run leaves behind. -/
@[ext]
structure Outcome where
  exit : Nat
  /-- The text on the standard output. -/
  output : String
  /-- The text on the standard error. -/
  errors : String
deriving DecidableEq, Repr

/-- Steps of a run, which write and may end it. -/
abbrev Act := ExceptT Nat (StateM Console)

namespace Act

/-- Writes a text on the standard output. -/
def print (text : String) : Act Unit := modify fun c => { c with output := c.output ++ text }

def printLine (line : String) : Act Unit := print (line ++ "\n")

/-- Writes a line on the standard error. -/
def complain (line : String) : Act Unit :=
  modify fun c => { c with errors := c.errors ++ (line ++ "\n") }

/-- Ends the run. -/
def exit {α : Type} (code : Nat) : Act α := throw code

/-- Ends a run that cannot go on, and not with a report: what is said of it is handed in. -/
def crash {α : Type} (said : String) : Act α := do
  modify fun c => { c with errors := c.errors ++ said }
  exit 101

/-- What a run leaves behind that has not written anything before. A run that gets to its end is a
success. -/
def outcome (act : Act Unit) : Outcome :=
  match act.run.run .empty with
  | (.ok _, written) => ⟨0, written.output, written.errors⟩
  | (.error code, written) => ⟨code, written.output, written.errors⟩

end Act

end EmbedUI.Cli
