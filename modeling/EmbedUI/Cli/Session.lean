import EmbedUI.Cli.Console
import EmbedUI.Cli.Invocation
import EmbedUI.Cli.World
import EmbedUI.Configuration
import EmbedUI.Demo
import EmbedUI.Description.Suggestion
import EmbedUI.Host.Dispatch
import EmbedUI.Host.Frame
import EmbedUI.Registry.Memory

/-!
# Runs of the program

A run is a function of the command line and its surroundings. It prints results to the standard
output as they come up and reports a failure to the standard error, and after a report it ends. The
configuration is read first, whatever the command.
-/

namespace EmbedUI.Cli

/-- Why a command fails. -/
inductive Failure where
  | unreadableConfig (path : String) (cause : ReadFailure)
  | badConfig (path : String) (cause : ConfigurationError)
  | unreadableFile (path : String) (cause : ReadFailure)
  | unreadableInput (cause : ReadFailure)
  /-- The file holds no configuration of the component that is asked for. -/
  | badComponent (path : String) (cause : Json.DecodeError)
  | badResource (path : String) (cause : Json.DecodeError)
  | generation (cause : Generator.GenerationError)
  | unsupported (cause : Host.Unsupported)

/-- What is said of a text that cannot be used. -/
def about (what path cause : String) : String := what ++ " '" ++ path ++ "': " ++ cause

def Failure.message : Failure → String
  | .unreadableConfig path cause => about "error reading config" path cause.message
  | .badConfig path cause => about "error parsing config" path cause.message
  | .unreadableFile path cause => about "error reading file" path cause.message
  | .unreadableInput cause => "error reading stdin: " ++ cause.message
  | .badComponent path cause =>
    "invalid request: " ++ about "error parsing config" path cause.message
  | .badResource path cause => about "error parsing resource" path cause.message
  | .generation cause => cause.message
  | .unsupported cause => cause.message

/-! ### Printing -/

/-- A value on one line, or over several lines for reading. -/
def Format.value (format : Format) (v : Json) : String :=
  match format with
  | .text => v.pretty ++ "\n"
  | .json => v.compact ++ "\n"

/-- What is said of an error, on one line if its message is. -/
def Format.error (format : Format) (message : String) : String :=
  match format with
  | .text => message
  | .json => Json.compact (.obj [("error", .str message)])

/-- A name, filled up with blanks to the width of a column. -/
def column (width : Nat) (s : String) : String :=
  s ++ String.ofList (List.replicate (width - s.length) ' ')

/-- How a run shows results and errors. -/
structure Manner where
  format : Format
  /-- Errors are not shown. -/
  quiet : Bool

namespace Manner

def report (m : Manner) (message : String) : Act Unit :=
  if m.quiet then pure () else Act.complain (m.format.error message)

/-- Reports a failure and ends the run. -/
def fail {α : Type} (m : Manner) (cause : Failure) : Act α := do
  m.report cause.message
  Act.exit 1

/-- Goes on with what was found, or fails. -/
def orFail {α : Type} (m : Manner) : Except Failure α → Act α
  | .ok found => pure found
  | .error cause => m.fail cause

def printValue (m : Manner) (v : Json) : Act Unit := Act.print (m.format.value v)

/-- Prints a resource or its markup alone, or fails. -/
def emit (m : Manner) (result : Except Failure Resource) (markupOnly : Bool) : Act Unit := do
  let r ← m.orFail result
  if markupOnly then Act.printLine r.text else m.printValue r.encode

/-! ### Commands without surroundings -/

def suggest (m : Manner) (description : String) : Act Unit :=
  match m.format with
  | .text => (Description.suggestions description).forM Act.printLine
  | .json => m.printValue (Json.ofStrings (Description.suggestions description))

def templates (m : Manner) : Act Unit :=
  match m.format with
  | .text =>
    ComponentKind.all.forM fun k =>
      Act.printLine (column 10 k.name ++ " " ++ Description.summary k)
  | .json =>
    m.printValue (.arr (ComponentKind.all.map fun k =>
      .obj [("description", .str (Description.summary k)), ("type", k.encode)]))

end Manner

def Invocation.manner (i : Invocation) : Manner := ⟨i.format, i.quiet⟩

/-! ### Commands -/

namespace World

def readFile (w : World) (path : String) : Except Failure String :=
  (w.read path).mapError (.unreadableFile path)

/-- Generates a component in a registry of its own. -/
def generate (w : World) (c : Configuration) (user : String) (request : Generator.Request) :
    Except Failure Resource :=
  let stamp : Generator.Stamp := { millis := w.millis, shown := w.now.shown }
  let made := Generator.generate Registry.Memory.backend c.spaces user stamp request
  (made.run Registry.Memory.empty).1.mapError .generation

/-- The request for a component of a kind whose configuration is given as text. -/
def requestOf (kind : ComponentKind) (text : String) : Except Json.DecodeError Generator.Request :=
  match kind with
  | .form => (Json.decodeText Form.decode text).map .form
  | .dashboard => (Json.decodeText Dashboard.decode text).map .dashboard
  | .chart => (Json.decodeText Chart.decode text).map .chart
  | .custom => (Json.decodeText Custom.decode text).map .custom

def compile (w : World) (c : Configuration) (m : Manner) (kind : ComponentKind)
    (path user : String) (markupOnly : Bool) : Act Unit := do
  let text ← m.orFail (w.readFile path)
  let request := (requestOf kind text).mapError (.badComponent path)
  m.emit (request.bind (w.generate c user)) markupOnly

/-- The resource in a file. -/
def resource (w : World) (path : String) : Except Failure Resource := do
  let text ← w.readFile path
  (Json.decodeText Resource.decode text).mapError (.badResource path)

/-- Shows a resource in a frame. Unless the frame has to be strict, a placeholder stands in for a
resource that cannot be shown. -/
def frame (w : World) (m : Manner) (path : String) (strict : Bool) : Act Unit := do
  let r ← m.orFail (w.resource path)
  if strict then
    let framed ← m.orFail ((Host.frame r).mapError .unsupported)
    Act.printLine framed
  else Act.printLine (Host.frameOrPlaceholder r)

/-- Whether a path means the standard input: a hyphen, perhaps with segments behind it that lead
nowhere else. -/
def meansInput (path : String) : Bool :=
  match path.splitOn "/" with
  | "-" :: rest => rest.all Directory.isVoid
  | _ => false

/-- The messages at a path. -/
def readMessages (w : World) (path : String) : Except Failure String :=
  if meansInput path then w.input.mapError .unreadableInput else w.readFile path

/-- Feeds the messages at a path to a host. At a deadline beyond the clock the run breaks down. -/
def dispatch (w : World) (c : Configuration) (m : Manner) (path : String) : Act Unit := do
  let text ← m.orFail (w.readMessages path)
  match Host.Dispatch.run (.new c.limits) w.now text with
  | none => Act.crash w.foreign.crash
  | some d => m.printValue (d.report w.now)

def perform (w : World) (c : Configuration) (m : Manner) : Command → Act Unit
  | .generate description user markupOnly =>
    m.emit (w.generate c user (.described description)) markupOnly
  | .extract description => m.printValue (Description.requirements description).encode
  | .compile kind path user markupOnly => w.compile c m kind path user markupOnly
  | .suggest description => m.suggest description
  | .templates => m.templates
  | .demo markupOnly => m.emit (.ok Demo.resource) markupOnly
  | .frame path strict => w.frame m path strict
  | .dispatch path => w.dispatch c m path

/-! ### Runs -/

/-- The configuration at a path, or the standard one without a path. -/
def configuration (w : World) : Option String → Except Failure Configuration
  | none => .ok .standard
  | some path => do
    let text ← (w.read path).mapError (.unreadableConfig path)
    (Configuration.ofText text).mapError (.badConfig path)

/-- Carries out an invocation. -/
def execute (w : World) (i : Invocation) : Act Unit := do
  let c ← i.manner.orFail (w.configuration (i.config.or w.configPath))
  w.perform c i.manner i.command

end World

def versionText : String := "widgetry 0.1.0\n"

/-- What is left behind when no command is carried out. -/
def Stop.outcome (texts : Foreign) (args : List String) : Stop → Outcome
  | .help => ⟨0, texts.help args, ""⟩
  | .version => ⟨0, versionText, ""⟩
  | .usage => ⟨2, "", texts.usage args⟩

/-- Runs the program. -/
def run (w : World) (args : List String) : Outcome :=
  match Invocation.ofArguments args with
  | .error stop => stop.outcome w.foreign args
  | .ok i => (w.execute i).outcome

end EmbedUI.Cli
