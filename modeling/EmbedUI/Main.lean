import EmbedUI.Cli.Session
import EmbedUI.Host.WallClock
import Std.Time.DateTime.Timestamp

/-!
# The program

Reads what a run depends on and prints what it leaves behind. Everything else is `Cli.run`.
-/

namespace EmbedUI.Cli

/-- The setting of the environment that names the configuration. -/
def configVariable : String := "WIDGETRY_CONFIG"

/-- What the system says of a failed reading. -/
def ReadFailure.ofError : IO.Error → ReadFailure
  | .noFileOrDirectory .. => .missing
  | .permissionDenied .. => .permissionDenied
  | .inappropriateType _ code details => .system details code.toNat
  | .invalidArgument _ code details => .system details code.toNat
  | .resourceExhausted _ code details => .system details code.toNat
  | .otherError code details => .system details code.toNat
  | e => .system (toString e) 0

def textOf (bytes : ByteArray) : Except ReadFailure String :=
  match String.fromUTF8? bytes with
  | some text => .ok text
  | none => .error .notText

/-- The text of a file. -/
def fileText (path : String) : IO (Except ReadFailure String) := do
  try return textOf (← IO.FS.readBinFile path)
  catch e => return .error (.ofError e)

/-- The rest of a stream. -/
partial def streamBytes (stream : IO.FS.Stream) (read : ByteArray) : IO ByteArray := do
  let bytes ← stream.read 65536
  if bytes.isEmpty then return read
  streamBytes stream (read ++ bytes)

/-- The text of the standard input. -/
def inputText : IO (Except ReadFailure String) := do
  try return textOf (← streamBytes (← IO.getStdin) .empty)
  catch e => return .error (.ofError e)

/-- Short texts in place of those that the reader of command lines and the runtime would put
together. -/
def foreignTexts : Foreign where
  help _ :=
    "Generate embeddable UI widgets and route their actions\n\n"
      ++ "Usage: widgetry [OPTIONS] <COMMAND>\n"
  usage _ := "Usage: widgetry [OPTIONS] <COMMAND>\n"
  crash := "overflow when adding duration to instant\n"

/-- The surroundings, as far as an invocation depends on them. -/
def observe (configPath : Option String) (i : Option Invocation) : IO World := do
  let paths := ((i.bind Invocation.config).or configPath).toList
    ++ (i.bind fun i => i.command.path?).toList
  let files ← paths.mapM fun path => return (path, ← fileText path)
  let input ← if paths.any World.meansInput then inputText else pure (.ok "")
  let nanos := (← Std.Time.Timestamp.now).toNanosecondsSinceUnixEpoch.val.toNat
  return {
    configPath := configPath
    read := fun path => (files.lookup path).getD (.error .missing)
    input := input
    now := { instant := ← IO.monoNanosNow, shown := Host.timeText nanos }
    millis := nanos / Host.nanosPerMilli
    foreign := foreignTexts }

end EmbedUI.Cli

open EmbedUI.Cli in
def main (args : List String) : IO UInt32 := do
  let configPath ← IO.getEnv configVariable
  let world ← observe configPath (Invocation.ofArguments args).toOption
  let outcome := run world args
  IO.print outcome.output
  IO.eprint outcome.errors
  return outcome.exit.toUInt32
