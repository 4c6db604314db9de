import EmbedUI.Decimal.Layout
import EmbedUI.Host.Clock

/-!
# The surroundings of a run

A run depends on the files it can read, the standard input, one setting of the environment and the
clocks. A few of the texts it shows are not its own: those of the reader of command lines, and that
of the runtime when a run breaks down. Files are reached through a function from paths to texts; `Directory` is the one that knows
nothing but a list of files.
-/

namespace EmbedUI.Cli

/-- Why a text cannot be read. -/
inductive ReadFailure where
  /-- The system's own text and number for what went wrong. -/
  | system (text : String) (code : Nat)
  /-- The bytes are not UTF-8. -/
  | notText
deriving DecidableEq, Repr

namespace ReadFailure

def missing : ReadFailure := .system "No such file or directory" 2

def permissionDenied : ReadFailure := .system "Permission denied" 13

def notDirectory : ReadFailure := .system "Not a directory" 20

def isDirectory : ReadFailure := .system "Is a directory" 21

def message : ReadFailure → String
  | .system text code => text ++ " (os error " ++ Decimal.integerText code ++ ")"
  | .notText => "stream did not contain valid UTF-8"

end ReadFailure

/-- Texts that a run passes on. -/
structure Foreign where
  /-- The help for a command line that asks for it. -/
  help : List String → String
  /-- What is wrong with a command line. -/
  usage : List String → String
  /-- What is said of a run that breaks down. -/
  crash : String

structure World where
  /-- The path of the configuration that the environment names. -/
  configPath : Option String
  read : String → Except ReadFailure String
  /-- The standard input. -/
  input : Except ReadFailure String
  now : Host.Moment
  /-- Milliseconds of the wall clock. -/
  millis : Int
  foreign : Foreign

/-! ### Directories -/

/-- Files by their path in a directory. -/
structure Directory where
  files : List (String × String)

namespace Directory

/-- A segment of a path that leads nowhere else. -/
def isVoid (segment : String) : Bool := segment = "" || segment = "."

/-- The segments of a path that lead somewhere. -/
def segments (path : String) : List String := (path.splitOn "/").filter fun s => !isVoid s

/-- A path that starts with a slash does not start in this directory. -/
def isAbsolute (path : String) : Bool := path.toList.head? = some '/'

/-- A path whose last segment leads nowhere else can only mean a directory. -/
def meansDirectory (path : String) : Bool := isVoid ((path.splitOn "/").getLastD "")

/-- The text of the file at a path. -/
def read (d : Directory) (path : String) : Except ReadFailure String :=
  let wanted := segments path
  if path = "" ∨ isAbsolute path then .error .missing
  else
    match d.files.find? fun (name, _) => segments name = wanted with
    | some (_, text) => if meansDirectory path then .error .notDirectory else .ok text
    | none =>
      if wanted = [] || d.files.any fun (name, _) => wanted.isPrefixOf (segments name) then
        .error .isDirectory
      else if d.files.any fun (name, _) => (segments name).isPrefixOf wanted then
        .error .notDirectory
      else .error .missing

end Directory

end EmbedUI.Cli
