import EmbedUI.Cli.Grammar
import EmbedUI.Component.Kind

/-!
# Commands

What the program can be told to do, and how it is written on a command line. Three settings are
common to all commands and may stand before the name of the command or after it.
-/

namespace EmbedUI.Cli

/-- How results and errors are printed. -/
inductive Format where
  | text
  | json
deriving DecidableEq, Repr

namespace Format

def all : List Format := [text, json]

def name : Format → String
  | text => "text"
  | json => "json"

def ofName? (s : String) : Option Format := all.find? fun f => f.name = s

end Format

inductive Command where
  /-- Generate a component from a description. -/
  | generate (description user : String) (markupOnly : Bool)
  /-- Show the requirements of a description. -/
  | extract (description : String)
  /-- Generate a component from a configuration in a file. -/
  | compile (kind : ComponentKind) (path user : String) (markupOnly : Bool)
  | suggest (description : String)
  /-- List the kinds of components. -/
  | templates
  | demo (markupOnly : Bool)
  /-- Show the resource in a file in a frame. -/
  | frame (path : String) (strict : Bool)
  /-- Feed a file of messages to a host. -/
  | dispatch (path : String)
deriving DecidableEq, Repr

/-- A command and the settings common to all commands. -/
structure Invocation where
  format : Format
  /-- Errors are not printed. -/
  quiet : Bool
  /-- The path of the configuration, which takes precedence over the one in the environment. -/
  config : Option String
  command : Command
deriving DecidableEq, Repr

namespace Command

/-! ### Grammars -/

/-- A level on which the common settings may be given too. -/
def level (flags : List String) (options : List (String × Shape)) (operands : List Shape) :
    Grammar :=
  { flags := "quiet" :: flags
    options := ("output", .oneOf (Format.all.map Format.name)) :: ("config", .path) :: options
    operands := operands
    versioned := false
    commands := [] }

def kindShape : Shape := .oneOf (ComponentKind.all.map ComponentKind.name)

/-- What may follow the name of each command. -/
def grammars : List (String × Grammar) :=
  [("generate", level ["html"] [("user", .text)] [.text]),
    ("extract", level [] [] [.text]),
    ("compile", level ["html"] [("user", .text)] [kindShape, .path]),
    ("suggest", level [] [] [.text]),
    ("templates", level [] [] []),
    ("demo", level ["html"] [] []),
    ("frame", level ["strict"] [] [.path]),
    ("dispatch", level [] [] [.path])]

/-- The command that shows help, for itself or for another command. -/
def helpName : String := "help"

/-- What may stand before the name of the command. -/
def outerGrammar : Grammar :=
  { level [] [] [] with versioned := true, commands := grammars.map Prod.fst ++ [helpName] }

/-! ### Reading -/

/-- The command with a name, if everything it needs is there. -/
def ofFound? (name : String) (f : Found) : Option Command :=
  match name, f.operands with
  | "generate", [description] =>
    (f.option? "user").map fun user => .generate description user (f.has "html")
  | "extract", [description] => some (.extract description)
  | "compile", [kind, path] => do
    let kind ← ComponentKind.ofName? kind
    let user ← f.option? "user"
    return .compile kind path user (f.has "html")
  | "suggest", [description] => some (.suggest description)
  | "templates", [] => some .templates
  | "demo", [] => some (.demo (f.has "html"))
  | "frame", [path] => some (.frame path (f.has "strict"))
  | "dispatch", [path] => some (.dispatch path)
  | _, _ => none

/-- The path of the file that a command reads. -/
def path? : Command → Option String
  | .compile _ path _ _ => some path
  | .frame path _ => some path
  | .dispatch path => some path
  | _ => none

end Command

namespace Invocation

/-- Help may name one command. -/
def helpStop (topic : List String) : Stop :=
  match topic with
  | [] => .help
  | [name] => if name ∈ Command.outerGrammar.commands then .help else .usage
  | _ => .usage

/-- The invocation that a command and the findings of both levels make. -/
def ofFound (f : Found) (command : Command) : Invocation :=
  { format := ((f.option? "output").bind Format.ofName?).getD .text
    quiet := f.has "quiet"
    config := f.option? "config"
    command := command }

/-- Reads a command line. -/
def ofArguments (args : List String) : Except Stop Invocation := do
  let (outer, command) ← Found.scan Command.outerGrammar .empty args
  match command with
  | none => throw .usage
  | some (name, rest) =>
    if name = Command.helpName then throw (helpStop rest)
    else
      match Command.grammars.lookup name with
      | none => throw .usage
      | some g =>
        let (inner, _) ← Found.scan g .empty rest
        let inner ← inner.settle g
        match Command.ofFound? name inner with
        | none => throw .usage
        | some command =>
          let outer ← outer.settle Command.outerGrammar
          return ofFound (inner.within outer) command

end Invocation

end EmbedUI.Cli
