/-!
# Command lines

A command line has two levels: what stands before the name of a command, and what follows it. Each
level has flags, options with a value, and operands, in any order; after `--` there are only
operands. Nothing may be given twice on one level.

Values are looked at late. A value of its own argument is only checked when the next argument takes
effect or the line ends, so help that is asked for on the level of a command is given whatever the
values before the command were.
-/

namespace EmbedUI.Cli

/-- What a value may be. -/
inductive Shape where
  | text
  /-- A path is not empty. -/
  | path
  | oneOf (words : List String)
deriving DecidableEq, Repr

def Shape.admits : Shape → String → Bool
  | .text, _ => true
  | .path, s => !s.isEmpty
  | .oneOf words, s => words.contains s

/-- What may stand on a level. -/
structure Grammar where
  flags : List String
  options : List (String × Shape)
  operands : List Shape
  /-- Whether the version can be asked for. -/
  versioned : Bool
  /-- The names that end the level. -/
  commands : List String
deriving DecidableEq, Repr

/-- Why a command line is not carried out. -/
inductive Stop where
  | help
  | version
  /-- It is not in order. -/
  | usage
deriving DecidableEq, Repr

/-! ### Arguments -/

/-- The parts of an argument. A hyphen alone is a plain argument. -/
inductive Argument where
  | long (name : String) (value : Option String)
  | short (letter : Char)
  | plain (text : String)
deriving DecidableEq, Repr

/-- Splits a long argument at its first equals sign. -/
def Argument.ofLong (cs : List Char) : Argument :=
  let (name, rest) := cs.span (· ≠ '=')
  .long (String.ofList name)
    (match rest with
    | [] => none
    | _ :: value => some (String.ofList value))

/-- Of short arguments that are written together only the first matters: there are none that could
be followed by others. -/
def Argument.ofText (text : String) : Argument :=
  match text.toList with
  | '-' :: '-' :: cs => .ofLong cs
  | '-' :: c :: _ => .short c
  | _ => .plain text

/-! ### A level -/

/-- What has not been looked at yet. -/
inductive Pending where
  /-- An option whose value is due. -/
  | option (name : String)
  | value (name text : String)
  | operand (text : String)
deriving DecidableEq, Repr

/-- What has been found on a level. -/
structure Found where
  flags : List String
  options : List (String × String)
  operands : List String
  pending : Option Pending
deriving DecidableEq, Repr

namespace Found

def empty : Found := { flags := [], options := [], operands := [], pending := none }

/-- Whether the next argument is the value of an option, if it is a plain one. -/
def awaitsValue (f : Found) : Bool :=
  match f.pending with
  | some (.option _) => true
  | _ => false

/-- Adds the value of an option. -/
def addOption (f : Found) (g : Grammar) (name text : String) : Except Stop Found :=
  match f.options.lookup name, g.options.lookup name with
  | none, some shape =>
    if shape.admits text then .ok { f with options := f.options ++ [(name, text)] }
    else .error .usage
  | _, _ => .error .usage

def addOperand (f : Found) (g : Grammar) (text : String) : Except Stop Found :=
  match g.operands[f.operands.length]? with
  | some shape =>
    if shape.admits text then .ok { f with operands := f.operands ++ [text] } else .error .usage
  | none => .error .usage

def addFlag (f : Found) (name : String) : Except Stop Found :=
  if name ∈ f.flags then .error .usage else .ok { f with flags := f.flags ++ [name] }

/-- Looks at what is pending. -/
def settle (f : Found) (g : Grammar) : Except Stop Found :=
  let rest := { f with pending := none }
  match f.pending with
  | none => .ok rest
  | some (.option _) => .error .usage
  | some (.value name text) => rest.addOption g name text
  | some (.operand text) => rest.addOperand g text

/-- Takes an operand. There must be room for it. -/
def takeOperand (f : Found) (g : Grammar) (text : String) : Except Stop Found := do
  let f ← f.settle g
  if f.operands.length < g.operands.length then return { f with pending := some (.operand text) }
  else throw .usage

/-- Takes an argument that is only a name. -/
def takeName (f : Found) (g : Grammar) (name : String) : Except Stop Found := do
  let f ← f.settle g
  if name = "help" then throw .help
  else if name = "version" ∧ g.versioned then throw .version
  else if name ∈ g.flags then f.addFlag name
  else if (g.options.lookup name).isSome then return { f with pending := some (.option name) }
  else throw .usage

/-- The names of short arguments. -/
def shortNames : List (Char × String) := [('h', "help"), ('V', "version")]

def take (f : Found) (g : Grammar) : Argument → Except Stop Found
  | .long name none => f.takeName g name
  | .long name (some value) => do (← f.settle g).addOption g name value
  | .short letter =>
    match shortNames.lookup letter with
    | some name => f.takeName g name
    | none => .error .usage
  | .plain text =>
    match f.pending with
    | some (.option name) => .ok { f with pending := some (.value name text) }
    | _ => f.takeOperand g text

/-- Takes the arguments of a level: what was found, and the command that ended it with the arguments
that follow. -/
def scan (g : Grammar) (f : Found) :
    List String → Except Stop (Found × Option (String × List String))
  | [] => .ok (f, none)
  | arg :: rest =>
    if !f.awaitsValue && g.commands.contains arg then .ok (f, some (arg, rest))
    else if arg = "--" then do return (← rest.foldlM (fun f text => f.takeOperand g text) f, none)
    else do scan g (← f.take g (.ofText arg)) rest

/-- What was found on two levels together. What is given on the inner level counts. -/
def within (inner outer : Found) : Found :=
  { flags := inner.flags ++ outer.flags, options := inner.options ++ outer.options,
    operands := inner.operands, pending := none }

def has (f : Found) (flag : String) : Bool := f.flags.contains flag

def option? (f : Found) (name : String) : Option String := f.options.lookup name

end Found

end EmbedUI.Cli
