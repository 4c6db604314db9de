import EmbedUI.Generator
import EmbedUI.Host.Router
import EmbedUI.Toml.Document

/-!
# Configuration

The program is configured by a TOML text with two sections. Every setting may be left out, and then
has its standard value. A setting with a value of the wrong kind is an error; so is a setting that
is not known at the top or in the host's section, while the generator's section may hold others.
-/

namespace EmbedUI

structure Configuration where
  /-- The namespaces that components are addressed in. -/
  spaces : Namespaces
  /-- How long a notice is visible. -/
  ttlSeconds : UInt64
  /-- How many submissions a host keeps. -/
  maxSubmissions : UInt64
deriving DecidableEq, Repr

/-- Why a text is no configuration. -/
inductive ConfigurationError where
  | notToml
  | unknownSetting (name : String)
  /-- The value of a setting is of the wrong kind, or out of bounds. -/
  | misfit (name : String)
deriving DecidableEq, Repr

def ConfigurationError.message : ConfigurationError → String
  | .notToml => "not a TOML document"
  | .unknownSetting name => "unknown setting " ++ Text.quoted name
  | .misfit name => "invalid value of setting " ++ Text.quoted name

namespace Configuration

/-- What holds without any setting. The host's part comes from its own limits, in whole seconds. -/
def standard : Configuration :=
  let limits := Host.Router.defaultLimits
  { spaces := .standard
    ttlSeconds := (limits.ttl / Host.nanosPerSecond).toUInt64
    maxSubmissions := limits.maxSubmissions.toUInt64 }

/-- The limits of a host. -/
def limits (c : Configuration) : Host.Router.Limits :=
  { ttl := c.ttlSeconds.toNat * Host.nanosPerSecond, maxSubmissions := c.maxSubmissions.toNat }

/-! ### Settings -/

def text? : Toml.Value → Option String
  | .text s => some s
  | _ => none

/-- A count of sixty-four bits. -/
def count? : Toml.Value → Option UInt64
  | .number (.integer n) => if 0 ≤ n ∧ n < UInt64.size then some n.toNat.toUInt64 else none
  | _ => none

/-- The value of a setting, or what it is when it is left out. -/
def setting {α : Type} (table : Toml.Table) (name : String) (absent : α)
    (read : Toml.Value → Option α) : Except ConfigurationError α :=
  match table.lookup name with
  | none => .ok absent
  | some v =>
    match read v with
    | some x => .ok x
    | none => .error (.misfit name)

/-- Refuses every setting that is not among the known ones. -/
def checkKnown (known : List String) (table : Toml.Table) : Except ConfigurationError Unit :=
  match table.find? fun (name, _) => name ∉ known with
  | none => .ok ()
  | some (name, _) => .error (.unknownSetting name)

/-! ### Sections -/

def sections : List String := ["generator", "host"]

def generatorSettings : List String := ["described_namespace", "explicit_namespace"]

def hostSettings : List String := ["notification_ttl_secs", "max_submissions"]

/-- The settings of a section. An array holds the values of the known settings in their order, and
what is behind them does not count. A date or time counts as a table whose only entry is no
setting. -/
def settingsOf (name : String) (known : List String) : Toml.Value →
    Except ConfigurationError Toml.Table
  | .table entries => .ok entries
  | .list items => .ok (known.zip items)
  | .moment m => .ok [("", .moment m)]
  | _ => .error (.misfit name)

/-- The settings of a section, none if it is left out. -/
def sectionOf (table : Toml.Table) (name : String) (known : List String) :
    Except ConfigurationError Toml.Table :=
  match table.lookup name with
  | none => .ok []
  | some v => settingsOf name known v

/-- The configuration that a table denotes. -/
def ofTable (table : Toml.Table) : Except ConfigurationError Configuration := do
  checkKnown sections table
  let generator ← sectionOf table "generator" generatorSettings
  let described ←
    setting generator "described_namespace" standard.spaces.described text?
  let explicit ← setting generator "explicit_namespace" standard.spaces.explicit text?
  let host ← sectionOf table "host" hostSettings
  checkKnown hostSettings host
  let ttl ← setting host "notification_ttl_secs" standard.ttlSeconds count?
  let kept ← setting host "max_submissions" standard.maxSubmissions count?
  return { spaces := ⟨described, explicit⟩, ttlSeconds := ttl, maxSubmissions := kept }

/-- The configuration that a text denotes. -/
def ofText (text : String) : Except ConfigurationError Configuration :=
  match Toml.Table.ofText? text with
  | none => .error .notToml
  | some table => ofTable table

end Configuration

end EmbedUI
