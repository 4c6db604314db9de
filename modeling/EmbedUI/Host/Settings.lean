import EmbedUI.Json.Record

/-!
# Settings of a host

The part of a host's appearance that embedded content may ask to change.
-/

namespace EmbedUI.Host

inductive AnimationSpeed where
  | slow
  | normal
  | fast
deriving DecidableEq, Repr

namespace AnimationSpeed

def all : List AnimationSpeed := [slow, normal, fast]

def name : AnimationSpeed → String
  | slow => "slow"
  | normal => "normal"
  | fast => "fast"

def encode (s : AnimationSpeed) : Json := .str s.name

def decode {ε : Type} [Json.Source ε] : Json.Decoder ε AnimationSpeed :=
  Json.oneOf (all.map fun s => (s.name, s))

end AnimationSpeed

structure Settings where
  theme : String
  /-- The base font size in pixels. -/
  fontSize : UInt32
  animationSpeed : AnimationSpeed
deriving DecidableEq, Repr

namespace Settings

def initial : Settings := { theme := "light", fontSize := 16, animationSpeed := .normal }

def encode (s : Settings) : Json :=
  .obj [("theme", .str s.theme), ("fontSize", .num (.ofUInt32 s.fontSize)),
    ("animationSpeed", s.animationSpeed.encode)]

def record {ε : Type} [Json.Source ε] : Json.Record ε Settings :=
  Settings.mk <$> .required "theme" Json.string <*> .required "fontSize" Json.uint32
    <*> .required "animationSpeed" AnimationSpeed.decode

def decode {ε : Type} [Json.Source ε] : Json.Decoder ε Settings := record.decode "HostSettings"

end Settings

end EmbedUI.Host
