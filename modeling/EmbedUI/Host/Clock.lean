/-!
# Time

Two clocks are read when something is recorded. The monotonic clock, counted in nanoseconds, decides
when a notice expires; it holds sixty-three bits of seconds, and a deadline beyond that cannot be
computed. The wall clock gives the text of the time that is shown.
-/

namespace EmbedUI.Host

/-- A reading of both clocks. -/
structure Moment where
  /-- Nanoseconds on the monotonic clock. -/
  instant : Nat
  /-- The wall-clock time as it is shown. -/
  shown : String
deriving DecidableEq, Repr

def nanosPerSecond : Nat := 1000000000

def nanosPerMilli : Nat := 1000000

/-- The first instant that the monotonic clock cannot hold. -/
def endOfTime : Nat := 9223372036854775808 * nanosPerSecond

/-- The instant that lies a duration after another, if the clock can hold it. -/
def deadline? (instant duration : Nat) : Option Nat :=
  if instant + duration < endOfTime then some (instant + duration) else none

end EmbedUI.Host
