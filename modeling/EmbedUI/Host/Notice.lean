import EmbedUI.Host.Clock
import EmbedUI.Json.Record

/-!
# Notices

A notice is shown to the user for a fixed time. The queue keeps notices in the order in which they
were pushed. Each push sets a timer that removes its notice by number once the time is up; timers
may run late and in any order, so a reader also looks at the deadline, and a notice is visible from
its push until just before its deadline whatever the timers do.
-/

namespace EmbedUI.Host

inductive Severity where
  | info
  | success
  | warning
deriving DecidableEq, Repr

namespace Severity

def all : List Severity := [info, success, warning]

def name : Severity → String
  | info => "info"
  | success => "success"
  | warning => "warning"

def encode (s : Severity) : Json := .str s.name

def decode {ε : Type} [Json.Source ε] : Json.Decoder ε Severity :=
  Json.oneOf (all.map fun s => (s.name, s))

end Severity

structure Notice where
  id : UInt64
  message : String
  severity : Severity
  /-- The wall-clock time of the push. -/
  createdAt : String
deriving DecidableEq, Repr

namespace Notice

def encode (n : Notice) : Json :=
  .obj [("id", .num (.ofUInt64 n.id)), ("message", .str n.message),
    ("severity", n.severity.encode), ("createdAt", .str n.createdAt)]

def record {ε : Type} [Json.Source ε] : Json.Record ε Notice :=
  Notice.mk <$> .required "id" Json.uint64 <*> .required "message" Json.string
    <*> .required "severity" Severity.decode <*> .required "createdAt" Json.string

def decode {ε : Type} [Json.Source ε] : Json.Decoder ε Notice := record.decode "Notification"

end Notice

/-- A notice in the queue and the instant from which it is no longer visible. -/
structure Queued where
  notice : Notice
  deadline : Nat
deriving DecidableEq, Repr

/-- A timer that has not run yet. -/
structure Timer where
  id : UInt64
  deadline : Nat
deriving DecidableEq, Repr

structure NoticeQueue where
  /-- How long a notice is visible, in nanoseconds. -/
  ttl : Nat
  queued : List Queued
  /-- The number of the next notice. It wraps around after `2 ^ 64` pushes. -/
  nextId : UInt64
  timers : List Timer

namespace NoticeQueue

def empty (ttl : Nat) : NoticeQueue := { ttl := ttl, queued := [], nextId := 1, timers := [] }

/-- Appends a notice and sets its timer. Nothing when the clock cannot hold the deadline. -/
def push (q : NoticeQueue) (now : Moment) (message : String) (severity : Severity) :
    Option NoticeQueue :=
  (deadline? now.instant q.ttl).map fun deadline =>
    let notice : Notice :=
      { id := q.nextId, message := message, severity := severity, createdAt := now.shown }
    { q with
      queued := q.queued ++ [⟨notice, deadline⟩]
      nextId := q.nextId + 1
      timers := q.timers ++ [⟨q.nextId, deadline⟩] }

/-- Removes the notice with a number, and tells whether it was still queued. -/
def remove (q : NoticeQueue) (id : UInt64) : NoticeQueue × Bool :=
  ({ q with queued := q.queued.eraseP fun e => e.notice.id == id },
    q.queued.any fun e => e.notice.id == id)

/-- The notices that are visible at an instant, in the order of their pushes. -/
def visible (q : NoticeQueue) (instant : Nat) : List Notice :=
  (q.queued.filter fun e => decide (instant < e.deadline)).map Queued.notice

/-! ### Timers -/

/-- Runs one timer. -/
def fire (q : NoticeQueue) (timer : Timer) : NoticeQueue :=
  { (q.remove timer.id).1 with timers := q.timers.erase timer }

/-- The timers whose time is up. -/
def due (q : NoticeQueue) (instant : Nat) : List Timer :=
  q.timers.filter fun t => decide (t.deadline ≤ instant)

/-- Runs every timer whose time is up. -/
def settle (q : NoticeQueue) (instant : Nat) : NoticeQueue := (q.due instant).foldl fire q

end NoticeQueue

end EmbedUI.Host
