import EmbedUI.Host.Notice
import Mathlib.Data.List.Nodup

/-!
# The life of a notice

A queue is used over time: notices are pushed and removed, the clock moves on, and the timers of
past pushes run whenever they get to it. What a reader sees at the end is settled by the pushes and
the explicit removals alone; the timers decide only what the queue still stores.

## The architecture

* **`Session`**: a queue, the clock, and what each removal has answered so far. `Session.step`
  carries out one event.
* **`History`**: the other side. It remembers every push, when it happened and whether its notice
  was removed since, and knows nothing of queues and timers.
* **`Tracks`**: the invariant between the two. The queue holds the pushes that were neither removed
  nor fired, the timers are those of the pushes that have not fired, and what has fired was due.
* **`Tracks.step`**: every event keeps the invariant; the properties of a run are read off it.
-/

namespace EmbedUI.Host.NoticeQueue

/-! ## Sessions -/

/-- What can happen to a queue. -/
inductive Event where
  | push (message : String) (severity : Severity) (shown : String)
  | remove (id : UInt64)
  | advance (duration : Nat)
  /-- The execution of a timer. Nothing happens unless it is pending and its time is up. -/
  | expire (timer : Timer)

/-- A queue in use: the reading of the clock, and the answer of every removal so far, explicit or
by a timer. -/
structure Session where
  queue : NoticeQueue
  clock : Nat
  removals : List (UInt64 × Bool)

namespace Session

def start (ttl clock : Nat) : Session := ⟨.empty ttl, clock, []⟩

/-- The session after an event. Nothing when the clock cannot hold the deadline of a push. -/
def step (s : Session) : Event → Option Session
  | .push message severity shown =>
    (s.queue.push ⟨s.clock, shown⟩ message severity).map fun q => { s with queue := q }
  | .remove id =>
    some { s with
      queue := (s.queue.remove id).1
      removals := s.removals ++ [(id, (s.queue.remove id).2)] }
  | .advance duration => some { s with clock := s.clock + duration }
  | .expire timer =>
    if timer ∈ s.queue.due s.clock then
      some { s with
        queue := s.queue.fire timer
        removals := s.removals ++ [(timer.id, (s.queue.remove timer.id).2)] }
    else some s

/-- The session after events, one after the other. -/
def run (s : Session) : List Event → Option Session
  | [] => some s
  | e :: rest => (s.step e).bind fun s => s.run rest

end Session

/-- The clock can hold the deadline of every push among events that start at a reading. -/
def Fits (ttl clock : Nat) : List Event → Prop
  | [] => True
  | .push .. :: rest => clock + ttl < endOfTime ∧ Fits ttl clock rest
  | .advance duration :: rest => Fits ttl (clock + duration) rest
  | .remove _ :: rest => Fits ttl clock rest
  | .expire _ :: rest => Fits ttl clock rest

def Event.isPush : Event → Bool
  | .push .. => true
  | _ => false

/-! ## Histories -/

/-- A push as it is remembered. -/
structure Pushed where
  notice : Notice
  instant : Nat
  /-- Whether its notice was removed by number since. -/
  removed : Bool

structure History where
  clock : Nat
  /-- Every push so far, in order. -/
  pushes : List Pushed

namespace History

def start (clock : Nat) : History := ⟨clock, []⟩

/-- The number of the next notice. Notices are numbered from one. -/
def nextId (h : History) : UInt64 := UInt64.ofNat (h.pushes.length + 1)

def step (h : History) : Event → History
  | .push message severity shown =>
    { h with pushes := h.pushes ++ [⟨⟨h.nextId, message, severity, shown⟩, h.clock, false⟩] }
  | .remove id =>
    { h with
      pushes := h.pushes.map fun p => { p with removed := p.removed || p.notice.id == id } }
  | .advance duration => { h with clock := h.clock + duration }
  | .expire _ => h

def run (h : History) (events : List Event) : History := events.foldl step h

/-- The notices of the pushes that are at most `ttl` old at an instant and were not removed. -/
def live (h : History) (ttl instant : Nat) : List Notice :=
  (h.pushes.filter fun p =>
    decide (p.instant ≤ instant ∧ instant < p.instant + ttl) && !p.removed).map Pushed.notice

/-- The numbers that were given out. -/
def ids (h : History) : List UInt64 := h.pushes.map fun p => p.notice.id

end History

/-! ## Numbers

Fewer than `2 ^ 64` pushes are numbered without a wrap-around: numbers increase along the history,
so a number names at most one push. -/

/-- The `i`-th push, counted from zero, has the number `i + 1`. -/
def History.Numbered (h : History) : Prop :=
  h.ids = (List.range h.pushes.length).map fun i => UInt64.ofNat (i + 1)

theorem History.numbered_step {h : History} (hn : h.Numbered) (e : Event) :
    (h.step e).Numbered := by
  unfold History.Numbered History.ids at *
  -- only a push adds a number, and it is the number of pushes so far plus one
  cases e with
  | push message severity shown => simp [History.step, History.nextId, hn, List.range_succ]
  | remove id => simp [History.step, Function.comp_def, hn]
  | advance duration => simpa [History.step] using hn
  | expire timer => simpa [History.step] using hn

theorem ofNat_lt_ofNat {m n : Nat} (hmn : m < n) (hn : n < UInt64.size) :
    UInt64.ofNat m < UInt64.ofNat n := by
  rw [UInt64.lt_iff_toNat_lt, UInt64.toNat_ofNat', UInt64.toNat_ofNat',
    Nat.mod_eq_of_lt hn, Nat.mod_eq_of_lt (Nat.lt_trans hmn hn)]
  exact hmn

/-- Numbers increase along a history. -/
theorem History.Numbered.increasing {h : History} (hn : h.Numbered)
    (hlen : h.pushes.length < UInt64.size) : h.ids.Pairwise (· < ·) := by
  -- the numbers are those of a range, shifted by one; the bound rules out a wrap-around
  rw [hn, List.pairwise_map]
  refine List.pairwise_lt_range.imp_of_mem ?_
  intro i j _ hj hij
  have hj' : j < h.pushes.length := List.mem_range.mp hj
  exact ofNat_lt_ofNat (by omega) (by omega)

/-- The next number is a new one. -/
theorem History.Numbered.fresh {h : History} (hn : h.Numbered)
    (hlen : h.pushes.length + 1 < UInt64.size) : h.nextId ∉ h.ids := by
  rw [hn, List.mem_map]
  rintro ⟨i, hi, heq⟩
  have hi' : i < h.pushes.length := List.mem_range.mp hi
  have hlt : UInt64.ofNat (i + 1) < h.nextId := ofNat_lt_ofNat (by omega) hlen
  rw [heq] at hlt
  exact absurd hlt (UInt64.lt_irrefl _)

/-- Among items with distinct keys, erasing the first item with a key erases every one. -/
theorem eraseP_eq_filter {α : Type} (key : α → UInt64) (id : UInt64) (l : List α)
    (hl : (l.map key).Nodup) :
    l.eraseP (fun a => key a == id) = l.filter fun a => key a != id := by
  induction l with
  | nil => rfl
  | cons a rest ih =>
    rw [List.map_cons, List.nodup_cons] at hl
    by_cases ha : key a = id
    · -- the first item goes, and no other has its key
      have hrest : ∀ b ∈ rest, key b ≠ id := by
        intro b hb hkey
        exact hl.1 (List.mem_map.mpr ⟨b, hb, by rw [hkey, ha]⟩)
      have hkeep : rest.filter (fun b => key b != id) = rest :=
        List.filter_eq_self.mpr fun b hb => by simpa using hrest b hb
      simp [ha, hkeep]
    · simp [ha, ih hl.2]

/-! ## The invariant -/

/-- The entry of a push in the queue. -/
def Pushed.entry (ttl : Nat) (p : Pushed) : Queued := ⟨p.notice, p.instant + ttl⟩

/-- The timer of a push. -/
def Pushed.timer (ttl : Nat) (p : Pushed) : Timer := ⟨p.notice.id, p.instant + ttl⟩

/-- No number has been removed twice, and one that was removed is no longer stored and will not be
given out again. -/
def RemovedOnce (given : List UInt64) (queued : List Queued) (removals : List (UInt64 × Bool)) :
    Prop :=
  ∀ id, removals.count (id, true) ≤ 1 ∧
    ((id, true) ∈ removals → id ∈ given ∧ ∀ e ∈ queued, e.notice.id ≠ id)

/-- A session agrees with a history in which the timers of the numbers `fired` have run. -/
structure Tracks (h : History) (fired : List UInt64) (s : Session) : Prop where
  clock : s.clock = h.clock
  numbered : h.Numbered
  past : ∀ p ∈ h.pushes, p.instant ≤ h.clock
  nextId : s.queue.nextId = h.nextId
  queued : s.queue.queued =
    (h.pushes.filter fun p => !p.removed && !fired.contains p.notice.id).map
      (Pushed.entry s.queue.ttl)
  timers : s.queue.timers =
    (h.pushes.filter fun p => !fired.contains p.notice.id).map (Pushed.timer s.queue.ttl)
  due : ∀ p ∈ h.pushes, p.notice.id ∈ fired → p.instant + s.queue.ttl ≤ h.clock
  given : ∀ id ∈ fired, id ∈ h.ids
  once : RemovedOnce h.ids s.queue.queued s.removals

theorem tracks_start (ttl clock : Nat) :
    Tracks (History.start clock) [] (Session.start ttl clock) where
  clock := rfl
  numbered := rfl
  past := by simp [History.start]
  nextId := rfl
  queued := rfl
  timers := rfl
  due := by simp [History.start]
  given := by simp
  once := by simp [RemovedOnce, Session.start]

section
variable {h : History} {fired : List UInt64} {s : Session}

/-- The numbers in the queue are numbers of the history, in the same order. -/
theorem Tracks.queued_ids (ht : Tracks h fired s) :
    List.Sublist (s.queue.queued.map fun e => e.notice.id) h.ids := by
  rw [ht.queued, List.map_map]
  exact List.Sublist.map _ List.filter_sublist

theorem Tracks.nodup (ht : Tracks h fired s) (hlen : h.pushes.length < UInt64.size) : h.ids.Nodup :=
  (ht.numbered.increasing hlen).imp fun hlt => UInt64.ne_of_lt hlt

/-- A number names one push. -/
theorem Tracks.push_unique (ht : Tracks h fired s) (hlen : h.pushes.length < UInt64.size)
    {p p' : Pushed} (hp : p ∈ h.pushes) (hp' : p' ∈ h.pushes)
    (hid : p.notice.id = p'.notice.id) : p = p' :=
  List.inj_on_of_nodup_map (ht.nodup hlen) hp hp' hid

/-- Removing by number takes out every entry with the number. -/
theorem Tracks.remove_queued (ht : Tracks h fired s) (hlen : h.pushes.length < UInt64.size)
    (id : UInt64) :
    (s.queue.remove id).1.queued = s.queue.queued.filter fun e => e.notice.id != id :=
  eraseP_eq_filter (fun e : Queued => e.notice.id) id _ (ht.queued_ids.nodup (ht.nodup hlen))

/-- A removal answers `true` only while the notice is stored, and then it no longer is. -/
theorem Tracks.once_remove (ht : Tracks h fired s) (hlen : h.pushes.length < UInt64.size)
    (id : UInt64) :
    RemovedOnce h.ids (s.queue.remove id).1.queued
      (s.removals ++ [(id, (s.queue.remove id).2)]) := by
  rw [ht.remove_queued hlen]
  intro other
  obtain ⟨hcount, hgone⟩ := ht.once other
  cases hany : (s.queue.remove id).2 with
  | false =>
    -- nothing was stored under the number, so no removal is added that counts
    refine ⟨by simpa using hcount, fun hmem => ?_⟩
    obtain ⟨hgiven, hne⟩ := hgone (by simpa using hmem)
    exact ⟨hgiven, fun e he => hne e (List.mem_filter.mp he).1⟩
  | true =>
    obtain ⟨e, he, heid⟩ := List.any_eq_true.mp hany
    have heid : e.notice.id = id := by simpa using heid
    by_cases hid : other = id
    · -- it was still stored, so this is the first time, and from now on it is gone
      subst hid
      have hnew : (other, true) ∉ s.removals := fun hmem => (hgone hmem).2 e he heid
      refine ⟨by simp [List.count_eq_zero.mpr hnew], fun _ => ⟨?_, ?_⟩⟩
      · exact heid ▸ ht.queued_ids.subset (List.mem_map.mpr ⟨e, he, rfl⟩)
      · intro e' he'
        simpa using (List.mem_filter.mp he').2
    · have hne : (id, true) ≠ (other, true) := fun heq => hid (congrArg Prod.fst heq).symm
      refine ⟨by simpa [List.count_singleton, hne] using hcount, fun hmem => ?_⟩
      obtain ⟨hgiven, hstored⟩ := hgone (by simpa [Ne.symm hne, hid] using hmem)
      exact ⟨hgiven, fun e he => hstored e (List.mem_filter.mp he).1⟩

/-! ## Every event keeps the invariant -/

/-- The session after a push whose deadline the clock can hold. -/
def Session.pushed (s : Session) (message : String) (severity : Severity) (shown : String) :
    Session :=
  { s with
    queue := { s.queue with
      queued := s.queue.queued ++
        [⟨⟨s.queue.nextId, message, severity, shown⟩, s.clock + s.queue.ttl⟩]
      nextId := s.queue.nextId + 1
      timers := s.queue.timers ++ [⟨s.queue.nextId, s.clock + s.queue.ttl⟩] } }

theorem Session.step_push (s : Session) (message : String) (severity : Severity)
    (shown : String) :
    s.step (.push message severity shown) =
      if s.clock + s.queue.ttl < endOfTime then some (s.pushed message severity shown)
      else none := by
  simp only [Session.step, NoticeQueue.push, deadline?]
  split <;> rfl

theorem Tracks.pushed (ht : Tracks h fired s) (hlen : h.pushes.length + 1 < UInt64.size)
    (message : String) (severity : Severity) (shown : String) :
    Tracks (h.step (.push message severity shown)) fired (s.pushed message severity shown) := by
  have hfresh := ht.numbered.fresh hlen
  have hunfired : h.nextId ∉ fired := fun hmem => hfresh (ht.given _ hmem)
  constructor
  case clock => exact ht.clock
  case numbered => exact History.numbered_step ht.numbered _
  case past =>
    intro p hp
    rcases List.mem_append.mp hp with hold | hnew
    · exact ht.past p hold
    · -- the push has just happened
      rw [List.mem_singleton.mp hnew]
      exact Nat.le_refl _
  case nextId => simp [Session.pushed, History.step, ht.nextId, History.nextId, UInt64.ofNat_add]
  case queued =>
    simp [Session.pushed, History.step, ht.queued, ht.nextId, ht.clock, hunfired, Pushed.entry]
  case timers =>
    simp [Session.pushed, History.step, ht.timers, ht.nextId, ht.clock, hunfired, Pushed.timer]
  case due =>
    intro p hp hmem
    rcases List.mem_append.mp hp with hold | hnew
    · exact ht.due p hold hmem
    · -- its number is new, so its timer has not run
      rw [List.mem_singleton.mp hnew] at hmem
      exact absurd hmem hunfired
  case given =>
    intro id hid
    exact List.mem_map.mpr (by
      obtain ⟨p, hp, hpid⟩ := List.mem_map.mp (ht.given id hid)
      exact ⟨p, List.mem_append_left _ hp, hpid⟩)
  case once =>
    intro id
    obtain ⟨hcount, hgone⟩ := ht.once id
    refine ⟨hcount, fun hmem => ?_⟩
    obtain ⟨hgiven, hne⟩ := hgone hmem
    refine ⟨?_, fun e he => ?_⟩
    · simpa [History.ids, History.step] using Or.inl (List.mem_map.mp hgiven)
    · rcases List.mem_append.mp he with hold | hnew
      · exact hne e hold
      · -- the new number has not been given out, so it was not removed either
        rw [List.mem_singleton.mp hnew]
        rintro rfl
        exact hfresh (ht.nextId ▸ hgiven)

theorem Tracks.removed (ht : Tracks h fired s) (hlen : h.pushes.length < UInt64.size)
    (id : UInt64) :
    Tracks (h.step (.remove id)) fired
      { s with
        queue := (s.queue.remove id).1
        removals := s.removals ++ [(id, (s.queue.remove id).2)] } := by
  have hids : (h.step (.remove id)).ids = h.ids := by
    simp [History.step, History.ids, Function.comp_def]
  constructor
  case clock => exact ht.clock
  case numbered => exact History.numbered_step ht.numbered _
  case past =>
    intro p hp
    obtain ⟨p', hp', rfl⟩ := List.mem_map.mp hp
    exact ht.past p' hp'
  case nextId =>
    show s.queue.nextId = _
    rw [ht.nextId]
    simp [History.nextId, History.step]
  case queued =>
    rw [ht.remove_queued hlen, ht.queued]
    simp only [History.step, List.filter_map, List.filter_filter, List.map_map]
    congr 1
    -- marked as removed in the history, filtered out of the queue
    refine List.filter_congr fun p _ => ?_
    by_cases hid : p.notice.id = id
    · simp [Pushed.entry, hid]
    · have hbeq : (p.notice.id == id) = false := beq_eq_false_iff_ne.mpr hid
      simp [Pushed.entry, bne, hbeq]
  case timers =>
    show s.queue.timers = List.map (Pushed.timer s.queue.ttl) _
    rw [ht.timers]
    simp [History.step, List.filter_map, Function.comp_def, Pushed.timer]
  case due =>
    intro p hp hmem
    obtain ⟨p', hp', rfl⟩ := List.mem_map.mp hp
    exact ht.due p' hp' hmem
  case given =>
    rw [hids]
    exact ht.given
  case once =>
    rw [hids]
    exact ht.once_remove hlen id

theorem Tracks.advanced (ht : Tracks h fired s) (duration : Nat) :
    Tracks (h.step (.advance duration)) fired { s with clock := s.clock + duration } where
  clock := by rw [ht.clock]; rfl
  numbered := ht.numbered
  past := fun p hp => Nat.le_trans (ht.past p hp) (Nat.le_add_right _ _)
  nextId := ht.nextId
  queued := ht.queued
  timers := ht.timers
  due := fun p hp hmem => Nat.le_trans (ht.due p hp hmem) (Nat.le_add_right _ _)
  given := ht.given
  once := ht.once

/-- A pending timer is the timer of the push with its number. -/
theorem Tracks.timer_eq (ht : Tracks h fired s) (hlen : h.pushes.length < UInt64.size)
    {timer : Timer} (htimer : timer ∈ s.queue.timers) {p : Pushed} (hp : p ∈ h.pushes)
    (hid : p.notice.id = timer.id) : p.timer s.queue.ttl = timer := by
  rw [ht.timers] at htimer
  obtain ⟨p', hp', rfl⟩ := List.mem_map.mp htimer
  rw [ht.push_unique hlen hp (List.mem_filter.mp hp').1 hid]

/-- Running a due timer fires its number and leaves the history alone: its push is no longer
visible anyway. -/
theorem Tracks.expired (ht : Tracks h fired s) (hlen : h.pushes.length < UInt64.size)
    (timer : Timer) (hdue : timer ∈ s.queue.due s.clock) :
    Tracks h (timer.id :: fired)
      { s with
        queue := s.queue.fire timer
        removals := s.removals ++ [(timer.id, (s.queue.remove timer.id).2)] } := by
  obtain ⟨htimer, hpassed⟩ := List.mem_filter.mp hdue
  have hpassed : timer.deadline ≤ s.clock := by simpa using hpassed
  have hnodup : s.queue.timers.Nodup := by
    refine List.Nodup.of_map Timer.id ?_
    rw [ht.timers, List.map_map]
    exact (List.Sublist.map _ List.filter_sublist).nodup (ht.nodup hlen)
  constructor
  case clock => exact ht.clock
  -- the history stays the same
  case numbered => exact ht.numbered
  case past => exact ht.past
  case nextId => exact ht.nextId
  case queued =>
    show (s.queue.remove timer.id).1.queued = _
    rw [ht.remove_queued hlen, ht.queued]
    simp only [List.filter_map, List.filter_filter]
    congr 1
    refine List.filter_congr fun p _ => ?_
    by_cases hid : p.notice.id = timer.id <;> simp [Pushed.entry, hid]
  case timers =>
    show s.queue.timers.erase timer = _
    rw [hnodup.erase_eq_filter, ht.timers]
    simp only [List.filter_map, List.filter_filter]
    congr 1
    refine List.filter_congr fun p hp => ?_
    by_cases hid : p.notice.id = timer.id
    · simp [hid, ht.timer_eq hlen htimer hp hid]
    · have hne : p.timer s.queue.ttl ≠ timer := fun heq => hid (congrArg Timer.id heq)
      simp [hid, hne]
  case due =>
    intro p hp hmem
    rcases List.mem_cons.mp hmem with hid | hold
    · -- the only push with this number is the one whose timer was due
      have heq := ht.timer_eq hlen htimer hp hid
      rw [← heq, ht.clock] at hpassed
      exact hpassed
    · exact ht.due p hp hold
  case given =>
    intro id hid
    rcases List.mem_cons.mp hid with rfl | hold
    · rw [ht.timers] at htimer
      obtain ⟨p, hp, rfl⟩ := List.mem_map.mp htimer
      exact List.mem_map.mpr ⟨p, (List.mem_filter.mp hp).1, rfl⟩
    · exact ht.given id hold
  case once => exact ht.once_remove hlen timer.id

theorem History.length_step (h : History) (e : Event) :
    (h.step e).pushes.length = h.pushes.length + [e].countP Event.isPush := by
  cases e <;> simp [History.step, Event.isPush]

theorem countP_isPush_cons (e : Event) (rest : List Event) :
    (e :: rest).countP Event.isPush =
      [e].countP Event.isPush + rest.countP Event.isPush := by
  rw [← List.singleton_append, List.countP_append]

theorem History.length_run (h : History) (events : List Event) :
    (h.run events).pushes.length = h.pushes.length + events.countP Event.isPush := by
  induction events generalizing h with
  | nil => rfl
  | cons e rest ih =>
    rw [countP_isPush_cons, ← Nat.add_assoc, ← History.length_step]
    exact ih (h.step e)

/-- **The step.** Every event keeps the invariant as long as there are numbers left. -/
theorem Tracks.step (ht : Tracks h fired s) {e : Event} {s' : Session}
    (hlen : h.pushes.length + [e].countP Event.isPush < UInt64.size) (hs : s.step e = some s') :
    ∃ fired', Tracks (h.step e) fired' s' := by
  have hold : h.pushes.length < UInt64.size := Nat.lt_of_le_of_lt (Nat.le_add_right _ _) hlen
  cases e with
  | push message severity shown =>
    rw [Session.step_push] at hs
    split at hs
    · cases hs
      exact ⟨fired, ht.pushed (by simpa [Event.isPush] using hlen) message severity shown⟩
    · cases hs
  | remove id =>
    cases hs
    exact ⟨fired, ht.removed hold id⟩
  | advance duration =>
    cases hs
    exact ⟨fired, ht.advanced duration⟩
  | expire timer =>
    rw [Session.step] at hs
    split at hs
    · next hdue =>
      cases hs
      exact ⟨timer.id :: fired, ht.expired hold timer hdue⟩
    · cases hs
      exact ⟨fired, ht⟩

/-- **The run.** Induction on the events: the invariant holds at the end of every run. -/
theorem Tracks.run {events : List Event} {s' : Session} (ht : Tracks h fired s)
    (hlen : h.pushes.length + events.countP Event.isPush < UInt64.size)
    (hs : s.run events = some s') : ∃ fired', Tracks (h.run events) fired' s' := by
  induction events generalizing h fired s with
  | nil =>
    cases hs
    exact ⟨fired, ht⟩
  | cons e rest ih =>
    obtain ⟨s₁, hstep, hrest⟩ := Option.bind_eq_some_iff.mp hs
    -- the numbers that the first event needs are taken from those of the whole run
    rw [countP_isPush_cons] at hlen
    obtain ⟨fired₁, ht₁⟩ := ht.step (by omega) hstep
    exact ih ht₁ (by rw [History.length_step]; omega) hrest

/-! ## What the invariant says at the end -/

/-- What is stored but not visible has expired, and what has fired was due: timers make no
difference to a reader. -/
theorem Tracks.visible (ht : Tracks h fired s) :
    s.queue.visible s.clock = h.live s.queue.ttl s.clock := by
  unfold NoticeQueue.visible History.live
  rw [ht.queued, List.filter_map, List.map_map, List.filter_filter]
  show List.map Pushed.notice _ = _
  congr 1
  refine List.filter_congr fun p hp => ?_
  have hpast : p.instant ≤ s.clock := ht.clock ▸ ht.past p hp
  show (decide (s.clock < p.instant + s.queue.ttl) &&
      (!p.removed && !fired.contains p.notice.id)) = _
  by_cases hfired : p.notice.id ∈ fired
  · -- gone from the queue, and past its deadline
    have hdue : p.instant + s.queue.ttl ≤ s.clock := ht.clock ▸ ht.due p hp hfired
    simp [hfired, Nat.not_lt.mpr hdue]
  · simp [hfired, hpast]

/-- Once no timer is due, no stored notice has expired: the timer of each is still pending. -/
theorem Tracks.settled (ht : Tracks h fired s) (hdue : s.queue.due s.clock = []) :
    ∀ e ∈ s.queue.queued, s.clock < e.deadline := by
  intro e he
  rw [ht.queued] at he
  obtain ⟨p, hp, rfl⟩ := List.mem_map.mp he
  obtain ⟨hmem, hstays⟩ := List.mem_filter.mp hp
  have htimer : p.timer s.queue.ttl ∈ s.queue.timers := by
    rw [ht.timers]
    refine List.mem_map.mpr ⟨p, List.mem_filter.mpr ⟨hmem, ?_⟩, rfl⟩
    exact (Bool.and_eq_true _ _ ▸ hstays).2
  have hnot : ¬ decide (p.instant + s.queue.ttl ≤ s.clock) = true :=
    List.filter_eq_nil_iff.mp hdue _ htimer
  show s.clock < p.instant + s.queue.ttl
  simpa using hnot

end

/-! ## Runs that the clock can hold -/

theorem Session.run_append (s : Session) (before after : List Event) :
    s.run (before ++ after) = (s.run before).bind fun s => s.run after := by
  induction before generalizing s with
  | nil => rfl
  | cons e rest ih =>
    show (s.step e).bind _ = ((s.step e).bind _).bind _
    cases s.step e with
    | none => rfl
    | some s' => exact ih s'

theorem Session.step_ttl {s s' : Session} {e : Event} (hs : s.step e = some s') :
    s'.queue.ttl = s.queue.ttl := by
  cases e with
  | push message severity shown =>
    rw [Session.step_push] at hs
    split at hs <;> cases hs
    rfl
  | remove id => cases hs; rfl
  | advance duration => cases hs; rfl
  | expire timer =>
    rw [Session.step] at hs
    split at hs <;> cases hs <;> rfl

theorem Session.run_ttl {s s' : Session} {events : List Event}
    (hs : s.run events = some s') : s'.queue.ttl = s.queue.ttl := by
  induction events generalizing s with
  | nil => cases hs; rfl
  | cons e rest ih =>
    obtain ⟨s₁, hstep, hrest⟩ := Option.bind_eq_some_iff.mp hs
    rw [ih hrest, Session.step_ttl hstep]

/-- A run goes through exactly when the clock can hold every deadline. -/
theorem Session.run_isSome_iff (s : Session) (events : List Event) :
    (s.run events).isSome ↔ Fits s.queue.ttl s.clock events := by
  induction events generalizing s with
  | nil => simp [Session.run, Fits]
  | cons e rest ih =>
    cases e with
    | push message severity shown =>
      rw [Session.run, Session.step_push]
      -- a push is the only event that can fail
      by_cases hfit : s.clock + s.queue.ttl < endOfTime
      · rw [if_pos hfit, Option.bind_some, ih]
        simp [Session.pushed, Fits, hfit]
      · simp [Fits, hfit]
    | remove id =>
      rw [Session.run, Session.step, Option.bind_some, ih]
      rfl
    | advance duration =>
      rw [Session.run, Session.step, Option.bind_some, ih]
      rfl
    | expire timer =>
      rw [Session.run, Session.step]
      split <;> rw [Option.bind_some, ih] <;> rfl

/-! ## The main statement -/

/-- **The life of a notice.** Whatever happens to a queue, in whatever order and with whatever
delay its timers run: a reader sees the notices that were pushed less than `ttl` ago and not
removed since, in the order of their pushes; numbers increase along the queue; every number is
removed at most once; and once no timer is due, nothing expired is stored. -/
theorem lifecycle (ttl clock : Nat) (events : List Event) (hfit : Fits ttl clock events)
    (hcount : events.countP Event.isPush < UInt64.size) :
    ∃ s, (Session.start ttl clock).run events = some s ∧
      s.queue.visible s.clock = ((History.start clock).run events).live ttl s.clock ∧
      (s.queue.queued.map fun e => e.notice.id).Pairwise (· < ·) ∧
      (∀ id, s.removals.count (id, true) ≤ 1) ∧
      (s.queue.due s.clock = [] → ∀ e ∈ s.queue.queued, s.clock < e.deadline) := by
  obtain ⟨s, hs⟩ := Option.isSome_iff_exists.mp
    ((Session.run_isSome_iff (Session.start ttl clock) events).mpr hfit)
  obtain ⟨fired, ht⟩ := (tracks_start ttl clock).run (by simpa [History.start] using hcount) hs
  have hlen : ((History.start clock).run events).pushes.length < UInt64.size := by
    rw [History.length_run]
    simpa [History.start] using hcount
  refine ⟨s, hs, ?_, ?_, fun id => (ht.once id).1, ht.settled⟩
  · rw [ht.visible, Session.run_ttl hs]
    rfl
  · exact (ht.numbered.increasing hlen).sublist ht.queued_ids

/-- Three notices: the first is removed by hand before its timer runs, the second has expired and
its timer is late, the third is still visible and its timer is tried too early. -/
def lateTimers : List Event :=
  [.push "a" .info "", .push "b" .success "", .remove 1, .advance 3, .push "c" .warning "",
    .advance 2, .expire ⟨1, 5⟩, .expire ⟨3, 8⟩]

theorem lifecycle_lateTimers :
    (Fits 5 0 lateTimers ∧ lateTimers.countP Event.isPush < UInt64.size) ∧
    ((History.start 0).run lateTimers).live 5 5 = [⟨3, "c", .warning, ""⟩] ∧
    ∃ s, (Session.start 5 0).run lateTimers = some s ∧
      s.queue.visible s.clock = ((History.start 0).run lateTimers).live 5 s.clock ∧
      (s.queue.queued.map fun e => e.notice.id).Pairwise (· < ·) ∧
      (∀ id, s.removals.count (id, true) ≤ 1) ∧
      (s.queue.due s.clock = [] → ∀ e ∈ s.queue.queued, s.clock < e.deadline) := by
  have hfit : Fits 5 0 lateTimers := by simp [lateTimers, Fits, endOfTime, nanosPerSecond]
  have hcount : lateTimers.countP Event.isPush < UInt64.size := by decide
  exact ⟨⟨hfit, hcount⟩, rfl, lifecycle 5 0 lateTimers hfit hcount⟩

end EmbedUI.Host.NoticeQueue
