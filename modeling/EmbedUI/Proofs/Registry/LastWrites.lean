import EmbedUI.Proofs.Registry.Shelf
import Mathlib.Data.List.Induction

/-!
# The registry in memory remembers the last writes

Whatever is asked of a registry in memory, and in whatever order, it answers like two tables of last
writes that know nothing of each other. What an operation is answered is settled by the operations
before it: of the records that were put, the last one under exactly the key that is asked for.

## The architecture

* **`lastWith?`**: the last record with a key in a list of records.
* **`Shelf.Remembers`**: a shelf holds the last record under each key, of records that were put one
  after the other. `Shelf.Remembers.put` adds a record, `Shelf.Remembers.length_eq` counts keys.
* **`Operation`**, **`Answer`**, **`Memory.perform`**: the operations, and a memory in use.
* **`expected`**: the other side, which looks at the operations before and at no memory.
* **`Memory.Remembers`**: both shelves. `Memory.Remembers.perform` keeps it over one operation,
  `Memory.remembers_after` over all of them, and `Memory.Remembers.answer` reads answers off it.
-/

namespace EmbedUI.Registry

/-! ## The last record with a key -/

section
variable {α : Type} {key : α → String} {records : List α} {s : Shelf α}

/-- The last of some records that has a key. -/
def lastWith? (key : α → String) (records : List α) (k : String) : Option α :=
  (records.filter fun r => key r = k).getLast?

theorem lastWith?_concat (key : α → String) (records : List α) (r : α) (k : String) :
    lastWith? key (records ++ [r]) k = if k = key r then some r else lastWith? key records k := by
  unfold lastWith?
  rw [List.filter_append]
  by_cases hk : k = key r
  · simp [hk]
  · simp [hk, Ne.symm hk]

theorem lastWith?_isSome {k : String} :
    (lastWith? key records k).isSome ↔ k ∈ records.map key := by
  rw [lastWith?, List.getLast?_isSome, Ne, List.filter_eq_nil_iff]
  simp

/-- The shelf holds the last record under each key, of records that were put one after the other. -/
structure Shelf.Remembers (key : α → String) (records : List α) (s : Shelf α) : Prop where
  held : ∀ k, s.get? k = lastWith? key records k
  distinct : s.keys.Nodup

namespace Shelf.Remembers

theorem nil (key : α → String) : Remembers key [] [] := ⟨fun _ => rfl, List.nodup_nil⟩

theorem put (h : Remembers key records s) (r : α) :
    Remembers key (records ++ [r]) (s.put (key r) r) where
  held := fun k => by rw [get?_put, h.held, lastWith?_concat]
  distinct := nodup_keys_put h.distinct

/-- There is one entry for each key that a record was put under. -/
theorem length_eq (h : Remembers key records s) :
    s.length = (records.map key).dedup.length := by
  rw [length_eq_of_keys h.distinct]
  intro k
  rw [h.held, lastWith?_isSome]

end Shelf.Remembers

end

/-! ## Operations -/

/-- What can be asked of a registry in memory. -/
inductive Operation where
  | putComponent (record : ComponentRecord)
  | getComponent (id : String)
  | countComponents
  | putUser (record : UserRecord)
  | getUser (user : String)

inductive Answer where
  | put (result : Except StorageError Unit)
  | component (result : Except StorageError ComponentRecord)
  | count (components : Nat)
  | user (result : Except StorageError UserRecord)

namespace Operation

/-- What an operation is about. -/
def kind : Operation → KeyKind
  | putComponent _ | getComponent _ | countComponents => .component
  | putUser _ | getUser _ => .user

/-- The component that an operation puts, unless its id is blank. -/
def component? : Operation → Option ComponentRecord
  | putComponent r => if Text.trim r.id = "" then none else some r
  | _ => none

/-- The payload that an operation puts, unless its user is blank. -/
def user? : Operation → Option UserRecord
  | putUser r => if Text.trim r.user = "" then none else some r
  | _ => none

end Operation

namespace Memory

/-- Carries out an operation. -/
def perform (m : Memory) : Operation → Answer × Memory
  | .putComponent r => ((putComponent r m).map .put fun m => m)
  | .getComponent id => (.component (getComponent id m), m)
  | .countComponents => (.count m.componentCount, m)
  | .putUser r => ((putUser r m).map .put fun m => m)
  | .getUser user => (.user (getUser user m), m)

/-- The memory after operations, one after the other, that was empty at first. -/
def after (operations : List Operation) : Memory :=
  operations.foldl (fun m op => (m.perform op).2) .empty

theorem after_concat (before : List Operation) (op : Operation) :
    after (before ++ [op]) = ((after before).perform op).2 := by
  rw [after, List.foldl_append]
  rfl

end Memory

/-! ## Tables of last writes -/

/-- The answer to a put: a blank key is refused, any other one is taken. -/
def putResult (kind : KeyKind) (key : String) : Except StorageError Unit :=
  if Text.trim key = "" then .error (.invalidKey kind key) else .ok ()

/-- What an operation is answered after others. -/
def expected (before : List Operation) : Operation → Answer
  | .putComponent r => .put (putResult .component r.id)
  | .getComponent id =>
    .component <| match lastWith? ComponentRecord.id (before.filterMap Operation.component?) id with
      | some r => .ok r
      | none => .error (.componentNotFound id)
  | .countComponents =>
    .count ((before.filterMap Operation.component?).map ComponentRecord.id).dedup.length
  | .putUser r => .put (putResult .user r.user)
  | .getUser user =>
    .user <| match lastWith? UserRecord.user (before.filterMap Operation.user?) user with
      | some r => .ok r
      | none => .error (.userDataNotFound user)

namespace Memory

theorem checkKey_eq (kind : KeyKind) (key : String) : checkKey kind key = putResult kind key := by
  unfold checkKey putResult
  by_cases hblank : Text.allBlank key = true
  · rw [if_pos hblank, if_pos (Text.trim_eq_empty_iff.mpr hblank)]
  · rw [if_neg hblank, if_neg fun h => hblank (Text.trim_eq_empty_iff.mp h)]

theorem putComponent_eq (r : ComponentRecord) (m : Memory) :
    putComponent r m = (putResult .component r.id,
      if Text.trim r.id = "" then m
      else { m with components := m.components.put r.id r }) := by
  rw [putComponent, checkKey_eq, putResult]
  by_cases hblank : Text.trim r.id = ""
  · simp only [if_pos hblank]
  · simp only [if_neg hblank]

theorem putUser_eq (r : UserRecord) (m : Memory) :
    putUser r m = (putResult .user r.user,
      if Text.trim r.user = "" then m else { m with users := m.users.put r.user r }) := by
  rw [putUser, checkKey_eq, putResult]
  by_cases hblank : Text.trim r.user = ""
  · simp only [if_pos hblank]
  · simp only [if_neg hblank]

/-- **What an operation changes.** A put that is taken changes the shelf of its kind; nothing else
changes anything. -/
theorem perform_snd (m : Memory) (op : Operation) :
    (m.perform op).2 =
      { components := op.component?.elim m.components fun r => m.components.put r.id r
        users := op.user?.elim m.users fun r => m.users.put r.user r } := by
  cases op with
  | putComponent r =>
    show (putComponent r m).2 = _
    rw [putComponent_eq, Operation.component?]
    split <;> rfl
  | putUser r =>
    show (putUser r m).2 = _
    rw [putUser_eq, Operation.user?]
    split <;> rfl
  | getComponent id => rfl
  | countComponents => rfl
  | getUser user => rfl

/-- Both shelves hold the last records that were put. -/
structure Remembers (before : List Operation) (m : Memory) : Prop where
  components : m.components.Remembers ComponentRecord.id (before.filterMap Operation.component?)
  users : m.users.Remembers UserRecord.user (before.filterMap Operation.user?)

variable {before : List Operation} {m : Memory}

/-- **The step.** -/
theorem Remembers.perform (h : Remembers before m) (op : Operation) :
    Remembers (before ++ [op]) (m.perform op).2 := by
  rw [perform_snd]
  constructor
  case components =>
    rw [List.filterMap_append, List.filterMap_cons, List.filterMap_nil]
    cases op.component? with
    | none => simpa using h.components
    | some r => exact h.components.put r
  case users =>
    rw [List.filterMap_append, List.filterMap_cons, List.filterMap_nil]
    cases op.user? with
    | none => simpa using h.users
    | some r => exact h.users.put r

/-- **The run.** -/
theorem remembers_after (operations : List Operation) : Remembers operations (after operations) := by
  induction operations using List.reverseRecOn with
  | nil => exact ⟨.nil _, .nil _⟩
  | append_singleton before op ih =>
    rw [after_concat]
    exact ih.perform op

/-- **The answer.** -/
theorem Remembers.answer (h : Remembers before m) (op : Operation) :
    (m.perform op).1 = expected before op := by
  cases op with
  | putComponent r =>
    show Answer.put (putComponent r m).1 = _
    rw [putComponent_eq]
    rfl
  | getComponent id =>
    show Answer.component (getComponent id m) = _
    rw [getComponent, h.components.held]
    rfl
  | countComponents => exact congrArg Answer.count h.components.length_eq
  | putUser r =>
    show Answer.put (putUser r m).1 = _
    rw [putUser_eq]
    rfl
  | getUser user =>
    show Answer.user (getUser user m) = _
    rw [getUser, h.users.held]
    rfl

end Memory

/-- Operations of another kind have no part in what is expected. -/
theorem expected_filter_kind (before : List Operation) (op : Operation) :
    expected (before.filter fun o => o.kind = op.kind) op = expected before op := by
  have hcomponents : (before.filter fun o => o.kind = .component).filterMap Operation.component? =
      before.filterMap Operation.component? := by
    rw [List.filterMap_filter]
    refine List.filterMap_congr fun o _ => ?_
    cases o <;> rfl
  have husers : (before.filter fun o => o.kind = .user).filterMap Operation.user? =
      before.filterMap Operation.user? := by
    rw [List.filterMap_filter]
    refine List.filterMap_congr fun o _ => ?_
    cases o <;> rfl
  cases op with
  | putComponent r => rfl
  | getComponent id =>
    show expected (before.filter fun o => o.kind = .component) (.getComponent id) = _
    simp only [expected, hcomponents]
  | countComponents =>
    show expected (before.filter fun o => o.kind = .component) .countComponents = _
    simp only [expected, hcomponents]
  | putUser r => rfl
  | getUser user =>
    show expected (before.filter fun o => o.kind = .user) (.getUser user) = _
    simp only [expected, husers]

open Memory

/-- **Memory keeps the last writes.** After any operations on a memory that was empty at first, the
next one is answered as is expected from the operations before it alone, and from those of its own
kind alone. Whatever a memory holds, only a put that is taken changes anything, and then nothing of
the other kind. -/
theorem keeps_last_writes :
    (∀ (before : List Operation) (op : Operation),
      ((after before).perform op).1 = expected before op ∧
      ((after (before.filter fun o => o.kind = op.kind)).perform op).1 = expected before op) ∧
    ∀ (m : Memory) (op : Operation),
      ((m.perform op).1 ≠ .put (.ok ()) → (m.perform op).2 = m) ∧
      (op.kind = .component → (m.perform op).2.users = m.users) ∧
      (op.kind = .user → (m.perform op).2.components = m.components) := by
  refine ⟨fun before op => ⟨(remembers_after before).answer op, ?_⟩, fun m op => ⟨?_, ?_, ?_⟩⟩
  · rw [(remembers_after _).answer op]
    exact expected_filter_kind before op
  · intro hnot
    rw [perform_snd]
    cases op with
    | putComponent r =>
      have hblank : Text.trim r.id = "" := by
        by_contra htaken
        refine hnot ?_
        show Answer.put (putComponent r m).1 = _
        rw [putComponent_eq, putResult, if_neg htaken]
      rw [Operation.component?, if_pos hblank]
      rfl
    | putUser r =>
      have hblank : Text.trim r.user = "" := by
        by_contra htaken
        refine hnot ?_
        show Answer.put (putUser r m).1 = _
        rw [putUser_eq, putResult, if_neg htaken]
      rw [Operation.user?, if_pos hblank]
      rfl
    | _ => rfl
  · intro hkind
    rw [perform_snd]
    cases op with
    | putUser r => cases hkind
    | _ => rfl
  · intro hkind
    rw [perform_snd]
    cases op with
    | putComponent r => cases hkind
    | _ => rfl

/-- A chart under a key that a user has as well, put again as a form; a key that differs in case, and
one that is nothing but blanks. -/
def sharedKeys : List Operation :=
  [.putComponent ⟨"a", "chart", .null, "12:00"⟩, .putUser ⟨"a", .bool true⟩,
    .putComponent ⟨"a", "form", .arr [], "12:01"⟩, .putComponent ⟨"A", "custom", .null, "12:02"⟩,
    .putComponent ⟨"\t ", "form", .null, "12:03"⟩]

theorem keeps_last_writes_sharedKeys :
    ((after sharedKeys).perform (.getComponent "a")).1 =
      .component (.ok ⟨"a", "form", .arr [], "12:01"⟩) ∧
    ((after sharedKeys).perform (.getUser "a")).1 = .user (.ok ⟨"a", .bool true⟩) ∧
    ((after sharedKeys).perform (.getComponent " a")).1 =
      .component (.error (.componentNotFound " a")) ∧
    ((after sharedKeys).perform .countComponents).1 = .count 2 ∧
    ((after sharedKeys).perform (.putUser ⟨" ", .null⟩)).1 =
      .put (.error (.invalidKey .user " ")) ∧
    ((after sharedKeys).perform (.putUser ⟨" ", .null⟩)).2 = after sharedKeys ∧
    ((after sharedKeys).perform (.putComponent ⟨"b", "form", .null, "12:04"⟩)).2.users =
      (after sharedKeys).users ∧
    ((after sharedKeys).perform (.putUser ⟨"b", .null⟩)).2.components =
      (after sharedKeys).components := by
  obtain ⟨hanswers, hchanges⟩ := keeps_last_writes
  have hrefused : ((after sharedKeys).perform (.putUser ⟨" ", .null⟩)).1 =
      .put (.error (.invalidKey .user " ")) := (hanswers sharedKeys _).1
  refine ⟨(hanswers sharedKeys _).1, (hanswers sharedKeys _).1, (hanswers sharedKeys _).1,
    (hanswers sharedKeys _).1, hrefused, (hchanges _ _).1 ?_, (hchanges _ _).2.1 rfl,
    (hchanges _ _).2.2 rfl⟩
  rw [hrefused]
  simp

end EmbedUI.Registry
