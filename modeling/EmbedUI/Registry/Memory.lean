import EmbedUI.Registry.Backend
import EmbedUI.Text.Blank

/-!
# The registry in memory

Two maps from keys to records, one for components and one for users. A put replaces what was there
under its key; a blank key is refused and changes nothing.
-/

namespace EmbedUI.Registry

/-- Records by key. Keys are distinct. -/
abbrev Shelf (α : Type) := List (String × α)

namespace Shelf
variable {α : Type}

/-- The record under a key. -/
def get? (key : String) : Shelf α → Option α
  | [] => none
  | (k, v) :: rest => if k = key then some v else get? key rest

/-- Puts a record under a key, in the place of an earlier one. -/
def put (key : String) (value : α) : Shelf α → Shelf α
  | [] => [(key, value)]
  | (k, v) :: rest => if k = key then (key, value) :: rest else (k, v) :: put key value rest

theorem get?_put (key other : String) (value : α) (s : Shelf α) :
    get? other (put key value s) = if other = key then some value else get? other s := by
  induction s with
  | nil => simp [put, get?, eq_comm]
  | cons e rest ih =>
    obtain ⟨k, v⟩ := e
    by_cases hk : k = key
    · subst hk
      by_cases h : other = k
      · simp [put, get?, h]
      · simp [put, get?, h, Ne.symm h]
    · by_cases h : other = key
      · subst h
        simp [put, get?, hk, ih]
      · by_cases ho : k = other
        · subst ho
          simp [put, get?, h]
        · simp [put, get?, hk, h, ho, ih]

end Shelf

structure Memory where
  components : Shelf ComponentRecord
  users : Shelf UserRecord

namespace Memory

def empty : Memory := ⟨[], []⟩

/-- The number of components that are remembered. -/
def componentCount (m : Memory) : Nat := m.components.length

/-- Refuses a blank key. -/
def checkKey (kind : KeyKind) (key : String) : Except StorageError Unit :=
  if Text.allBlank key then .error (.invalidKey kind key) else .ok ()

def putComponent (r : ComponentRecord) (m : Memory) : Except StorageError Unit × Memory :=
  match checkKey .component r.id with
  | .error e => (.error e, m)
  | .ok () => (.ok (), { m with components := m.components.put r.id r })

def getComponent (id : String) (m : Memory) : Except StorageError ComponentRecord :=
  match m.components.get? id with
  | some r => .ok r
  | none => .error (.componentNotFound id)

def putUser (r : UserRecord) (m : Memory) : Except StorageError Unit × Memory :=
  match checkKey .user r.user with
  | .error e => (.error e, m)
  | .ok () => (.ok (), { m with users := m.users.put r.user r })

def getUser (user : String) (m : Memory) : Except StorageError UserRecord :=
  match m.users.get? user with
  | some r => .ok r
  | none => .error (.userDataNotFound user)

/-- Memory as a backend. -/
def backend : Backend where
  State := Memory
  empty := empty
  putComponent r := fun m => pure (putComponent r m)
  getComponent id := fun m => pure (getComponent id m, m)
  putUser r := fun m => pure (putUser r m)
  getUser user := fun m => pure (getUser user m, m)

end Memory

end EmbedUI.Registry
