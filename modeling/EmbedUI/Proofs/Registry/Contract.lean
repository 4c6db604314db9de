import EmbedUI.Proofs.Component.Identity
import EmbedUI.Proofs.Registry.LastWrites
import EmbedUI.Registry.Conformance

/-!
# The conformance suite asks for no more than the contract

A backend is only known by what it answers. Its contract speaks of any state that requests can
bring it to: a put under a key that is not blank is taken, a component with an empty id is refused,
and a get finds the last record that was taken under its key. Nothing is said about keys that are
blank and not empty, nor about what a backend holds. A backend that meets the contract passes every
check of the suite, in whatever order the writers of the concurrent checks take effect.

## The architecture

* **`Backend.Reaches`**, **`Backend.Meets`**: requests with their replies, and the contract.
* **`Backend.Holds`**: a state is reached after some records were taken, one after the other.
  `Holds.putComponent` and its likes say what an operation does to them.
* **`Achieves`**: what a check makes of the state; `Achieves.bind` and `achieves_forM` put checks
  together from `achieves_demand` and `achieves_lift`.
* one lemma for each check, and **`suite_sound`**.
-/

namespace EmbedUI.Registry

/-! ## The contract -/

/-- What can be asked of a backend. -/
inductive Request where
  | putComponent (record : ComponentRecord)
  | getComponent (id : String)
  | putUser (record : UserRecord)
  | getUser (user : String)

inductive Reply where
  | put (result : Except StorageError Unit)
  | component (result : Except StorageError ComponentRecord)
  | user (result : Except StorageError UserRecord)

/-- A request and what was replied to it. -/
abbrev Exchange := Request × Reply

namespace Exchange

/-- The component that was put and taken. -/
def component? : Exchange → Option ComponentRecord
  | (.putComponent r, .put (.ok ())) => some r
  | _ => none

def user? : Exchange → Option UserRecord
  | (.putUser r, .put (.ok ())) => some r
  | _ => none

end Exchange

/-- What a get has to be answered: the last record that was taken under the key. -/
def found {α : Type} (key : α → String) (taken : List α) (missing : String → StorageError)
    (k : String) : Except StorageError α :=
  match lastWith? key taken k with
  | some r => .ok r
  | none => .error (missing k)

namespace Backend

/-- Carries out a request. -/
def perform (b : Backend) (s : b.State) : Request → Reply × b.State
  | .putComponent r => (b.putComponent r s).map .put fun s => s
  | .getComponent id => (b.getComponent id s).map .component fun s => s
  | .putUser r => (b.putUser r s).map .put fun s => s
  | .getUser user => (b.getUser user s).map .user fun s => s

/-- The states that requests lead to, with the replies on the way. -/
inductive Reaches (b : Backend) : List Exchange → b.State → Prop
  | empty : Reaches b [] b.empty
  | step {exchanges : List Exchange} {s : b.State} (h : Reaches b exchanges s) (q : Request) :
      Reaches b (exchanges ++ [(q, (b.perform s q).1)]) (b.perform s q).2

/-- **The contract.** -/
structure Meets (b : Backend) : Prop where
  putComponent : ∀ {exchanges s}, b.Reaches exchanges s → ∀ r : ComponentRecord,
    Text.allBlank r.id = false → (b.putComponent r s).1 = .ok ()
  emptyId : ∀ {exchanges s}, b.Reaches exchanges s → ∀ r : ComponentRecord, r.id = "" →
    ∃ kind key, (b.putComponent r s).1 = .error (.invalidKey kind key)
  getComponent : ∀ {exchanges s}, b.Reaches exchanges s → ∀ id : String,
    (b.getComponent id s).1 =
      found ComponentRecord.id (exchanges.filterMap Exchange.component?) .componentNotFound id
  putUser : ∀ {exchanges s}, b.Reaches exchanges s → ∀ r : UserRecord,
    Text.allBlank r.user = false → (b.putUser r s).1 = .ok ()
  getUser : ∀ {exchanges s}, b.Reaches exchanges s → ∀ user : String,
    (b.getUser user s).1 =
      found UserRecord.user (exchanges.filterMap Exchange.user?) .userDataNotFound user

/-! ## What a state holds -/

/-- The state is reached after the records were taken. -/
def Holds (b : Backend) (components : List ComponentRecord) (users : List UserRecord)
    (s : b.State) : Prop :=
  ∃ exchanges, b.Reaches exchanges s ∧ exchanges.filterMap Exchange.component? = components ∧
    exchanges.filterMap Exchange.user? = users

variable {b : Backend} {components : List ComponentRecord} {users : List UserRecord} {s : b.State}

theorem holds_empty : b.Holds [] [] b.empty := ⟨[], .empty, rfl, rfl⟩

/-- A request adds what is taken of it. -/
theorem Holds.perform (h : b.Holds components users s) (q : Request) :
    b.Holds (components ++ (Exchange.component? (q, (b.perform s q).1)).toList)
      (users ++ (Exchange.user? (q, (b.perform s q).1)).toList) (b.perform s q).2 := by
  obtain ⟨exchanges, hreaches, rfl, rfl⟩ := h
  exact ⟨_, hreaches.step q, List.filterMap_append, List.filterMap_append⟩

theorem Holds.putComponent (hb : b.Meets) (h : b.Holds components users s) {r : ComponentRecord}
    (hr : Text.allBlank r.id = false) :
    ∃ s', b.putComponent r s = (.ok (), s') ∧ b.Holds (components ++ [r]) users s' := by
  obtain ⟨exchanges, hreaches, -, -⟩ := id h
  have hok : (b.putComponent r s).1 = .ok () := hb.putComponent hreaches r hr
  refine ⟨(b.putComponent r s).2, Prod.ext hok rfl, ?_⟩
  simpa [Backend.perform, Exchange.component?, Exchange.user?, hok] using
    h.perform (.putComponent r)

theorem Holds.emptyId (hb : b.Meets) (h : b.Holds components users s) {r : ComponentRecord}
    (hr : r.id = "") :
    ∃ kind key, (b.putComponent r s).1 = .error (.invalidKey kind key) := by
  obtain ⟨exchanges, hreaches, -, -⟩ := h
  exact hb.emptyId hreaches r hr

theorem Holds.getComponent (hb : b.Meets) (h : b.Holds components users s) (k : String) :
    ∃ s', b.getComponent k s = (found ComponentRecord.id components .componentNotFound k, s') ∧
      b.Holds components users s' := by
  obtain ⟨exchanges, hreaches, rfl, rfl⟩ := id h
  refine ⟨(b.getComponent k s).2, Prod.ext (hb.getComponent hreaches k) rfl, ?_⟩
  simpa [Backend.perform, Exchange.component?, Exchange.user?] using h.perform (.getComponent k)

theorem Holds.putUser (hb : b.Meets) (h : b.Holds components users s) {r : UserRecord}
    (hr : Text.allBlank r.user = false) :
    ∃ s', b.putUser r s = (.ok (), s') ∧ b.Holds components (users ++ [r]) s' := by
  obtain ⟨exchanges, hreaches, -, -⟩ := id h
  have hok : (b.putUser r s).1 = .ok () := hb.putUser hreaches r hr
  refine ⟨(b.putUser r s).2, Prod.ext hok rfl, ?_⟩
  simpa [Backend.perform, Exchange.component?, Exchange.user?, hok] using h.perform (.putUser r)

theorem Holds.getUser (hb : b.Meets) (h : b.Holds components users s) (user : String) :
    ∃ s', b.getUser user s = (found UserRecord.user users .userDataNotFound user, s') ∧
      b.Holds components users s' := by
  obtain ⟨exchanges, hreaches, rfl, rfl⟩ := id h
  refine ⟨(b.getUser user s).2, Prod.ext (hb.getUser hreaches user) rfl, ?_⟩
  simpa [Backend.perform, Exchange.component?, Exchange.user?] using h.perform (.getUser user)

end Backend

theorem found_of_lastWith? {α : Type} {key : α → String} {taken : List α}
    {missing : String → StorageError} {k : String} {r : α} (h : lastWith? key taken k = some r) :
    found key taken missing k = .ok r := by
  rw [found, h]

theorem lastWith?_concat_self {α : Type} (key : α → String) (taken : List α) (r : α) :
    lastWith? key (taken ++ [r]) (key r) = some r := by
  rw [lastWith?_concat, if_pos rfl]

theorem mem_of_lastWith? {α : Type} {key : α → String} {taken : List α} {k : String} {r : α}
    (h : lastWith? key taken k = some r) : r ∈ taken ∧ key r = k := by
  have hmem := List.mem_of_getLast? h
  rw [List.mem_filter, decide_eq_true_eq] at hmem
  exact hmem

theorem lastWith?_of_unique {α : Type} {key : α → String} {taken : List α} {r : α}
    (hr : r ∈ taken) (hunique : ∀ r' ∈ taken, key r' = key r → r' = r) :
    lastWith? key taken (key r) = some r := by
  obtain ⟨r', hr'⟩ := Option.isSome_iff_exists.mp
    (lastWith?_isSome.mpr (List.mem_map_of_mem (f := key) hr))
  obtain ⟨hmem, hkey⟩ := mem_of_lastWith? hr'
  rw [hr', hunique r' hmem hkey]

namespace Conformance

/-! ## What a check achieves -/

section
variable {σ α β : Type} {before : σ → Prop} {during after : α → σ → Prop}
  {c : ExceptT String (StateM σ) α}

/-- From every state of a kind the check goes on, with a result and in a state of another kind. -/
def Achieves (before : σ → Prop) (c : ExceptT String (StateM σ) α) (after : α → σ → Prop) :
    Prop :=
  ∀ s, before s → ∃ a s', c.run s = (.ok a, s') ∧ after a s'

theorem achieves_pure {a : α} (h : ∀ s, before s → after a s) : Achieves before (pure a) after :=
  fun s hs => ⟨a, s, rfl, h s hs⟩

theorem Achieves.bind {next : α → ExceptT String (StateM σ) β} {after : β → σ → Prop}
    (hc : Achieves before c during) (hnext : ∀ a, Achieves (during a) (next a) after) :
    Achieves before (c >>= next) after := by
  intro s hs
  obtain ⟨a, m, hfirst, hm⟩ := hc s hs
  obtain ⟨r, s', hrest, hs'⟩ := hnext a m hm
  refine ⟨r, s', ?_, hs'⟩
  rw [ExceptT.run_bind]
  show StateT.run _ s = _
  rw [StateT.run_bind, show StateT.run c.run s = pure (.ok a, m) from hfirst]
  exact hrest

theorem Achieves.mono {stronger : α → σ → Prop} (hc : Achieves before c stronger)
    (h : ∀ a s, stronger a s → after a s) : Achieves before c after := by
  intro s hs
  obtain ⟨a, s', hrun, hs'⟩ := hc s hs
  exact ⟨a, s', hrun, h a s' hs'⟩

/-- After a step with a known result the check goes on with that result. -/
theorem Achieves.bind_eq {inv : σ → Prop} {a : α} {next : α → ExceptT String (StateM σ) β}
    {after : β → σ → Prop} (hc : Achieves before c fun v s => v = a ∧ inv s)
    (hnext : Achieves inv (next a) after) : Achieves before (c >>= next) after := by
  refine hc.bind fun v s hs => ?_
  obtain ⟨rfl, hs⟩ := hs
  exact hnext s hs

/-- A loop achieves what each round leaves as it was. -/
theorem achieves_forM {inv : σ → Prop} {f : α → ExceptT String (StateM σ) Unit} {xs : List α}
    (h : ∀ x ∈ xs, Achieves inv (f x) fun _ => inv) : Achieves inv (xs.forM f) fun _ => inv := by
  induction xs with
  | nil => exact achieves_pure fun _ hs => hs
  | cons x rest ih =>
    exact (h x List.mem_cons_self).bind fun _ => ih fun y hy => h y (List.mem_cons_of_mem _ hy)

/-- A condition that holds is passed. -/
theorem achieves_unless {inv : σ → Prop} {failed : Bool} (message : String)
    (h : failed = false) :
    Achieves inv (if failed then throw message else pure () : ExceptT String (StateM σ) Unit)
      fun _ => inv := by
  rw [h]
  exact achieves_pure fun _ hs => hs

end

section
variable {b : Backend} {before : b.State → Prop} {α : Type}

theorem achieves_lift {op : StateM b.State α} {after : α → b.State → Prop}
    (h : ∀ s, before s → after (op s).1 (op s).2) : Achieves before (ExceptT.lift op) after := by
  intro s hs
  refine ⟨(op s).1, (op s).2, ?_, h s hs⟩
  rw [ExceptT.run_lift]
  show StateT.run _ s = _
  rw [StateT.run_map]
  rfl

theorem achieves_attempt {op : StateM b.State (Except StorageError α)}
    {result : Except StorageError α} {after : b.State → Prop}
    (h : ∀ s, before s → ∃ s', op s = (result, s') ∧ after s') :
    Achieves before (attempt op) fun got s => got = result ∧ after s := by
  refine achieves_lift fun s hs => ?_
  obtain ⟨s', hop, hs'⟩ := h s hs
  rw [hop]
  exact ⟨rfl, hs'⟩

theorem achieves_demand {op : StateM b.State (Except StorageError α)} {a : α}
    {after : b.State → Prop} (context : String)
    (h : ∀ s, before s → ∃ s', op s = (.ok a, s') ∧ after s') :
    Achieves before (demand context op) fun v s => v = a ∧ after s :=
  (achieves_attempt h).bind_eq (achieves_pure fun _ hs => ⟨rfl, hs⟩)

end

/-! ## The operations of a backend -/

section
variable {b : Backend} {components : List ComponentRecord} {users : List UserRecord}

theorem achieves_putComponent (hb : b.Meets) {r : ComponentRecord}
    (hr : Text.allBlank r.id = false) (context : String) :
    Achieves (b.Holds components users) (demand context (b.putComponent r))
      fun _ => b.Holds (components ++ [r]) users :=
  (achieves_demand context fun _ hs => hs.putComponent hb hr).mono fun _ _ h => h.2

theorem achieves_getComponent (hb : b.Meets) {k : String} {r : ComponentRecord}
    (hr : lastWith? ComponentRecord.id components k = some r) (context : String) :
    Achieves (b.Holds components users) (demand context (b.getComponent k))
      fun got s => got = r ∧ b.Holds components users s := by
  refine achieves_demand context fun s hs => ?_
  have hget := hs.getComponent hb k
  rw [found_of_lastWith? hr] at hget
  exact hget

theorem achieves_putUser (hb : b.Meets) {r : UserRecord} (hr : Text.allBlank r.user = false)
    (context : String) :
    Achieves (b.Holds components users) (demand context (b.putUser r))
      fun _ => b.Holds components (users ++ [r]) :=
  (achieves_demand context fun _ hs => hs.putUser hb hr).mono fun _ _ h => h.2

theorem achieves_getUser (hb : b.Meets) {k : String} {r : UserRecord}
    (hr : lastWith? UserRecord.user users k = some r) (context : String) :
    Achieves (b.Holds components users) (demand context (b.getUser k))
      fun got s => got = r ∧ b.Holds components users s := by
  refine achieves_demand context fun s hs => ?_
  have hget := hs.getUser hb k
  rw [found_of_lastWith? hr] at hget
  exact hget

end

/-! ## One check after the other -/

section
variable {b : Backend}

theorem achieves_putThenGet (hb : b.Meets) :
    Achieves (b.Holds [] []) putThenGet fun _ => fun _ => True := by
  unfold putThenGet
  refine (achieves_putComponent hb (by decide) _).bind fun _ => ?_
  refine (achieves_getComponent hb (lastWith?_concat_self _ _ _) _).bind_eq ?_
  exact (achieves_unless _ (by decide)).mono fun _ _ _ => trivial

theorem achieves_putOverwrites (hb : b.Meets) :
    Achieves (b.Holds [] []) putOverwrites fun _ => fun _ => True := by
  unfold putOverwrites
  refine (achieves_putComponent hb (by decide) _).bind fun _ => ?_
  refine (achieves_putComponent hb (by decide) _).bind fun _ => ?_
  refine (achieves_getComponent hb (lastWith?_concat_self _ _ _) _).bind_eq ?_
  exact (achieves_unless _ (by decide)).mono fun _ _ _ => trivial

theorem achieves_unknownComponent (hb : b.Meets) :
    Achieves (b.Holds [] []) unknownComponent fun _ => fun _ => True := by
  unfold unknownComponent
  refine (achieves_attempt fun s hs => hs.getComponent hb "missing").bind_eq ?_
  exact achieves_pure fun _ _ => trivial

theorem achieves_emptyId (hb : b.Meets) :
    Achieves (b.Holds [] []) emptyId fun _ => fun _ => True := by
  unfold emptyId
  have hput : Achieves (b.Holds [] []) (attempt (b.putComponent (component "" "form" .null)))
      fun got _ => ∃ kind key, got = .error (.invalidKey kind key) :=
    achieves_lift fun s hs => hs.emptyId hb rfl
  refine hput.bind fun got s => ?_
  rintro ⟨kind, key, rfl⟩
  exact ⟨(), s, rfl, trivial⟩

theorem achieves_payloadRoundTrips (hb : b.Meets) :
    Achieves (b.Holds [] []) payloadRoundTrips fun _ => fun _ => True := by
  unfold payloadRoundTrips
  refine (achieves_putUser hb (by decide) _).bind fun _ => ?_
  refine (achieves_getUser hb (lastWith?_concat_self _ _ _) _).bind_eq ?_
  exact (achieves_unless _ (by decide)).mono fun _ _ _ => trivial

theorem achieves_putReplaces (hb : b.Meets) :
    Achieves (b.Holds [] []) putReplaces fun _ => fun _ => True := by
  unfold putReplaces
  refine (achieves_putUser hb (by decide) _).bind fun _ => ?_
  refine (achieves_putUser hb (by decide) _).bind fun _ => ?_
  refine (achieves_getUser hb (lastWith?_concat_self _ _ _) _).bind_eq ?_
  exact (achieves_unless _ (by decide)).mono fun _ _ _ => trivial

theorem achieves_unknownUser (hb : b.Meets) :
    Achieves (b.Holds [] []) unknownUser fun _ => fun _ => True := by
  unfold unknownUser
  refine (achieves_attempt fun s hs => hs.getUser hb "nobody").bind_eq ?_
  exact achieves_pure fun _ _ => trivial

end

/-! ## Writers side by side -/

section
variable {b : Backend} {components : List ComponentRecord} {users : List UserRecord}
  {record : Nat → ComponentRecord} {order : List Nat}

/-- The records are taken in the order of the writers. -/
theorem writeAll_eq (hb : b.Meets) (hrecord : ∀ i, Text.allBlank (record i).id = false)
    {s : b.State} (h : b.Holds components users s) :
    ∃ s', writeAll record order s = (order.map fun i => (i, .ok ()), s') ∧
      b.Holds (components ++ order.map record) users s' := by
  induction order generalizing components s with
  | nil => exact ⟨s, rfl, by simpa using h⟩
  | cons i rest ih =>
    obtain ⟨m, hput, hm⟩ := h.putComponent hb (hrecord i)
    obtain ⟨s', hrest, hs'⟩ := ih hm
    refine ⟨s', ?_, by simpa using hs'⟩
    show StateT.run (writeAll record (i :: rest)) s = _
    rw [writeAll, StateT.run_bind, show StateT.run (b.putComponent (record i)) s = pure (.ok (), m)
      from hput, pure_bind, StateT.run_bind, show StateT.run (writeAll record rest) m = pure _ from
      hrest]
    rfl

/-- No writer is told that it failed. -/
theorem lookup_ne_error (order : List Nat) (i : Nat) (e : StorageError) :
    (order.map fun j => (j, (.ok () : Except StorageError Unit))).lookup i ≠ some (.error e) := by
  intro hlookup
  obtain ⟨before, after, hsplit, -⟩ := List.lookup_eq_some_iff.mp hlookup
  have hmem : (i, .error e) ∈ order.map fun j => (j, (.ok () : Except StorageError Unit)) := by
    rw [hsplit]
    exact List.mem_append_right _ List.mem_cons_self
  obtain ⟨j, -, hj⟩ := List.mem_map.mp hmem
  cases hj

theorem achieves_writersSucceed (hb : b.Meets) (record : Nat → ComponentRecord)
    (hrecord : ∀ i, Text.allBlank (record i).id = false) :
    Achieves (b.Holds components users) (writersSucceed order record)
      fun _ => b.Holds (components ++ order.map record) users := by
  unfold writersSucceed
  have hwrite : Achieves (b.Holds components users) (ExceptT.lift (writeAll record order))
      fun results s => results = (order.map fun i => (i, .ok ())) ∧
        b.Holds (components ++ order.map record) users s := by
    refine achieves_lift fun s hs => ?_
    obtain ⟨s', hwrite, hs'⟩ := writeAll_eq hb hrecord hs
    rw [hwrite]
    exact ⟨rfl, hs'⟩
  refine hwrite.bind_eq (achieves_forM fun i _ => ?_)
  split
  · next e hlookup => exact absurd hlookup (lookup_ne_error order i e)
  · exact achieves_pure fun _ hs => hs

end

section
variable {b : Backend} {order : List Nat}

theorem numberText_injective {i j : Nat} (h : numberText i = numberText j) : i = j := by
  have hsign : ∀ n : Nat, (if (n : Int) < 0 then ['-'] else []) = ([] : List Char) :=
    fun n => if_neg (by omega)
  rw [numberText, numberText, Decimal.integerText, Decimal.integerText, hsign, hsign,
    String.ofList_inj] at h
  exact ComponentId.digits_injective h

theorem distinctId_injective {i j : Nat} (h : distinctId i = distinctId j) : i = j := by
  unfold distinctId at h
  simp only [String.append_left_inj, String.append_right_inj] at h
  exact numberText_injective h

theorem allBlank_distinctRecord (i : Nat) : Text.allBlank (distinctRecord i).id = false := by
  have hfront : "form-u".toList.all Text.isBlank = false := by decide
  show Text.allBlank (distinctId i) = false
  rw [Text.allBlank, distinctId, String.toList_append, String.toList_append, List.all_append,
    List.all_append, hfront]
  rfl

theorem achieves_distinctWriters (hb : b.Meets) (horder : order.Perm (List.range writerCount)) :
    Achieves (b.Holds [] []) (distinctWriters order) fun _ => fun _ => True := by
  unfold distinctWriters
  refine (achieves_writersSucceed hb distinctRecord allBlank_distinctRecord).bind fun _ => ?_
  refine (achieves_forM fun i hi => ?_).mono fun _ _ _ => trivial
  -- the records have different ids, so each is the last one with its id
  have hlast : lastWith? ComponentRecord.id (order.map distinctRecord) (distinctId i) =
      some (distinctRecord i) := by
    refine lastWith?_of_unique (List.mem_map_of_mem (horder.mem_iff.mpr hi)) fun r hr hid => ?_
    obtain ⟨j, -, rfl⟩ := List.mem_map.mp hr
    rw [distinctId_injective hid]
  have hsame : ∀ i ∈ List.range writerCount, (distinctConfig i).same (distinctConfig i) = true := by
    decide
  refine (achieves_getComponent hb hlast _).bind_eq (achieves_unless _ ?_)
  show (!(distinctConfig i).same (distinctConfig i)) = false
  rw [hsame i hi]
  rfl

theorem allBlank_sharedRecord (i : Nat) : Text.allBlank (sharedRecord i).id = false := by
  show Text.allBlank "dashboard-shared-1" = false
  decide

theorem achieves_sharedWriters (hb : b.Meets) (horder : order.Perm (List.range writerCount)) :
    Achieves (b.Holds [] []) (sharedWriters order) fun _ => fun _ => True := by
  unfold sharedWriters
  refine (achieves_writersSucceed hb sharedRecord allBlank_sharedRecord).bind fun _ => ?_
  -- whichever writer came last, its record is there as a whole
  obtain ⟨r, hlast⟩ : ∃ r, lastWith? ComponentRecord.id (order.map sharedRecord)
      "dashboard-shared-1" = some r := by
    refine Option.isSome_iff_exists.mp (lastWith?_isSome.mpr ?_)
    have hfirst : 0 ∈ order := horder.mem_iff.mpr (by decide)
    exact List.mem_map_of_mem (f := ComponentRecord.id) (List.mem_map_of_mem hfirst)
  obtain ⟨hmem, -⟩ := mem_of_lastWith? hlast
  obtain ⟨j, hj, rfl⟩ := List.mem_map.mp hmem
  have hwriters : ∀ j ∈ List.range writerCount,
      ((sharedConfig j).get? "writer").bind Json.nat? = some j := by decide
  have hwriter := hwriters j (horder.mem_iff.mp hj)
  have htitle : ((sharedConfig j).get? "title").bind Json.str? = some ("t" ++ numberText j) := rfl
  have hconfig : (sharedRecord j).config = sharedConfig j := rfl
  refine (achieves_getComponent hb hlast _).bind_eq ?_
  rw [hconfig, hwriter]
  dsimp only
  rw [if_neg (not_not.mpr htitle)]
  exact achieves_pure fun _ _ => trivial

end

/-! ## The whole suite -/

/-- A check that gets through is passed. -/
theorem passed_outcome {b : Backend} {check : Check b}
    (h : Achieves (b.Holds [] []) check fun _ => fun _ => True) (category name : String) :
    (outcome b category name check).passed = true := by
  obtain ⟨⟨⟩, s', hrun, -⟩ := h b.empty Backend.holds_empty
  unfold outcome Outcome.passed
  rw [hrun]
  rfl

/-- The checks in the order of the report, each with its category. -/
def checks : List (String × String) :=
  [("registry", "put_then_get_round_trips"), ("registry", "put_overwrites_previous_record"),
    ("registry", "get_unknown_is_not_found"), ("registry", "empty_id_is_rejected"),
    ("user_store", "payload_round_trips_unchanged"), ("user_store", "put_replaces_payload"),
    ("user_store", "get_unknown_user_is_not_found"),
    ("concurrent", "parallel_puts_to_distinct_ids_all_visible"),
    ("concurrent", "parallel_puts_to_same_id_leave_one_whole_record")]

theorem passed_of_meets {b : Backend} (hb : b.Meets) {distinct shared : List Nat}
    (hdistinct : distinct.Perm (List.range writerCount))
    (hshared : shared.Perm (List.range writerCount)) :
    ∀ o ∈ (runInOrders b distinct shared).outcomes, o.passed = true := by
  simp only [runInOrders, List.forall_mem_cons]
  exact ⟨passed_outcome (achieves_putThenGet hb) _ _,
    passed_outcome (achieves_putOverwrites hb) _ _,
    passed_outcome (achieves_unknownComponent hb) _ _,
    passed_outcome (achieves_emptyId hb) _ _,
    passed_outcome (achieves_payloadRoundTrips hb) _ _,
    passed_outcome (achieves_putReplaces hb) _ _,
    passed_outcome (achieves_unknownUser hb) _ _,
    passed_outcome (achieves_distinctWriters hb hdistinct) _ _,
    passed_outcome (achieves_sharedWriters hb hshared) _ _, List.forall_mem_nil _⟩

theorem Report.passed_add_failed (r : Report) : r.passed + r.failed = r.total := by
  have hle : r.passed ≤ r.total := List.countP_le_length
  unfold Report.failed
  omega

theorem Report.failed_eq_zero {r : Report} (h : ∀ o ∈ r.outcomes, o.passed = true) :
    r.failed = 0 := by
  have hall : r.passed = r.total := List.countP_eq_length.mpr h
  have hsum := r.passed_add_failed
  omega

end Conformance

/-! ## The registry in memory -/

namespace Memory

theorem putComponent_fst (r : ComponentRecord) (m : Memory) :
    (putComponent r m).1 = putResult .component r.id := by
  rw [putComponent_eq]

theorem putUser_fst (r : UserRecord) (m : Memory) :
    (putUser r m).1 = putResult .user r.user := by
  rw [putUser_eq]

/-- A request as an operation of memory. -/
def ofRequest : Request → Operation
  | .putComponent r => .putComponent r
  | .getComponent k => .getComponent k
  | .putUser r => .putUser r
  | .getUser user => .getUser user

theorem perform_backend (m : Memory) (q : Request) :
    (backend.perform m q).2 = (m.perform (ofRequest q)).2 := by
  cases q <;> rfl

/-- What memory takes of a request is what the request puts under a key that is not blank. -/
theorem component?_backend (m : Memory) (q : Request) :
    Exchange.component? (q, (backend.perform m q).1) = (ofRequest q).component? := by
  cases q with
  | putComponent r =>
    have hreply : (backend.perform m (.putComponent r)).1 = .put (putComponent r m).1 := rfl
    rw [hreply, putComponent_fst, putResult, ofRequest, Operation.component?]
    split <;> rfl
  | _ => rfl

theorem user?_backend (m : Memory) (q : Request) :
    Exchange.user? (q, (backend.perform m q).1) = (ofRequest q).user? := by
  cases q with
  | putUser r =>
    have hreply : (backend.perform m (.putUser r)).1 = .put (putUser r m).1 := rfl
    rw [hreply, putUser_fst, putResult, ofRequest, Operation.user?]
    split <;> rfl
  | _ => rfl

/-- Memory went through the requests as through operations of its own. -/
theorem remembers_of_reaches {exchanges : List Exchange} {s : backend.State}
    (h : backend.Reaches exchanges s) :
    ∃ before, Remembers before s ∧
      before.filterMap Operation.component? = exchanges.filterMap Exchange.component? ∧
      before.filterMap Operation.user? = exchanges.filterMap Exchange.user? := by
  induction h with
  | empty => exact ⟨[], ⟨.nil _, .nil _⟩, rfl, rfl⟩
  | @step exchanges m _ q ih =>
    obtain ⟨before, hremembers, hcomponents, husers⟩ := ih
    -- what memory takes of the operation is what the reply to the request says
    refine ⟨before ++ [ofRequest q], ?_, ?_, ?_⟩
    · rw [perform_backend m q]
      exact hremembers.perform (ofRequest q)
    · rw [List.filterMap_append, List.filterMap_append, hcomponents, List.filterMap_cons,
        List.filterMap_cons, component?_backend m q]
      rfl
    · rw [List.filterMap_append, List.filterMap_append, husers, List.filterMap_cons,
        List.filterMap_cons, user?_backend m q]
      rfl

theorem expected_getComponent (before : List Operation) (k : String) :
    expected before (.getComponent k) = .component
      (found ComponentRecord.id (before.filterMap Operation.component?) .componentNotFound k) := by
  simp only [expected, found]
  cases lastWith? ComponentRecord.id (before.filterMap Operation.component?) k <;> rfl

theorem expected_getUser (before : List Operation) (user : String) :
    expected before (.getUser user) = .user
      (found UserRecord.user (before.filterMap Operation.user?) .userDataNotFound user) := by
  simp only [expected, found]
  cases lastWith? UserRecord.user (before.filterMap Operation.user?) user <;> rfl

/-- **Memory meets the contract.** -/
theorem meets_backend : backend.Meets where
  putComponent := fun _ r hr => congrArg Prod.fst (putComponent_of_not_blank hr _)
  emptyId := by
    intro exchanges s _ r hr
    have hblank : Text.trim r.id = "" := by
      rw [hr]
      rfl
    exact ⟨.component, r.id, (putComponent_fst r s).trans (if_pos hblank)⟩
  getComponent := by
    intro exchanges s h k
    obtain ⟨before, hremembers, hcomponents, -⟩ := remembers_of_reaches h
    have hget := (hremembers.answer (.getComponent k)).trans (expected_getComponent before k)
    rw [hcomponents] at hget
    exact Answer.component.inj hget
  putUser := by
    intro exchanges s _ r hr
    have hblank : ¬Text.trim r.user = "" := by
      rw [Text.trim_eq_empty_iff, hr]
      exact Bool.false_ne_true
    exact (putUser_fst r s).trans (if_neg hblank)
  getUser := by
    intro exchanges s h user
    obtain ⟨before, hremembers, -, husers⟩ := remembers_of_reaches h
    have hget := (hremembers.answer (.getUser user)).trans (expected_getUser before user)
    rw [husers] at hget
    exact Answer.user.inj hget

end Memory

namespace Conformance

/-- **The suite is sound.** A backend that meets the contract passes every check, whatever the
orders in which the writers take effect. Whatever a backend does, the report has every check once,
in order, and counts each as passed or failed. -/
theorem suite_sound :
    (∀ b : Backend, b.Meets → ∀ distinct shared : List Nat,
      distinct.Perm (List.range writerCount) → shared.Perm (List.range writerCount) →
        (runInOrders b distinct shared).failed = 0 ∧
          ∀ o ∈ (runInOrders b distinct shared).outcomes, o.passed = true) ∧
    ∀ (b : Backend) (distinct shared : List Nat),
      (runInOrders b distinct shared).outcomes.map (fun o => (o.category, o.name)) = checks ∧
      checks.Nodup ∧
      (runInOrders b distinct shared).passed =
        ((runInOrders b distinct shared).outcomes.filter Outcome.passed).length ∧
      (runInOrders b distinct shared).passed + (runInOrders b distinct shared).failed =
        (runInOrders b distinct shared).total ∧
      (runInOrders b distinct shared).total = checks.length := by
  refine ⟨fun b hb distinct shared hdistinct hshared => ?_, fun b distinct shared => ?_⟩
  · have hpassed := passed_of_meets hb hdistinct hshared
    exact ⟨Report.failed_eq_zero hpassed, hpassed⟩
  · exact ⟨rfl, by decide, List.countP_eq_length_filter, Report.passed_add_failed _, rfl⟩

/-- The writers of the one check take effect from the last to the first. -/
theorem suite_sound_memory :
    Memory.backend.Meets ∧ [9, 8, 7, 6, 5, 4, 3, 2, 1, 0].Perm (List.range writerCount) ∧
      [3, 1, 4, 0, 5, 9, 2, 6, 8, 7].Perm (List.range writerCount) ∧
      (runInOrders Memory.backend [9, 8, 7, 6, 5, 4, 3, 2, 1, 0]
        [3, 1, 4, 0, 5, 9, 2, 6, 8, 7]).failed = 0 := by
  have hdistinct : [9, 8, 7, 6, 5, 4, 3, 2, 1, 0].Perm (List.range writerCount) := by decide
  have hshared : [3, 1, 4, 0, 5, 9, 2, 6, 8, 7].Perm (List.range writerCount) := by decide
  exact ⟨Memory.meets_backend, hdistinct, hshared,
    (suite_sound.1 Memory.backend Memory.meets_backend _ _ hdistinct hshared).1⟩

end Conformance

end EmbedUI.Registry
