import EmbedUI.Proofs.Json.Guarantee
import EmbedUI.Proofs.Json.RoundTrip
import Mathlib.Data.List.Nodup
import Mathlib.Data.List.Pairwise
import Mathlib.Logic.Relation

/-!
# Spellings of a record

The same record can be spelled in many ways. A part may be called by its second name, a part that is
left out may be written with its default, entries that nobody asks for may be added, and the values
of the parts may themselves be spelled in other ways. None of this changes what is read.

What a record reads depends on the entries only through the values that stand under the names of
each of its parts (`under`), so a change is looked at once, for a single part (`moved_under`), and
not for every record. A part of data that is held before it is read is asked for the last of these
values, any other part for the only one: this is all that `Stage` makes a difference to.

## The architecture

* **`Part`**, **`EntriesStep`**, **`ItemsStep`**, **`RecordStep`**, **`ListStep`**: single changes.
* **`moved_under`**: what they do to the values under one part.
* **`ofEntries_field_under`**, **`ofEntries_field_held`**: what a part reads from these values.
* **`Follows`**: a record that reads the same after a change, or a related value; it is put together
  like the record, from **`follows_field`** with **`Follows.map`** and **`Follows.seq`**.
* **`Follows.decode`**, **`Follows.unseen`**: records as a whole.
* **`Unseen`**, **`Unseen.list`**, **`Unseen.steps`**: decoders that do not see a change, for lists
  and for any number of changes.
-/

namespace EmbedUI.Json

variable {α β : Type}

/-! ## Changes -/

/-- What a part of a record may be called and how else it may be spelled. -/
structure Part where
  name : String
  aliases : List String
  /-- The values that a part stands for when it is left out. -/
  absent : List Json
  /-- The changes of its value. -/
  step : Json → Json → Prop

namespace Part

def keys (p : Part) : List String := p.name :: p.aliases

/-- A part whose value is spelled in one way only. -/
def plain (name : String) (aliases : List String) (absent : List Json) : Part :=
  ⟨name, aliases, absent, fun _ _ => False⟩

end Part

/-- A change of the entries of an object. -/
inductive EntriesStep (parts : List Part) : List (String × Json) → List (String × Json) → Prop
  /-- The order of entries says nothing, unless they are entries for one part. -/
  | swap (before after : List (String × Json)) {key other : String} (v w : Json)
      (h : ∀ p ∈ parts, key ∈ p.keys → other ∉ p.keys) :
      EntriesStep parts (before ++ (key, v) :: (other, w) :: after)
        (before ++ (other, w) :: (key, v) :: after)
  /-- The value of a part is changed. -/
  | inside (before after : List (String × Json)) {p : Part} {key : String} {v v' : Json}
      (hp : p ∈ parts) (hkey : key ∈ p.keys) (h : p.step v v') :
      EntriesStep parts (before ++ (key, v) :: after) (before ++ (key, v') :: after)
  /-- A part is called by another of its names. -/
  | rename (before after : List (String × Json)) {p : Part} {key other : String} (v : Json)
      (hp : p ∈ parts) (hkey : key ∈ p.keys) (hother : other ∈ p.keys) :
      EntriesStep parts (before ++ (key, v) :: after) (before ++ (other, v) :: after)
  /-- A part that was left out, under all of its names, is put in. -/
  | missing (before after : List (String × Json)) {p : Part} {v : Json} (hp : p ∈ parts)
      (hv : v ∈ p.absent) (h : ∀ key ∈ p.keys, key ∉ (before ++ after).map Prod.fst) :
      EntriesStep parts (before ++ after) (before ++ (p.name, v) :: after)
  /-- An entry is put in that nobody asks for. -/
  | unknown (before after : List (String × Json)) {key : String} (v : Json)
      (h : ∀ p ∈ parts, key ∉ p.keys) :
      EntriesStep parts (before ++ after) (before ++ (key, v) :: after)

/-- Changes of the items of an array that has the parts in their order. -/
inductive ItemsStep : List Part → List Json → List Json → Prop
  | short (parts : List Part) : ItemsStep parts [] []
  | beyond (items : List Json) : ItemsStep [] items items
  | cons {p : Part} {parts : List Part} {v v' : Json} {items items' : List Json}
      (h : v = v' ∨ p.step v v') (hrest : ItemsStep parts items items') :
      ItemsStep (p :: parts) (v :: items) (v' :: items')

/-- A change of a record. -/
inductive RecordStep (parts : List Part) : Json → Json → Prop
  | object {entries entries' : List (String × Json)} (h : EntriesStep parts entries entries') :
      RecordStep parts (.obj entries) (.obj entries')
  | array {items items' : List Json} (h : ItemsStep parts items items') :
      RecordStep parts (.arr items) (.arr items')

/-- A change of one item of a list. -/
inductive ListStep (step : Json → Json → Prop) : Json → Json → Prop
  | item (before after : List Json) {v v' : Json} (h : step v v') :
      ListStep step (.arr (before ++ v :: after)) (.arr (before ++ v' :: after))

/-! ## Decoders that do not see a change -/

/-- Whatever a decoder reads, it reads the same after a change. -/
def Unseen (step : Json → Json → Prop) (decode : Decoder Empty α) : Prop :=
  ∀ v v' x, step v v' → decode v = .ok x → decode v' = .ok x

section
variable {step : Json → Json → Prop} {decode : Decoder Empty α}

/-- **Any number of changes.** -/
theorem Unseen.steps (h : Unseen step decode) : Unseen (Relation.ReflTransGen step) decode := by
  intro v v' x hsteps hread
  induction hsteps with
  | refl => exact hread
  | tail _ hstep ih => exact h _ _ x hstep ih

/-- A decoder that looks at its document through something that changes along with it. -/
theorem Unseen.comp (h : Unseen step decode) {f : Json → Json}
    (hf : ∀ v v', step v v' → step (f v) (f v')) : Unseen step fun v => decode (f v) :=
  fun v v' x hstep => h (f v) (f v') x (hf v v' hstep)

theorem listItems_cons {v : Json} {rest : List Json} {xs : List α} :
    listItems decode (v :: rest) = .ok xs ↔
      ∃ y, decode v = .ok y ∧ ∃ ys, listItems decode rest = .ok ys ∧ y :: ys = xs := by
  have hcons : ∀ y ys, (pure (y :: ys) : Except DecodeError (List α)) = .ok xs ↔ y :: ys = xs :=
    fun y ys => Iff.of_eq (Except.ok.injEq _ _)
  refine bind_eq_ok.trans (exists_congr fun y => and_congr_right' ?_)
  exact bind_eq_ok.trans (exists_congr fun ys => and_congr_right' (hcons y ys))

/-- **Lists.** -/
theorem Unseen.list (h : Unseen step decode) : Unseen (ListStep step) (Json.list decode) := by
  intro v v' xs hstep hread
  cases hstep with
  | @item before after v v' hv =>
    have hitems : listItems decode (before ++ v :: after) = .ok xs := hread
    show listItems decode (before ++ v' :: after) = .ok xs
    induction before generalizing xs with
    | nil =>
      obtain ⟨y, hy, hrest⟩ := listItems_cons.mp hitems
      exact listItems_cons.mpr ⟨y, h v v' y hv hy, hrest⟩
    | cons u before ih =>
      obtain ⟨y, hy, ys, hys, hxs⟩ := listItems_cons.mp hitems
      exact listItems_cons.mpr ⟨y, hy, ys, ih ys hys hys, hxs⟩

/-- **Values that may be missing**, as long as a value that is there stays there. -/
theorem Unseen.optional (h : Unseen step decode)
    (hthere : ∀ v v', step v v' → v ≠ .null ∧ v' ≠ .null) :
    Unseen step (Json.optional decode) := by
  have hsome : ∀ w : Json, w ≠ .null → Json.optional decode w = (decode w).map some := by
    intro w hw
    cases w with
    | null => exact absurd rfl hw
    | _ => rfl
  intro v v' o hstep hread
  obtain ⟨hv, hv'⟩ := hthere v v' hstep
  rw [hsome v hv] at hread
  obtain ⟨x, hx, rfl⟩ := Record.map_eq_ok.mp hread
  rw [hsome v' hv', h v v' x hstep hx]
  rfl

theorem ListStep.there (v v' : Json) (h : ListStep step v v') : v ≠ .null ∧ v' ≠ .null := by
  cases h
  simp

end

/-! ## The values of a part -/

/-- The values under some keys, in their order. -/
def under (keys : List String) (entries : List (String × Json)) : List Json :=
  entries.filterMap fun entry => if entry.1 ∈ keys then some entry.2 else none

section
variable {keys : List String} {key : String}

theorem under_append (before after : List (String × Json)) :
    under keys (before ++ after) = under keys before ++ under keys after :=
  List.filterMap_append

theorem under_cons_of_mem (h : key ∈ keys) (v : Json) (rest : List (String × Json)) :
    under keys ((key, v) :: rest) = v :: under keys rest :=
  List.filterMap_cons_some (if_pos h)

theorem under_cons_of_not_mem (h : key ∉ keys) (v : Json) (rest : List (String × Json)) :
    under keys ((key, v) :: rest) = under keys rest :=
  List.filterMap_cons_none (if_neg h)

theorem under_eq_nil {entries : List (String × Json)}
    (h : ∀ key ∈ keys, key ∉ entries.map Prod.fst) : under keys entries = [] := by
  refine List.filterMap_eq_nil_iff.mpr fun entry hentry => if_neg fun hkey => ?_
  exact h entry.1 hkey (List.mem_map_of_mem hentry)

end

/-- A change of the values under the names of a part. -/
inductive Moved (p : Part) : List Json → List Json → Prop
  | same (vs : List Json) : Moved p vs vs
  | inside (before after : List Json) {v v' : Json} (h : p.step v v') :
      Moved p (before ++ v :: after) (before ++ v' :: after)
  | missing {v : Json} (h : v ∈ p.absent) : Moved p [] [v]

/-- Parts without a common name. -/
def Apart (parts : List Part) : Prop := (parts.flatMap Part.keys).Nodup

instance (parts : List Part) : Decidable (Apart parts) :=
  inferInstanceAs (Decidable (parts.flatMap Part.keys).Nodup)

theorem Apart.eq {parts : List Part} (h : Apart parts) {p q : Part} (hp : p ∈ parts)
    (hq : q ∈ parts) {key : String} (hkey : key ∈ p.keys) (hkey' : key ∈ q.keys) : p = q := by
  have hsymm : Std.Symm (Function.onFun List.Disjoint Part.keys) :=
    ⟨fun _ _ h _ hkey hkey' => h hkey' hkey⟩
  by_contra hne
  exact (List.nodup_flatMap.mp h).2.forall hp hq hne hkey hkey'

/-- **One part.** A change of the entries is a change of the values under a single part, or none. -/
theorem moved_under {parts : List Part} (hapart : Apart parts) {p : Part} (hp : p ∈ parts)
    {entries entries' : List (String × Json)} (h : EntriesStep parts entries entries') :
    Moved p (under p.keys entries) (under p.keys entries') := by
  have hown : ∀ {q : Part} {key : String}, q ∈ parts → key ∈ q.keys → key ∈ p.keys → q = p :=
    fun hq hkey hkey' => hapart.eq hq hp hkey hkey'
  cases h with
  | @swap before after key other v w hnone =>
    have hpair : under p.keys ((key, v) :: (other, w) :: after) =
        under p.keys ((other, w) :: (key, v) :: after) := by
      by_cases hkey : key ∈ p.keys
      · have hother := hnone p hp hkey
        rw [under_cons_of_mem hkey, under_cons_of_not_mem hother, under_cons_of_not_mem hother,
          under_cons_of_mem hkey]
      · by_cases hother : other ∈ p.keys
        · rw [under_cons_of_not_mem hkey, under_cons_of_mem hother, under_cons_of_mem hother,
            under_cons_of_not_mem hkey]
        · rw [under_cons_of_not_mem hkey, under_cons_of_not_mem hother,
            under_cons_of_not_mem hother, under_cons_of_not_mem hkey]
    rw [under_append, under_append, hpair]
    exact .same _
  | @inside before after q key v v' hq hkey hstep =>
    rw [under_append, under_append]
    by_cases hkey' : key ∈ p.keys
    · obtain rfl := hown hq hkey hkey'
      rw [under_cons_of_mem hkey, under_cons_of_mem hkey]
      exact .inside _ _ hstep
    · rw [under_cons_of_not_mem hkey', under_cons_of_not_mem hkey']
      exact .same _
  | @rename before after q key other v hq hkey hother =>
    rw [under_append, under_append]
    by_cases hpart : q = p
    · subst hpart
      rw [under_cons_of_mem hkey, under_cons_of_mem hother]
      exact .same _
    · rw [under_cons_of_not_mem (mt (hown hq hkey) hpart),
        under_cons_of_not_mem (mt (hown hq hother) hpart)]
      exact .same _
  | @missing before after q v hq hv hnone =>
    by_cases hkey : q.name ∈ p.keys
    · obtain rfl := hown hq List.mem_cons_self hkey
      have hnil := under_eq_nil hnone
      rw [under_append, List.append_eq_nil_iff] at hnil
      rw [under_append, under_append, under_cons_of_mem hkey, hnil.1, hnil.2]
      exact .missing hv
    · rw [under_append, under_append, under_cons_of_not_mem hkey]
      exact .same _
  | unknown before after v hnone =>
    rw [under_append, under_append, under_cons_of_not_mem (hnone p hp)]
    exact .same _

/-! ## Reading a part -/

namespace Record

section
variable {name : String} {aliases : List String} {absent : Option α} {decode : Decoder Empty α}

theorem fill_field_some (x : α) (entries : List (String × Json)) (slot : Option α) :
    (field name aliases absent decode).fill (some x) entries = .ok slot ↔
      under (name :: aliases) entries = [] ∧ slot = some x := by
  induction entries with
  | nil => exact ⟨fun h => ⟨rfl, (Except.ok.inj h).symm⟩, fun h => congrArg _ h.2.symm⟩
  | cons entry rest ih =>
    obtain ⟨key, v⟩ := entry
    by_cases hkey : key ∈ name :: aliases
    · -- a second entry for the part is an error
      have herror : (field name aliases absent decode).offer (some x) key v =
          some (.error (.duplicateField name)) := if_pos (List.mem_cons.mp hkey)
      rw [fill_cons_error rest herror, under_cons_of_mem hkey]
      simp
    · have hskip : (field name aliases absent decode).offer (some x) key v = none :=
        if_neg (mt List.mem_cons.mpr hkey)
      rw [fill_cons_skip rest hskip, under_cons_of_not_mem hkey]
      exact ih

theorem fill_field_none (entries : List (String × Json)) (slot : Option α) :
    (field name aliases absent decode).fill none entries = .ok slot ↔
      (∃ v x, under (name :: aliases) entries = [v] ∧ decode v = .ok x ∧ slot = some x) ∨
        under (name :: aliases) entries = [] ∧ slot = none := by
  induction entries with
  | nil =>
    constructor
    · exact fun h => Or.inr ⟨rfl, (Except.ok.inj h).symm⟩
    · rintro (⟨v, x, hnil, -⟩ | ⟨-, rfl⟩)
      · cases hnil
      · rfl
  | cons entry rest ih =>
    obtain ⟨key, v⟩ := entry
    by_cases hkey : key ∈ name :: aliases
    · have htake : (field name aliases absent decode).offer none key v =
          some ((decode v).map some) := if_pos (List.mem_cons.mp hkey)
      rw [under_cons_of_mem hkey]
      cases hdecode : decode v with
      | error e =>
        rw [hdecode] at htake
        rw [fill_cons_error rest htake]
        simp [hdecode]
      | ok x =>
        rw [hdecode] at htake
        rw [fill_cons_take rest htake]
        refine (fill_field_some x rest slot).trans ?_
        simp [hdecode]
    · have hskip : (field name aliases absent decode).offer none key v = none :=
        if_neg (mt List.mem_cons.mpr hkey)
      rw [fill_cons_skip rest hskip, under_cons_of_not_mem hkey]
      exact ih

/-- **The only value** under the names of a part is read, or its default. -/
theorem ofEntries_field_under {entries : List (String × Json)} {x : α} :
    (field name aliases absent decode).ofEntries entries = .ok x ↔
      (∃ v, under (name :: aliases) entries = [v] ∧ decode v = .ok x) ∨
        under (name :: aliases) entries = [] ∧ absent = some x := by
  have hfinish : ∀ slot : Option α, (field name aliases absent decode).finish slot = .ok x ↔
      slot.or absent = some x := by
    intro slot
    simp only [field]
    cases slot.or absent <;> simp
  rw [ofEntries_eq_ok]
  constructor
  · rintro ⟨slot, hfill, hslot⟩
    obtain ⟨v, y, hv, hy, rfl⟩ | ⟨hnil, rfl⟩ := (fill_field_none entries slot).mp hfill
    · obtain rfl := Option.some.inj ((hfinish _).mp hslot)
      exact Or.inl ⟨v, hv, hy⟩
    · exact Or.inr ⟨hnil, (hfinish none).mp hslot⟩
  · rintro (⟨v, hv, hx⟩ | ⟨hnil, habsent⟩)
    · exact ⟨some x, (fill_field_none entries _).mpr (Or.inl ⟨v, x, hv, hx, rfl⟩),
        (hfinish _).mpr rfl⟩
    · exact ⟨none, (fill_field_none entries _).mpr (Or.inr ⟨hnil, rfl⟩), (hfinish none).mpr habsent⟩

/-- The first of the values under a name. -/
theorem lookup_eq_head? (name : String) (entries : List (String × Json)) :
    lookup name entries = (under [name] entries).head? := by
  induction entries with
  | nil => rfl
  | cons entry rest ih =>
    obtain ⟨key, v⟩ := entry
    rw [lookup]
    by_cases hkey : key = name
    · rw [if_pos hkey, under_cons_of_mem (List.mem_singleton.mpr hkey), List.head?_cons]
    · rw [if_neg hkey, under_cons_of_not_mem (mt List.mem_singleton.mp hkey), ih]

/-- The last of the values under a name. -/
theorem lookup_reverse (entries : List (String × Json)) :
    lookup name entries.reverse = (under [name] entries).getLast? := by
  induction entries with
  | nil => rfl
  | cons entry rest ih =>
    obtain ⟨key, v⟩ := entry
    rw [List.reverse_cons, lookup_append, ih, lookup, lookup]
    by_cases hkey : key = name
    · rw [if_pos hkey, under_cons_of_mem (List.mem_singleton.mpr hkey), List.getLast?_cons]
      cases (under [name] rest).getLast? <;> rfl
    · rw [if_neg hkey, under_cons_of_not_mem (mt List.mem_singleton.mp hkey), Option.or_none]

/-- **The last value** under the name of a part is read if the entries were held before. -/
theorem ofEntries_field_held {entries : List (String × Json)} {x : α} :
    (field name [] absent decode).ofEntries (keptEntries [] entries) = .ok x ↔
      (∃ v, (under [name] entries).getLast? = some v ∧ decode v.kept = .ok x) ∨
        under [name] entries = [] ∧ absent = some x := by
  rw [ofEntries_field (nodup_held entries), lookup_keptEntries_reverse, lookup_reverse, lookup,
    Option.or_none, Option.map_eq_none_iff, List.getLast?_eq_none_iff]
  simp only [Option.map_eq_some_iff]
  constructor
  · rintro (⟨w, ⟨v, hv, rfl⟩, hx⟩ | hnone)
    · exact Or.inl ⟨v, hv, hx⟩
    · exact Or.inr hnone
  · rintro (⟨v, hv, hx⟩ | hnone)
    · exact Or.inl ⟨v.kept, ⟨v, hv, rfl⟩, hx⟩
    · exact Or.inr hnone

end

/-! ## Records that read the same -/

/-- Whether a document is read as it stands or was held as data before. -/
inductive Stage where
  | written
  | held

namespace Stage

def value : Stage → Json → Json
  | written => id
  | held => kept

def entries : Stage → List (String × Json) → List (String × Json)
  | written => id
  | held => keptEntries []

theorem value_obj (stage : Stage) (es : List (String × Json)) :
    stage.value (.obj es) = .obj (stage.entries es) := by
  cases stage with
  | written => rfl
  | held =>
    show kept (.obj es) = _
    rw [kept]
    rfl

theorem value_arr (stage : Stage) (items : List Json) :
    stage.value (.arr items) = .arr (items.map stage.value) := by
  cases stage with
  | written => exact congrArg Tree.arr (List.map_id items).symm
  | held => exact kept_arr items

/-- The value of a part among those under its names. -/
def pick : Stage → List Json → Option Json
  | written => fun
    | [v] => some v
    | _ => none
  | held => List.getLast?

theorem pick_singleton (stage : Stage) (v : Json) : stage.pick [v] = some v := by
  cases stage <;> rfl

/-- A change among the values is one of the value that counts, or of another one. -/
theorem pick_inside {stage : Stage} {before after : List Json} {v w : Json} (v' : Json)
    (h : stage.pick (before ++ v :: after) = some w) :
    w = v ∧ stage.pick (before ++ v' :: after) = some v' ∨
      stage.pick (before ++ v' :: after) = some w := by
  cases stage with
  | written =>
    obtain ⟨rfl, rfl⟩ : before = [] ∧ after = [] := by
      cases before with
      | nil =>
        cases after with
        | nil => exact ⟨rfl, rfl⟩
        | cons u after => cases h
      | cons u before => cases before <;> cases h
    exact Or.inl ⟨(Option.some.inj h).symm, rfl⟩
  | held =>
    cases after with
    | nil =>
      have hlast : ∀ u, Stage.held.pick (before ++ [u]) = some u := fun _ => List.getLast?_concat
      rw [hlast] at h
      exact Or.inl ⟨(Option.some.inj h).symm, hlast v'⟩
    | cons u after =>
      have hlast : ∀ t, Stage.held.pick (before ++ t :: u :: after) = (u :: after).getLast? := by
        intro t
        show (before ++ t :: u :: after).getLast? = _
        rw [List.getLast?_append_of_ne_nil _ (List.cons_ne_nil _ _), List.getLast?_cons_cons]
      rw [hlast] at h
      exact Or.inr ((hlast v').trans h)

end Stage

theorem ofEntries_field_pick {stage : Stage} {p : Part} {absent : Option α}
    {decode : Decoder Empty α} (hstage : stage = .written ∨ p.aliases = [])
    {entries : List (String × Json)} {x : α} :
    (field p.name p.aliases absent decode).ofEntries (stage.entries entries) = .ok x ↔
      (∃ v, stage.pick (under p.keys entries) = some v ∧ decode (stage.value v) = .ok x) ∨
        under p.keys entries = [] ∧ absent = some x := by
  cases stage with
  | written =>
    refine ofEntries_field_under.trans (or_congr_left (exists_congr fun v => and_congr_left' ?_))
    show under p.keys entries = [v] ↔ Stage.written.pick (under p.keys entries) = some v
    match under p.keys entries with
    | [] => simp [Stage.pick]
    | [w] => simp [Stage.pick]
    | _ :: _ :: _ => simp [Stage.pick]
  | held =>
    have hnames : p.aliases = [] := hstage.resolve_left Stage.noConfusion
    unfold Part.keys
    rw [hnames]
    exact ofEntries_field_held

/-- The changes of a part do not change what a decoder reads. Two values count as the same if they
are related. -/
structure Fits (stage : Stage) (p : Part) (absent : Option α) (decode : Decoder Empty α)
    (R : α → α → Prop) : Prop where
  refl : ∀ x, R x x
  step : ∀ v v' x, p.step v v' → decode (stage.value v) = .ok x →
    ∃ x', decode (stage.value v') = .ok x' ∧ R x x'
  absent : ∀ v ∈ p.absent, ∀ x, absent = some x →
    ∃ x', decode (stage.value v) = .ok x' ∧ R x x'

/-- Whatever a record reads, it reads the same after a change of some parts among which its own
ones are. -/
structure Follows (stage : Stage) (all : List Part) (parts : List Part) (r : Record Empty α)
    (R : α → α → Prop) : Prop where
  owns : r.Owns (parts.flatMap Part.keys)
  entries : ∀ {entries entries' : List (String × Json)} {x : α}, EntriesStep all entries entries' →
    r.ofEntries (stage.entries entries) = .ok x →
    ∃ x', r.ofEntries (stage.entries entries') = .ok x' ∧ R x x'
  items : ∀ {others : List Part} {items items' rest : List Json} {x : α},
    ItemsStep (parts ++ others) items items' → r.take (items.map stage.value) = .ok (x, rest) →
    ∃ x' left left', rest = left.map stage.value ∧
      r.take (items'.map stage.value) = .ok (x', left'.map stage.value) ∧ R x x' ∧
      ItemsStep others left left'

section
variable {stage : Stage} {all : List Part}

theorem Fits.same {p : Part} {absent : Option α} {decode : Decoder Empty α}
    (hstep : Unseen p.step fun v => decode (stage.value v))
    (habsent : ∀ v ∈ p.absent, ∀ x, absent = some x → decode (stage.value v) = .ok x) :
    Fits stage p absent decode Eq :=
  ⟨fun _ => rfl, fun v v' x h hx => ⟨x, hstep v v' x h hx, rfl⟩,
    fun v hv x hx => ⟨x, habsent v hv x hx, rfl⟩⟩

/-- **A single part.** One that was held is asked for under one name. -/
theorem follows_field (hapart : Apart all) {p : Part} (hp : p ∈ all) {absent : Option α}
    {decode : Decoder Empty α} {R : α → α → Prop} (hstage : stage = .written ∨ p.aliases = [])
    (hfits : Fits stage p absent decode R) :
    Follows stage all [p] (field p.name p.aliases absent decode) R := by
  refine ⟨?_, ?_, ?_⟩
  · rw [List.flatMap_singleton]
    exact owns_field_aliases _ _ _ _
  · intro entries entries' x hstep hread
    rw [ofEntries_field_pick hstage] at hread
    simp only [ofEntries_field_pick hstage]
    have hmoved := moved_under hapart hp hstep
    generalize under p.keys entries = vs at hread hmoved
    generalize under p.keys entries' = vs' at hmoved
    cases hmoved with
    | same => exact ⟨x, hread, hfits.refl x⟩
    | @inside before after v v' hv =>
      obtain ⟨w, hpick, hx⟩ | ⟨hnil, -⟩ := hread
      · obtain ⟨rfl, hpick'⟩ | hpick' := Stage.pick_inside v' hpick
        · obtain ⟨x', hx', hR⟩ := hfits.step _ _ _ hv hx
          exact ⟨x', Or.inl ⟨v', hpick', hx'⟩, hR⟩
        · exact ⟨x, Or.inl ⟨w, hpick', hx⟩, hfits.refl x⟩
      · simp at hnil
    | @missing v hv =>
      obtain ⟨w, hpick, -⟩ | ⟨-, habsent⟩ := hread
      · cases stage <;> cases hpick
      · obtain ⟨x', hx', hR⟩ := hfits.absent v hv x habsent
        exact ⟨x', Or.inl ⟨v, stage.pick_singleton v, hx'⟩, hR⟩
  · intro others items items' rest x hstep htake
    cases hstep with
    | short =>
      cases absent with
      | none => cases htake
      | some a =>
        obtain ⟨rfl, rfl⟩ := Prod.mk.inj (Except.ok.inj htake)
        exact ⟨a, [], [], rfl, rfl, hfits.refl a, .short others⟩
    | @cons _ _ v v' items items' hv hrest =>
      rw [List.map_cons] at htake ⊢
      simp only [field] at htake ⊢
      cases hdecode : decode (stage.value v) with
      | error e =>
        rw [hdecode] at htake
        cases htake
      | ok y =>
        rw [hdecode] at htake
        obtain ⟨rfl, rfl⟩ := Prod.mk.inj (Except.ok.inj htake)
        obtain ⟨x', hx', hR⟩ : ∃ x', decode (stage.value v') = .ok x' ∧ R y x' := by
          obtain rfl | hchange := hv
          · exact ⟨y, hdecode, hfits.refl y⟩
          · exact hfits.step _ _ _ hchange hdecode
        rw [hx']
        exact ⟨x', items, items', rfl, rfl, hR, hrest⟩

/-- A part whose value is spelled in one way only. -/
theorem follows_plain (hapart : Apart all) {name : String} {aliases : List String}
    {absent : List Json} (hp : .plain name aliases absent ∈ all) {default? : Option α}
    {decode : Decoder Empty α} (hstage : stage = .written ∨ aliases = [])
    (habsent : ∀ v ∈ absent, ∀ x, default? = some x → decode (stage.value v) = .ok x) :
    Follows stage all [.plain name aliases absent] (field name aliases default? decode) Eq :=
  follows_field hapart hp hstage (.same (fun _ _ _ h => h.elim) habsent)

theorem follows_required (hapart : Apart all) {name : String} (hp : .plain name [] [] ∈ all)
    (decode : Decoder Empty α) :
    Follows stage all [.plain name [] []] (required name decode) Eq :=
  follows_plain hapart hp (.inr rfl) fun _ hv => nomatch hv

theorem follows_defaulted (hapart : Apart all) {name : String} {v : Json} {x : α}
    (hp : .plain name [] [v] ∈ all) (decode : Decoder Empty α)
    (hv : decode (stage.value v) = .ok x) :
    Follows stage all [.plain name [] [v]] (defaulted name x decode) Eq := by
  refine follows_plain hapart hp (.inr rfl) fun w hw y hy => ?_
  rw [List.mem_singleton.mp hw, hv]
  exact congrArg Except.ok (Option.some.inj hy)

/-- A list, empty when it is left out. -/
theorem follows_list (hapart : Apart all) {name : String} {step : Json → Json → Prop}
    {decode : Decoder Empty α} (hp : ⟨name, [], [.arr []], ListStep step⟩ ∈ all)
    (h : Unseen step decode) :
    Follows .written all [⟨name, [], [.arr []], ListStep step⟩]
      (defaulted name [] (Json.list decode)) Eq := by
  refine follows_field hapart hp (.inl rfl) (.same h.list fun v hv xs hxs => ?_)
  rw [List.mem_singleton.mp hv]
  exact congrArg Except.ok (Option.some.inj hxs)

/-- A value that may be `null`, and is when it is left out. -/
theorem follows_nullable (hapart : Apart all) {name : String} {step : Json → Json → Prop}
    {decode : Decoder Empty α} (hp : ⟨name, [], [.null], step⟩ ∈ all)
    (h : Unseen step fun v => Json.optional decode (stage.value v)) :
    Follows stage all [⟨name, [], [.null], step⟩] (optional name decode) Eq := by
  refine follows_field hapart hp (.inr rfl) (.same h fun v hv o ho => ?_)
  rw [List.mem_singleton.mp hv]
  obtain rfl := Option.some.inj ho
  cases stage <;> rfl

theorem follows_optional (hapart : Apart all) {name : String} (hp : .plain name [] [.null] ∈ all)
    (decode : Decoder Empty α) :
    Follows stage all [.plain name [] [.null]] (optional name decode) Eq :=
  follows_nullable hapart hp fun _ _ _ h => h.elim

/-! ### Records from parts -/

theorem Follows.map {parts : List Part} {r : Record Empty α} {R : α → α → Prop}
    {R' : β → β → Prop} (h : Follows stage all parts r R) (f : α → β)
    (hf : ∀ x x', R x x' → R' (f x) (f x')) : Follows stage all parts (f <$> r) R' := by
  refine ⟨h.owns.map f, ?_, ?_⟩
  · intro entries entries' y hstep hread
    obtain ⟨x, hx, rfl⟩ := ofEntries_map.mp hread
    obtain ⟨x', hx', hR⟩ := h.entries hstep hx
    exact ⟨f x', ofEntries_map.mpr ⟨x', hx', rfl⟩, hf x x' hR⟩
  · intro others items items' rest y hstep htake
    obtain ⟨x, hx, rfl⟩ := take_map.mp htake
    obtain ⟨x', left, left', hrest, hx', hR, hleft⟩ := h.items hstep hx
    exact ⟨f x', left, left', hrest, take_map.mpr ⟨x', hx', rfl⟩, hf x x' hR, hleft⟩

theorem Follows.seq {parts parts' : List Part} {f : Record Empty (α → β)} {r : Record Empty α}
    {Rf : (α → β) → (α → β) → Prop} {R : α → α → Prop} {R' : β → β → Prop}
    (hf : Follows stage all parts f Rf) (hr : Follows stage all parts' r R)
    (hdisjoint : ∀ k ∈ parts.flatMap Part.keys, k ∉ parts'.flatMap Part.keys)
    (happly : ∀ g g' x x', Rf g g' → R x x' → R' (g x) (g' x')) :
    Follows stage all (parts ++ parts') (f <*> r) R' := by
  refine ⟨?_, ?_, ?_⟩
  · rw [List.flatMap_append]
    exact hf.owns.seq hr.owns
  · intro entries entries' y hstep hread
    obtain ⟨g, x, hg, hx, rfl⟩ := (ofEntries_seq hf.owns hr.owns hdisjoint).mp hread
    obtain ⟨g', hg', hRf⟩ := hf.entries hstep hg
    obtain ⟨x', hx', hR⟩ := hr.entries hstep hx
    exact ⟨g' x', (ofEntries_seq hf.owns hr.owns hdisjoint).mpr ⟨g', x', hg', hx', rfl⟩,
      happly g g' x x' hRf hR⟩
  · intro others items items' rest y hstep htake
    obtain ⟨g, x, mid, hg, hx, rfl⟩ := take_seq.mp htake
    rw [List.append_assoc] at hstep
    obtain ⟨g', left, left', rfl, hg', hRf, hleft⟩ := hf.items hstep hg
    obtain ⟨x', last, last', hrest, hx', hR, hlast⟩ := hr.items hleft hx
    exact ⟨g' x', last, last', hrest, take_seq.mpr ⟨g', x', _, hg', hx', rfl⟩,
      happly g g' x x' hRf hR, hlast⟩

/-- **Records.** -/
theorem Follows.decode {r : Record Empty α} {R : α → α → Prop} (h : Follows stage all all r R)
    (name : String) {v v' : Json} {x : α} (hstep : RecordStep all v v')
    (hread : r.decode name (stage.value v) = .ok x) :
    ∃ x', r.decode name (stage.value v') = .ok x' ∧ R x x' := by
  cases hstep with
  | object hentries =>
    rw [stage.value_obj] at hread ⊢
    exact h.entries hentries hread
  | array hitems =>
    rw [stage.value_arr] at hread ⊢
    rw [← List.append_nil all] at hitems
    obtain ⟨x', left, left', hrest, htake, hR, hleft⟩ := h.items hitems (ofItems_eq_ok.mp hread)
    obtain rfl := List.map_eq_nil_iff.mp hrest.symm
    obtain rfl : left' = [] := by cases hleft <;> rfl
    exact ⟨x', ofItems_eq_ok.mpr htake, hR⟩

/-! ### The same value -/

theorem Follows.map_same {parts : List Part} {r : Record Empty α} (h : Follows stage all parts r Eq)
    (f : α → β) : Follows stage all parts (f <$> r) Eq :=
  h.map f fun _ _ => congrArg f

theorem Follows.seq_same {parts parts' : List Part} {f : Record Empty (α → β)}
    {r : Record Empty α} (hf : Follows stage all parts f Eq) (hr : Follows stage all parts' r Eq)
    (hdisjoint : ∀ k ∈ parts.flatMap Part.keys, k ∉ parts'.flatMap Part.keys) :
    Follows stage all (parts ++ parts') (f <*> r) Eq :=
  hf.seq hr hdisjoint fun _ _ _ _ => congr

theorem Follows.unseen {r : Record Empty α} (h : Follows stage all all r Eq) (name : String) :
    Unseen (RecordStep all) fun v => r.decode name (stage.value v) := by
  intro v v' x hstep hread
  obtain ⟨x', hx', rfl⟩ := h.decode name hstep hread
  exact hx'

end

end Record

end EmbedUI.Json
