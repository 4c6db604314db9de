import EmbedUI.Json.Record
import EmbedUI.Proofs.Json.Canonical

/-!
# What a record reads

A record takes the entries of an object as they come and keeps what it has taken in slots. For an
object with distinct keys none of that shows: a field is what is found under its name, or its
default, and a record of several fields reads each of them on its own, as long as no two of them
answer to the same key (`Record.Owns`). The same record reads an array field by field from the
front.

The statements are about success, because which of several problems is reported does depend on the
order of the entries.
-/

namespace EmbedUI.Json

theorem string_eq_ok {v : Json} {s : String} : string v = .ok s ↔ v = .str s := by
  cases v with
  | str t => simp [string]
  | _ => simp [string]

theorem oneOf_eq_ok {α : Type} {known : List (String × α)} {v : Json} {a : α} :
    oneOf known v = .ok a ↔
      ∃ name, variant known name = .ok a ∧ (v = .str name ∨ v = .obj [(name, .null)]) := by
  match v with
  | .str name => simp [oneOf, eq_comm]
  | .obj [] => simp [oneOf]
  | .obj [(key, v)] =>
    have hone : oneOf known (.obj [(key, v)] : Json) =
        (variant known key).bind fun a => (unit v).map fun _ => a := by
      rw [oneOf, keyFault?_eq_none]
      rfl
    rw [hone]
    cases hvariant : variant known key with
    | error fault => simp [Except.bind, hvariant]
    | ok b => cases v <;> simp [Except.bind, Except.map, unit, hvariant]
  | .obj (_ :: second :: rest) =>
    -- the keys of a value are counted before they are looked at
    have hmany : ∀ first, oneOf known (.obj (first :: second :: rest) : Json) = .error .notOneKey :=
      fun first => rfl
    simp [hmany]
  | .num _ | .null | .bool _ | .arr _ => simp [oneOf]

namespace Record

variable {α β : Type}

/-! ## Filling the slots -/

/-- A record takes exactly the entries under certain keys, whatever it has taken before. -/
def Owns (r : Record Empty α) (keys : List String) : Prop :=
  ∀ slots key v, (r.offer slots key v).isSome = decide (key ∈ keys)

theorem owns_field (name : String) (absent : Option α) (decode : Decoder Empty α) :
    (field name [] absent decode).Owns [name] := by
  intro slot key v
  -- a second entry under the name is taken too, and is an error then
  by_cases hk : key = name
  · simp [field, hk]
  · simp [field, hk]

theorem owns_required (name : String) (decode : Decoder Empty α) :
    (required name decode).Owns [name] :=
  owns_field name none decode

theorem owns_defaulted (name : String) (absent : α) (decode : Decoder Empty α) :
    (defaulted name absent decode).Owns [name] :=
  owns_field name (some absent) decode

theorem Owns.map {r : Record Empty α} {keys : List String} (h : r.Owns keys) (f : α → β) :
    (f <$> r).Owns keys :=
  h

/-- The slots of two groups of fields. -/
def pair {r : Record Empty α} {s : Record Empty β} (a : r.Slots) (b : s.Slots) :
    (r.both s).Slots :=
  (a, b)

theorem offer_both_some {r : Record Empty α} (s : Record Empty β) {a : r.Slots} (b : s.Slots)
    {key : String} {v : Json} {taken : Except DecodeError r.Slots}
    (h : r.offer a key v = some taken) :
    (r.both s).offer (pair a b) key v = some (taken.map fun a => pair a b) := by
  dsimp only [both, pair]
  rw [h]

theorem offer_both_none {r : Record Empty α} (s : Record Empty β) {a : r.Slots} (b : s.Slots)
    {key : String} {v : Json} (h : r.offer a key v = none) :
    (r.both s).offer (pair a b) key v =
      (s.offer b key v).map fun taken => taken.map fun b => pair a b := by
  dsimp only [both, pair]
  rw [h]

theorem Owns.both {r : Record Empty α} {s : Record Empty β} {ks ls : List String}
    (hr : r.Owns ks) (hs : s.Owns ls) : (r.both s).Owns (ks ++ ls) := by
  rintro ⟨a, b⟩ key v
  have hleft := hr a key v
  show ((r.both s).offer (pair a b) key v).isSome = _
  -- the first group is asked first
  cases hoffer : r.offer a key v with
  | some taken =>
    rw [hoffer] at hleft
    have hmem : key ∈ ks := by simpa using hleft.symm
    rw [offer_both_some s b hoffer]
    simp [hmem]
  | none =>
    rw [hoffer] at hleft
    have hmem : key ∉ ks := by simpa using hleft.symm
    rw [offer_both_none s b hoffer, Option.isSome_map, hs b key v]
    simp [hmem]

/-- A value has no flaws, so an entry is either taken or passed over. -/
theorem fill_cons (r : Record Empty α) (slots : r.Slots) (key : String) (v : Json)
    (rest : List (String × Json)) :
    r.fill slots ((key, v) :: rest) =
      match r.offer slots key v with
      | some (.ok taken) => r.fill taken rest
      | some (.error e) => .error e
      | none => r.fill slots rest := by
  rw [fill, keyFault?_eq_none]
  cases r.offer slots key v with
  | none => rw [skip_eq_ok]; rfl
  | some taken => cases taken <;> rfl

theorem fill_cons_skip {r : Record Empty α} {slots : r.Slots} {key : String} {v : Json}
    (rest : List (String × Json)) (h : r.offer slots key v = none) :
    r.fill slots ((key, v) :: rest) = r.fill slots rest := by
  rw [fill_cons, h]

theorem fill_cons_take {r : Record Empty α} {slots : r.Slots} {key : String} {v : Json}
    (rest : List (String × Json)) {taken : r.Slots}
    (h : r.offer slots key v = some (.ok taken)) :
    r.fill slots ((key, v) :: rest) = r.fill taken rest := by
  rw [fill_cons, h]

theorem fill_cons_error {r : Record Empty α} {slots : r.Slots} {key : String} {v : Json}
    (rest : List (String × Json)) {e : DecodeError}
    (h : r.offer slots key v = some (.error e)) :
    r.fill slots ((key, v) :: rest) = .error e := by
  rw [fill_cons, h]

theorem pair_inj {r : Record Empty α} {s : Record Empty β} {a a' : r.Slots} {b b' : s.Slots} :
    (pair a b : (r.both s).Slots) = pair a' b' ↔ a = a' ∧ b = b' :=
  Prod.mk.injEq .. ▸ Iff.rfl

/-- Two groups of fields are filled independently of each other. -/
theorem fill_both {r : Record Empty α} {s : Record Empty β} {ks ls : List String}
    (hr : r.Owns ks) (hs : s.Owns ls) (hdisjoint : ∀ k ∈ ks, k ∉ ls)
    {entries : List (String × Json)} {a a' : r.Slots} {b b' : s.Slots} :
    (r.both s).fill (pair a b) entries = .ok (pair a' b') ↔
      r.fill a entries = .ok a' ∧ s.fill b entries = .ok b' := by
  induction entries generalizing a b with
  | nil =>
    rw [fill, fill, fill, Except.ok.injEq, Except.ok.injEq, Except.ok.injEq]
    exact pair_inj
  | cons entry rest ih =>
    obtain ⟨key, v⟩ := entry
    have hleft := hr a key v
    have hright := hs b key v
    cases hoffer : r.offer a key v with
    | some taken =>
      -- the first group takes the entry, so the second one passes it over
      rw [hoffer] at hleft
      have hmem : key ∉ ls := hdisjoint key (by simpa using hleft.symm)
      have hnone : s.offer b key v = none := by simpa [hmem] using hright
      have hboth := offer_both_some s b hoffer
      rw [fill_cons_skip rest hnone]
      cases taken with
      | error e =>
        rw [fill_cons_error rest hoffer, fill_cons_error rest hboth]
        simp
      | ok a₁ =>
        rw [fill_cons_take rest hoffer, fill_cons_take rest hboth]
        exact ih
    | none =>
      have hboth := offer_both_none s b hoffer
      rw [fill_cons_skip rest hoffer]
      cases hoffer' : s.offer b key v with
      | none =>
        rw [hoffer'] at hboth
        rw [fill_cons_skip rest hoffer', fill_cons_skip rest hboth]
        exact ih
      | some taken =>
        rw [hoffer'] at hboth
        cases taken with
        | error e =>
          rw [fill_cons_error rest hoffer', fill_cons_error rest hboth]
          simp
        | ok b₁ =>
          rw [fill_cons_take rest hoffer', fill_cons_take rest hboth]
          exact ih

/-! ## Reading an object -/

theorem ofEntries_eq_ok {r : Record Empty α} {entries : List (String × Json)} {v : α} :
    r.ofEntries entries = .ok v ↔
      ∃ slots, r.fill r.empty entries = .ok slots ∧ r.finish slots = .ok v := by
  unfold ofEntries
  cases r.fill r.empty entries with
  | error e => simp [bind, Except.bind]
  | ok slots => simp [bind, Except.bind]

theorem map_eq_ok {ε : Type} {x : Except ε α} {f : α → β} {v : β} :
    x.map f = .ok v ↔ ∃ a, x = .ok a ∧ f a = v := by
  cases x <;> simp [Except.map]

theorem fill_map {r : Record Empty α} (f : α → β) (slots : r.Slots)
    (entries : List (String × Json)) :
    (f <$> r).fill slots entries = r.fill slots entries := by
  induction entries generalizing slots with
  | nil => rfl
  | cons entry rest ih =>
    obtain ⟨key, v⟩ := entry
    have hsame : (f <$> r).offer slots key v = r.offer slots key v := rfl
    cases hoffer : r.offer slots key v with
    | none =>
      rw [fill_cons_skip rest hoffer, fill_cons_skip rest (hsame.trans hoffer)]
      exact ih slots
    | some taken =>
      cases taken with
      | error e =>
        rw [fill_cons_error rest hoffer, fill_cons_error rest (hsame.trans hoffer)]
        rfl
      | ok slots' =>
        rw [fill_cons_take rest hoffer, fill_cons_take rest (hsame.trans hoffer)]
        exact ih slots'

theorem ofEntries_map {r : Record Empty α} {f : α → β} {entries : List (String × Json)} {v : β} :
    (f <$> r).ofEntries entries = .ok v ↔ ∃ a, r.ofEntries entries = .ok a ∧ f a = v := by
  rw [ofEntries_eq_ok]
  constructor
  · rintro ⟨slots, hslots, hfinish⟩
    obtain ⟨a, ha, hfa⟩ := map_eq_ok.mp hfinish
    exact ⟨a, ofEntries_eq_ok.mpr ⟨slots, (fill_map f _ entries).symm.trans hslots, ha⟩, hfa⟩
  · rintro ⟨a, ha, hfa⟩
    obtain ⟨slots, hslots, hfinish⟩ := ofEntries_eq_ok.mp ha
    exact ⟨slots, (fill_map f _ entries).trans hslots, map_eq_ok.mpr ⟨a, hfinish, hfa⟩⟩

theorem finish_both {r : Record Empty α} {s : Record Empty β} {a : r.Slots} {b : s.Slots}
    {v : α} {w : β} :
    (r.both s).finish (pair a b) = .ok (v, w) ↔ r.finish a = .ok v ∧ s.finish b = .ok w := by
  show ((r.finish a).bind fun x => (s.finish b).bind fun y => .ok (x, y)) = _ ↔ _
  cases r.finish a with
  | error e => simp [Except.bind]
  | ok x =>
    cases s.finish b with
    | error e => simp [Except.bind]
    | ok y => simp [Except.bind]

theorem ofEntries_both {r : Record Empty α} {s : Record Empty β} {ks ls : List String}
    (hr : r.Owns ks) (hs : s.Owns ls) (hdisjoint : ∀ k ∈ ks, k ∉ ls)
    {entries : List (String × Json)} {v : α} {w : β} :
    (r.both s).ofEntries entries = .ok (v, w) ↔
      r.ofEntries entries = .ok v ∧ s.ofEntries entries = .ok w := by
  rw [ofEntries_eq_ok, ofEntries_eq_ok, ofEntries_eq_ok]
  constructor
  · rintro ⟨⟨a, b⟩, hfill, hfinish⟩
    obtain ⟨hfill₁, hfill₂⟩ := (fill_both hr hs hdisjoint).mp hfill
    obtain ⟨hfinish₁, hfinish₂⟩ := finish_both.mp hfinish
    exact ⟨⟨a, hfill₁, hfinish₁⟩, ⟨b, hfill₂, hfinish₂⟩⟩
  · rintro ⟨⟨a, hfill₁, hfinish₁⟩, ⟨b, hfill₂, hfinish₂⟩⟩
    exact ⟨pair a b, (fill_both hr hs hdisjoint).mpr ⟨hfill₁, hfill₂⟩,
      finish_both.mpr ⟨hfinish₁, hfinish₂⟩⟩

/-- **Fields are read independently of each other.** -/
theorem ofEntries_seq {f : Record Empty (α → β)} {r : Record Empty α} {ks ls : List String}
    (hf : f.Owns ks) (hr : r.Owns ls) (hdisjoint : ∀ k ∈ ks, k ∉ ls)
    {entries : List (String × Json)} {v : β} :
    (f <*> r).ofEntries entries = .ok v ↔
      ∃ g a, f.ofEntries entries = .ok g ∧ r.ofEntries entries = .ok a ∧ g a = v := by
  show ((fun p : (α → β) × α => p.1 p.2) <$> f.both r).ofEntries entries = .ok v ↔ _
  rw [ofEntries_map]
  constructor
  · rintro ⟨⟨g, a⟩, hboth, hga⟩
    obtain ⟨hg, ha⟩ := (ofEntries_both hf hr hdisjoint).mp hboth
    exact ⟨g, a, hg, ha, hga⟩
  · rintro ⟨g, a, hg, ha, hga⟩
    exact ⟨(g, a), (ofEntries_both hf hr hdisjoint).mpr ⟨hg, ha⟩, hga⟩

/-- A slot that was filled stays as it is while its name does not turn up again. -/
theorem fill_field_absent {name : String} {absent : Option α} {decode : Decoder Empty α}
    {entries : List (String × Json)} (h : name ∉ entries.map Prod.fst) (slot : Option α) :
    (field name [] absent decode).fill slot entries = .ok slot := by
  induction entries with
  | nil => rfl
  | cons entry rest ih =>
    rw [List.map_cons, List.mem_cons, not_or] at h
    have hskip : (field name [] absent decode).offer slot entry.1 entry.2 = none := by
      simp [field, Ne.symm h.1]
    exact (fill_cons_skip rest hskip).trans (ih h.2)

theorem fill_field {name : String} {absent : Option α} {decode : Decoder Empty α}
    {entries : List (String × Json)} (hnodup : (entries.map Prod.fst).Nodup) :
    (field name [] absent decode).fill none entries =
      match lookup name entries with
      | some v => (decode v).map some
      | none => .ok none := by
  induction entries with
  | nil => rfl
  | cons entry rest ih =>
    obtain ⟨key, v⟩ := entry
    obtain ⟨hfresh, hrest⟩ := List.nodup_cons.mp hnodup
    by_cases hk : key = name
    · -- the name does not turn up again, so what is taken here stays
      subst hk
      have htake : (field key [] absent decode).offer none key v = some ((decode v).map some) := by
        simp [field]
      rw [lookup_cons_self]
      cases hdecode : decode v with
      | error e =>
        rw [hdecode] at htake
        show _ = (decode v).map some
        rw [hdecode]
        exact fill_cons_error rest htake
      | ok w =>
        rw [hdecode] at htake
        show _ = (decode v).map some
        rw [hdecode]
        exact (fill_cons_take rest htake).trans (fill_field_absent hfresh (some w))
    · have hskip : (field name [] absent decode).offer none key v = none := by
        simp [field, hk]
      rw [lookup_cons_ne hk]
      exact (fill_cons_skip rest hskip).trans (ih hrest)

/-- **A field is what is found under its name, or its default.** -/
theorem ofEntries_field {name : String} {absent : Option α} {decode : Decoder Empty α}
    {entries : List (String × Json)} (hnodup : (entries.map Prod.fst).Nodup) {w : α} :
    (field name [] absent decode).ofEntries entries = .ok w ↔
      (∃ v, lookup name entries = some v ∧ decode v = .ok w) ∨
        (lookup name entries = none ∧ absent = some w) := by
  rw [ofEntries_eq_ok]
  show (∃ slot, (field name [] absent decode).fill none entries = .ok slot ∧ _) ↔ _
  rw [fill_field hnodup]
  -- a field that was not found falls back on its default, if it has one
  cases lookup name entries with
  | none =>
    cases absent with
    | none => simp [field]
    | some a => simp [field]
  | some v =>
    cases hdecode : decode v with
    | error e => simp [Except.map, hdecode]
    | ok a => simp [Except.map, hdecode, field]

theorem ofEntries_required {name : String} {decode : Decoder Empty α}
    {entries : List (String × Json)} (hnodup : (entries.map Prod.fst).Nodup) {w : α} :
    (required name decode).ofEntries entries = .ok w ↔
      ∃ v, lookup name entries = some v ∧ decode v = .ok w := by
  rw [required, ofEntries_field hnodup]
  simp

theorem ofEntries_defaulted {name : String} {absent : α} {decode : Decoder Empty α}
    {entries : List (String × Json)} (hnodup : (entries.map Prod.fst).Nodup) {w : α} :
    (defaulted name absent decode).ofEntries entries = .ok w ↔
      (∃ v, lookup name entries = some v ∧ decode v = .ok w) ∨
        (lookup name entries = none ∧ w = absent) := by
  rw [defaulted, ofEntries_field hnodup, Option.some.injEq]
  simp only [eq_comm]

/-! ## Reading an array -/

theorem ofItems_eq_ok {r : Record Empty α} {wanted : String} {items : List Json} {v : α} :
    r.ofItems wanted items = .ok v ↔ r.take items = .ok (v, []) := by
  unfold ofItems
  split
  · next h => simp [h]
  · next h => simp [h]
  · next h => simp [h]
  · next h => simp [h]

theorem take_map {r : Record Empty α} {f : α → β} {items rest : List Json} {v : β} :
    (f <$> r).take items = .ok (v, rest) ↔ ∃ a, r.take items = .ok (a, rest) ∧ f a = v := by
  show (r.take items).map (fun (a, rest) => (f a, rest)) = .ok (v, rest) ↔ _
  rw [map_eq_ok]
  constructor
  · rintro ⟨⟨a, rest'⟩, htake, heq⟩
    cases heq
    exact ⟨a, htake, rfl⟩
  · rintro ⟨a, htake, rfl⟩
    exact ⟨(a, rest), htake, rfl⟩

theorem take_seq {f : Record Empty (α → β)} {r : Record Empty α} {items rest : List Json}
    {v : β} :
    (f <*> r).take items = .ok (v, rest) ↔
      ∃ g a mid, f.take items = .ok (g, mid) ∧ r.take mid = .ok (a, rest) ∧ g a = v := by
  show ((fun p : (α → β) × α => p.1 p.2) <$> f.both r).take items = .ok (v, rest) ↔ _
  have hboth : (f.both r).take items =
      (f.take items).bind fun x => (r.take x.2).bind fun y => .ok ((x.1, y.1), y.2) := rfl
  rw [take_map, hboth]
  cases f.take items with
  | error e => simp [Except.bind]
  | ok x =>
    obtain ⟨g, mid⟩ := x
    cases hr : r.take mid with
    | error e => simp [Except.bind, hr]
    | ok y =>
      obtain ⟨a, rest'⟩ := y
      simp only [Except.bind, hr]
      constructor
      · rintro ⟨⟨g', a'⟩, heq, hga⟩
        cases heq
        exact ⟨g, a, mid, rfl, hr, hga⟩
      · rintro ⟨g', a', mid', hg, ha, hga⟩
        cases hg
        rw [hr] at ha
        cases ha
        exact ⟨(g, a), rfl, hga⟩

theorem decode_map {r : Record Empty α} {f : α → β} {name : String} {t : Json} {v : β} :
    (f <$> r).decode name t = .ok v ↔ ∃ a, r.decode name t = .ok a ∧ f a = v := by
  cases t with
  | obj entries => exact ofEntries_map
  | arr items =>
    simp only [decode, ofItems_eq_ok]
    exact take_map
  | _ => simp [decode]

theorem take_required {name : String} {decode : Decoder Empty α} {items rest : List Json}
    {w : α} :
    (required name decode).take items = .ok (w, rest) ↔
      ∃ v, items = v :: rest ∧ decode v = .ok w := by
  cases items with
  | nil => simp [required, field]
  | cons v others =>
    cases hdecode : decode v with
    | error e => simp [required, field, hdecode]
    | ok a =>
      simp only [required, field, hdecode, Except.ok.injEq, Prod.mk.injEq]
      constructor
      · rintro ⟨rfl, rfl⟩
        exact ⟨v, rfl, hdecode⟩
      · rintro ⟨v', hitems, hv'⟩
        cases hitems
        rw [hdecode] at hv'
        exact ⟨Except.ok.inj hv', rfl⟩

theorem take_defaulted {name : String} {absent : α} {decode : Decoder Empty α}
    {items rest : List Json} {w : α} :
    (defaulted name absent decode).take items = .ok (w, rest) ↔
      (∃ v, items = v :: rest ∧ decode v = .ok w) ∨
        (items = [] ∧ rest = [] ∧ w = absent) := by
  cases items with
  | nil => simp [defaulted, field, eq_comm, and_comm]
  | cons v others =>
    have hsame : (defaulted name absent decode).take (v :: others) =
        (required name decode).take (v :: others) := rfl
    rw [hsame, take_required]
    simp

end Record

end EmbedUI.Json
