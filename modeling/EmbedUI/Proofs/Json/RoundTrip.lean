import EmbedUI.Proofs.Json.Kept
import EmbedUI.Proofs.Json.RecordReading

/-!
# Reading back what was written

What is written for a record is an object, and once that is held its keys are in another order. The
record is read back all the same, because each field looks for its own key. `Record.Finds` says what
a record reads from entries; it is put together field by field in the order of the declaration, and
what is asked of a single field is what stands under its name in the object as it was written.

Which entries were left out is part of this: a field that may be missing is read as missing when its
entry is not there, and a second name for a field does no harm as long as nothing is called by it.
-/

namespace EmbedUI.Json

variable {α β : Type}

/-! ## Entries that may be left out -/

theorem lookup_optionalEntry (key name : String) (o : Option Json) :
    lookup key (optionalEntry name o) = if name = key then o else none := by
  cases o with
  | none => simp [optionalEntry, lookup]
  | some v => rfl

theorem keys_optionalEntry (name : String) (o : Option Json) :
    (optionalEntry name o).map Prod.fst = if o.isSome then [name] else [] := by
  cases o <;> rfl

/-! ## Plain values and lists -/

theorem float_ofFloat {v : Float} (h : v.isFinite = true) :
    float (ofFloat v).kept = .ok v := by
  rw [ofFloat, dif_pos h]
  rfl

theorem list_kept {decode : Decoder Empty α} {encode : α → Json} {xs : List α}
    (h : ∀ x ∈ xs, decode (encode x).kept = .ok x) :
    list decode (kept (.arr (xs.map encode))) = .ok xs := by
  rw [kept_arr, List.map_map]
  show listItems decode (xs.map fun x => (encode x).kept) = .ok xs
  induction xs with
  | nil => rfl
  | cons x rest ih =>
    obtain ⟨hx, hrest⟩ := List.forall_mem_cons.mp h
    rw [List.map_cons, listItems, hx, ih hrest]
    rfl

/-- An array is not `null`, so a value that may be missing is there. -/
theorem optional_kept_arr {decode : Decoder Empty α} {items : List Json} {x : α}
    (h : decode (kept (.arr items)) = .ok x) :
    Json.optional decode (kept (.arr items)) = .ok (some x) := by
  rw [kept_arr] at h ⊢
  exact Record.map_eq_ok.mpr ⟨x, h, rfl⟩

theorem list_ofStrings (texts : List String) :
    list string (ofStrings texts).kept = .ok texts :=
  list_kept fun _ _ => rfl

theorem list_floats {values : List Float} (h : ∀ v ∈ values, v.isFinite = true) :
    list float (kept (.arr (values.map ofFloat))) = .ok values :=
  list_kept fun v hv => float_ofFloat (h v hv)

namespace Record

/-! ## Second names -/

theorem owns_field_aliases (name : String) (aliases : List String) (absent : Option α)
    (decode : Decoder Empty α) : (field name aliases absent decode).Owns (name :: aliases) := by
  intro slot key v
  by_cases hk : key = name ∨ key ∈ aliases
  · simp [field, hk]
  · simp [field, hk]

theorem fill_field_aliases {name : String} {aliases : List String} {absent : Option α}
    {decode : Decoder Empty α} {entries : List (String × Json)}
    (h : ∀ a ∈ aliases, a ∉ entries.map Prod.fst) (slot : Option α) :
    (field name aliases absent decode).fill slot entries =
      (field name [] absent decode).fill slot entries := by
  induction entries generalizing slot with
  | nil => rfl
  | cons entry rest ih =>
    obtain ⟨key, v⟩ := entry
    have hkey : key ∉ aliases := fun hmem => h key hmem List.mem_cons_self
    have hrest : ∀ a ∈ aliases, a ∉ rest.map Prod.fst := fun a ha hmem =>
      h a ha (List.mem_cons_of_mem _ hmem)
    have hoffer : (field name aliases absent decode).offer slot key v =
        (field name [] absent decode).offer slot key v := by
      simp [field, hkey]
    cases htaken : (field name [] absent decode).offer slot key v with
    | none =>
      rw [fill_cons_skip rest htaken]
      exact (fill_cons_skip rest (hoffer.trans htaken)).trans (ih hrest slot)
    | some taken =>
      cases taken with
      | error e =>
        rw [fill_cons_error rest htaken]
        exact fill_cons_error rest (hoffer.trans htaken)
      | ok slot' =>
        rw [fill_cons_take rest htaken]
        exact (fill_cons_take rest (hoffer.trans htaken)).trans (ih hrest slot')

theorem ofEntries_field_aliases {name : String} {aliases : List String} {absent : Option α}
    {decode : Decoder Empty α} {entries : List (String × Json)}
    (h : ∀ a ∈ aliases, a ∉ entries.map Prod.fst) :
    (field name aliases absent decode).ofEntries entries =
      (field name [] absent decode).ofEntries entries := by
  have hfill : (field name aliases absent decode).fill none entries =
      (field name [] absent decode).fill none entries := fill_field_aliases h none
  show ((field name aliases absent decode).fill none entries).bind _ =
    ((field name [] absent decode).fill none entries).bind _
  rw [hfill]
  rfl

/-! ## What a record finds -/

theorem Owns.seq {f : Record Empty (α → β)} {r : Record Empty α} {ks ls : List String}
    (hf : f.Owns ks) (hr : r.Owns ls) : (f <*> r).Owns (ks ++ ls) :=
  (hf.both hr).map _

/-- A record that answers to some keys reads a value from entries. -/
structure Finds (r : Record Empty α) (keys : List String) (entries : List (String × Json))
    (x : α) : Prop where
  owns : r.Owns keys
  reads : r.ofEntries entries = .ok x

section
variable {entries : List (String × Json)}

theorem Finds.map {r : Record Empty α} {keys : List String} {x : α} (h : r.Finds keys entries x)
    (f : α → β) : (f <$> r).Finds keys entries (f x) :=
  ⟨h.owns.map f, ofEntries_map.mpr ⟨x, h.reads, rfl⟩⟩

theorem Finds.seq {f : Record Empty (α → β)} {r : Record Empty α} {ks ls : List String}
    {g : α → β} {x : α} (hf : f.Finds ks entries g) (hr : r.Finds ls entries x)
    (hdisjoint : ∀ k ∈ ks, k ∉ ls) : (f <*> r).Finds (ks ++ ls) entries (g x) where
  owns := hf.owns.seq hr.owns
  reads := (ofEntries_seq hf.owns hr.owns hdisjoint).mpr ⟨g, x, hf.reads, hr.reads, rfl⟩

theorem Finds.decode {r : Record Empty α} {keys : List String} {x : α}
    (h : r.Finds keys (keptEntries [] entries) x) (name : String) :
    r.decode name (kept (.obj entries)) = .ok x :=
  h.reads

variable (hnodup : (entries.map Prod.fst).Nodup)
include hnodup

theorem finds_field (name : String) (aliases : List String) (absent : Option α)
    {decode : Decoder Empty α} {v : Json} {x : α}
    (haliases : ∀ a ∈ aliases, a ∉ entries.map Prod.fst) (hv : lookup name entries = some v)
    (hx : decode v.kept = .ok x) :
    (field name aliases absent decode).Finds (name :: aliases) (keptEntries [] entries) x := by
  -- nothing is called by a second name, so only the first one counts
  have hheld : ∀ a ∈ aliases, a ∉ (keptEntries [] entries).map Prod.fst := by
    intro a ha hmem
    have hfound : lookup a (keptEntries [] entries) = (lookup a entries).map kept :=
      lookup_held hnodup
    rw [lookup_eq_none_iff.mpr (haliases a ha)] at hfound
    exact absurd hmem (lookup_eq_none_iff.mp hfound)
  refine ⟨owns_field_aliases name aliases absent decode, ?_⟩
  rw [ofEntries_field_aliases hheld, ofEntries_field (nodup_held entries), lookup_held hnodup, hv]
  exact Or.inl ⟨v.kept, rfl, hx⟩

theorem finds_required (name : String) (decode : Decoder Empty α) {v : Json} {x : α}
    (hv : lookup name entries = some v) (hx : decode v.kept = .ok x) :
    (required name decode).Finds [name] (keptEntries [] entries) x :=
  finds_field hnodup name [] none (fun _ ha => nomatch ha) hv hx

theorem finds_defaulted (name : String) (absent : α) (decode : Decoder Empty α) {v : Json} {x : α}
    (hv : lookup name entries = some v) (hx : decode v.kept = .ok x) :
    (defaulted name absent decode).Finds [name] (keptEntries [] entries) x :=
  finds_field hnodup name [] (some absent) (fun _ ha => nomatch ha) hv hx

theorem finds_default (name : String) (absent : α) (decode : Decoder Empty α)
    (hv : lookup name entries = none) :
    (defaulted name absent decode).Finds [name] (keptEntries [] entries) absent := by
  refine ⟨owns_defaulted name absent decode, ?_⟩
  rw [ofEntries_defaulted (nodup_held entries), lookup_held hnodup, hv]
  exact Or.inr ⟨rfl, rfl⟩

theorem finds_optional (name : String) (decode : Decoder Empty α) (encode : α → Json)
    {o : Option α} (hv : lookup name entries = o.map encode)
    (hx : ∀ x, o = some x → Json.optional decode (encode x).kept = .ok (some x)) :
    (optional name decode).Finds [name] (keptEntries [] entries) o := by
  cases o with
  | none => exact finds_default hnodup name none (Json.optional decode) hv
  | some x => exact finds_defaulted hnodup name none (Json.optional decode) hv (hx x rfl)

end

end Record

end EmbedUI.Json
