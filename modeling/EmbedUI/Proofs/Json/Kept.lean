import EmbedUI.Proofs.Json.Canonical

/-!
# Holding a value

`Json.kept` is what becomes of a value when it is held as data. It is what keeping it with a decoder
gives (`anyValue_eq_kept`), so it is canonical, and a canonical value stays as it is. Under a key
stands what stood there before: the order of the entries is all that changes, as long as no key is
repeated (`lookup_keptEntries`). Of entries with one key the last one stays
(`lookup_keptEntries_reverse`).
-/

namespace EmbedUI.Json

/-! ## Keeping is what a decoder does -/

mutual

theorem anyValue_eq_kept : ∀ v : Json, anyValue v = .ok v.kept
  | .null | .bool _ | .num _ | .str _ => rfl
  | .arr items => by
    rw [anyValue, anyItems_eq_keptItems items]
    rfl
  | .obj entries => by
    rw [anyValue, anyEntries_eq_keptEntries [] entries]
    rfl
  | .flaw e => e.elim

theorem anyItems_eq_keptItems : ∀ items : List Json, anyItems items = .ok (keptItems items)
  | [] => rfl
  | v :: rest => by
    rw [anyItems, anyValue_eq_kept v, anyItems_eq_keptItems rest]
    rfl

theorem anyEntries_eq_keptEntries : ∀ held entries : List (String × Json),
    anyEntries held entries = .ok (keptEntries held entries)
  | _, [] => rfl
  | held, (key, v) :: rest => by
    rw [anyEntries, anyValue_eq_kept v]
    exact anyEntries_eq_keptEntries (insert key v.kept held) rest

end

theorem canonical_kept (v : Json) : v.kept.Canonical :=
  canonical_of_anyValue v (anyValue_eq_kept v)

theorem kept_eq_self {v : Json} (h : v.Canonical) : v.kept = v := by
  have hany := anyValue_eq_ok v h
  rw [anyValue_eq_kept] at hany
  exact Except.ok.inj hany

/-! ## What stands where -/

theorem kept_arr (items : List Json) : kept (.arr items) = .arr (items.map kept) := by
  have hitems : keptItems items = items.map kept := by
    induction items with
    | nil => rfl
    | cons v rest ih => rw [keptItems, ih, List.map_cons]
  rw [kept, hitems]

theorem lookup_eq_none_iff {key : String} {entries : List (String × Json)} :
    lookup key entries = none ↔ key ∉ entries.map Prod.fst := by
  induction entries with
  | nil => simp [lookup]
  | cons entry rest ih =>
    obtain ⟨k, v⟩ := entry
    rw [List.map_cons, List.mem_cons, not_or]
    by_cases hk : k = key
    · subst hk
      rw [lookup_cons_self]
      simp
    · rw [lookup_cons_ne hk, ih]
      exact ⟨fun hrest => ⟨Ne.symm hk, hrest⟩, And.right⟩

theorem lookup_insert (key other : String) (v : Json) (held : List (String × Json)) :
    lookup other (insert key v held) = if key = other then some v else lookup other held := by
  induction held with
  | nil => rfl
  | cons entry rest ih =>
    obtain ⟨k, w⟩ := entry
    rw [insert]
    by_cases hlt : key < k
    · rw [if_pos hlt]
      rfl
    · rw [if_neg hlt]
      by_cases heq : key = k
      · -- the new entry takes the place of one with the same key
        subst heq
        rw [if_pos rfl, lookup, lookup]
        by_cases hkey : key = other
        · rw [if_pos hkey, if_pos hkey]
        · rw [if_neg hkey, if_neg hkey, if_neg hkey]
      · rw [if_neg heq, lookup, lookup, ih]
        by_cases hk : k = other
        · rw [if_pos hk, if_pos hk, if_neg (hk ▸ heq)]
        · rw [if_neg hk, if_neg hk]

/-- **Keeping moves entries and loses none.** -/
theorem lookup_keptEntries {key : String} {entries : List (String × Json)}
    (hnodup : (entries.map Prod.fst).Nodup) (held : List (String × Json)) :
    lookup key (keptEntries held entries) =
      ((lookup key entries).map kept).or (lookup key held) := by
  induction entries generalizing held with
  | nil => rfl
  | cons entry rest ih =>
    obtain ⟨k, v⟩ := entry
    obtain ⟨hfresh, hrest⟩ := List.nodup_cons.mp hnodup
    rw [keptEntries, ih hrest, lookup_insert]
    by_cases hk : k = key
    · -- no later entry has this key
      subst hk
      have hnone : lookup k rest = none := lookup_eq_none_iff.mpr hfresh
      rw [hnone, lookup_cons_self, if_pos rfl]
      rfl
    · rw [lookup_cons_ne hk, if_neg hk]

theorem lookup_append (key : String) (before after : List (String × Json)) :
    lookup key (before ++ after) = (lookup key before).or (lookup key after) := by
  induction before with
  | nil => rfl
  | cons entry rest ih =>
    obtain ⟨k, v⟩ := entry
    rw [List.cons_append, lookup, lookup, ih]
    split <;> rfl

/-- **Of entries with one key the last one stays.** -/
theorem lookup_keptEntries_reverse (key : String) (held entries : List (String × Json)) :
    lookup key (keptEntries held entries) =
      ((lookup key entries.reverse).map kept).or (lookup key held) := by
  induction entries generalizing held with
  | nil => rfl
  | cons entry rest ih =>
    obtain ⟨k, v⟩ := entry
    rw [keptEntries, ih, lookup_insert, List.reverse_cons, lookup_append, lookup, lookup]
    cases hrest : lookup key rest.reverse with
    | some w => rfl
    | none =>
      by_cases hk : k = key
      · rw [if_pos hk, if_pos hk]
        rfl
      · rw [if_neg hk, if_neg hk]
        rfl

/-- The entries of an object as they are held. -/
theorem lookup_held {key : String} {entries : List (String × Json)}
    (hnodup : (entries.map Prod.fst).Nodup) :
    lookup key (keptEntries [] entries) = (lookup key entries).map kept := by
  rw [lookup_keptEntries hnodup]
  exact Option.or_none

theorem nodup_held (entries : List (String × Json)) :
    ((keptEntries [] entries).map Prod.fst).Nodup :=
  (canonical_kept (.obj entries)).nodup

end EmbedUI.Json
