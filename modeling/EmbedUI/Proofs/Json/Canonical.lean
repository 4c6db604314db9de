import EmbedUI.Json.Decode
import Mathlib.Data.String.Basic

/-!
# Values as they are held

A value that is held as data has the keys of every object sorted and distinct (`Json.Canonical`).
Every value that was read from a text or kept by a decoder is of this form, and keeping such a value
changes nothing. That is what lets a decoder be described by what it looks up: under a key there is
one value at most, and the order of the entries does not matter.
-/

namespace EmbedUI.Json

/-! ## Canonical values -/

mutual

/-- The keys of every object are sorted and distinct. -/
def Canonical : Json → Prop
  | .arr items => CanonicalItems items
  | .obj entries => (entries.map Prod.fst).Pairwise (· < ·) ∧ CanonicalEntries entries
  | _ => True

def CanonicalItems : List Json → Prop
  | [] => True
  | v :: rest => Canonical v ∧ CanonicalItems rest

def CanonicalEntries : List (String × Json) → Prop
  | [] => True
  | (_, v) :: rest => Canonical v ∧ CanonicalEntries rest

end

theorem Canonical.nodup {entries : List (String × Json)} (h : Canonical (.obj entries)) :
    (entries.map Prod.fst).Nodup := by
  rw [Canonical] at h
  exact h.1.imp fun hlt => ne_of_lt hlt

/-! ## Looking up -/

theorem lookup_cons_self (key : String) (v : Json) (rest : List (String × Json)) :
    lookup key ((key, v) :: rest) = some v := by
  simp [lookup]

theorem lookup_cons_ne {key k : String} (hk : k ≠ key) (v : Json)
    (rest : List (String × Json)) : lookup key ((k, v) :: rest) = lookup key rest := by
  simp [lookup, hk]

theorem CanonicalEntries.lookup {key : String} {v : Json} {entries : List (String × Json)}
    (h : CanonicalEntries entries) (hv : lookup key entries = some v) : Canonical v := by
  induction entries with
  | nil => cases hv
  | cons entry rest ih =>
    obtain ⟨k, w⟩ := entry
    rw [CanonicalEntries] at h
    by_cases hk : k = key
    · subst hk
      rw [lookup_cons_self] at hv
      cases hv
      exact h.1
    · rw [lookup_cons_ne hk] at hv
      exact ih h.2 hv

/-! ## Nothing is missing in a value

A value has no flaws, so passing over it and setting it aside always succeed. -/

theorem keyFault?_eq_none (v : Json) : keyFault? v = none := by
  cases v with
  | flaw e => exact e.elim
  | _ => rfl

mutual

theorem skipFault?_eq_none : ∀ v : Json, skipFault? v = none
  | .null | .bool _ | .num _ | .str _ => rfl
  | .arr items => skipItems?_eq_none items
  | .obj entries => skipEntries?_eq_none entries
  | .flaw e => e.elim

theorem skipItems?_eq_none : ∀ items : List Json, skipItems? items = none
  | [] => rfl
  | v :: rest => by
    rw [skipItems?, skipFault?_eq_none v, skipItems?_eq_none rest]
    rfl

theorem skipEntries?_eq_none : ∀ entries : List (String × Json), skipEntries? entries = none
  | [] => rfl
  | (_, v) :: rest => by
    rw [skipEntries?, skipFault?_eq_none v, skipEntries?_eq_none rest]
    rfl

end

theorem skip_eq_ok (v : Json) : skip v = .ok () := by
  rw [skip, skipFault?_eq_none]

mutual

theorem hold_eq_ok : ∀ v : Json, hold v = .ok v
  | .null | .bool _ | .num _ | .str _ => rfl
  | .arr items => by
    rw [hold, holdItems_eq_ok items]
    rfl
  | .obj entries => by
    rw [hold, holdEntries_eq_ok entries]
    rfl
  | .flaw e => e.elim

theorem holdItems_eq_ok : ∀ items : List Json, holdItems items = .ok items
  | [] => rfl
  | v :: rest => by
    rw [holdItems, hold_eq_ok v, holdItems_eq_ok rest]
    rfl

theorem holdEntries_eq_ok : ∀ entries : List (String × Json), holdEntries entries = .ok entries
  | [] => rfl
  | (_, v) :: rest => by
    rw [holdEntries, hold_eq_ok v, holdEntries_eq_ok rest]
    rfl

end

/-! ## Keeping a canonical value changes nothing

The entries of a sorted object are inserted in order, so each of them lands at the end. -/

theorem insert_eq_append {key : String} {held : List (String × Json)} (v : Json)
    (h : ∀ k ∈ held.map Prod.fst, k < key) : insert key v held = held ++ [(key, v)] := by
  induction held with
  | nil => rfl
  | cons entry rest ih =>
    obtain ⟨k, w⟩ := entry
    have hk : k < key := h k List.mem_cons_self
    have hrest : ∀ k ∈ rest.map Prod.fst, k < key := fun k' hk' =>
      h k' (List.mem_cons_of_mem _ hk')
    rw [insert, if_neg (lt_asymm hk), if_neg (ne_of_gt hk), ih hrest]
    rfl

mutual

theorem anyValue_eq_ok : ∀ v : Json, Canonical v → anyValue v = .ok v
  | .null, _ | .bool _, _ | .num _, _ | .str _, _ => rfl
  | .arr items, h => by
    rw [Canonical] at h
    rw [anyValue, anyItems_eq_ok items h]
    rfl
  | .obj entries, h => by
    rw [Canonical] at h
    rw [anyValue, anyEntries_eq_ok [] entries (by simpa using h.1) h.2]
    rfl
  | .flaw e, _ => e.elim

theorem anyItems_eq_ok : ∀ items : List Json, CanonicalItems items → anyItems items = .ok items
  | [], _ => rfl
  | v :: rest, h => by
    rw [CanonicalItems] at h
    rw [anyItems, anyValue_eq_ok v h.1, anyItems_eq_ok rest h.2]
    rfl

theorem anyEntries_eq_ok : ∀ held entries : List (String × Json),
    ((held ++ entries).map Prod.fst).Pairwise (· < ·) → CanonicalEntries entries →
      anyEntries held entries = .ok (held ++ entries)
  | held, [], _, _ => by rw [anyEntries, List.append_nil]
  | held, (key, v) :: rest, hsorted, h => by
    rw [CanonicalEntries] at h
    have hlast : ∀ k ∈ held.map Prod.fst, k < key := by
      rw [List.map_append, List.pairwise_append] at hsorted
      exact fun k hk => hsorted.2.2 k hk key List.mem_cons_self
    rw [anyEntries, anyValue_eq_ok v h.1]
    show anyEntries (insert key v held) rest = _
    rw [insert_eq_append v hlast, anyEntries_eq_ok (held ++ [(key, v)]) rest _ h.2]
    · rw [List.append_assoc, List.singleton_append]
    · rw [List.append_assoc, List.singleton_append]
      exact hsorted

end

theorem anyObject_eq_ok {entries : List (String × Json)} (h : Canonical (.obj entries)) :
    anyObject (.obj entries : Json) = .ok entries := by
  rw [Canonical] at h
  exact anyEntries_eq_ok [] entries h.1 h.2

theorem anyObject_iff {v : Json} (h : Canonical v) {entries : List (String × Json)} :
    anyObject v = .ok entries ↔ v = .obj entries := by
  cases v with
  | obj es =>
    rw [anyObject_eq_ok h]
    simp
  | _ => simp [anyObject]

/-! ## What is kept is canonical

Whatever the document, and in whatever order its keys come: inserting keeps entries sorted. -/

theorem mem_keys_insert {key k : String} {v : Json} {held : List (String × Json)}
    (h : k ∈ (insert key v held).map Prod.fst) : k = key ∨ k ∈ held.map Prod.fst := by
  induction held with
  | nil => exact Or.inl (List.mem_singleton.mp h)
  | cons entry rest ih =>
    obtain ⟨k', w⟩ := entry
    rw [insert] at h
    split at h
    · exact List.mem_cons.mp h
    · split at h
      · rcases List.mem_cons.mp h with hk | hk
        · exact Or.inl hk
        · exact Or.inr (List.mem_cons_of_mem _ hk)
      · rcases List.mem_cons.mp h with hk | hk
        · exact Or.inr (hk ▸ List.mem_cons_self)
        · exact (ih hk).imp_right (List.mem_cons_of_mem _)

theorem sorted_insert {key : String} (v : Json) {held : List (String × Json)}
    (h : (held.map Prod.fst).Pairwise (· < ·)) :
    ((insert key v held).map Prod.fst).Pairwise (· < ·) := by
  induction held with
  | nil => exact List.pairwise_singleton _ _
  | cons entry rest ih =>
    obtain ⟨k, w⟩ := entry
    obtain ⟨hfirst, hrest⟩ := List.pairwise_cons.mp h
    rw [insert]
    split
    · next hlt =>
      refine List.pairwise_cons.mpr ⟨fun k' hk' => ?_, h⟩
      rcases List.mem_cons.mp hk' with rfl | hk'
      · exact hlt
      · exact lt_trans hlt (hfirst k' hk')
    · next hnlt =>
      split
      · next heq => exact heq ▸ List.pairwise_cons.mpr ⟨hfirst, hrest⟩
      · next hne =>
        refine List.pairwise_cons.mpr ⟨fun k' hk' => ?_, ih hrest⟩
        rcases mem_keys_insert hk' with rfl | hk'
        · exact lt_of_le_of_ne (not_lt.mp hnlt) (Ne.symm hne)
        · exact hfirst k' hk'

theorem canonicalEntries_insert {key : String} {v : Json} {held : List (String × Json)}
    (hv : Canonical v) (h : CanonicalEntries held) : CanonicalEntries (insert key v held) := by
  induction held with
  | nil => exact ⟨hv, h⟩
  | cons entry rest ih =>
    obtain ⟨k, w⟩ := entry
    rw [insert]
    split
    · exact ⟨hv, h⟩
    · rw [CanonicalEntries] at h
      split
      · exact ⟨hv, h.2⟩
      · exact ⟨h.1, ih h.2⟩

section
variable {ε : Type} [Source ε]

mutual

theorem canonical_of_anyValue : ∀ (t : Tree ε) {v : Json}, anyValue t = .ok v → Canonical v
  | .null, _, h => by cases h; trivial
  | .bool _, _, h => by cases h; trivial
  | .num _, _, h => by cases h; trivial
  | .str _, _, h => by cases h; trivial
  | .arr items, _, h => by
    rw [anyValue] at h
    cases hitems : anyItems items with
    | error e => rw [hitems] at h; cases h
    | ok vs =>
      rw [hitems] at h
      cases h
      exact canonicalItems_of_anyItems items hitems
  | .obj entries, _, h => by
    rw [anyValue] at h
    cases hentries : anyEntries [] entries with
    | error e => rw [hentries] at h; cases h
    | ok es =>
      rw [hentries] at h
      cases h
      exact canonical_of_anyEntries [] entries List.Pairwise.nil trivial hentries
  | .flaw _, _, h => by cases h

theorem canonicalItems_of_anyItems :
    ∀ (items : List (Tree ε)) {vs : List Json}, anyItems items = .ok vs → CanonicalItems vs
  | [], _, h => by cases h; trivial
  | t :: rest, _, h => by
    rw [anyItems] at h
    cases hv : anyValue t with
    | error e => rw [hv] at h; cases h
    | ok v =>
      cases hvs : anyItems rest with
      | error e => rw [hv, hvs] at h; cases h
      | ok vs =>
        rw [hv, hvs] at h
        cases h
        exact ⟨canonical_of_anyValue t hv, canonicalItems_of_anyItems rest hvs⟩

theorem canonical_of_anyEntries :
    ∀ (held : List (String × Json)) (entries : List (String × Tree ε))
      {es : List (String × Json)}, (held.map Prod.fst).Pairwise (· < ·) →
      CanonicalEntries held → anyEntries held entries = .ok es → Canonical (.obj es)
  | _, [], _, hsorted, hheld, h => by cases h; exact ⟨hsorted, hheld⟩
  | held, (key, t) :: rest, _, hsorted, hheld, h => by
    rw [anyEntries] at h
    cases hv : anyValue t with
    | error e => rw [hv] at h; cases h
    | ok v =>
      rw [hv] at h
      exact canonical_of_anyEntries _ rest (sorted_insert v hsorted)
        (canonicalEntries_insert (canonical_of_anyValue t hv) hheld) h

end

end

/-- Every value that was read from a text is canonical. -/
theorem canonical_of_ofText {text : String} {v : Json} (h : ofText text = .ok v) :
    Canonical v := by
  rw [ofText, decodeText] at h
  cases hv : anyValue (Document.ofText text).root with
  | error e =>
    rw [hv] at h
    cases h
  | ok w =>
    rw [hv] at h
    simp only [bind, Except.bind] at h
    split at h
    · cases h
    · cases h
      exact canonical_of_anyValue _ hv

end EmbedUI.Json
