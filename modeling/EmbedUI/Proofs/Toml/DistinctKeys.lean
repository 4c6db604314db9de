import EmbedUI.Toml.Document
import Mathlib.Data.List.Nodup

/-!
# No key occurs twice

A TOML text writes a table down in several places, and the reader puts the entries together as they
come. Whatever the text, the tables that it denotes have no key twice, at the top and at every
depth. So one can speak of the value under a key.

## The architecture

* **`Value.Distinct`**, **`Draft.Distinct`**: no table within has a key twice. Both are
  `DistinctEntries` at their tables.
* **`Draft.distinct_alter`**: one change at the end of a path, the only way in which entries come
  about; **`Draft.distinct_fill`** for many of them, **`Draft.distinct_finish`** at the end.
* **`Yields`**, **`yields_readValue`**: what a reader of values keeps, by induction on how deep
  values may be nested and on the steps of the readers of items and members.
* **`Table.distinct_ofText?`**: the whole text, line by line and section by section.
-/

namespace EmbedUI.Toml

/-- No key stands twice in the entries, and what stands under them has a property. -/
structure DistinctEntries {α : Type} (P : α → Prop) (entries : List (String × α)) : Prop where
  keys : (entries.map Prod.fst).Nodup
  values : ∀ e ∈ entries, P e.2

theorem DistinctEntries.nil {α : Type} (P : α → Prop) : DistinctEntries P [] :=
  ⟨List.nodup_nil, by simp⟩

/-- Where no key stands twice, one can look up what one sees. -/
theorem lookup_eq_some_iff_mem {α : Type} {entries : List (String × α)}
    (h : (entries.map Prod.fst).Nodup) {key : String} {v : α} :
    entries.lookup key = some v ↔ (key, v) ∈ entries := by
  induction entries with
  | nil => simp
  | cons entry rest ih =>
    obtain ⟨k, w⟩ := entry
    obtain ⟨hfresh, hrest⟩ := List.nodup_cons.mp h
    rw [List.lookup_cons, List.mem_cons, Prod.mk.injEq, ← ih hrest]
    by_cases hk : key = k
    · subst hk
      have habsent : rest.lookup key ≠ some v := fun hv =>
        hfresh (List.mem_map.mpr ⟨_, (ih hrest).mp hv, rfl⟩)
      simp [habsent, eq_comm]
    · simp [hk, beq_false_of_ne hk]

/-- No table in the value has a key twice. -/
inductive Value.Distinct : Value → Prop where
  | text (s : String) : Distinct (.text s)
  | number (n : Number) : Distinct (.number n)
  | flag (b : Bool) : Distinct (.flag b)
  | moment (m : Moment) : Distinct (.moment m)
  | list {items : List Value} (h : ∀ v ∈ items, Distinct v) : Distinct (.list items)
  | table {entries : Table} (keys : (entries.map Prod.fst).Nodup)
      (values : ∀ e ∈ entries, Distinct e.2) : Distinct (.table entries)

theorem Value.distinct_table_iff {entries : Table} :
    Value.Distinct (.table entries) ↔ DistinctEntries Value.Distinct entries := by
  constructor
  · intro h
    cases h with
    | table keys values => exact ⟨keys, values⟩
  · rintro ⟨keys, values⟩
    exact .table keys values

namespace Draft

/-! ## Drafts -/

/-- No table in the draft has a key twice. -/
inductive Distinct : Draft → Prop where
  | value {v : Value} (h : v.Distinct) : Distinct (.value v)
  | table {origin : Origin} {entries : Entries} (keys : (entries.map Prod.fst).Nodup)
      (values : ∀ e ∈ entries, Distinct e.2) : Distinct (.table origin entries)
  | tables {items : List Entries} (keys : ∀ es ∈ items, (es.map Prod.fst).Nodup)
      (values : ∀ es ∈ items, ∀ e ∈ es, Distinct e.2) : Distinct (.tables items)

theorem distinct_table_iff {origin : Origin} {entries : Entries} :
    Distinct (.table origin entries) ↔ DistinctEntries Distinct entries := by
  constructor
  · intro h
    cases h with
    | table keys values => exact ⟨keys, values⟩
  · rintro ⟨keys, values⟩
    exact .table keys values

theorem distinct_tables_iff {items : List Entries} :
    Distinct (.tables items) ↔ ∀ es ∈ items, DistinctEntries Distinct es := by
  constructor
  · intro h es hes
    cases h with
    | tables keys values => exact ⟨keys es hes, values es hes⟩
  · intro h
    exact .tables (fun es hes => (h es hes).keys) (fun es hes => (h es hes).values)

theorem mem_put {key : String} {d : Draft} {entries : Entries} {e : String × Draft}
    (h : e ∈ put key d entries) : e = (key, d) ∨ e ∈ entries := by
  induction entries with
  | nil => exact Or.inl (List.mem_singleton.mp h)
  | cons entry rest ih =>
    obtain ⟨k, old⟩ := entry
    rw [put] at h
    split at h
    next hk =>
      rcases List.mem_cons.mp h with rfl | hrest
      · exact Or.inl (by rw [hk])
      · exact Or.inr (List.mem_cons_of_mem _ hrest)
    next =>
      rcases List.mem_cons.mp h with rfl | hrest
      · exact Or.inr List.mem_cons_self
      · exact (ih hrest).imp_right (List.mem_cons_of_mem _)

theorem distinct_put {key : String} {d : Draft} {entries : Entries}
    (h : DistinctEntries Distinct entries) (hd : d.Distinct) :
    DistinctEntries Distinct (put key d entries) := by
  refine ⟨?_, fun e he => ?_⟩
  · obtain ⟨hkeys, -⟩ := h
    induction entries with
    | nil => exact List.pairwise_singleton _ key
    | cons entry rest ih =>
      obtain ⟨k, old⟩ := entry
      obtain ⟨hfresh, hkeys⟩ := List.nodup_cons.mp hkeys
      rw [put]
      split
      next => exact List.nodup_cons.mpr ⟨hfresh, hkeys⟩
      next hk =>
        refine List.nodup_cons.mpr ⟨fun hmem => ?_, ih hkeys⟩
        -- the key that comes first is neither the one that is put nor one behind it
        obtain ⟨e, he, rfl⟩ := List.mem_map.mp hmem
        rcases mem_put he with rfl | hrest
        · exact hk rfl
        · exact hfresh (List.mem_map.mpr ⟨e, hrest, rfl⟩)
  · rcases mem_put he with rfl | hold
    · exact hd
    · exact h.values e hold

theorem distinct_of_lookup {key : String} {d : Draft} {entries : Entries}
    (h : DistinctEntries Distinct entries) (hd : entries.lookup key = some d) : d.Distinct :=
  h.values _ ((lookup_eq_some_iff_mem h.keys).mp hd)

/-- The change makes of nothing, or of a draft without repeated keys, a draft without any. -/
def KeepsDistinct (change : Option Draft → Option Draft) : Prop :=
  ∀ old new, (∀ d, old = some d → d.Distinct) → change old = some new → new.Distinct

/-- **The step.** A change at the end of a path repeats no key, by induction on the path. -/
theorem distinct_alter {via : Origin} {closed : Bool} {change : Option Draft → Option Draft}
    (hchange : KeepsDistinct change) {path : List String} {entries entries' : Entries}
    (h : DistinctEntries Distinct entries)
    (halter : alter via closed change entries path = some entries') :
    DistinctEntries Distinct entries' := by
  fun_induction alter via closed change entries path generalizing entries' with
  | case1 => cases halter
  | case2 => cases halter
  | case3 _ entries key =>
    obtain ⟨d, hd, rfl⟩ := Option.map_eq_some_iff.mp halter
    exact distinct_put h (hchange _ d (fun old hold => distinct_of_lookup h hold) hd)
  | case4 _ entries key path _ _ ih =>
    obtain ⟨es, hes, rfl⟩ := Option.map_eq_some_iff.mp halter
    exact distinct_put h (distinct_table_iff.mpr (ih (.nil _) hes))
  | case5 => cases halter
  | case6 => cases halter
  | case7 _ entries key path _ origin es hlookup _ ih =>
    obtain ⟨es', hes', rfl⟩ := Option.map_eq_some_iff.mp halter
    have hes := distinct_table_iff.mp (distinct_of_lookup h hlookup)
    exact distinct_put h (distinct_table_iff.mpr (ih hes hes'))
  | case8 _ entries key path _ items hlookup ih =>
    obtain ⟨es', hes', rfl⟩ := Option.map_eq_some_iff.mp halter
    have hitems := distinct_tables_iff.mp (distinct_of_lookup h hlookup)
    have hlast : DistinctEntries Distinct (items.getLast?.getD []) := by
      cases hget : items.getLast? with
      | none => exact .nil _
      | some es => exact hitems es (List.mem_of_getLast? hget)
    refine distinct_put h (distinct_tables_iff.mpr fun es hes => ?_)
    rcases List.mem_append.mp hes with hinit | hes
    · exact hitems es (List.dropLast_subset _ hinit)
    · rw [List.mem_singleton.mp hes]
      exact ih hlast hes'

/-- **The run.** -/
theorem distinct_fill {body : List (List String × Value)} (hbody : ∀ entry ∈ body, entry.2.Distinct)
    {entries entries' : Entries} (h : DistinctEntries Distinct entries)
    (hfill : fill entries body = some entries') : DistinctEntries Distinct entries' := by
  induction body generalizing entries with
  | nil =>
    cases hfill
    exact h
  | cons entry rest ih =>
    obtain ⟨hentry, hrest⟩ := List.forall_mem_cons.mp hbody
    obtain ⟨es, hassign, hrestfill⟩ := Option.bind_eq_some_iff.mp hfill
    refine ih hrest (distinct_alter ?_ h hassign) hrestfill
    rintro (_ | old) new - hnew
    · cases hnew
      exact .value hentry
    · cases hnew

theorem finishEntries_eq (entries : Entries) :
    finishEntries entries = entries.map fun e => (e.1, finish e.2) := by
  induction entries with
  | nil => rfl
  | cons entry rest ih => rw [finishEntries, ih, List.map_cons]

theorem finishItems_eq (items : List Entries) :
    finishItems items = items.map fun es => .table (finishEntries es) := by
  induction items with
  | nil => rfl
  | cons es rest ih => rw [finishItems, ih, List.map_cons]

/-- Finishing changes no key. -/
theorem distinct_finishEntries {entries : Entries} (hkeys : (entries.map Prod.fst).Nodup)
    (h : ∀ e ∈ entries, (finish e.2).Distinct) :
    DistinctEntries Value.Distinct (finishEntries entries) := by
  rw [finishEntries_eq]
  refine ⟨?_, List.forall_mem_map.mpr h⟩
  rw [List.map_map]
  exact hkeys

theorem distinct_finish {d : Draft} (h : d.Distinct) : (finish d).Distinct := by
  induction h with
  | value h =>
    rw [finish]
    exact h
  | table keys _ ih =>
    rw [finish]
    exact Value.distinct_table_iff.mpr (distinct_finishEntries keys ih)
  | tables keys _ ih =>
    rw [finish, finishItems_eq]
    refine .list (List.forall_mem_map.mpr fun es hes => ?_)
    exact Value.distinct_table_iff.mpr (distinct_finishEntries (keys es hes) (ih es hes))

theorem distinct_table? {body : List (List String × Value)}
    (hbody : ∀ entry ∈ body, entry.2.Distinct) {table : Table} (h : table? body = some table) :
    Value.Distinct (.table table) := by
  obtain ⟨entries, hfill, rfl⟩ := Option.map_eq_some_iff.mp h
  have hentries := distinct_fill hbody (.nil _) hfill
  exact Value.distinct_table_iff.mpr
    (distinct_finishEntries hentries.keys fun e he => distinct_finish (hentries.values e he))

end Draft

/-! ## Values -/

/-- What the reader answers has a property, whatever it is given. -/
def Yields {α : Type} (P : α → Prop) (read : List Char → Option (α × List Char)) : Prop :=
  ∀ cs v rest, read cs = some (v, rest) → P v

/-- No table in the value of the entry has a key twice. -/
def DistinctEntry (entry : List String × Value) : Prop := entry.2.Distinct

theorem yields_readSimple : Yields Value.Distinct readSimple := by
  intro cs v rest h
  unfold readSimple at h
  split at h
  case h_1 | h_2 =>
    obtain ⟨_, -, heq⟩ := Option.map_eq_some_iff.mp h
    cases heq
    exact .text _
  case h_3 | h_4 =>
    cases h
    exact .flag _
  case h_5 =>
    split at h
    · obtain ⟨_, -, heq⟩ := Option.map_eq_some_iff.mp h
      cases heq
      exact .moment _
    · obtain ⟨_, -, heq⟩ := Option.map_eq_some_iff.mp h
      cases heq
      exact .number _

section
variable {value : ValueReader} (hvalue : Yields Value.Distinct value)
include hvalue

theorem yields_readEntry : Yields DistinctEntry (readEntry value) := by
  intro cs entry rest h
  obtain ⟨⟨path, rest'⟩, -, h⟩ := Option.bind_eq_some_iff.mp h
  dsimp only at h
  split at h
  · obtain ⟨⟨v, rest''⟩, hread, h⟩ := Option.bind_eq_some_iff.mp h
    cases h
    exact hvalue _ v _ hread
  · cases h

theorem yields_readItems (fuel : Nat) :
    Yields (fun vs => ∀ v ∈ vs, v.Distinct) (readItems value fuel) := by
  induction fuel with
  | zero => exact fun cs vs rest h => nomatch h
  | succ fuel ih =>
    intro cs vs rest h
    obtain ⟨cs', -, h⟩ := Option.bind_eq_some_iff.mp h
    split at h
    · cases h
      simp
    · obtain ⟨⟨v, rest'⟩, hread, h⟩ := Option.bind_eq_some_iff.mp h
      have hv := hvalue _ v _ hread
      obtain ⟨cs'', -, h⟩ := Option.bind_eq_some_iff.mp h
      split at h
      · cases h
        simpa using hv
      · obtain ⟨⟨vs', rest''⟩, hitems, h⟩ := Option.bind_eq_some_iff.mp h
        cases h
        exact List.forall_mem_cons.mpr ⟨hv, ih _ vs' _ hitems⟩
      · cases h

theorem yields_readMembers (fuel : Nat) :
    Yields (fun entries => ∀ entry ∈ entries, DistinctEntry entry) (readMembers value fuel) := by
  induction fuel with
  | zero => exact fun cs entries rest h => nomatch h
  | succ fuel ih =>
    intro cs entries rest h
    obtain ⟨⟨entry, rest'⟩, hread, h⟩ := Option.bind_eq_some_iff.mp h
    have hentry := yields_readEntry hvalue _ entry _ hread
    dsimp only at h
    split at h
    · cases h
      simpa using hentry
    · obtain ⟨⟨entries', rest''⟩, hmembers, h⟩ := Option.bind_eq_some_iff.mp h
      cases h
      exact List.forall_mem_cons.mpr ⟨hentry, ih _ entries' _ hmembers⟩
    · cases h

end

/-- **Values.** Induction on the depth to which values may still be nested. -/
theorem yields_readValue (depth : Nat) : Yields Value.Distinct (readValue depth) := by
  induction depth with
  | zero => exact yields_readSimple
  | succ depth ih =>
    intro cs v rest h
    unfold readValue at h
    split at h
    case h_1 => exact yields_readSimple _ v _ h
    case h_2 heq =>
      obtain rfl := Nat.succ.inj heq
      obtain ⟨⟨items, rest'⟩, hitems, h⟩ := Option.bind_eq_some_iff.mp h
      cases h
      exact .list (yields_readItems ih _ _ items _ hitems)
    case h_3 heq =>
      obtain rfl := Nat.succ.inj heq
      split at h
      · cases h
        exact .table List.nodup_nil (by simp)
      · obtain ⟨⟨body, rest'⟩, hbody, h⟩ := Option.bind_eq_some_iff.mp h
        obtain ⟨table, htable, h⟩ := Option.bind_eq_some_iff.mp h
        cases h
        exact Draft.distinct_table? (yields_readMembers ih _ _ body _ hbody) htable
    case h_4 => exact yields_readSimple _ v _ h

/-! ## Texts -/

/-- No table in the value on the line has a key twice. -/
def Line.Distinct : Line → Prop
  | .entry _ v => v.Distinct
  | _ => True

theorem Line.yields_read : Yields Line.Distinct Line.read := by
  intro cs line rest h
  unfold Line.read at h
  split at h
  case h_1 | h_2 =>
    obtain ⟨⟨path, rest'⟩, -, h⟩ := Option.bind_eq_some_iff.mp h
    dsimp only at h
    split at h
    · cases h
      exact trivial
    · cases h
  case h_3 =>
    obtain ⟨⟨⟨path, v⟩, rest'⟩, hentry, h⟩ := Option.bind_eq_some_iff.mp h
    cases h
    exact yields_readEntry (yields_readValue maxDepth) _ (path, v) _ hentry

theorem Line.distinct_readAll {fuel : Nat} {cs : List Char} {lines : List Line}
    (h : readAll fuel cs = some lines) : ∀ line ∈ lines, line.Distinct := by
  induction fuel generalizing cs lines with
  | zero => cases h
  | succ fuel ih =>
    rw [readAll] at h
    split at h
    · cases h
      simp
    · split at h
      · obtain ⟨rest, -, h⟩ := Option.bind_eq_some_iff.mp h
        exact ih h
      · obtain ⟨⟨line, rest⟩, hread, h⟩ := Option.bind_eq_some_iff.mp h
        obtain ⟨rest', -, h⟩ := Option.bind_eq_some_iff.mp h
        obtain ⟨lines', hlines, h⟩ := Option.bind_eq_some_iff.mp h
        cases h
        exact List.forall_mem_cons.mpr ⟨Line.yields_read _ line _ hread, ih hlines⟩

/-- The entries of a text stay what they are when they are divided among sections. -/
theorem Section.distinct_split {lines : List Line} (h : ∀ line ∈ lines, line.Distinct) :
    (∀ entry ∈ (split lines).1, DistinctEntry entry) ∧
      ∀ s ∈ (split lines).2, ∀ entry ∈ s.body, DistinctEntry entry := by
  induction lines with
  | nil => simp [split]
  | cons line rest ih =>
    obtain ⟨hline, hrest⟩ := List.forall_mem_cons.mp h
    obtain ⟨hbody, hsections⟩ := ih hrest
    cases line with
    | entry path v => exact ⟨List.forall_mem_cons.mpr ⟨hline, hbody⟩, hsections⟩
    | table path => exact ⟨by simp [split], List.forall_mem_cons.mpr ⟨hbody, hsections⟩⟩
    | item path => exact ⟨by simp [split], List.forall_mem_cons.mpr ⟨hbody, hsections⟩⟩

open Draft in
theorem Section.keepsDistinct_write {s : Section} (h : ∀ entry ∈ s.body, DistinctEntry entry) :
    KeepsDistinct s.write := by
  intro old new hold hnew
  unfold write at hnew
  split at hnew
  · split at hnew
    · obtain ⟨es, hfill, rfl⟩ := Option.map_eq_some_iff.mp hnew
      refine distinct_tables_iff.mpr fun es' hes' => ?_
      rw [List.mem_singleton.mp hes']
      exact distinct_fill h (.nil _) hfill
    · next items =>
      obtain ⟨es, hfill, rfl⟩ := Option.map_eq_some_iff.mp hnew
      refine distinct_tables_iff.mpr fun es' hes' => ?_
      rcases List.mem_append.mp hes' with hitem | hlast
      · exact distinct_tables_iff.mp (hold _ rfl) es' hitem
      · rw [List.mem_singleton.mp hlast]
        exact distinct_fill h (.nil _) hfill
    · cases hnew
  · split at hnew
    · obtain ⟨es, hfill, rfl⟩ := Option.map_eq_some_iff.mp hnew
      exact distinct_table_iff.mpr (distinct_fill h (.nil _) hfill)
    · obtain ⟨es', hfill, rfl⟩ := Option.map_eq_some_iff.mp hnew
      have hes := distinct_table_iff.mp (hold _ rfl)
      exact distinct_table_iff.mpr (distinct_fill h hes hfill)
    · cases hnew

open Draft in
theorem Section.distinct_places {ss : List Section}
    (h : ∀ s ∈ ss, ∀ entry ∈ s.body, DistinctEntry entry) {root root' : Entries}
    (hroot : DistinctEntries Distinct root) (hplace : ss.foldlM place root = some root') :
    DistinctEntries Distinct root' := by
  induction ss generalizing root with
  | nil =>
    cases hplace
    exact hroot
  | cons s rest ih =>
    obtain ⟨hs, hrest⟩ := List.forall_mem_cons.mp h
    obtain ⟨next, hnext, hplace⟩ := Option.bind_eq_some_iff.mp hplace
    exact ih hrest (distinct_alter (Section.keepsDistinct_write hs) hroot hnext) hplace

namespace Table

open Draft in
theorem distinct_ofLines? {lines : List Line} (hlines : ∀ line ∈ lines, line.Distinct)
    {table : Table} (h : ofLines? lines = some table) : DistinctEntries Value.Distinct table := by
  obtain ⟨hbody, hsections⟩ := Section.distinct_split hlines
  obtain ⟨root, hfill, h⟩ := Option.bind_eq_some_iff.mp h
  obtain ⟨root', hplace, h⟩ := Option.bind_eq_some_iff.mp h
  cases h
  have hroot' := Section.distinct_places hsections (distinct_fill hbody (.nil _) hfill) hplace
  exact distinct_finishEntries hroot'.keys fun e he => distinct_finish (hroot'.values e he)

/-- **No key occurs twice** in a table that was read from a text, nor in the tables within it. -/
theorem distinct_ofText? {text : String} {table : Table} (h : ofText? text = some table) :
    DistinctEntries Value.Distinct table := by
  obtain ⟨lines, hread, h⟩ := Option.bind_eq_some_iff.mp h
  exact distinct_ofLines? (Line.distinct_readAll hread) h

end Table

end EmbedUI.Toml
