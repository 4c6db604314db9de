import EmbedUI.Registry.Memory
import Mathlib.Data.List.Dedup

/-!
# Keys of a shelf

A shelf is filled by puts alone, which add a key or find it there, so its keys stay distinct and it
has one entry for each key that something stands under. A put of memory fails for blank keys only.
-/

namespace EmbedUI.Registry

namespace Shelf

variable {α : Type}

def keys (s : Shelf α) : List String := s.map Prod.fst

theorem mem_keys_iff {key : String} {s : Shelf α} : key ∈ s.keys ↔ (s.get? key).isSome := by
  induction s with
  | nil => simp [keys, get?]
  | cons entry rest ih =>
    obtain ⟨k, v⟩ := entry
    show key ∈ k :: keys rest ↔ (get? key ((k, v) :: rest)).isSome
    rw [List.mem_cons, ih, get?]
    by_cases hk : k = key
    · simp [hk]
    · simp [hk, Ne.symm hk]

theorem mem_keys_put {key other : String} {value : α} {s : Shelf α} :
    other ∈ (s.put key value).keys ↔ other = key ∨ other ∈ s.keys := by
  rw [mem_keys_iff, mem_keys_iff, get?_put]
  by_cases h : other = key
  · simp [h]
  · simp [h]

/-- **Putting keeps keys distinct.** -/
theorem nodup_keys_put {key : String} {value : α} {s : Shelf α} (h : s.keys.Nodup) :
    (s.put key value).keys.Nodup := by
  induction s with
  | nil => exact List.pairwise_singleton _ key
  | cons entry rest ih =>
    obtain ⟨k, v⟩ := entry
    obtain ⟨hfresh, hrest⟩ := List.nodup_cons.mp h
    rw [put]
    by_cases hk : k = key
    · rw [if_pos hk]
      exact List.nodup_cons.mpr ⟨hk ▸ hfresh, hrest⟩
    · rw [if_neg hk]
      refine List.nodup_cons.mpr ⟨fun hmem => ?_, ih hrest⟩
      rcases mem_keys_put.mp hmem with heq | hmem
      · exact hk heq
      · exact hfresh hmem

/-- A shelf has one entry for each of the keys that something stands under. -/
theorem length_eq_of_keys {s : Shelf α} (h : s.keys.Nodup) {ks : List String}
    (hks : ∀ k, (s.get? k).isSome ↔ k ∈ ks) : s.length = ks.dedup.length := by
  -- two lists without duplicates that have the same members
  have hperm : s.keys.Perm ks.dedup := by
    refine (List.perm_ext_iff_of_nodup h (List.nodup_dedup ks)).mpr fun k => ?_
    rw [mem_keys_iff, hks, List.mem_dedup]
  rw [← hperm.length_eq, keys, List.length_map]

end Shelf

namespace Memory

theorem putComponent_of_not_blank {r : ComponentRecord} (h : Text.allBlank r.id = false)
    (m : Memory) :
    putComponent r m = (.ok (), { m with components := m.components.put r.id r }) := by
  rw [putComponent, checkKey, h]
  rfl

end Memory

end EmbedUI.Registry
