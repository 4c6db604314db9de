import Mathlib.Data.Fintype.Basic
import Mathlib.Data.List.Nodup

/-!
# Serial orders of interleaved calls

Some calls take steps, each its own ones in order, and a trace tells who took which. This module is
about traces alone, whatever the steps are and whatever they do: which of its steps a serial order
of the calls takes in the order of the trace.

## The architecture

* **`Interleaves`**: each call takes its own steps in order. `Interleaves.perm`: so a serial order
  takes the same steps.
* **`takers`**: who takes the steps of a kind.
* **`Interleaves.filter_flatMap`**: when no call takes two steps of a kind, a serial order that has
  the takers in order has the steps in order. `Interleaves.exists_serial`: there is one.
* **`Interleaves.takers_eq_filter`**: steps that tell the calls apart leave no other order.
-/

namespace EmbedUI.Host

/-! ## Kinds of items

A kind that something is read off from says all about what is read. -/

section
variable {α β : Type} {f : α → Option β} {p : α → Bool}

theorem filterMap_filter_self (h : ∀ x, (f x).isSome → p x = true) (l : List α) :
    (l.filter p).filterMap f = l.filterMap f := by
  rw [List.filterMap_filter]
  refine List.filterMap_congr fun x _ => ?_
  cases hf : f x with
  | none => simp
  | some w => simp [h x (by rw [hf]; rfl)]

theorem filterMap_of_filter (h : ∀ x, (f x).isSome → p x = true) {l l' : List α}
    (heq : l.filter p = l'.filter p) : l.filterMap f = l'.filterMap f := by
  rw [← filterMap_filter_self h l, heq, filterMap_filter_self h l']

/-- Items are told apart by what is read off from them, if that is never the same. -/
theorem eq_of_filterMap_eq (hf : ∀ x y w, f x = some w → f y = some w → x = y) {l l' : List α}
    (hl : ∀ x ∈ l, (f x).isSome) (hl' : ∀ x ∈ l', (f x).isSome)
    (h : l.filterMap f = l'.filterMap f) : l = l' := by
  induction l generalizing l' with
  | nil =>
    cases l' with
    | nil => rfl
    | cons y rest' =>
      obtain ⟨w, hw⟩ := Option.isSome_iff_exists.mp (hl' y (List.mem_cons_self ..))
      simp [hw] at h
  | cons x rest ih =>
    obtain ⟨hx, hrest⟩ := List.forall_mem_cons.mp hl
    obtain ⟨v, hv⟩ := Option.isSome_iff_exists.mp hx
    cases l' with
    | nil => simp [hv] at h
    | cons y rest' =>
      obtain ⟨hy, hrest'⟩ := List.forall_mem_cons.mp hl'
      obtain ⟨w, hw⟩ := Option.isSome_iff_exists.mp hy
      rw [List.filterMap_cons_some hv, List.filterMap_cons_some hw] at h
      obtain ⟨rfl, hsame⟩ := List.cons.inj h
      rw [hf x y v hv hw, ih hrest hrest' hsame]

end

/-! ## Traces -/

section
variable {ι σ : Type} {steps : ι → List σ} {trace : List (ι × σ)}

/-- Who took the steps of a kind. -/
def takers (p : σ → Bool) (trace : List (ι × σ)) : List ι :=
  (trace.filter fun taken => p taken.2).map Prod.fst

theorem takers_sublist {p q : σ → Bool} (h : ∀ s, p s = true → q s = true) :
    (takers p trace).Sublist (takers q trace) :=
  (List.monotone_filter_right trace fun taken => h taken.2).map Prod.fst

/-- An order of all calls. -/
structure Serial (order : List ι) : Prop where
  nodup : order.Nodup
  complete : ∀ i, i ∈ order

theorem serial_univ [Fintype ι] : Serial (Finset.univ : Finset ι).toList where
  nodup := Finset.nodup_toList _
  complete := fun i => Finset.mem_toList.mpr (Finset.mem_univ i)

/-- Calls without anything do not matter, wherever they stand. -/
theorem flatMap_of_sublist {f : ι → List σ} {ids order : List ι} (h : ids.Sublist order)
    (hnodup : order.Nodup) (hf : ∀ i ∈ order, i ∉ ids → f i = []) :
    order.flatMap f = ids.flatMap f := by
  induction h with
  | slnil => rfl
  | @cons ids order i hsub ih =>
    obtain ⟨hfresh, hrest⟩ := List.nodup_cons.mp hnodup
    rw [List.flatMap_cons, hf i (List.mem_cons_self ..) fun hmem => hfresh (hsub.subset hmem)]
    exact ih hrest fun j hj => hf j (List.mem_cons_of_mem _ hj)
  | @cons_cons ids order i hsub ih =>
    obtain ⟨hfresh, hrest⟩ := List.nodup_cons.mp hnodup
    rw [List.flatMap_cons, List.flatMap_cons]
    refine congrArg _ (ih hrest fun j hj hout => hf j (List.mem_cons_of_mem _ hj) fun hmem => ?_)
    rcases List.mem_cons.mp hmem with rfl | hmem
    · exact hfresh hj
    · exact hout hmem

theorem filterMap_flatMap {β : Type} {f : σ → Option β} {g : ι → Option β}
    (h : ∀ i, (steps i).filterMap f = (g i).toList) (order : List ι) :
    (order.flatMap steps).filterMap f = order.filterMap g := by
  rw [List.filterMap_flatMap, List.filterMap_eq_flatMap_toList]
  exact List.flatMap_congr fun i _ => h i

variable [DecidableEq ι]

/-- The steps of one call in a trace. -/
def stepsOf (trace : List (ι × σ)) (i : ι) : List σ :=
  (trace.filter fun taken => taken.1 = i).map Prod.snd

theorem stepsOf_cons (i : ι) (s : σ) (trace : List (ι × σ)) (j : ι) :
    stepsOf ((i, s) :: trace) j = if i = j then s :: stepsOf trace j else stepsOf trace j := by
  unfold stepsOf
  by_cases hij : i = j <;> simp [hij]

theorem filter_stepsOf (p : σ → Bool) (i : ι) :
    (stepsOf trace i).filter p =
      ((trace.filter fun taken => p taken.2).filter fun taken => taken.1 = i).map Prod.snd := by
  unfold stepsOf
  rw [List.filter_map, List.filter_filter, List.filter_filter]
  congr 2
  funext taken
  exact Bool.and_comm ..

/-- Each call takes its own steps in order, whatever the others do in between. -/
def Interleaves (steps : ι → List σ) (trace : List (ι × σ)) : Prop :=
  ∀ i, stepsOf trace i = steps i

namespace Interleaves

variable (htrace : Interleaves steps trace)
include htrace

theorem mem_steps {taken : ι × σ} (h : taken ∈ trace) : taken.2 ∈ steps taken.1 := by
  rw [← htrace, stepsOf]
  exact List.mem_map_of_mem (List.mem_filter.mpr ⟨h, by simp⟩)

/-! ## All steps -/

omit htrace in
theorem perm_flatMap_filter {order : List ι} (hnodup : order.Nodup) {trace : List (ι × σ)}
    (h : ∀ taken ∈ trace, taken.1 ∈ order) :
    trace.Perm (order.flatMap fun i => trace.filter fun taken => taken.1 = i) := by
  induction order generalizing trace with
  | nil =>
    rw [List.eq_nil_iff_forall_not_mem.mpr fun taken htaken => List.not_mem_nil (h taken htaken)]
    rfl
  | cons i rest ih =>
    obtain ⟨hfresh, hrest⟩ := List.nodup_cons.mp hnodup
    -- what the first call takes, and what is left for the others
    have hothers : ∀ taken ∈ trace.filter fun taken => !decide (taken.1 = i), taken.1 ∈ rest := by
      intro taken htaken
      obtain ⟨hmem, hne⟩ := List.mem_filter.mp htaken
      exact (List.mem_cons.mp (h taken hmem)).resolve_left (by simpa using hne)
    have hleft : (rest.flatMap fun j => (trace.filter fun taken => !decide (taken.1 = i)).filter
        fun taken => taken.1 = j) = rest.flatMap fun j => trace.filter fun taken => taken.1 = j := by
      refine List.flatMap_congr fun j hj => ?_
      rw [List.filter_filter]
      refine List.filter_congr fun taken _ => ?_
      by_cases htaken : taken.1 = j
      · have hji : j ≠ i := fun heq => hfresh (heq ▸ hj)
        simp [htaken, hji]
      · simp [htaken]
    have hperm := ih hrest hothers
    rw [hleft] at hperm
    exact (List.filter_append_perm (fun taken => decide (taken.1 = i)) trace).symm.trans
      (hperm.append_left _)

/-- Every step of a trace is a step of one of the calls, and is taken once. -/
theorem perm {order : List ι} (horder : Serial order) :
    (trace.map Prod.snd).Perm (order.flatMap steps) := by
  have hperm := (perm_flatMap_filter horder.nodup
    fun taken (_ : taken ∈ trace) => horder.complete taken.1).map Prod.snd
  rw [List.map_flatMap] at hperm
  rwa [← funext htrace]

/-! ## Steps of a kind, at most one for each call -/

section
variable {p : σ → Bool}

theorem mem_takers_iff {i : ι} : i ∈ takers p trace ↔ (steps i).filter p ≠ [] := by
  rw [← htrace, filter_stepsOf, takers, Ne, List.map_eq_nil_iff, List.filter_eq_nil_iff]
  simp

theorem nodup_takers (hp : ∀ i, ((steps i).filter p).length ≤ 1) : (takers p trace).Nodup := by
  refine List.nodup_iff_count_le_one.mpr fun i => ?_
  have hcount : (takers p trace).count i = ((steps i).filter p).length := by
    rw [← htrace, filter_stepsOf, List.length_map, takers, List.count, List.countP_map,
      List.countP_eq_length_filter]
    rfl
  rw [hcount]
  exact hp i

theorem filter_steps (hp : ∀ i, ((steps i).filter p).length ≤ 1) {taken : ι × σ}
    (h : taken ∈ trace) (hkind : p taken.2 = true) : (steps taken.1).filter p = [taken.2] := by
  have hmem : taken.2 ∈ (steps taken.1).filter p := List.mem_filter.mpr ⟨htrace.mem_steps h, hkind⟩
  obtain ⟨s, hs⟩ : ∃ s, (steps taken.1).filter p = [s] :=
    List.length_eq_one_iff.mp (le_antisymm (hp _) (List.length_pos_of_mem hmem))
  rw [hs, List.mem_singleton] at hmem
  rw [hs, hmem]

/-- **One kind of steps.** A serial order that has the calls with a step of the kind in the order of
the trace takes these steps in the order of the trace. -/
theorem filter_flatMap {order : List ι} (horder : Serial order)
    (hp : ∀ i, ((steps i).filter p).length ≤ 1) (h : (takers p trace).Sublist order) :
    (order.flatMap steps).filter p = (trace.map Prod.snd).filter p := by
  have hnone : ∀ i ∈ order, i ∉ takers p trace → (steps i).filter p = [] := by
    intro i _ hi
    rw [htrace.mem_takers_iff] at hi
    exact not_not.mp hi
  have hone : ∀ taken ∈ trace.filter fun taken => p taken.2,
      (steps taken.1).filter p = [taken.2] := by
    intro taken htaken
    obtain ⟨hmem, hkind⟩ := List.mem_filter.mp htaken
    exact htrace.filter_steps hp hmem hkind
  calc (order.flatMap steps).filter p
      = order.flatMap fun i => (steps i).filter p := List.filter_flatMap ..
    _ = (takers p trace).flatMap fun i => (steps i).filter p :=
        flatMap_of_sublist h horder.nodup hnone
    _ = (trace.filter fun taken => p taken.2).flatMap fun taken => [taken.2] := by
        rw [takers, List.flatMap_map]
        exact List.flatMap_congr hone
    _ = (trace.map Prod.snd).filter p := by
        rw [← List.map_eq_flatMap, List.filter_map]
        rfl

/-- There is such an order: the calls that take a step of the kind, and then the others. -/
theorem exists_serial [Fintype ι] (hp : ∀ i, ((steps i).filter p).length ≤ 1) :
    ∃ order : List ι, Serial order ∧ (takers p trace).Sublist order := by
  -- the others may stand in any order, since they have no such step
  refine ⟨takers p trace ++ Finset.univ.toList.filter fun i => i ∉ takers p trace, ⟨?_, ?_⟩,
    List.sublist_append_left ..⟩
  · refine List.Nodup.append (htrace.nodup_takers hp) ((Finset.nodup_toList _).filter _)
      fun i hi hout => ?_
    simpa [hi] using (List.mem_filter.mp hout).2
  · intro i
    by_cases hi : i ∈ takers p trace
    · exact List.mem_append_left _ hi
    · exact List.mem_append_right _ (by simp [hi])

end

/-! ## What the steps contribute -/

section
variable {β : Type} {f : σ → Option β} {g : ι → Option β}
  (h : ∀ i, (steps i).filterMap f = (g i).toList)
include h

/-- What a step contributes is what its call does. -/
theorem contribution {taken : ι × σ} (htaken : taken ∈ trace) {w : β} (hf : f taken.2 = some w) :
    g taken.1 = some w := by
  have hw : w ∈ (steps taken.1).filterMap f :=
    List.mem_filterMap.mpr ⟨_, htrace.mem_steps htaken, hf⟩
  rw [h, Option.mem_toList] at hw
  exact hw

theorem filterMap_takers :
    (takers (fun s => (f s).isSome) trace).filterMap g = (trace.map Prod.snd).filterMap f := by
  rw [takers, List.filterMap_map, List.filterMap_filter, List.filterMap_map]
  refine List.filterMap_congr fun taken htaken => ?_
  cases hf : f taken.2 with
  | none => simp [hf]
  | some w => simpa [hf] using htrace.contribution h htaken hf

/-- An order with the same contributions as a trace has the calls that make them in the order of
the trace. -/
theorem takers_eq_filter (hg : ∀ i j w, g i = some w → g j = some w → i = j) {order : List ι}
    (heq : order.filterMap g = (trace.map Prod.snd).filterMap f) :
    takers (fun s => (f s).isSome) trace = order.filter fun i => (g i).isSome := by
  refine eq_of_filterMap_eq hg (fun i hi => ?_) (fun i hi => (List.mem_filter.mp hi).2) ?_
  · obtain ⟨taken, htaken, rfl⟩ := List.mem_map.mp hi
    obtain ⟨hmem, hsome⟩ := List.mem_filter.mp htaken
    obtain ⟨w, hw⟩ := Option.isSome_iff_exists.mp hsome
    exact Option.isSome_of_eq_some (htrace.contribution h hmem hw)
  · rw [htrace.filterMap_takers h, filterMap_filter_self (fun i hi => hi), heq]

end

end Interleaves

end

end EmbedUI.Host
