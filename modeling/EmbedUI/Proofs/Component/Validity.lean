import EmbedUI.Requirements

/-!
# When a configuration is compiled

A compiler looks for the first problem of a configuration and writes markup when there is none. So
`compile_ok_iff` says for each kind what a resource is made of, and the rest of this module says
when there is no problem, without an order in which the parts are looked at. Which problem is the
first one is what `Earliest` is about.
-/

namespace EmbedUI

/-- The resource is handed out when there is no problem. -/
theorem ok_unless_problem {problem : Option Rejection} {made r : Resource} :
    (match problem with
      | some rejection => .error rejection
      | none => .ok made : Except Rejection Resource) = .ok r ↔ problem = none ∧ r = made := by
  cases problem with
  | some rejection => simp
  | none => simp [eq_comm]

/-- There is a resource when there is no problem. -/
theorem exists_ok_iff {problem : Option Rejection} {made : Resource} :
    (∃ r, (match problem with
      | some rejection => .error rejection
      | none => .ok made : Except Rejection Resource) = .ok r) ↔ problem = none := by
  cases problem <;> simp

/-- The rejection is the problem. -/
theorem error_iff_problem {problem : Option Rejection} {made : Resource} {r : Rejection} :
    (match problem with
      | some rejection => .error rejection
      | none => .ok made : Except Rejection Resource) = .error r ↔ problem = some r := by
  cases problem <;> simp

/-! ## The first problem

Fields and widgets are looked at in order. What is wrong with the part at a place may depend on the
parts before it, so the places are what a search is described by, and not the parts. -/

/-- What a search through the places `0`, `1`, … finds: the problem at the first place that has
one. -/
def Earliest (problemAt : Nat → Option Rejection) : Option Rejection → Prop
  | none => ∀ i, problemAt i = none
  | some r => ∃ i, problemAt i = some r ∧ ∀ j < i, problemAt j = none

namespace Earliest

variable {problemAt : Nat → Option Rejection} {found : Option Rejection}

/-- One step of the search: the place in front, and then the others. -/
theorem or (h : Earliest (fun i => problemAt (i + 1)) found) :
    Earliest problemAt ((problemAt 0).or found) := by
  cases hfront : problemAt 0 with
  | some r => exact ⟨0, hfront, fun j hj => absurd hj (Nat.not_lt_zero j)⟩
  | none =>
    cases found with
    | none => exact fun | 0 => hfront | i + 1 => h i
    | some r =>
      obtain ⟨i, hi, hbefore⟩ := h
      refine ⟨i + 1, hi, fun j hj => ?_⟩
      cases j with
      | zero => exact hfront
      | succ j => exact hbefore j (Nat.lt_of_succ_lt_succ hj)

/-- The search finds the first problem and nothing else. -/
theorem eq_some_iff (h : Earliest problemAt found) {r : Rejection} :
    found = some r ↔ ∃ i, problemAt i = some r ∧ ∀ j < i, problemAt j = none := by
  constructor
  · rintro rfl
    exact h
  · rintro ⟨i, hi, hbefore⟩
    cases found with
    | none => simp [(h : ∀ i, problemAt i = none) i] at hi
    | some r' =>
      obtain ⟨i', hi', hbefore'⟩ := h
      obtain hlt | rfl | hgt := Nat.lt_trichotomy i i'
      · simp [hbefore' i hlt] at hi
      · rw [← hi', hi]
      · simp [hbefore i' hgt] at hi'

/-- The search finds nothing when there is nothing to find. -/
theorem eq_none_iff (h : Earliest problemAt found) :
    found = none ↔ ∀ i, problemAt i = none := by
  cases found with
  | none => exact iff_of_true rfl h
  | some r =>
    obtain ⟨i, hi, -⟩ := h
    refine iff_of_false (Option.some_ne_none r) fun hnowhere => ?_
    simp [hnowhere i] at hi

end Earliest

/-! ## Forms -/

namespace Form

theorem compile_ok_iff {form : Form} {id : ComponentId} {r : Resource} :
    form.compile id = .ok r ↔
      form.problem? = none ∧ r = .ofMarkup id.address (form.node id.text).render :=
  ok_unless_problem

theorem compile_eq_error_iff {form : Form} {id : ComponentId} {r : Rejection} :
    form.compile id = .error r ↔ form.problem? = some r :=
  error_iff_problem

theorem Field.problem?_eq_none_iff {earlier : List String} {index : Nat} {f : Field} :
    f.problem? earlier index = none ↔
      Text.allBlank f.name = false ∧ f.name ∉ earlier ∧
        (f.kind = .select → f.options.getD [] ≠ []) := by
  unfold Field.problem?
  by_cases hblank : Text.allBlank f.name = true
  · simp [hblank]
  · by_cases hearlier : f.name ∈ earlier
    · simp [hblank, hearlier]
    · by_cases hoptions : f.kind = .select ∧ f.options.getD [] = []
      · simp [hblank, hearlier, hoptions]
      · simp only [Bool.not_eq_true] at hblank
        simp [hblank, hearlier]

/-- The fields behind some others have no problem when their names are neither blank nor taken, and
every select has something to select. -/
theorem firstProblem?_eq_none_iff {earlier : List String} {index : Nat} {fields : List Field} :
    firstProblem? earlier index fields = none ↔
      (∀ f ∈ fields, Text.allBlank f.name = false) ∧ (fields.map Field.name).Nodup ∧
        (∀ f ∈ fields, f.name ∉ earlier) ∧
          ∀ f ∈ fields, f.kind = .select → f.options.getD [] ≠ [] := by
  induction fields generalizing earlier index with
  | nil => simp [firstProblem?]
  | cons f rest ih =>
    rw [firstProblem?, Option.or_eq_none_iff, Field.problem?_eq_none_iff, ih]
    constructor
    · rintro ⟨⟨hblank, hearlier, hoptions⟩, hblanks, hnodup, htaken, hselects⟩
      -- the name of the first field is among those that the others must avoid
      have hfresh : f.name ∉ rest.map Field.name := by
        intro hmem
        obtain ⟨g, hg, hname⟩ := List.mem_map.mp hmem
        exact htaken g hg (hname ▸ List.mem_append_right _ List.mem_cons_self)
      refine ⟨?_, ?_, ?_, ?_⟩
      · exact List.forall_mem_cons.mpr ⟨hblank, hblanks⟩
      · exact List.nodup_cons.mpr ⟨hfresh, hnodup⟩
      · exact List.forall_mem_cons.mpr
          ⟨hearlier, fun g hg hmem => htaken g hg (List.mem_append_left _ hmem)⟩
      · exact List.forall_mem_cons.mpr ⟨hoptions, hselects⟩
    · rintro ⟨hblanks, hnodup, htaken, hselects⟩
      obtain ⟨hblank, hblanks⟩ := List.forall_mem_cons.mp hblanks
      obtain ⟨hfresh, hnodup⟩ := List.nodup_cons.mp hnodup
      obtain ⟨hearlier, htaken⟩ := List.forall_mem_cons.mp htaken
      obtain ⟨hoptions, hselects⟩ := List.forall_mem_cons.mp hselects
      refine ⟨⟨hblank, hearlier, hoptions⟩, hblanks, hnodup, fun g hg hmem => ?_, hselects⟩
      rcases List.mem_append.mp hmem with hmem | hmem
      · exact htaken g hg hmem
      · rw [List.mem_singleton] at hmem
        exact hfresh (hmem ▸ List.mem_map_of_mem hg)

/-- **Which forms make sense.** -/
theorem problem?_eq_none_iff {form : Form} :
    form.problem? = none ↔
      (∀ f ∈ form.fields, Text.allBlank f.name = false) ∧ (form.fields.map Field.name).Nodup ∧
        ∀ f ∈ form.fields, f.kind = .select → f.options.getD [] ≠ [] := by
  rw [problem?, firstProblem?_eq_none_iff]
  simp

end Form

/-! ## Dashboards -/

namespace Dashboard

theorem compile_ok_iff {d : Dashboard} {id : ComponentId} {r : Resource} :
    d.compile id = .ok r ↔
      d.problem? = none ∧ r = .ofMarkup id.address (d.node id.text).render :=
  ok_unless_problem

theorem exists_compile_iff {d : Dashboard} {id : ComponentId} :
    (∃ r, d.compile id = .ok r) ↔ d.problem? = none :=
  exists_ok_iff

theorem compile_eq_error_iff {d : Dashboard} {id : ComponentId} {r : Rejection} :
    d.compile id = .error r ↔ d.problem? = some r :=
  error_iff_problem

/-- Whether a widget has a problem does not depend on where it stands. -/
theorem Widget.problem?_eq_none_iff {w : Widget} (index : Nat) :
    w.problem? index = none ↔ w.problem? 0 = none := by
  cases w <;> simp [Widget.problem?]

theorem firstProblem?_eq_none_iff {widgets : List Widget} (index : Nat) :
    firstProblem? index widgets = none ↔ ∀ w ∈ widgets, w.problem? 0 = none := by
  induction widgets generalizing index with
  | nil => simp [firstProblem?]
  | cons w rest ih =>
    rw [firstProblem?, Option.or_eq_none_iff, Widget.problem?_eq_none_iff, ih (index + 1),
      List.forall_mem_cons]

theorem problem?_eq_none_iff {d : Dashboard} :
    d.problem? = none ↔ ∀ w ∈ d.widgets, w.problem? 0 = none :=
  firstProblem?_eq_none_iff 0

end Dashboard

/-! ## Charts -/

namespace Chart

theorem compile_ok_iff {c : Chart} {id : ComponentId} {r : Resource} :
    c.compile id = .ok r ↔
      c.problem? = none ∧ r = .ofMarkup id.address (c.node id.text).render :=
  ok_unless_problem

theorem exists_compile_iff {c : Chart} {id : ComponentId} :
    (∃ r, c.compile id = .ok r) ↔ c.problem? = none :=
  exists_ok_iff

theorem compile_eq_error_iff {c : Chart} {id : ComponentId} {r : Rejection} :
    c.compile id = .error r ↔ c.problem? = some r :=
  error_iff_problem

theorem problem?_eq_none_iff {c : Chart} :
    c.problem? = none ↔
      c.series.problem? = none ∧ (c.style = .pie → pieProblem? c.values = none) := by
  unfold problem?
  rw [Option.map_eq_none_iff, Option.or_eq_none_iff]
  cases c.style <;> simp

end Chart

/-! ## Custom components -/

namespace Custom

theorem compile_ok_iff {c : Custom} {id : ComponentId} {r : Resource} :
    c.compile id = .ok r ↔
      c.problem? = none ∧ r = .ofMarkup id.address (c.node id.text).render :=
  ok_unless_problem

theorem problem?_eq_none_iff {c : Custom} : c.problem? = none ↔ Text.allBlank c.html = false := by
  unfold problem?
  cases Text.allBlank c.html <;> simp

end Custom

/-! ## Requirements -/

theorem Requirements.address_of_compile {r : Requirements} {id : ComponentId} {resource : Resource}
    (h : r.compile id = .ok resource) : resource.address = id.address := by
  unfold compile at h
  cases hkind : r.kind with
  | form =>
    rw [hkind] at h
    rw [(Form.compile_ok_iff.mp h).2, Resource.ofMarkup]
  | dashboard =>
    rw [hkind] at h
    rw [(Dashboard.compile_ok_iff.mp h).2, Resource.ofMarkup]
  | chart =>
    rw [hkind] at h
    rw [(Chart.compile_ok_iff.mp h).2, Resource.ofMarkup]
  | custom =>
    rw [hkind] at h
    rw [(Custom.compile_ok_iff.mp h).2, Resource.ofMarkup]

end EmbedUI
