import EmbedUI.Proofs.Component.Validity
import EmbedUI.Proofs.Decimal.ExactValue

/-!
# Which series are drawn

A chart is validated on its own, and so is the series of a chart widget, which is made of the data
of the widget first. A dashboard accepts a chart widget exactly when the bar chart of its series is
accepted, and reports the same part of it.

## The architecture

* **`Chart.Drawable`**: what a chart must be. Negative values and the sum of a pie are told by their
  exact values, not by the comparisons of floats.
* **`Chart.Series.Fault`**: the first fault of a series.
* **`ChartData.normalize_values_ne_nil`**, **`ChartData.normalize_ofSeries`**: normalizing.
* **`seriesProblem?_eq_some_iff`**, **`Chart.Series.problem?_eq_seriesProblem?`**: the two
  validators find the fault.
* **`earliest_firstProblem?`**: the run over all widgets.
* **`series_validated`**: both compilers.
-/

namespace EmbedUI

open Decimal (exactValue)

/-! ## What is accepted -/

namespace Chart

/-- What values must be to be the shares of a pie. -/
structure Shares (values : List Float) : Prop where
  nonneg : ∀ v ∈ values, 0 ≤ exactValue v
  finite : (total values).isFinite = true
  pos : 0 < exactValue (total values)

/-- What a chart must be to be drawn. -/
structure Drawable (c : Chart) : Prop where
  nonempty : c.values ≠ []
  aligned : c.labels.length = c.values.length
  finite : ∀ v ∈ c.values, v.isFinite = true
  pie : c.style = .pie → Shares c.values

/-- The first fault of a series that has values, and where it is: the number of the labels goes
before the values. -/
inductive Series.Fault (s : Series) : String → Complaint → Prop where
  | labels (h : s.labels.length ≠ s.values.length) :
      Fault s "labels" (.labelCount s.values.length s.labels.length)
  | value {j : Nat} (aligned : s.labels.length = s.values.length) (hj : j < s.values.length)
      (h : s.values[j].isFinite = false)
      (before : ∀ k (hk : k < j), s.values[k].isFinite = true) :
      Fault s ("values[" ++ Decimal.integerText j ++ "]") .notFinite

end Chart

namespace Dashboard

/-- The bar chart that shows the series of a chart widget. -/
def ChartData.standalone (title : String) (d : ChartData) : Chart :=
  { title := title, style := .bar, values := d.normalize.values, labels := d.normalize.labels }

/-- The widget at an index is a chart widget with some data. -/
def Draws (d : Dashboard) (i : Nat) (data : ChartData) : Prop :=
  ∃ title, d.widgets[i]? = some (.chart title data)

/-! ## Normalizing -/

namespace ChartData

theorem normalize_values_ne_nil (d : ChartData) : d.normalize.values ≠ [] := by
  unfold normalize
  split
  · exact List.cons_ne_nil _ _
  · split
    · exact List.cons_ne_nil _ _
    · exact List.cons_ne_nil _ _

/-- A series with values is left as it is. -/
theorem normalize_ofSeries {s : Chart.Series} (h : s.values ≠ []) :
    (ofSeries s).normalize = s := by
  obtain ⟨values, labels⟩ := s
  cases values with
  | nil => exact absurd rfl h
  | cons v vs => rfl

end ChartData

/-! ## The two validators -/

theorem seriesProblem?_eq_none_iff {s : Chart.Series} :
    seriesProblem? s = none ↔
      s.labels.length = s.values.length ∧ ∀ v ∈ s.values, v.isFinite = true := by
  unfold seriesProblem?
  by_cases haligned : s.labels.length = s.values.length
  · simp [haligned]
  · simp [haligned]

theorem seriesProblem?_eq_some_iff {s : Chart.Series} {path : String} {complaint : Complaint} :
    seriesProblem? s = some (path, complaint) ↔ s.Fault path complaint := by
  unfold seriesProblem?
  constructor
  · intro h
    split at h
    · next hlabels =>
      cases h
      exact .labels hlabels
    · next haligned =>
      obtain ⟨j, hj, hfault⟩ := Option.map_eq_some_iff.mp h
      cases hfault
      obtain ⟨hlt, hvalue, hbefore⟩ := List.findIdx?_eq_some_iff_getElem.mp hj
      exact .value (not_not.mp haligned) hlt (by simpa using hvalue)
        fun k hk => by simpa using hbefore k hk
  · intro h
    cases h with
    | labels hlabels => rw [if_pos hlabels]
    | value haligned hlt hvalue hbefore =>
      rw [if_neg (not_not.mpr haligned)]
      have hfound : (s.values.findIdx? fun v => !v.isFinite) = some _ :=
        List.findIdx?_eq_some_iff_getElem.mpr
          ⟨hlt, by simpa using hvalue, fun k hk => by simpa using hbefore k hk⟩
      rw [hfound, Option.map_some]

end Dashboard

namespace Chart

/-- **The two validators agree** on a series with values. -/
theorem Series.problem?_eq_seriesProblem? {s : Series} (h : s.values ≠ []) :
    s.problem? = Dashboard.seriesProblem? s :=
  if_neg (mt List.isEmpty_iff.mp h)

theorem Series.problem?_eq_none_iff {s : Series} :
    s.problem? = none ↔
      s.values ≠ [] ∧ s.labels.length = s.values.length ∧ ∀ v ∈ s.values, v.isFinite = true := by
  by_cases h : s.values = []
  · have hproblem : s.problem? = some ("values", .noValues) := if_pos (List.isEmpty_iff.mpr h)
    simp [hproblem, h]
  · rw [Series.problem?_eq_seriesProblem? h, Dashboard.seriesProblem?_eq_none_iff]
    exact (and_iff_right h).symm

/-- Finite values are the shares of a pie unless there is a problem with them. -/
theorem pieProblem?_eq_none_iff {values : List Float} (h : ∀ v ∈ values, v.isFinite = true) :
    pieProblem? values = none ↔ Shares values := by
  have hnonneg : (values.findIdx? fun v => decide (v < 0.0)) = none ↔
      ∀ v ∈ values, 0 ≤ exactValue v := by
    rw [List.findIdx?_eq_none_iff]
    refine forall₂_congr fun v hv => ?_
    rw [decide_eq_false_iff_not, Decimal.lt_zero_iff (h v hv), not_lt]
  unfold pieProblem?
  constructor
  · intro hnone
    split at hnone
    · exact nomatch hnone
    · next hfound =>
      dsimp only at hnone
      split at hnone
      · exact nomatch hnone
      · next hsum =>
        have hfinite : (total values).isFinite = true := by simpa using hsum
        split at hnone
        · exact nomatch hnone
        · next hpos =>
          rw [Decimal.le_zero_iff hfinite, not_le] at hpos
          exact ⟨hnonneg.mp hfound, hfinite, hpos⟩
  · rintro ⟨hvalues, hfinite, hpos⟩
    have hnot : ¬ total values ≤ 0.0 := by
      rw [Decimal.le_zero_iff hfinite, not_le]
      exact hpos
    rw [hnonneg.mpr hvalues]
    simp only [hfinite, hnot, Bool.not_true, Bool.false_eq_true, if_false]

theorem problem?_eq_none_iff_drawable {c : Chart} : c.problem? = none ↔ c.Drawable := by
  rw [problem?_eq_none_iff, Series.problem?_eq_none_iff]
  constructor
  · rintro ⟨⟨hnonempty, haligned, hfinite⟩, hpie⟩
    exact ⟨hnonempty, haligned, hfinite, fun hstyle =>
      (pieProblem?_eq_none_iff hfinite).mp (hpie hstyle)⟩
  · rintro ⟨hnonempty, haligned, hfinite, hpie⟩
    exact ⟨⟨hnonempty, haligned, hfinite⟩, fun hstyle =>
      (pieProblem?_eq_none_iff hfinite).mpr (hpie hstyle)⟩

end Chart

/-! ## Widgets -/

namespace Dashboard

/-- The problem of a chart of its own is the one that the validator of widgets finds. -/
theorem ChartData.problem?_standalone (title : String) (data : ChartData) :
    (data.standalone title).problem? = (seriesProblem? data.normalize).map fun (path, complaint) =>
      { kind := .chart, path := path, complaint := complaint } := by
  rw [← Chart.Series.problem?_eq_seriesProblem? data.normalize_values_ne_nil]
  show Option.map _ (data.normalize.problem?.or none) = _
  rw [Option.or_none]

theorem ChartData.exists_compile_standalone_iff {title : String} {data : ChartData}
    {id : ComponentId} :
    (∃ r, (data.standalone title).compile id = .ok r) ↔ seriesProblem? data.normalize = none := by
  rw [Chart.exists_compile_iff, ChartData.problem?_standalone, Option.map_eq_none_iff]

/-- The problem at a place among widgets. -/
def problemAt (index : Nat) (widgets : List Widget) (i : Nat) : Option Rejection :=
  widgets[i]?.bind fun w => w.problem? (index + i)

/-- The run: a widget has the index of its place. -/
theorem earliest_firstProblem? (index : Nat) (widgets : List Widget) :
    Earliest (problemAt index widgets) (firstProblem? index widgets) := by
  induction widgets generalizing index with
  | nil => exact fun _ => rfl
  | cons w rest ih =>
    have hfront : problemAt index (w :: rest) 0 = w.problem? index := rfl
    have hrest : ∀ i, problemAt (index + 1) rest i = problemAt index (w :: rest) (i + 1) := by
      intro i
      simp only [problemAt, List.getElem?_cons_succ, Nat.add_assoc, Nat.add_comm 1 i]
    rw [firstProblem?, ← hfront]
    exact Earliest.or (funext hrest ▸ ih (index + 1))

/-- Only chart widgets have problems: those of their series. -/
theorem problemAt_eq_some_iff {d : Dashboard} {i : Nat} {r : Rejection} :
    problemAt 0 d.widgets i = some r ↔
      ∃ data path complaint, d.Draws i data ∧
        seriesProblem? data.normalize = some (path, complaint) ∧
          r = { kind := .dashboard,
                path := "widgets[" ++ Decimal.integerText i ++ "].data." ++ path,
                complaint := complaint } := by
  rw [problemAt, Option.bind_eq_some_iff, Nat.zero_add]
  constructor
  · rintro ⟨w, hw, hproblem⟩
    cases w with
    | chart title data =>
      obtain ⟨⟨path, complaint⟩, hseries, rfl⟩ := Option.map_eq_some_iff.mp hproblem
      exact ⟨data, path, complaint, ⟨title, hw⟩, hseries, rfl⟩
    | metric title data => exact nomatch hproblem
    | list title data => exact nomatch hproblem
  · rintro ⟨data, path, complaint, ⟨title, hw⟩, hseries, rfl⟩
    exact ⟨.chart title data, hw, Option.map_eq_some_iff.mpr ⟨_, hseries, rfl⟩⟩

theorem problemAt_eq_none_iff {d : Dashboard} {i : Nat} :
    problemAt 0 d.widgets i = none ↔
      ∀ data, d.Draws i data → seriesProblem? data.normalize = none := by
  constructor
  · intro hnone data hdraws
    by_contra hsome
    obtain ⟨⟨path, complaint⟩, hseries⟩ := Option.ne_none_iff_exists'.mp hsome
    have := problemAt_eq_some_iff.mpr ⟨data, path, complaint, hdraws, hseries, rfl⟩
    exact nomatch hnone.symm.trans this
  · intro hnone
    by_contra hsome
    obtain ⟨r, hr⟩ := Option.ne_none_iff_exists'.mp hsome
    obtain ⟨data, path, complaint, hdraws, hseries, -⟩ := problemAt_eq_some_iff.mp hr
    exact nomatch (hnone data hdraws).symm.trans hseries

theorem problem?_eq_none_iff_draws {d : Dashboard} :
    d.problem? = none ↔ ∀ i data, d.Draws i data → seriesProblem? data.normalize = none := by
  rw [problem?, (earliest_firstProblem? 0 d.widgets).eq_none_iff]
  exact forall_congr' fun i => problemAt_eq_none_iff

/-! ## The compilers -/

/-- **Validation is exact**, and that of dashboards agrees with that of charts. -/
theorem series_validated :
    (∀ (c : Chart) (id : ComponentId), (∃ r, c.compile id = .ok r) ↔ c.Drawable) ∧
    (∀ (d : Dashboard) (id id' : ComponentId) (title : String),
      ((∃ r, d.compile id = .ok r) ↔
        ∀ i data, d.Draws i data → ∃ r, (data.standalone title).compile id' = .ok r) ∧
      ∀ r, d.compile id = .error r →
        ∃ i data cause, d.Draws i data ∧
          (∀ j < i, ∀ data', d.Draws j data' →
            ∃ r', (data'.standalone title).compile id' = .ok r') ∧
          (data.standalone title).compile id' = .error cause ∧
          data.normalize.Fault cause.path cause.complaint ∧
          r = { kind := .dashboard,
                path := "widgets[" ++ Decimal.integerText i ++ "].data." ++ cause.path,
                complaint := cause.complaint }) ∧
    ∀ data : ChartData, data.normalize.values ≠ [] ∧
      (ChartData.ofSeries data.normalize).normalize = data.normalize := by
  refine ⟨fun c id => ?_, fun d id id' title => ⟨?_, fun r hr => ?_⟩, fun data => ?_⟩
  · exact Chart.exists_compile_iff.trans Chart.problem?_eq_none_iff_drawable
  · simp only [exists_compile_iff, ChartData.exists_compile_standalone_iff]
    exact problem?_eq_none_iff_draws
  · have hearliest := earliest_firstProblem? 0 d.widgets
    obtain ⟨i, hi, hbefore⟩ := hearliest.eq_some_iff.mp (compile_eq_error_iff.mp hr)
    obtain ⟨data, path, complaint, hdraws, hseries, rfl⟩ := problemAt_eq_some_iff.mp hi
    refine ⟨i, data, { kind := .chart, path := path, complaint := complaint }, hdraws, ?_, ?_,
      seriesProblem?_eq_some_iff.mp hseries, rfl⟩
    · intro j hj data' hdraws'
      exact ChartData.exists_compile_standalone_iff.mpr
        (problemAt_eq_none_iff.mp (hbefore j hj) data' hdraws')
    · rw [Chart.compile_eq_error_iff, ChartData.problem?_standalone, hseries]
      rfl
  · exact ⟨data.normalize_values_ne_nil, ChartData.normalize_ofSeries data.normalize_values_ne_nil⟩

end Dashboard

end EmbedUI
