import EmbedUI.Description.Requirements
import EmbedUI.Proofs.Component.Validity
import Mathlib.Data.List.Nodup

/-!
# Every description can be compiled

The words of a description pick entries from four tables, and the compilers check what they are
handed by rules of their own. Here the two are brought together: whatever the words, the part that
is filled in is fit for its kind, the other parts are empty, and the compiler of the kind finds no
problem.

## The architecture

* **`FittingFields`, `FittingWidgets`, `FittingData`, `FittingHtml`**: what each part looks like
  when it is filled in, and **`Fitting`**: requirements of a kind with this part and no other.
* **`fitting_formFields`** and its three siblings: what the words pick is fit. A selection of fields
  or widgets is a sublist of its table, so what holds of all entries of a table holds of it.
* **`problem?_formFields`** and its three siblings: the compilers agree.
* **`described_compiles`**: the four kinds together.
-/

namespace EmbedUI.Description

open Form Dashboard

/-! ## Parts that are filled in -/

/-- Fields of the dictionary in its order, none twice; choices are there exactly when one has to
choose. -/
structure FittingFields (fields : List Field) : Prop where
  nonempty : fields ≠ []
  distinct : (fields.map Field.name).Nodup
  ordered : fields.Sublist fieldDictionary
  options : ∀ f ∈ fields, f.options.isSome ↔ f.kind = .select

/-- Widgets of the dictionary in its order, or the two that stand in when no word is mentioned. -/
structure FittingWidgets (widgets : List Widget) : Prop where
  nonempty : widgets ≠ []
  ordered : widgets.Sublist (widgetDictionary.map Prod.snd) ∨
    widgets = [usersWidget, activityWidget]

/-- Values with a label each, and something to divide among the slices of a pie. -/
structure FittingData (data : Chart.Data) : Prop where
  nonempty : data.values ≠ []
  labelled : data.labels.length = data.values.length
  positive : 0.0 < Chart.total data.values

def FittingHtml (html : Option String) : Prop := ∃ s, html = some s ∧ Text.allBlank s = false

/-- The part of the kind is filled in, and the others are empty. -/
def Fitting (r : Requirements) : Prop :=
  match r.kind with
  | .form =>
    FittingFields r.fields ∧ r = { Requirements.blank .form r.title with fields := r.fields }
  | .dashboard =>
    FittingWidgets r.widgets ∧
      r = { Requirements.blank .dashboard r.title with widgets := r.widgets }
  | .chart => FittingData r.data ∧ r = { Requirements.blank .chart r.title with data := r.data }
  | .custom => FittingHtml r.html ∧ r = { Requirements.blank .custom r.title with html := r.html }

/-! ## Fields -/

theorem formFields_sublist (text : List Char) : (formFields text).Sublist fieldDictionary := by
  unfold formFields
  split
  · exact List.filter_sublist
  · exact List.filter_sublist

theorem formFields_ne_nil (text : List Char) : formFields text ≠ [] := by
  unfold formFields
  split
  · decide
  · next hfields => exact hfields

theorem fieldDictionary_options :
    ∀ f ∈ fieldDictionary, f.options.isSome ↔ f.kind = .select := by
  decide

theorem fitting_formFields (text : List Char) : FittingFields (formFields text) := by
  have hsublist := formFields_sublist text
  have hnames : (fieldDictionary.map Field.name).Nodup := by decide
  exact
    { nonempty := formFields_ne_nil text
      distinct := (hsublist.map Field.name).nodup hnames
      ordered := hsublist
      options := fun f hf => fieldDictionary_options f (hsublist.subset hf) }

theorem problem?_formFields (title : String) (text : List Char) (submitText : String) :
    Form.problem? { title := title, fields := formFields text, submitText := submitText } =
      none := by
  have hsublist := formFields_sublist text
  have hnamed : ∀ f ∈ fieldDictionary, Text.allBlank f.name = false := by decide
  have hselects : ∀ f ∈ fieldDictionary, f.kind = .select → f.options.getD [] ≠ [] := by decide
  rw [Form.problem?_eq_none_iff]
  refine ⟨?_, (fitting_formFields text).distinct, ?_⟩
  · intro f hf
    exact hnamed f (hsublist.subset hf)
  · intro f hf
    exact hselects f (hsublist.subset hf)

/-! ## Widgets -/

theorem dashboardWidgets_sublist (text : List Char) :
    (dashboardWidgets text).Sublist (widgetDictionary.map Prod.snd) := by
  unfold dashboardWidgets
  split
  · -- the two that stand in are the first and the fourth of the dictionary
    exact .cons_cons _ (.cons _ (.cons _ (.cons_cons _ (.cons _ .slnil))))
  · exact List.filter_sublist.map Prod.snd

theorem dashboardWidgets_ne_nil (text : List Char) : dashboardWidgets text ≠ [] := by
  unfold dashboardWidgets
  split
  · exact List.cons_ne_nil _ _
  · next hentries => exact fun hnil => hentries (List.map_eq_nil_iff.mp hnil)

theorem fitting_dashboardWidgets (text : List Char) : FittingWidgets (dashboardWidgets text) where
  nonempty := dashboardWidgets_ne_nil text
  ordered := Or.inl (dashboardWidgets_sublist text)

theorem widgetDictionary_problem? : ∀ w ∈ widgetDictionary.map Prod.snd, w.problem? 0 = none := by
  decide

theorem problem?_dashboardWidgets (title : String) (text : List Char) :
    Dashboard.problem? { title := title, widgets := dashboardWidgets text } = none := by
  rw [Dashboard.problem?_eq_none_iff]
  intro w hw
  exact widgetDictionary_problem? w ((dashboardWidgets_sublist text).subset hw)

/-! ## Charts -/

theorem chartSeries_cases {P : Chart.Series → Prop} (text : List Char) (hsales : P salesSeries)
    (htraffic : P trafficSeries) (hquarter : P quarterSeries) : P (chartSeries text) := by
  unfold chartSeries
  split
  · exact hsales
  · split
    · exact htraffic
    · exact hquarter

theorem fitting_chartData (text : List Char) : FittingData (chartData text) where
  nonempty := by
    show (chartSeries text).values ≠ []
    exact chartSeries_cases (P := fun s => s.values ≠ []) text (List.cons_ne_nil _ _)
      (List.cons_ne_nil _ _) (List.cons_ne_nil _ _)
  labelled := chartSeries_cases (P := fun s => s.labels.length = s.values.length) text rfl rfl rfl
  positive := chartSeries_cases (P := fun s => 0.0 < Chart.total s.values) text (by decide)
    (by decide) (by decide)

theorem problem?_chartData (title : String) (text : List Char) :
    Chart.problem?
      { title := title, style := (chartData text).style, values := (chartData text).values,
        labels := (chartData text).labels } = none := by
  rw [Chart.problem?_eq_none_iff]
  refine ⟨?_, fun _ => ?_⟩
  · exact chartSeries_cases (P := fun s => s.problem? = none) text (by decide) (by decide)
      (by decide)
  · exact chartSeries_cases (P := fun s => Chart.pieProblem? s.values = none) text (by decide)
      (by decide) (by decide)

/-! ## Snippets -/

theorem allBlank_element (tag : String) (attributes : List Markup.Attribute)
    (children : List Markup.Node) :
    Text.allBlank (Markup.Node.element tag attributes children).render = false := by
  -- a tag opens with a character that is not blank
  have hchars : (Markup.Node.element tag attributes children).chars =
      '<' :: (tag.toList ++ attributes.flatMap Markup.Attribute.chars ++ ['>']
        ++ Markup.nodesChars children ++ Markup.closeTag tag) := by
    simp [Markup.Node.chars, Markup.openTag]
  have hopen : Text.isBlank '<' = false := by decide
  rw [Text.allBlank, Markup.Node.render, String.toList_ofList, hchars, List.all_cons, hopen]
  rfl

theorem allBlank_snippet (text : List Char) : Text.allBlank (snippet text).render = false := by
  unfold snippet
  split
  · exact allBlank_element _ _ _
  · split
    · exact allBlank_element _ _ _
    · exact allBlank_element _ _ _

/-! ## Descriptions -/

theorem kind_requirements (d : String) : (requirements d).kind = kind d := by
  unfold requirements
  cases kind d <;> rfl

theorem fitting_requirements (d : String) : Fitting (requirements d) := by
  unfold requirements
  cases kind d with
  | form => exact ⟨fitting_formFields _, rfl⟩
  | dashboard => exact ⟨fitting_dashboardWidgets _, rfl⟩
  | chart => exact ⟨fitting_chartData _, rfl⟩
  | custom => exact ⟨⟨_, rfl, allBlank_snippet _⟩, rfl⟩

theorem compile_requirements (d : String) (id : ComponentId) :
    ∃ resource, (requirements d).compile id = .ok resource := by
  unfold requirements
  cases kind d with
  | form => exact ⟨_, Form.compile_ok_iff.mpr ⟨problem?_formFields _ _ _, rfl⟩⟩
  | dashboard => exact ⟨_, Dashboard.compile_ok_iff.mpr ⟨problem?_dashboardWidgets _ _, rfl⟩⟩
  | chart => exact ⟨_, Chart.compile_ok_iff.mpr ⟨problem?_chartData _ _, rfl⟩⟩
  | custom =>
    exact ⟨_, Custom.compile_ok_iff.mpr
      ⟨Custom.problem?_eq_none_iff.mpr (allBlank_snippet _), rfl⟩⟩

/-- **Generation from a description never fails.** Every text is of a kind, the requirements that it
gives rise to have the part of this kind and no other, and they are compiled under every identity
of a component of the kind. -/
theorem described_compiles (d : String) :
    Fitting (requirements d) ∧
      ∀ (space user : String) (created : Int), ∃ resource,
        (requirements d).compile
          { space := space, kind := (requirements d).kind, user := user, created := created } =
            .ok resource :=
  ⟨fitting_requirements d, fun _ _ _ => compile_requirements d _⟩

end EmbedUI.Description
