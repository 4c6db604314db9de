import EmbedUI.Description.Requirements
import EmbedUI.Description.Suggestion
import EmbedUI.Proofs.Text.LowerCase
import Mathlib.Data.List.Basic
import Mathlib.Data.List.Flatten

/-!
# Text around a description

What a text mentions, it still mentions when more text is put around it. So no suggestion is lost,
and of the kinds of components an earlier one may be asked for, but no later one. Fields and widgets
are not lost either, unless they only stood in because no word of the dictionary was mentioned.

The words of suggestions and those of kinds are two tables. The first three groups of suggestions
are about a kind each: whoever gets their suggestions asks for this kind, or for an earlier one.

## The architecture

* **`Mentions`**, **`Mentions.around`**: a description mentions a word, and does so with text around
  it; **`mentions_around_lowerCase`**: in full lower case too.
* **`place`**, **`place_kind`**: the order of kinds, and the kind of a description as the first one
  of its table that is mentioned.
* **`formFields_eq`**, **`dashboardWidgets_eq`**: what is picked when something is mentioned.
* **`groupKinds`**, **`place_kind_of_suggestion`**: the groups of suggestions and their kinds.
* **`nothing_lost`**: all of it together.
-/

namespace EmbedUI.Description

/-! ## Words -/

/-- The description mentions a word, in any letter case. -/
def Mentions (d keyword : String) : Prop := Text.mentions (Text.lowered d) keyword = true

instance (d keyword : String) : Decidable (Mentions d keyword) :=
  inferInstanceAs (Decidable (_ = true))

/-- The description mentions one of several words. -/
def MentionsAny (d : String) (keywords : List String) : Prop := ∃ k ∈ keywords, Mentions d k

instance (d : String) (keywords : List String) : Decidable (MentionsAny d keywords) :=
  inferInstanceAs (Decidable (∃ k ∈ keywords, Mentions d k))

theorem mentionsAny_lowered {d : String} {keywords : List String} :
    Text.mentionsAny (Text.lowered d) keywords = true ↔ MentionsAny d keywords :=
  List.any_eq_true

theorem infix_lowered (p d s : String) : Text.lowered d <:+: Text.lowered (p ++ d ++ s) := by
  rw [Text.lowered_append, Text.lowered_append]
  exact List.infix_append _ _ _

/-- **What is mentioned is still mentioned with text around it.** -/
theorem Mentions.around {d keyword : String} (h : Mentions d keyword) (p s : String) :
    Mentions (p ++ d ++ s) keyword :=
  Text.mentions_iff.mpr ((Text.mentions_iff.mp h).trans (infix_lowered p d s))

theorem MentionsAny.around {d : String} {keywords : List String} (h : MentionsAny d keywords)
    (p s : String) : MentionsAny (p ++ d ++ s) keywords := by
  obtain ⟨k, hk, hmentions⟩ := h
  exact ⟨k, hk, hmentions.around p s⟩

theorem MentionsAny.mono {d : String} {keywords others : List String} (h : MentionsAny d keywords)
    (hsubset : keywords ⊆ others) : MentionsAny d others := by
  obtain ⟨k, hk, hmentions⟩ := h
  exact ⟨k, hsubset hk, hmentions⟩

/-- The full lower case of the longer text need not contain that of the shorter one, but it mentions
what that one mentions. -/
theorem mentions_around_lowerCase {p d s : String} {t u : List Char}
    (ht : Text.LowerCase d.toList t) (hu : Text.LowerCase (p ++ d ++ s).toList u) {keyword : String}
    (hkeyword : Text.IsKeyword keyword.toList) (h : Text.mentions t keyword = true) :
    Text.mentions u keyword = true := by
  rw [Text.sameMentions_lowerCase ht keyword hkeyword] at h
  rw [Text.sameMentions_lowerCase hu keyword hkeyword]
  exact Mentions.around h p s

/-! ## Kinds -/

/-- The place of a kind in the order form, dashboard, chart, custom. -/
def place (k : ComponentKind) : Nat := ComponentKind.all.idxOf k

/-- The kind of a description is the first one whose words are mentioned. -/
theorem place_kind (d : String) :
    place (kind d) = kindWords.findIdx fun e => Text.mentionsAny (Text.lowered d) e.2 := by
  unfold kind
  simp only [kindWords, List.find?_cons, List.findIdx_cons]
  cases Text.mentionsAny (Text.lowered d) ["form", "input", "submit"] with
  | true => rfl
  | false =>
    cases Text.mentionsAny (Text.lowered d) ["dashboard", "widget", "metric"] with
    | true => rfl
    | false => cases Text.mentionsAny (Text.lowered d) ["chart", "graph", "visualization"] <;> rfl

/-- No kind comes after one whose words are mentioned. -/
theorem place_kind_le {d : String} {e : ComponentKind × List String} (he : e ∈ kindWords)
    (h : MentionsAny d e.2) : place (kind d) ≤ place e.1 := by
  have hplaces : ∀ i, ∀ hi : i < kindWords.length, place kindWords[i].1 = i := by decide
  obtain ⟨i, hi, rfl⟩ := List.getElem_of_mem he
  rw [place_kind, hplaces i hi]
  by_contra hlt
  have hnot := List.not_of_lt_findIdx (Nat.lt_of_not_le hlt)
  rw [mentionsAny_lowered.mpr h] at hnot
  cases hnot

/-- **More text asks for the same kind or for an earlier one.** -/
theorem place_kind_around (p d s : String) : place (kind (p ++ d ++ s)) ≤ place (kind d) := by
  rw [place_kind, place_kind]
  refine List.findIdx_le_findIdx fun e _ h => ?_
  exact mentionsAny_lowered.mpr ((mentionsAny_lowered.mp h).around p s)

/-! ## Fields and widgets -/

/-- The fields whose words are mentioned, if there are any. -/
theorem formFields_eq {d : String} (h : MentionsAny d (fieldDictionary.map Form.Field.name)) :
    formFields (Text.lowered d) =
      fieldDictionary.filter fun f => Text.mentions (Text.lowered d) f.name := by
  obtain ⟨_, hk, hmentions⟩ := h
  obtain ⟨f, hf, rfl⟩ := List.mem_map.mp hk
  have hmem : f ∈ fieldDictionary.filter fun f => Text.mentions (Text.lowered d) f.name :=
    List.mem_filter.mpr ⟨hf, hmentions⟩
  unfold formFields
  split
  next hnil => rw [hnil] at hmem; cases hmem
  next => rfl

/-- The widgets whose words are mentioned, if there are any. -/
theorem dashboardWidgets_eq {d : String} (h : MentionsAny d (widgetDictionary.map Prod.fst)) :
    dashboardWidgets (Text.lowered d) =
      (widgetDictionary.filter fun e => Text.mentions (Text.lowered d) e.1).map Prod.snd := by
  obtain ⟨_, hk, hmentions⟩ := h
  obtain ⟨e, he, rfl⟩ := List.mem_map.mp hk
  have hmem : e ∈ widgetDictionary.filter fun e => Text.mentions (Text.lowered d) e.1 :=
    List.mem_filter.mpr ⟨he, hmentions⟩
  unfold dashboardWidgets
  split
  next hnil => rw [hnil] at hmem; cases hmem
  next => rfl

/-- **Fields stay**, in their order, when one of them was asked for by its word. -/
theorem fields_around {d : String} (p s : String)
    (h : MentionsAny d (fieldDictionary.map Form.Field.name)) (hd : kind d = .form)
    (hlonger : kind (p ++ d ++ s) = .form) :
    (requirements d).fields.Sublist (requirements (p ++ d ++ s)).fields := by
  have hfields : ∀ x, kind x = .form → (requirements x).fields = formFields (Text.lowered x) := by
    intro x hx
    rw [requirements, hx]
  rw [hfields d hd, hfields _ hlonger, formFields_eq h, formFields_eq (h.around p s)]
  exact List.monotone_filter_right _ fun f hf => Mentions.around hf p s

/-- **Widgets stay**, in their order, when one of them was asked for by its word. -/
theorem widgets_around {d : String} (p s : String)
    (h : MentionsAny d (widgetDictionary.map Prod.fst)) (hd : kind d = .dashboard)
    (hlonger : kind (p ++ d ++ s) = .dashboard) :
    (requirements d).widgets.Sublist (requirements (p ++ d ++ s)).widgets := by
  have hwidgets : ∀ x, kind x = .dashboard →
      (requirements x).widgets = dashboardWidgets (Text.lowered x) := by
    intro x hx
    rw [requirements, hx]
  rw [hwidgets d hd, hwidgets _ hlonger, dashboardWidgets_eq h, dashboardWidgets_eq (h.around p s)]
  exact (List.monotone_filter_right _ fun e he => Mentions.around he p s).map _

/-! ## Suggestions -/

theorem mem_suggestions_iff {d x : String} : x ∈ suggestions d ↔
    ∃ g ∈ suggestionGroups, MentionsAny d g.words ∧ x ∈ g.suggestions := by
  simp only [suggestions, List.mem_flatMap, List.mem_filter, mentionsAny_lowered, and_assoc]

/-- **Suggestions stay**, in their order. -/
theorem suggestions_around (p d s : String) :
    (suggestions d).Sublist (suggestions (p ++ d ++ s)) := by
  refine List.Sublist.flatMap (List.monotone_filter_right _ fun g hg => ?_) _
  exact mentionsAny_lowered.mpr ((mentionsAny_lowered.mp hg).around p s)

/-- The groups of suggestions that are about a kind. -/
def groupKinds : List (SuggestionGroup × ComponentKind) :=
  suggestionGroups.zip [.form, .dashboard, .chart]

/-- No suggestion is in two groups. -/
theorem words_eq_of_mem_suggestions : ∀ g ∈ suggestionGroups, ∀ g' ∈ suggestionGroups,
    ∀ x ∈ g.suggestions, x ∈ g'.suggestions → g.words = g'.words := by
  decide

/-- The words of a group are among those of its kind. -/
theorem words_subset_of_mem_groupKinds :
    ∀ e ∈ groupKinds, ∃ e' ∈ kindWords, e'.1 = e.2 ∧ e.1.words ⊆ e'.2 := by
  decide

/-- **A suggestion about a kind** goes to those who ask for this kind or for an earlier one. -/
theorem place_kind_of_suggestion {d x : String} {e : SuggestionGroup × ComponentKind}
    (he : e ∈ groupKinds) (hx : x ∈ e.1.suggestions) (hd : x ∈ suggestions d) :
    place (kind d) ≤ place e.2 := by
  obtain ⟨g, hg, hwords, hxg⟩ := mem_suggestions_iff.mp hd
  rw [words_eq_of_mem_suggestions g hg e.1 (List.of_mem_zip he).1 x hxg hx] at hwords
  obtain ⟨e', he', hkind, hsubset⟩ := words_subset_of_mem_groupKinds e he
  exact hkind ▸ place_kind_le he' (hwords.mono hsubset)

theorem eq_form_of_place_le {k : ComponentKind} (h : place k ≤ place .form) : k = .form := by
  cases k with
  | form => rfl
  | dashboard | chart | custom => exact absurd h (by decide)

/-! ## The main statement -/

/-- **Text around a description takes nothing away.** The suggestions stay, the kind stays or is an
earlier one, and every word that is mentioned stays so, in any full lower case of both texts. Fields
or widgets that were asked for by a word stay too if both texts ask for a component of their kind.
And whoever gets a suggestion from the group of a kind asks for this kind or for an earlier one. -/
theorem nothing_lost (p d s : String) :
    (suggestions d).Sublist (suggestions (p ++ d ++ s)) ∧
    place (kind (p ++ d ++ s)) ≤ place (kind d) ∧
    (∀ keyword, Mentions d keyword → Mentions (p ++ d ++ s) keyword) ∧
    (∀ t u : List Char, Text.LowerCase d.toList t → Text.LowerCase (p ++ d ++ s).toList u →
      ∀ keyword : String, Text.IsKeyword keyword.toList →
        Text.mentions t keyword = true → Text.mentions u keyword = true) ∧
    (MentionsAny d (fieldDictionary.map Form.Field.name) →
      kind d = .form → kind (p ++ d ++ s) = .form →
        (requirements d).fields.Sublist (requirements (p ++ d ++ s)).fields) ∧
    (MentionsAny d (widgetDictionary.map Prod.fst) →
      kind d = .dashboard → kind (p ++ d ++ s) = .dashboard →
        (requirements d).widgets.Sublist (requirements (p ++ d ++ s)).widgets) ∧
    ∀ e ∈ groupKinds, ∀ x ∈ e.1.suggestions, x ∈ suggestions d →
      place (kind d) ≤ place e.2 ∧ (e.2 = .form → kind d = .form) := by
  refine ⟨suggestions_around p d s, place_kind_around p d s, fun _ h => h.around p s, ?_,
    fields_around p s, widgets_around p s, ?_⟩
  · intro t u ht hu keyword hkeyword
    exact mentions_around_lowerCase ht hu hkeyword
  · intro e he x hx hd
    have hplace := place_kind_of_suggestion he hx hd
    exact ⟨hplace, fun hform => eq_form_of_place_le (hform ▸ hplace)⟩

/-- Names two widgets, the later one first. -/
def shortDashboard : String := "DASHBOARD of sales by user"

/-- Names a field, and a suggestion about forms goes to it. -/
def shortForm : String := "a \u212aind of form with an EMAIL"

/-- Ends with a capital sigma, and asks for nothing. -/
def greekFront : String := "ΟΔΟΣ"

theorem nothing_lost_greekFront :
    (MentionsAny shortDashboard (widgetDictionary.map Prod.fst) ∧ kind shortDashboard = .dashboard ∧
      kind (greekFront ++ shortDashboard ++ ", revenue") = .dashboard ∧
      (requirements shortDashboard).widgets.Sublist
        (requirements (greekFront ++ shortDashboard ++ ", revenue")).widgets) ∧
    (MentionsAny shortForm (fieldDictionary.map Form.Field.name) ∧ kind shortForm = .form ∧
      kind (greekFront ++ shortForm ++ ", name") = .form ∧
      (requirements shortForm).fields.Sublist
        (requirements (greekFront ++ shortForm ++ ", name")).fields) ∧
    (Mentions shortForm "email" ∧ Mentions (greekFront ++ shortForm ++ ", name") "email") ∧
    ("Survey form with multiple choice questions" ∈ suggestions shortForm ∧
      kind shortForm = .form) := by
  obtain ⟨-, -, -, -, -, hwidgets, -⟩ := nothing_lost greekFront shortDashboard ", revenue"
  obtain ⟨-, -, hmentions, -, hfields, -, hgroup⟩ := nothing_lost greekFront shortForm ", name"
  have hnamed : MentionsAny shortDashboard (widgetDictionary.map Prod.fst) := by decide
  have hdashboard : kind shortDashboard = .dashboard := by decide
  have hlonger : kind (greekFront ++ shortDashboard ++ ", revenue") = .dashboard := by decide
  have hasked : MentionsAny shortForm (fieldDictionary.map Form.Field.name) := by decide
  have hemail : Mentions shortForm "email" := by decide
  have hsurvey : "Survey form with multiple choice questions" ∈ suggestions shortForm := by decide
  have hform : kind shortForm = .form :=
    (hgroup (groupKinds.get ⟨0, by decide⟩) (List.get_mem _ _) _ (by decide) hsurvey).2 rfl
  have hlongerForm : kind (greekFront ++ shortForm ++ ", name") = .form := by decide
  exact ⟨⟨hnamed, hdashboard, hlonger, hwidgets hnamed hdashboard hlonger⟩,
    ⟨hasked, hform, hlongerForm, hfields hasked hform hlongerForm⟩,
    ⟨hemail, hmentions _ hemail⟩, hsurvey, hform⟩

end EmbedUI.Description
