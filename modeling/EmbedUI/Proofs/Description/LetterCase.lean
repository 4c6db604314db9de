import EmbedUI.Description.Requirements
import EmbedUI.Description.Suggestion
import EmbedUI.Proofs.Text.LowerCase
import Mathlib

/-!
# Descriptions in any letter case

Two descriptions that differ in nothing but the case of ASCII letters ask for the same component,
and their titles differ in nothing else either. The words are looked for in the lower case of the
text; the title is cut out of the text itself, by characters that are no letters.

## The architecture

* **`SameLetters`**: the relation between the two texts.
* **`Caseless`**: a class of characters without letters. It makes no difference whether a text is
  cut by such a class first and has its case changed then, or the other way round.
* **`firstTitle?_map_toLower`**: reading a title and changing its case, step by step through the
  reader.
* **`lowered_congr`**: the words are looked for in the same text.
* **`asked`**, **`asked_congr`**: what all passes make of the text in which they look for words. It
  is the same for every text that mentions the same words.
* **`case_ignored`**: words and titles together.
-/

namespace EmbedUI.Description

/-- The characters of a text, without regard to the case of ASCII letters. -/
def letters (s : String) : List Char := s.toList.map Char.toLower

/-- The texts differ at most in the case of ASCII letters. -/
def SameLetters (a b : String) : Prop := letters a = letters b

instance : DecidableRel SameLetters := fun a b =>
  inferInstanceAs (Decidable (letters a = letters b))

/-! ## Classes without letters -/

/-- A class of characters that does not see the case of letters. -/
def Caseless (p : Char → Bool) : Prop := ∀ c : Char, p c.toLower = p c

theorem Caseless.of_letters {p : Char → Bool} (h : ∀ c : Char, c.isAlpha = true → p c = false) :
    Caseless p := by
  intro c
  by_cases hc : c.isAlpha = true
  · rw [h c hc, h c.toLower (by rw [Char.isAlpha_toLower_eq_isAlpha, hc])]
  · have hupper : ¬ c.isUpper = true := fun hupper =>
      hc (by rw [Char.isAlpha, hupper, Bool.true_or])
    rw [Char.toLower_eq_of_not_isUpper hupper]

theorem Caseless.not {p : Char → Bool} (h : Caseless p) : Caseless fun c => !p c :=
  fun c => congrArg (!·) (h c)

theorem Caseless.takeWhile_map {p : Char → Bool} (h : Caseless p) (cs : List Char) :
    (cs.map Char.toLower).takeWhile p = (cs.takeWhile p).map Char.toLower := by
  rw [List.takeWhile_map, show p ∘ Char.toLower = p from funext h]

theorem Caseless.dropWhile_map {p : Char → Bool} (h : Caseless p) (cs : List Char) :
    (cs.map Char.toLower).dropWhile p = (cs.dropWhile p).map Char.toLower := by
  rw [List.dropWhile_map, show p ∘ Char.toLower = p from funext h]

theorem toNat_of_isAlpha {c : Char} (h : c.isAlpha = true) :
    65 ≤ c.toNat ∧ c.toNat ≤ 90 ∨ 97 ≤ c.toNat ∧ c.toNat ≤ 122 := by
  rw [Char.isAlpha, Bool.or_eq_true] at h
  obtain hupper | hlower := h
  · exact Or.inl (of_decide_eq_true hupper)
  · rw [Char.isLower, Bool.and_eq_true] at hlower
    exact Or.inr ⟨of_decide_eq_true hlower.1, of_decide_eq_true hlower.2⟩

theorem isBlank_of_isAlpha {c : Char} (h : c.isAlpha = true) : Text.isBlank c = false := by
  have hrange := toNat_of_isAlpha h
  simp [Text.isBlank, Text.inRanges, Text.blankRanges]
  omega

theorem ne_of_isAlpha {c d : Char} (h : c.isAlpha = true) (hd : d.isAlpha = false) :
    decide (c = d) = false := by
  rw [decide_eq_false_iff_not]
  rintro rfl
  rw [h] at hd
  cases hd

theorem caseless_isBlank : Caseless Text.isBlank := .of_letters fun _ => isBlank_of_isAlpha

theorem caseless_isSeparator : Caseless isSeparator := .of_letters fun c hc => by
  rw [isSeparator, ne_of_isAlpha hc rfl, isBlank_of_isAlpha hc]
  rfl

theorem caseless_endsTitle : Caseless endsTitle := .of_letters fun c hc => by
  rw [endsTitle, ne_of_isAlpha hc rfl, ne_of_isAlpha hc rfl, ne_of_isAlpha hc rfl]
  rfl

theorem caseless_lineFeed : Caseless fun c => c = '\n' := .of_letters fun _ hc =>
  ne_of_isAlpha hc rfl

/-! ## Titles -/

theorem trimmed_map_toLower (cs : List Char) :
    Text.trimmed (cs.map Char.toLower) = (Text.trimmed cs).map Char.toLower := by
  unfold Text.trimmed
  rw [caseless_isBlank.dropWhile_map, ← List.map_reverse, caseless_isBlank.dropWhile_map,
    ← List.map_reverse]

theorem afterWord?_map_toLower (word cs : List Char) :
    afterWord? word (cs.map Char.toLower) = (afterWord? word cs).map (List.map Char.toLower) := by
  induction word generalizing cs with
  | nil => rfl
  | cons c word ih =>
    cases cs with
    | nil => rfl
    | cons d cs =>
      rw [List.map_cons, afterWord?, afterWord?, Char.toLower_toLower_eq_toLower]
      split
      · exact ih cs
      · rfl

theorem givenUp?_map_toLower (run : List Char) :
    givenUp? (run.map Char.toLower) = (givenUp? run).map Char.toLower := by
  unfold givenUp?
  rw [← List.map_drop, ← List.map_reverse, caseless_lineFeed.dropWhile_map, List.head?_map]

theorem titleBehind?_map_toLower (rest : List Char) :
    titleBehind? (rest.map Char.toLower) = (titleBehind? rest).map (List.map Char.toLower) := by
  unfold titleBehind?
  dsimp only
  rw [caseless_isSeparator.takeWhile_map, caseless_isSeparator.dropWhile_map,
    caseless_endsTitle.not.takeWhile_map, givenUp?_map_toLower, List.isEmpty_map, List.isEmpty_map]
  split
  · rfl
  · split
    · rw [Option.map_map, Option.map_map]
      rfl
    · rfl

/-- **Reading a title and changing its case** can be done in either order. -/
theorem firstTitle?_map_toLower (cs : List Char) :
    firstTitle? (cs.map Char.toLower) = (firstTitle? cs).map (List.map Char.toLower) := by
  induction cs with
  | nil => rfl
  | cons c cs ih =>
    have hhere : (afterWord? ['t', 'i', 't', 'l', 'e'] ((c :: cs).map Char.toLower)).bind
        titleBehind? = ((afterWord? ['t', 'i', 't', 'l', 'e'] (c :: cs)).bind titleBehind?).map
          (List.map Char.toLower) := by
      rw [afterWord?_map_toLower, Option.bind_map, Option.map_bind]
      exact congrArg _ (funext titleBehind?_map_toLower)
    rw [List.map_cons] at hhere ⊢
    rw [firstTitle?, firstTitle?, hhere, ih]
    cases (afterWord? ['t', 'i', 't', 'l', 'e'] (c :: cs)).bind titleBehind? <;> rfl

theorem letters_ofList (cs : List Char) : letters (String.ofList cs) = cs.map Char.toLower := by
  rw [letters, String.toList_ofList]

/-- The title without regard to case, read from the text without regard to case. -/
theorem map_letters_title? (d : String) :
    (title? d).map letters = (firstTitle? (letters d)).bind fun title =>
      if (Text.trimmed title).isEmpty then none else some (Text.trimmed title) := by
  rw [title?, letters, firstTitle?_map_toLower, Option.map_bind, Option.bind_map]
  refine congrArg _ (funext fun title => ?_)
  simp only [Function.comp_apply, trimmed_map_toLower, List.isEmpty_map]
  split
  · rfl
  · rw [Option.map_some, letters_ofList]

theorem rel_of_map_eq_map {α β : Type} {f : α → β} {x y : Option α} (h : x.map f = y.map f) :
    Option.Rel (fun a b => f a = f b) x y := by
  cases x with
  | none =>
    cases y with
    | none => exact .none
    | some b => cases h
  | some a =>
    cases y with
    | none => cases h
    | some b => exact .some (Option.some.inj h)

theorem rel_getD {α : Type} {r : α → α → Prop} {x y : Option α} (h : Option.Rel r x y) {absent : α}
    (habsent : r absent absent) : r (x.getD absent) (y.getD absent) := by
  cases h with
  | some h => exact h
  | none => exact habsent

theorem title?_rel {a b : String} (h : SameLetters a b) :
    Option.Rel SameLetters (title? a) (title? b) := by
  refine rel_of_map_eq_map ?_
  rw [map_letters_title?, map_letters_title?, show letters a = letters b from h]

/-! ## Words -/

theorem lowerChar_toLower (c : Char) : Text.lowerChar c.toLower = Text.lowerChar c := by
  by_cases hc : c.isUpper = true
  · have hlower : c.toLower.isUpper = false := Char.isUpper_toLower_eq_false c
    have hascii : c.toLower.toNat < 128 := by
      have halpha : c.toLower.isAlpha = true := by
        rw [Char.isAlpha_toLower_eq_isAlpha, Char.isAlpha, hc, Bool.true_or]
      have hrange := toNat_of_isAlpha halpha
      omega
    have hi : c.toLower ≠ '\u0130' := fun h => absurd (h ▸ hascii) (by decide)
    have hk : c.toLower ≠ '\u212a' := fun h => absurd (h ▸ hascii) (by decide)
    rw [Text.lowerChar, Text.lowerChar, if_neg (by rw [hlower]; decide), if_neg hi, if_neg hk,
      if_pos hc]
  · rw [Char.toLower_eq_of_not_isUpper hc]

theorem lowered_eq (s : String) : Text.lowered s = (letters s).flatMap Text.lowerChar := by
  rw [Text.lowered, letters, List.flatMap_map]
  exact congrArg (List.flatMap · s.toList) (funext fun c => (lowerChar_toLower c).symm)

/-- **The words are looked for in the same text.** -/
theorem lowered_congr {a b : String} (h : SameLetters a b) : Text.lowered a = Text.lowered b := by
  rw [lowered_eq, lowered_eq, show letters a = letters b from h]

/-! ## What the words ask for -/

/-- What the words of a lowered text ask for, whatever the kind. -/
structure Asked where
  kind : Option ComponentKind
  fields : List Form.Field
  widgets : List Dashboard.Widget
  data : Chart.Data
  markup : Markup.Node
  groups : List SuggestionGroup

/-- All passes over a lowered text. -/
def asked (text : List Char) : Asked where
  kind := (kindWords.find? fun entry => Text.mentionsAny text entry.2).map Prod.fst
  fields := formFields text
  widgets := dashboardWidgets text
  data := chartData text
  markup := snippet text
  groups := suggestionGroups.filter fun g => Text.mentionsAny text g.words

theorem keywords_fieldDictionary : ∀ f ∈ fieldDictionary, Text.IsKeyword f.name.toList := by
  decide

theorem keywords_widgetDictionary : ∀ e ∈ widgetDictionary, Text.IsKeyword e.1.toList := by
  decide

theorem keywords_kindWords : ∀ e ∈ kindWords, ∀ k ∈ e.2, Text.IsKeyword k.toList := by
  decide

theorem keywords_suggestionGroups :
    ∀ g ∈ suggestionGroups, ∀ k ∈ g.words, Text.IsKeyword k.toList := by
  decide

/-- **All passes look for keywords.** -/
theorem asked_congr {t u : List Char} (h : Text.SameMentions t u) : asked t = asked u := by
  have hkind : (kindWords.find? fun e => Text.mentionsAny t e.2) =
      kindWords.find? fun e => Text.mentionsAny u e.2 :=
    List.find?_congr fun e he => h.any e.2 (keywords_kindWords e he)
  have hfields : formFields t = formFields u := by
    unfold formFields
    rw [List.filter_congr fun f hf => h f.name (keywords_fieldDictionary f hf)]
  have hwidgets : dashboardWidgets t = dashboardWidgets u := by
    unfold dashboardWidgets
    rw [List.filter_congr fun e he => h e.1 (keywords_widgetDictionary e he)]
  have hdata : chartData t = chartData u := by
    unfold chartData chartStyle chartSeries
    rw [h.any ["pie", "circle"] (by decide), h.any ["sales", "revenue"] (by decide),
      h.any ["user", "traffic"] (by decide)]
  have hmarkup : snippet t = snippet u := by
    unfold snippet
    rw [h.any ["card", "profile"] (by decide), h.any ["button", "cta"] (by decide)]
  have hgroups : (suggestionGroups.filter fun g => Text.mentionsAny t g.words) =
      suggestionGroups.filter fun g => Text.mentionsAny u g.words :=
    List.filter_congr fun g hg => h.any g.words (keywords_suggestionGroups g hg)
  unfold asked
  rw [hkind, hfields, hwidgets, hdata, hmarkup, hgroups]

/-! ## The main statement -/

theorem kind_congr {a b : String} (h : SameLetters a b) : kind a = kind b := by
  unfold kind
  rw [lowered_congr h]

theorem title_requirements (d : String) :
    (requirements d).title = (title? d).getD (defaultTitle (kind d)) := by
  unfold requirements
  cases kind d <;> rfl

/-- **Letter case is ignored.** Two descriptions with the same letters ask for the same component and
call up the same suggestions. Both name a title or none does, and the titles have the same letters.
Nothing depends on how the lower case of other characters is formed: in whatever lower case of the
two texts the words are looked for, the passes agree. -/
theorem case_ignored {a b : String} (h : SameLetters a b) :
    kind a = kind b ∧
    { requirements a with title := (requirements b).title } = requirements b ∧
    SameLetters (requirements a).title (requirements b).title ∧
    Option.Rel SameLetters (title? a) (title? b) ∧
    suggestions a = suggestions b ∧
    ∀ t u : List Char, Text.LowerCase a.toList t → Text.LowerCase b.toList u →
      asked t = asked u := by
  have hkind := kind_congr h
  have hlowered := lowered_congr h
  have htitle := title?_rel h
  refine ⟨hkind, ?_, ?_, htitle, ?_, ?_⟩
  · unfold requirements
    rw [hkind, hlowered]
    cases kind b <;> rfl
  · rw [title_requirements, title_requirements, hkind]
    exact rel_getD htitle rfl
  · unfold suggestions
    rw [hlowered]
  · intro t u ht hu
    rw [asked_congr (Text.sameMentions_lowerCase ht), asked_congr (Text.sameMentions_lowerCase hu),
      hlowered]

/-- A description with a capital sigma and a Kelvin sign. -/
def calmForm : String := "ΟΔΟΣ form, title: Weekly \u212a Report. With email and phone"

/-- The same one, in other letters. -/
def shoutedForm : String := "ΟΔΟΣ FORM, TiTLe: wEEKLY \u212a rePORT. WITH eMail AND PHONE"

theorem case_ignored_shoutedForm :
    SameLetters calmForm shoutedForm ∧ kind calmForm = .form ∧ kind shoutedForm = .form ∧
      title? calmForm = some "Weekly \u212a Report" ∧
      title? shoutedForm = some "wEEKLY \u212a rePORT" ∧
      { requirements calmForm with title := (requirements shoutedForm).title } =
        requirements shoutedForm ∧
      suggestions calmForm = suggestions shoutedForm ∧
      asked (Text.lowered calmForm) = asked (Text.lowered shoutedForm) := by
  have hsame : SameLetters calmForm shoutedForm := by decide
  have hcalm : kind calmForm = .form := by decide
  obtain ⟨hkind, hrequirements, -, -, hsuggestions, hasked⟩ := case_ignored hsame
  exact ⟨hsame, hcalm, hkind ▸ hcalm, by decide, by decide, hrequirements, hsuggestions,
    hasked _ _ (Text.lowerCase_lowered _) (Text.lowerCase_lowered _)⟩

end EmbedUI.Description
