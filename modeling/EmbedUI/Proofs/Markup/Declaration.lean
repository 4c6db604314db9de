import EmbedUI.Proofs.Markup.Selection

/-!
# Reading inline styles

An inline style is a list of declarations with semicolons between them, and a declaration is the
name of a property and its value with a colon between them. Sizes and colours of what is drawn
stand in such declarations, among others that are always the same.

## The architecture

* **`declarations`**, **`styleValue?`**: what a style declares.
* **`styleValue?_between`**: a declaration between others is found.
* **`GradientStop`**, **`gradientStops?`**: the stops of a conic gradient.
-/

namespace EmbedUI.Markup

open Text

/-! ## Declarations -/

/-- The name of a property and its value. -/
def declaration (cs : List Char) : List Char × List Char :=
  (trimmed (cs.takeWhile (· != ':')), trimmed ((cs.dropWhile (· != ':')).drop 1))

def declarations (cs : List Char) : List (List Char × List Char) := (cs.splitOn ';').map declaration

/-- The value of a property. The last declaration of a property counts. -/
def styleValue? (property : String) (style : String) : Option String :=
  ((declarations style.toList).reverse.lookup property.toList).map String.ofList

/-- What the style of an element says about a property. -/
def Content.declared? (property : String) (e : Content) : Option String :=
  (e.attribute? "style").bind (styleValue? property)

@[simp] theorem declared?_styled (property name style : String) (children : List Content) :
    (Content.element name [("style", style)] children).declared? property =
      styleValue? property style := rfl

@[simp] theorem declared?_classed (property name kind style : String) (children : List Content) :
    (Content.element name [("class", kind), ("style", style)] children).declared? property =
      styleValue? property style := rfl

example : styleValue? "height" "width: 36px; height: 120.5px; color: white;" = some "120.5px" := by
  decide

theorem declarations_append (before after : List Char) :
    declarations (before ++ ';' :: after) = declarations before ++ declarations after := by
  rw [declarations, splitOn_append_cons, List.map_append]
  rfl

theorem declaration_eq {property value : List Char} (hcolon : ':' ∉ property)
    (hproperty : trimmed property = property) (hvalue : trimmed value = value) :
    declaration (' ' :: property ++ ':' :: ' ' :: value) = (property, value) := by
  -- the first colon is the one behind the name
  have hpass : ∀ c ∈ ' ' :: property, (c != ':') = true := by
    rintro c hc
    rcases List.mem_cons.mp hc with rfl | hc
    · decide
    · have hne : c ≠ ':' := fun heq => hcolon (heq ▸ hc)
      simpa using hne
  have htake : (' ' :: property ++ ':' :: ' ' :: value).takeWhile (· != ':') = ' ' :: property := by
    rw [List.takeWhile_append_of_pos hpass]
    simp
  have hdrop : (' ' :: property ++ ':' :: ' ' :: value).dropWhile (· != ':') =
      ':' :: ' ' :: value := by
    rw [List.dropWhile_append_of_pos hpass]
    rfl
  rw [declaration, htake, hdrop, trimmed_blank_cons (by decide), hproperty]
  show (property, trimmed (' ' :: value)) = _
  rw [trimmed_blank_cons (by decide), hvalue]

/-- **A declaration between others.** Nothing behind it may be about the same property. -/
theorem styleValue?_between {property value style : String} (before after : List Char)
    (hstyle : style.toList =
      before ++ ';' :: (' ' :: property.toList ++ ':' :: ' ' :: value.toList) ++ ';' :: after)
    (hproperty : trimmed property.toList = property.toList ∧ ':' ∉ property.toList ∧
      ';' ∉ property.toList)
    (hvalue : trimmed value.toList = value.toList ∧ ';' ∉ value.toList)
    (hafter : ∀ d ∈ declarations after, d.1 ≠ property.toList) :
    styleValue? property style = some value := by
  have hdeclaration : declarations (' ' :: property.toList ++ ':' :: ' ' :: value.toList) =
      [(property.toList, value.toList)] := by
    have hsemicolon : ';' ∉ ' ' :: property.toList ++ ':' :: ' ' :: value.toList := by
      simp [hproperty.2.2, hvalue.2]
    rw [declarations, List.splitOn_eq_singleton hsemicolon, List.map_singleton,
      declaration_eq hproperty.2.1 hproperty.1 hvalue.1]
  -- the last declaration counts, so the search starts at the end
  have hnone : (declarations after).reverse.lookup property.toList = none := by
    rw [List.lookup_eq_none_iff]
    intro d hd
    have hne := hafter d (List.mem_reverse.mp hd)
    simpa using Ne.symm hne
  rw [styleValue?, hstyle, List.append_assoc, List.cons_append, declarations_append,
    declarations_append, hdeclaration, List.reverse_append, List.reverse_append]
  simp [List.lookup_append, hnone]

/-! ## Gradients -/

/-- A colour and where it starts and ends, as they are written. -/
structure GradientStop where
  color : String
  start : String
  stop : String
deriving DecidableEq, Repr

def gradientStop? : List (List Char) → Option GradientStop
  | [color, start, stop] =>
    some ⟨String.ofList color, String.ofList start, String.ofList stop⟩
  | _ => none

/-- What stands in the parentheses behind the name of a function, if there is nothing else. -/
def inside? (function cs : List Char) : Option (List Char) :=
  if (function ++ ['(']).isPrefixOf cs ∧ cs.getLast? = some ')' then
    some (cs.drop (function.length + 1)).dropLast
  else none

/-- The stops of a conic gradient. -/
def gradientStops? (value : String) : Option (List GradientStop) :=
  (inside? "conic-gradient".toList value.toList).bind fun cs => (items cs).mapM gradientStop?

example : gradientStops? "conic-gradient(red 0% 50%, #0f0 50% 100%)" =
    some [⟨"red", "0%", "50%"⟩, ⟨"#0f0", "50%", "100%"⟩] := by
  decide

theorem inside?_eq (function cs : List Char) :
    inside? function (function ++ '(' :: cs ++ [')']) = some cs := by
  have hstart : (function ++ ['(']).isPrefixOf (function ++ '(' :: cs ++ [')']) = true := by
    rw [List.isPrefixOf_iff_prefix]
    exact ⟨cs ++ [')'], by simp⟩
  have hdrop : (function ++ '(' :: cs ++ [')']).drop (function.length + 1) = cs ++ [')'] := by
    have happend : function ++ '(' :: cs ++ [')'] = (function ++ ['(']) ++ (cs ++ [')']) := by simp
    rw [happend]
    exact List.drop_left' (by simp)
  rw [inside?, if_pos ⟨hstart, List.getLast?_concat⟩, hdrop, List.dropLast_concat]

/-- A word that stands in a list of stops as it is. -/
def IsPlainWord (w : String) : Prop := w.toList ≠ [] ∧ ' ' ∉ w.toList ∧ ',' ∉ w.toList

/-- A stop whose parts are words. -/
structure GradientStop.Plain (s : GradientStop) : Prop where
  color : IsPlainWord s.color
  start : IsPlainWord s.start
  stop : IsPlainWord s.stop

/-- How a stop is written. -/
def GradientStop.text (s : GradientStop) : String := s.color ++ " " ++ s.start ++ " " ++ s.stop

theorem GradientStop.toList_text (s : GradientStop) :
    s.text.toList = s.color.toList ++ ' ' :: (s.start.toList ++ ' ' :: s.stop.toList) := by
  simp [GradientStop.text]

theorem GradientStop.Plain.comma {s : GradientStop} (h : s.Plain) : ',' ∉ s.text.toList := by
  rw [s.toList_text]
  simp [h.color.2.2, h.start.2.2, h.stop.2.2]

theorem GradientStop.Plain.read {s : GradientStop} (h : s.Plain) :
    gradientStop? (words s.text.toList) = some s := by
  rw [s.toList_text, words_append_blank, words_append_blank,
    words_eq_singleton h.color.1 h.color.2.1, words_eq_singleton h.start.1 h.start.2.1,
    words_eq_singleton h.stop.1 h.stop.2.1]
  simp [gradientStop?]

/-- **Gradients.** The stops are read as they were put together. -/
theorem gradientStops?_eq {stops : List GradientStop} (hne : stops ≠ [])
    (hplain : ∀ s ∈ stops, s.Plain) :
    gradientStops? ("conic-gradient(" ++ ", ".intercalate (stops.map GradientStop.text) ++ ")") =
      some stops := by
  have hparts : items (", ".intercalate (stops.map GradientStop.text)).toList =
      stops.map fun s => words s.text.toList := by
    have hcommas : ∀ p ∈ (stops.map GradientStop.text).map String.toList, ',' ∉ p := by
      intro p hp
      rw [List.map_map] at hp
      obtain ⟨s, hs, rfl⟩ := List.mem_map.mp hp
      exact (hplain s hs).comma
    rw [String.toList_intercalate]
    show items ([',', ' '].intercalate _) = _
    rw [items_intercalate (by simpa using hne) hcommas, List.map_map, List.map_map]
    rfl
  have hread : (stops.map fun s => words s.text.toList).mapM gradientStop? = some stops := by
    clear hparts hne
    induction stops with
    | nil => rfl
    | cons s rest ih =>
      obtain ⟨hs, hrest⟩ := List.forall_mem_cons.mp hplain
      rw [List.map_cons, List.mapM_cons, hs.read, ih hrest]
      rfl
  have htext : ("conic-gradient(" ++ ", ".intercalate (stops.map GradientStop.text) ++ ")").toList =
      "conic-gradient".toList ++
        '(' :: (", ".intercalate (stops.map GradientStop.text)).toList ++ [')'] := by
    rw [String.toList_append, String.toList_append]
    repeat rw [String.toList_ofList]
    simp
  rw [gradientStops?, htext, inside?_eq, Option.bind_some, hparts, hread]

end EmbedUI.Markup
