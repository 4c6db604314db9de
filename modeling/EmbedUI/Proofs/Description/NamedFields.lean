import EmbedUI.Description.Requirements
import EmbedUI.Proofs.Description.Fitting
import EmbedUI.Proofs.Text.Mention

/-!
# The fields that a form description names

A form description that is a list of words gets the fields whose words are among them, once each and
in the order of the dictionary, whatever the order of the words, however often they come and
whatever other words stand between them. One word of the dictionary has another one in it: a
`message` is always accompanied by an `age`.

## The architecture

* **`named`**, **`Telling`**: which words are in a list, and the lists of words that say clearly
  which fields they name.
* **`infix_fieldWords`**: the words of the dictionary compared with each other.
* **`mentions_telling`**: what the text mentions is what its words name.
* **`map_name_formFields`**: the names of the fields as a selection from the words.
* **`named_fields`**: the four together, and **`message_brings_age`** where nothing else would be
  expected.
-/

namespace EmbedUI.Description

open Form

/-! ## Words and fields -/

/-- The words that stand for fields. -/
def fieldWords : List String := fieldDictionary.map Field.name

/-- Whether one of the words is the given one, in any letter case. -/
def named (words : List String) (word : String) : Bool :=
  words.any fun w => Text.lowered w == word.toList

/-- A word of the dictionary, or one that has none of these in it. Letter case does not matter. -/
def Telling (w : String) : Prop :=
  (∃ k ∈ fieldWords, Text.lowered w = k.toList) ∨
    ∀ k ∈ fieldWords, ¬ k.toList <:+: Text.lowered w

instance (w : String) : Decidable (Telling w) := by unfold Telling; infer_instance

/-- The chosen words of the dictionary in its order, or three of them if none is chosen. -/
def chosenWords (chosen : String → Bool) : List String :=
  match fieldWords.filter chosen with
  | [] => ["name", "email", "message"]
  | ks => ks

theorem named_iff {words : List String} {word : String} :
    named words word = true ↔ ∃ w ∈ words, Text.lowered w = word.toList := by
  simp only [named, List.any_eq_true, beq_iff_eq]

/-! ## What is mentioned -/

/-- **The dictionary.** One of its words is in another one, and only one. -/
theorem infix_fieldWords : ∀ k ∈ fieldWords, ∀ k' ∈ fieldWords,
    k.toList <:+: k'.toList ↔ k = k' ∨ k = "age" ∧ k' = "message" := by
  decide

theorem fieldWords_searchable : ∀ k ∈ fieldWords, k.toList ≠ [] ∧ ' ' ∉ k.toList := by
  decide

/-- A text of separated words mentions what one of them mentions. -/
theorem mentions_intercalate {word : String} (hne : word.toList ≠ []) (hblank : ' ' ∉ word.toList)
    (words : List String) :
    Text.mentions (Text.lowered (" ".intercalate words)) word = true ↔
      ∃ w ∈ words, word.toList <:+: Text.lowered w := by
  rw [Text.mentions_iff, Text.lowered_intercalate, Text.infix_intercalate_iff hne hblank]
  simp only [List.mem_map, exists_exists_and_eq_and]

/-- **What is mentioned is what is named,** and an age with every message. -/
theorem mentions_telling {words : List String} (h : ∀ w ∈ words, Telling w) {k : String}
    (hk : k ∈ fieldWords) :
    Text.mentions (Text.lowered (" ".intercalate words)) k =
      (named words k || (k == "age" && named words "message")) := by
  obtain ⟨hne, hblank⟩ := fieldWords_searchable k hk
  have hmessage : "message" ∈ fieldWords := by decide
  rw [Bool.eq_iff_iff, mentions_intercalate hne hblank, Bool.or_eq_true, Bool.and_eq_true,
    beq_iff_eq, named_iff, named_iff]
  constructor
  · rintro ⟨w, hw, hinfix⟩
    obtain ⟨k', hk', hlowered⟩ | hfiller := h w hw
    · rw [hlowered, infix_fieldWords k hk k' hk'] at hinfix
      obtain rfl | ⟨hage, rfl⟩ := hinfix
      · exact Or.inl ⟨w, hw, hlowered⟩
      · exact Or.inr ⟨hage, w, hw, hlowered⟩
    · exact absurd hinfix (hfiller k hk)
  · rintro (⟨w, hw, hlowered⟩ | ⟨hage, w, hw, hlowered⟩)
    · exact ⟨w, hw, hlowered ▸ List.infix_rfl⟩
    · refine ⟨w, hw, ?_⟩
      rw [hlowered]
      exact (infix_fieldWords k hk "message" hmessage).mpr (Or.inr ⟨hage, rfl⟩)

/-- The names of the fields that a text asks for. -/
theorem map_name_formFields (text : List Char) :
    (formFields text).map Field.name = chosenWords (Text.mentions text) := by
  have hwords : fieldWords.filter (Text.mentions text) =
      (fieldDictionary.filter fun f => Text.mentions text f.name).map Field.name :=
    List.filter_map
  unfold formFields chosenWords
  rw [hwords]
  -- the default fields stand in on both sides, or on neither
  cases fieldDictionary.filter fun f => Text.mentions text f.name with
  | nil => decide
  | cons f rest => rfl

theorem chosenWords_congr {chosen chosen' : String → Bool}
    (h : ∀ k ∈ fieldWords, chosen k = chosen' k) : chosenWords chosen = chosenWords chosen' := by
  rw [chosenWords, chosenWords, List.filter_congr h]

/-! ## The main statement -/

theorem kind_form {words : List String} (h : named words "form" = true) :
    kind (" ".intercalate words) = .form := by
  have hmentions : Text.mentions (Text.lowered (" ".intercalate words)) "form" = true := by
    obtain ⟨w, hw, hlowered⟩ := named_iff.mp h
    exact (mentions_intercalate (by decide) (by decide) words).mpr
      ⟨w, hw, hlowered ▸ List.infix_rfl⟩
  have hany : Text.mentionsAny (Text.lowered (" ".intercalate words)) ["form", "input", "submit"] =
      true := by
    rw [Text.mentionsAny, List.any_cons, hmentions, Bool.true_or]
  rw [kind, kindWords, List.find?_cons]
  simp only [hany]

/-- **Named fields.** A list of words with `form` among them asks for a form. Its fields are those of
the dictionary whose words are in the list, or the three default ones when there are none; a message
comes with an age. So when no message is named without an age, the fields are exactly those that are
named. -/
theorem named_fields {words : List String} (hform : named words "form" = true)
    (h : ∀ w ∈ words, Telling w) :
    (requirements (" ".intercalate words)).kind = .form ∧
    (requirements (" ".intercalate words)).fields.Sublist fieldDictionary ∧
    (requirements (" ".intercalate words)).fields.map Field.name =
      chosenWords (fun k => named words k || (k == "age" && named words "message")) ∧
    ((named words "message" = true → named words "age" = true) →
      (requirements (" ".intercalate words)).fields.map Field.name =
        chosenWords (named words)) := by
  have hkind := kind_form hform
  have hfields : (requirements (" ".intercalate words)).fields =
      formFields (Text.lowered (" ".intercalate words)) := by
    rw [requirements, hkind]
  have hnames : (requirements (" ".intercalate words)).fields.map Field.name =
      chosenWords (fun k => named words k || (k == "age" && named words "message")) := by
    rw [hfields, map_name_formFields]
    exact chosenWords_congr fun k hk => mentions_telling h hk
  refine ⟨(kind_requirements _).trans hkind, hfields ▸ formFields_sublist _, hnames, ?_⟩
  intro hage
  rw [hnames]
  refine chosenWords_congr fun k _ => ?_
  by_cases hk : k = "age"
  · cases hmessage : named words "message" with
    | false => rw [Bool.and_false, Bool.or_false]
    | true => rw [hk, hage hmessage, Bool.true_or]
  · rw [beq_false_of_ne hk, Bool.false_and, Bool.or_false]

/-- Words in no order, with repetitions and with others between them. -/
def unorderedWords : List String :=
  ["Website", "AGE", "form", "with", "message", "a", "website", "MESSAGE"]

theorem named_fields_unorderedWords :
    named unorderedWords "form" = true ∧ (∀ w ∈ unorderedWords, Telling w) ∧
      (named unorderedWords "message" = true → named unorderedWords "age" = true) ∧
      (requirements (" ".intercalate unorderedWords)).kind = .form ∧
      (requirements (" ".intercalate unorderedWords)).fields.map Field.name =
        ["message", "age", "website"] := by
  have hform : named unorderedWords "form" = true := by decide
  have htelling : ∀ w ∈ unorderedWords, Telling w := by decide
  have hmessage : named unorderedWords "message" = true → named unorderedWords "age" = true := by
    decide
  have hchosen : chosenWords (named unorderedWords) = ["message", "age", "website"] := by decide
  obtain ⟨hkind, -, -, hfields⟩ := named_fields hform htelling
  exact ⟨hform, htelling, hmessage, hkind, (hfields hmessage).trans hchosen⟩

/-- Nobody asked for an age. -/
theorem message_brings_age :
    ¬ ∀ words : List String, named words "form" = true → (∀ w ∈ words, Telling w) →
      (requirements (" ".intercalate words)).fields.map Field.name =
        chosenWords (named words) := by
  intro h
  have hfields := h ["form", "message"] (by decide) (by decide)
  exact absurd hfields (by decide)

end EmbedUI.Description
