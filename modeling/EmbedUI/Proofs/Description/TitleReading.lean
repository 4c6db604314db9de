import EmbedUI.Description.Title
import EmbedUI.Proofs.Text.Words
import Mathlib.Data.List.Infix

/-!
# The title that a description names

A description names its title behind the word `title` and a run of separators, up to the next comma,
full stop or line break. Where several places could do so, the first one counts. This module says
so without looking at characters one by one, and says what else is taken for a title: when nothing
can follow the run, the run itself gives up a character.

## The architecture

* **`FirstRead`**, **`findSome?_tails_eq_some_iff`**: the first place of a text that can be read, and
  the search for it.
* **`Opens`**: the word with a whole run of separators at a place of a text.
* **`Titled`**, **`GivesUp`**: a title follows the run, or none can and the run gives up a character;
  **`Taken`**: either.
* **`titleAt?_eq_some_iff`**: the reader agrees with `Taken`, place by place.
* **`title_read`**: which title is named, and **`blank_hides_title`** where it should be another.
-/

namespace EmbedUI.Description

/-! ## First places -/

/-- The text is read at the first of its places that can be read. A place is what is left of the
text from there on. -/
def FirstRead (reads : List Char → List Char → Prop) (text title : List Char) : Prop :=
  ∃ before place, text = before ++ place ∧ reads place title ∧
    ∀ before' place' title', text = before' ++ place' → reads place' title' →
      before.length ≤ before'.length

/-- One more character in front, at which nothing can be read. -/
theorem firstRead_cons {reads : List Char → List Char → Prop} {c : Char} {text title : List Char}
    (h : ∀ title, ¬ reads (c :: text) title) :
    FirstRead reads (c :: text) title ↔ FirstRead reads text title := by
  constructor
  · rintro ⟨before, place, htext, hread, hfirst⟩
    cases before with
    | nil =>
      rw [List.nil_append] at htext
      exact absurd (htext ▸ hread) (h title)
    | cons b before =>
      obtain ⟨rfl, rfl⟩ := List.cons.inj htext
      refine ⟨before, place, rfl, hread, fun before' place' title' htext' hread' => ?_⟩
      have hlength := hfirst (c :: before') place' title' (by rw [htext']; rfl) hread'
      simpa using hlength
  · rintro ⟨before, place, rfl, hread, hfirst⟩
    refine ⟨c :: before, place, rfl, hread, fun before' place' title' htext' hread' => ?_⟩
    cases before' with
    | nil =>
      rw [List.nil_append] at htext'
      exact absurd (htext' ▸ hread') (h title')
    | cons b before' =>
      have hlength := hfirst before' place' title' (List.cons.inj htext').2 hread'
      simpa using hlength

/-- **Search.** Going through the places in order finds the first one. -/
theorem findSome?_tails_eq_some_iff {read? : List Char → Option (List Char)}
    {reads : List Char → List Char → Prop}
    (h : ∀ place title, read? place = some title ↔ reads place title) (text title : List Char) :
    text.tails.findSome? read? = some title ↔ FirstRead reads text title := by
  -- a place that can be read is at the front, or the search goes on behind the first character
  have hhere : ∀ {text found}, read? text = some found →
      (found = title ↔ FirstRead reads text title) := by
    intro text found hfound
    constructor
    · rintro rfl
      exact ⟨[], text, rfl, (h text found).mp hfound, fun _ _ _ _ _ => Nat.zero_le _⟩
    · rintro ⟨before, place, htext, hread, hfirst⟩
      have hlength := hfirst [] text found rfl ((h text found).mp hfound)
      obtain rfl : before = [] := List.length_eq_zero_iff.mp (Nat.le_zero.mp hlength)
      rw [List.nil_append] at htext
      rw [← h, ← htext, hfound] at hread
      exact Option.some.inj hread
  induction text with
  | nil =>
    rw [List.tails, List.findSome?_singleton]
    cases hnone : read? [] with
    | some found => rw [Option.some.injEq, hhere hnone]
    | none =>
      refine iff_of_false (by simp) ?_
      rintro ⟨before, place, htext, hread, -⟩
      obtain ⟨rfl, rfl⟩ := List.append_eq_nil_iff.mp htext.symm
      rw [← h, hnone] at hread
      cases hread
  | cons c text ih =>
    rw [List.tails_cons, List.findSome?_cons]
    cases hnone : read? (c :: text) with
    | some found =>
      dsimp only
      rw [Option.some.injEq, hhere hnone]
    | none =>
      refine ih.trans (firstRead_cons fun title' hread => ?_).symm
      rw [← h, hnone] at hread
      cases hread

/-! ## The word and its separators -/

/-- At this place the word stands, in any letter case, with a run of separators behind it; the run
is not empty, and goes on as far as it can. -/
structure Opens (place run rest : List Char) : Prop where
  word : ∃ word, word.map Char.toLower = "title".toList ∧ place = word ++ (run ++ rest)
  nonempty : run ≠ []
  separators : ∀ c ∈ run, isSeparator c = true
  maximal : ∀ c ∈ rest.head?, isSeparator c = false

/-- A title can follow: there is a next character, and it does not end one. -/
def Followed (rest : List Char) : Prop := ∃ c ∈ rest.head?, endsTitle c = false

/-- The place is read as a title: what follows the run, up to the end of a title. -/
def Titled (place title : List Char) : Prop :=
  ∃ run rest, Opens place run rest ∧ Followed rest ∧ title = rest.takeWhile fun c => !endsTitle c

/-- Nothing can follow the run at this place, and the run gives up a character. -/
def GivesUp (place : List Char) (c : Char) : Prop :=
  ∃ run rest, Opens place run rest ∧ ¬ Followed rest ∧ givenUp? run = some c

/-- The place is read at all: as a title, or as the character that the run gives up. -/
def Taken (place title : List Char) : Prop :=
  Titled place title ∨ ∃ c, GivesUp place c ∧ title = [c]

/-- In front of every place that gives up a character, there is a title. -/
def Unspoiled (text : List Char) : Prop :=
  ∀ before place c, text = before ++ place → GivesUp place c →
    ∃ before' place' title, text = before' ++ place' ∧ Titled place' title ∧
      before'.length < before.length

theorem afterWord?_eq_some_iff {word cs rest : List Char} :
    afterWord? word cs = some rest ↔ ∃ w, w.map Char.toLower = word ∧ cs = w ++ rest := by
  induction word generalizing cs with
  | nil =>
    rw [afterWord?, Option.some.injEq]
    constructor
    · rintro rfl
      exact ⟨[], rfl, rfl⟩
    · rintro ⟨w, hw, rfl⟩
      rw [List.map_eq_nil_iff.mp hw, List.nil_append]
  | cons c word ih =>
    cases cs with
    | nil =>
      rw [afterWord?]
      refine iff_of_false (by simp) ?_
      rintro ⟨w, hw, hcs⟩
      obtain ⟨rfl, -⟩ := List.append_eq_nil_iff.mp hcs.symm
      cases hw
    | cons d cs =>
      rw [afterWord?]
      constructor
      · intro h
        split at h
        · next hd =>
          obtain ⟨w, hw, rfl⟩ := ih.mp h
          exact ⟨d :: w, by rw [List.map_cons, hd, hw], rfl⟩
        · cases h
      · rintro ⟨w, hw, hcs⟩
        cases w with
        | nil => cases hw
        | cons e w =>
          obtain ⟨rfl, rfl⟩ := List.cons.inj hcs
          obtain ⟨hd, hw⟩ := List.cons.inj hw
          rw [if_pos hd]
          exact ih.mpr ⟨w, hw, rfl⟩

theorem followed_iff {rest : List Char} :
    Followed rest ↔ (rest.takeWhile fun c => !endsTitle c) ≠ [] := by
  cases rest with
  | nil => simp [Followed]
  | cons c rest => cases hc : endsTitle c <;> simp [Followed, hc]

/-! ## Place by place -/

/-- The run behind the word at the front of a text, and what is behind the run. -/
def opensAt? (place : List Char) : Option (List Char × List Char) :=
  (afterWord? ['t', 'i', 't', 'l', 'e'] place).bind fun behind =>
    if (behind.takeWhile isSeparator).isEmpty then none
    else some (behind.takeWhile isSeparator, behind.dropWhile isSeparator)

/-- The title behind the run at the front of a text. -/
def titledAt? (place : List Char) : Option (List Char) :=
  (opensAt? place).bind fun (_, rest) =>
    if (rest.takeWhile fun c => !endsTitle c).isEmpty then none
    else some (rest.takeWhile fun c => !endsTitle c)

/-- The character that the run at the front of a text gives up because no title is behind it. -/
def givesUpAt? (place : List Char) : Option Char :=
  (opensAt? place).bind fun (run, rest) =>
    if (rest.takeWhile fun c => !endsTitle c).isEmpty then givenUp? run else none

/-- What is read at the front of a text. -/
def titleAt? (place : List Char) : Option (List Char) :=
  (afterWord? ['t', 'i', 't', 'l', 'e'] place).bind titleBehind?

theorem firstTitle?_cons (c : Char) (text : List Char) :
    firstTitle? (c :: text) = (titleAt? (c :: text)).or (firstTitle? text) := by
  rw [firstTitle?, titleAt?]
  cases (afterWord? ['t', 'i', 't', 'l', 'e'] (c :: text)).bind titleBehind? <;> rfl

theorem firstTitle?_eq (text : List Char) : firstTitle? text = text.tails.findSome? titleAt? := by
  induction text with
  | nil => rfl
  | cons c text ih =>
    rw [firstTitle?_cons, List.tails_cons, List.findSome?_cons, ih]
    cases titleAt? (c :: text) <;> rfl

theorem opensAt?_eq_some_iff {place run rest : List Char} :
    opensAt? place = some (run, rest) ↔ Opens place run rest := by
  rw [opensAt?, Option.bind_eq_some_iff]
  constructor
  · rintro ⟨behind, hword, hsome⟩
    split at hsome
    · cases hsome
    · next hne =>
      obtain ⟨rfl, rfl⟩ := Prod.mk.inj (Option.some.inj hsome)
      obtain ⟨w, hw, hplace⟩ := afterWord?_eq_some_iff.mp hword
      refine ⟨⟨w, hw, by rw [List.takeWhile_append_dropWhile, hplace]⟩,
        fun hnil => hne (List.isEmpty_iff.mpr hnil),
        fun c hc => List.all_eq_true.mp List.all_takeWhile c hc, fun c hc => ?_⟩
      have hnot := List.head?_dropWhile_not isSeparator behind
      rw [Option.mem_def.mp hc] at hnot
      simpa using hnot
  · rintro ⟨⟨w, hw, hplace⟩, hne, hrun, hrest⟩
    obtain ⟨htake, hdrop⟩ := Text.takeWhile_dropWhile_run hrun hrest
    refine ⟨run ++ rest, afterWord?_eq_some_iff.mpr ⟨w, hw, hplace⟩, ?_⟩
    rw [htake, hdrop, if_neg (fun hnil => hne (List.isEmpty_iff.mp hnil))]

theorem titledAt?_eq_some_iff (place title : List Char) :
    titledAt? place = some title ↔ Titled place title := by
  simp only [titledAt?, Titled, Option.bind_eq_some_iff, Prod.exists, opensAt?_eq_some_iff,
    followed_iff]
  refine exists_congr fun run => exists_congr fun rest => and_congr_right fun _ => ?_
  by_cases hnil : (rest.takeWhile fun c => !endsTitle c) = []
  · simp [hnil]
  · rw [if_neg (fun hempty => hnil (List.isEmpty_iff.mp hempty)), Option.some.injEq,
      and_iff_right hnil, eq_comm]

theorem givesUpAt?_eq_some_iff (place : List Char) (c : Char) :
    givesUpAt? place = some c ↔ GivesUp place c := by
  simp only [givesUpAt?, GivesUp, Option.bind_eq_some_iff, Prod.exists, opensAt?_eq_some_iff,
    followed_iff]
  refine exists_congr fun run => exists_congr fun rest => and_congr_right fun _ => ?_
  by_cases hnil : (rest.takeWhile fun c => !endsTitle c) = [] <;> simp [hnil]

/-- The reader takes a title, or else the character that the run gives up. -/
theorem titleAt?_eq (place : List Char) :
    titleAt? place = (titledAt? place).or ((givesUpAt? place).map fun c => [c]) := by
  rw [titleAt?, titledAt?, givesUpAt?, opensAt?]
  cases afterWord? ['t', 'i', 't', 'l', 'e'] place with
  | none => rfl
  | some behind =>
    simp only [Option.bind_some, titleBehind?]
    split
    · rfl
    · simp only [Option.bind_some]
      split <;> rfl

/-- One place is not read both ways. -/
theorem titledAt?_eq_none_of_givesUp {place : List Char} {c : Char}
    (h : givesUpAt? place = some c) : titledAt? place = none := by
  rw [givesUpAt?, Option.bind_eq_some_iff] at h
  obtain ⟨⟨run, rest⟩, hopens, hgiven⟩ := h
  rw [titledAt?, hopens, Option.bind_some]
  dsimp only at hgiven ⊢
  split at hgiven
  · next hempty => rw [if_pos hempty]
  · cases hgiven

/-- **The reader.** -/
theorem titleAt?_eq_some_iff (place title : List Char) :
    titleAt? place = some title ↔ Taken place title := by
  rw [titleAt?_eq, Taken, ← titledAt?_eq_some_iff]
  simp only [← givesUpAt?_eq_some_iff]
  cases hgiven : givesUpAt? place with
  | none => simp
  | some c => simp [titledAt?_eq_none_of_givesUp hgiven, eq_comm]

/-! ## The title of a description -/

/-- A title begins with a character that separates nothing. -/
theorem Titled.head?_trimmed {place title : List Char} (h : Titled place title) :
    ∃ c, (Text.trimmed title).head? = some c ∧ isSeparator c = false := by
  obtain ⟨run, rest, hopens, ⟨c, hc, hend⟩, rfl⟩ := h
  have hseparator : isSeparator c = false := hopens.maximal c hc
  have hblank : Text.isBlank c = false := (Bool.or_eq_false_iff.mp hseparator).2
  obtain ⟨others, rfl⟩ := List.head?_eq_some_iff.mp (Option.mem_def.mp hc)
  refine ⟨c, ?_, hseparator⟩
  rw [List.takeWhile_cons_of_pos (by rw [hend]; rfl)]
  exact Text.head?_trimmed_cons hblank _

theorem title?_eq_some_iff (description t : String) :
    title? description = some t ↔ ∃ title, FirstRead Taken description.toList title ∧
      Text.trimmed title ≠ [] ∧ t = String.ofList (Text.trimmed title) := by
  rw [title?, firstTitle?_eq, Option.bind_eq_some_iff]
  refine exists_congr fun title => and_congr
    (findSome?_tails_eq_some_iff titleAt?_eq_some_iff _ _) ?_
  by_cases hnil : Text.trimmed title = []
  · simp [hnil]
  · dsimp only
    rw [if_neg (fun hempty => hnil (List.isEmpty_iff.mp hempty)), Option.some.injEq,
      and_iff_right hnil, eq_comm]

/-- What a run gives up never comes first. -/
theorem Unspoiled.firstRead_iff {text title : List Char} (h : Unspoiled text) :
    FirstRead Taken text title ↔ FirstRead Titled text title := by
  constructor
  · rintro ⟨before, place, htext, htaken, hfirst⟩
    obtain htitled | ⟨c, hgives, -⟩ := htaken
    · exact ⟨before, place, htext, htitled, fun before' place' title' htext' htitled' =>
        hfirst before' place' title' htext' (Or.inl htitled')⟩
    · obtain ⟨before', place', title', htext', htitled', hless⟩ := h before place c htext hgives
      have hlength := hfirst before' place' title' htext' (Or.inl htitled')
      omega
  · rintro ⟨before, place, htext, htitled, hfirst⟩
    refine ⟨before, place, htext, Or.inl htitled, ?_⟩
    rintro before' place' title' htext' (htitled' | ⟨c, hgives, -⟩)
    · exact hfirst before' place' title' htext' htitled'
    · obtain ⟨before'', place'', title'', htext'', htitled'', hless⟩ :=
        h before' place' c htext' hgives
      have hlength := hfirst before'' place'' title'' htext'' htitled''
      omega

/-- **Titles.** What is read at the first place that can be read is the title, unless it is blank.
Where no run gives up a character before a title comes, this is the first title in the text: it
stands behind the whole run of separators and begins with none of them. It is never blank. -/
theorem title_read (description : String) :
    (∀ t, title? description = some t ↔ ∃ title, FirstRead Taken description.toList title ∧
      Text.trimmed title ≠ [] ∧ t = String.ofList (Text.trimmed title)) ∧
    (Unspoiled description.toList → ∀ t,
      (title? description = some t ↔ ∃ title, FirstRead Titled description.toList title ∧
        t = String.ofList (Text.trimmed title)) ∧
      (title? description = some t → t.toList.head? ≠ some ':')) ∧
    ∀ t, title? description = some t → Text.allBlank t = false := by
  refine ⟨title?_eq_some_iff description, fun hunspoiled t => ?_, fun t ht => ?_⟩
  · have hfirst : title? description = some t ↔ ∃ title,
        FirstRead Titled description.toList title ∧ t = String.ofList (Text.trimmed title) := by
      rw [title?_eq_some_iff]
      refine exists_congr fun title => ?_
      rw [hunspoiled.firstRead_iff]
      refine and_congr_right ?_
      rintro ⟨_, place, -, htitled, -⟩
      obtain ⟨c, hc, -⟩ := htitled.head?_trimmed
      refine and_iff_right fun hnil => ?_
      rw [hnil] at hc
      cases hc
    refine ⟨hfirst, fun ht hcolon => ?_⟩
    obtain ⟨title, ⟨_, place, -, htitled, -⟩, rfl⟩ := hfirst.mp ht
    obtain ⟨c, hc, hseparator⟩ := htitled.head?_trimmed
    rw [String.toList_ofList, hc] at hcolon
    obtain rfl := Option.some.inj hcolon
    exact absurd hseparator (by decide)
  · obtain ⟨title, -, hne, rfl⟩ := (title?_eq_some_iff description t).mp ht
    exact Text.allBlank_ofList_trimmed hne

/-- Names a title in its second place: no separator is behind the word in the first one. -/
def untitledFirst : String := "A form of untitled data, TITLE ::\n Weekly report , with email."

/-- Names a title in its second place: a comma ends the first one before it has begun. -/
def blankFirst : String := "title: , title: Weekly"

theorem unspoiled_of_givesUpAt? {text : List Char}
    (h : ∀ place ∈ text.tails, givesUpAt? place = none) : Unspoiled text := by
  rintro before place c rfl hgives
  have hplace : place ∈ (before ++ place).tails := (List.mem_tails _ _).mpr (List.suffix_append _ _)
  rw [← givesUpAt?_eq_some_iff, h place hplace] at hgives
  cases hgives

theorem title_read_untitledFirst :
    Unspoiled untitledFirst.toList ∧ title? untitledFirst = some "Weekly report" ∧
      ∃ title, FirstRead Titled untitledFirst.toList title ∧
        "Weekly report" = String.ofList (Text.trimmed title) := by
  have hunspoiled : Unspoiled untitledFirst.toList := unspoiled_of_givesUpAt? (by decide)
  have htitle : title? untitledFirst = some "Weekly report" := by decide
  exact ⟨hunspoiled, htitle,
    (((title_read untitledFirst).2.1 hunspoiled "Weekly report").1).mp htitle⟩

/-- **A blank hides the title.** The blank that the first run gives up is read in place of the title
that the text goes on to name, and no title is found. -/
theorem blank_hides_title :
    ¬ ∀ description t : String, title? description = some t ↔
      ∃ title, FirstRead Titled description.toList title ∧
        t = String.ofList (Text.trimmed title) := by
  intro h
  have hfirst : FirstRead Titled blankFirst.toList "Weekly".toList :=
    (findSome?_tails_eq_some_iff titledAt?_eq_some_iff _ _).mp (by decide)
  have htitle := (h blankFirst "Weekly").mpr ⟨_, hfirst, by decide⟩
  exact absurd htitle (by decide)

end EmbedUI.Description
