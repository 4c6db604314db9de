import EmbedUI.Text.Blank

/-!
# Words and lists in text

Values of attributes and of properties are often lists: words behind each other, or items with
commas and blanks between them. Here is how such lists are read, and that what was put together from
items without separators is read as these items.
-/

namespace EmbedUI.Text

/-- What is split is split on both sides of a separator. -/
theorem splitOn_append_cons (c : Char) (before after : List Char) :
    (before ++ c :: after).splitOn c = before.splitOn c ++ after.splitOn c :=
  List.splitOnP_append_cons before after (beq_self_eq_true c)

/-- A run that cannot go on is found whole. -/
theorem takeWhile_dropWhile_run {p : Char → Bool} {run rest : List Char}
    (hrun : ∀ c ∈ run, p c = true) (hrest : ∀ c ∈ rest.head?, p c = false) :
    (run ++ rest).takeWhile p = run ∧ (run ++ rest).dropWhile p = rest := by
  rw [List.takeWhile_append_of_pos hrun, List.dropWhile_append_of_pos hrun]
  cases rest with
  | nil => exact ⟨List.append_nil run, rfl⟩
  | cons c rest =>
    have hc : p c = false := hrest c rfl
    rw [List.takeWhile_cons_of_neg (by rw [hc]; decide),
      List.dropWhile_cons_of_neg (by rw [hc]; decide), List.append_nil]
    exact ⟨rfl, rfl⟩

/-! ## Words -/

/-- The words between single blanks; there are no empty ones. -/
def words (cs : List Char) : List (List Char) := (cs.splitOn ' ').filter fun w => !w.isEmpty

theorem words_append_blank (before after : List Char) :
    words (before ++ ' ' :: after) = words before ++ words after := by
  rw [words, splitOn_append_cons, List.filter_append]
  rfl

theorem words_blank_cons (cs : List Char) : words (' ' :: cs) = words cs :=
  words_append_blank [] cs

theorem words_eq_singleton {w : List Char} (hne : w ≠ []) (hblank : ' ' ∉ w) : words w = [w] := by
  rw [words, List.splitOn_eq_singleton hblank]
  simp [hne]

/-! ## Items -/

/-- The items between commas, each as its words. -/
def items (cs : List Char) : List (List (List Char)) := (cs.splitOn ',').map words

theorem items_append_comma (before after : List Char) :
    items (before ++ ',' :: after) = items before ++ items after := by
  rw [items, splitOn_append_cons, List.map_append]
  rfl

theorem items_eq_singleton {cs : List Char} (h : ',' ∉ cs) : items cs = [words cs] := by
  rw [items, List.splitOn_eq_singleton h]
  rfl

/-- A blank behind a comma belongs to no item. -/
theorem items_blank_cons (cs : List Char) : items (' ' :: cs) = items cs := by
  have hsplit : (' ' :: cs).splitOn ',' = (cs.splitOn ',').modifyHead (' ' :: ·) := by
    rw [List.splitOn, List.splitOnP_cons_eq_if_modifyHead]
    rfl
  obtain ⟨w, rest, hrest⟩ := List.exists_cons_of_ne_nil (List.splitOnP_ne_nil (· == ',') cs)
  have hrest : cs.splitOn ',' = w :: rest := hrest
  rw [items, items, hsplit, hrest, List.modifyHead_cons, List.map_cons, List.map_cons,
    words_blank_cons]

theorem not_mem_intercalate {c : Char} {separator : List Char} {parts : List (List Char)}
    (hc : c ∉ separator) (h : ∀ p ∈ parts, c ∉ p) : c ∉ separator.intercalate parts := by
  induction parts with
  | nil => simp
  | cons p rest ih =>
    obtain ⟨hp, hrest⟩ := List.forall_mem_cons.mp h
    cases rest with
    | nil =>
      rw [List.intercalate_singleton]
      exact hp
    | cons q others =>
      rw [List.intercalate_cons_cons]
      simp [hp, hc, ih hrest]

/-- **Items.** -/
theorem items_intercalate {parts : List (List Char)} (hne : parts ≠ []) (h : ∀ p ∈ parts, ',' ∉ p) :
    items ([',', ' '].intercalate parts) = parts.map words := by
  induction parts with
  | nil => exact absurd rfl hne
  | cons p rest ih =>
    obtain ⟨hp, hrest⟩ := List.forall_mem_cons.mp h
    cases rest with
    | nil => rw [List.intercalate_singleton, items_eq_singleton hp]; rfl
    | cons q others =>
      -- the comma ends the first item, and the blank behind it belongs to none
      have happend : [',', ' '].intercalate (p :: q :: others) =
          p ++ ',' :: ' ' :: [',', ' '].intercalate (q :: others) := by
        rw [List.intercalate_cons_cons]
        simp
      rw [happend, items_append_comma, items_blank_cons, items_eq_singleton hp,
        ih (List.cons_ne_nil _ _) hrest]
      rfl

/-! ## Trimming -/

theorem trimmed_blank_cons {c : Char} (h : isBlank c = true) (cs : List Char) :
    trimmed (c :: cs) = trimmed cs := by
  rw [trimmed, List.dropWhile_cons_of_pos h]
  rfl

/-- Text that neither starts nor ends with a blank stays as it is. -/
theorem trimmed_eq_self {cs : List Char} (hfirst : ∀ c ∈ cs.head?, isBlank c = false)
    (hlast : ∀ c ∈ cs.getLast?, isBlank c = false) : trimmed cs = cs := by
  have hdrop : ∀ ds : List Char, (∀ c ∈ ds.head?, isBlank c = false) →
      ds.dropWhile isBlank = ds := by
    intro ds hds
    cases ds with
    | nil => rfl
    | cons d ds =>
      have hd : isBlank d = false := hds d rfl
      exact List.dropWhile_cons_of_neg (by rw [hd]; decide)
  have hreverse : ∀ c ∈ cs.reverse.head?, isBlank c = false := by rwa [List.head?_reverse]
  rw [trimmed, hdrop cs hfirst, hdrop cs.reverse hreverse, List.reverse_reverse]

/-- A first character that is no blank stays the first one. -/
theorem head?_trimmed_cons {c : Char} (h : isBlank c = false) (cs : List Char) :
    (trimmed (c :: cs)).head? = some c := by
  have hblank : ¬ isBlank c = true := by rw [h]; decide
  rw [trimmed, List.dropWhile_cons_of_neg hblank, List.reverse_cons, List.dropWhile_append,
    List.head?_reverse]
  split
  · rw [List.dropWhile_cons_of_neg hblank, List.getLast?_singleton]
  · rw [List.getLast?_concat]

/-- What is left after trimming ends with a character that is no blank. -/
theorem allBlank_ofList_trimmed {cs : List Char} (hne : trimmed cs ≠ []) :
    allBlank (String.ofList (trimmed cs)) = false := by
  rw [allBlank, String.toList_ofList]
  rw [trimmed, Ne, List.reverse_eq_nil_iff] at hne
  rw [trimmed, List.all_reverse]
  have hlast := List.head?_dropWhile_not isBlank (cs.dropWhile isBlank).reverse
  generalize (cs.dropWhile isBlank).reverse.dropWhile isBlank = left at hne hlast
  cases left with
  | nil => exact absurd rfl hne
  | cons c left =>
    have hc : isBlank c = false := by simpa using hlast
    rw [List.all_cons, hc, Bool.false_and]

end EmbedUI.Text
