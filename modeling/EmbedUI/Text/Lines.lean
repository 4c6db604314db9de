/-!
# Lines of a text

Lines are separated by line feeds. A carriage return before one stays with its line, where it counts
as a blank.
-/

namespace EmbedUI.Text

/-- The lines of a text; there is at least one, and a text that ends in a line feed has an empty
last line. -/
def lines : List Char → List (List Char)
  | [] => [[]]
  | c :: cs =>
    if c = '\n' then [] :: lines cs
    else
      match lines cs with
      | [] => [[c]]
      | l :: rest => (c :: l) :: rest

theorem lines_eq_splitOn (cs : List Char) : lines cs = cs.splitOn '\n' := by
  unfold List.splitOn
  induction cs with
  | nil => rw [List.splitOnP_nil, lines]
  | cons c cs ih =>
    obtain ⟨l, rest, hlines⟩ := List.exists_cons_of_ne_nil (List.splitOnP_ne_nil (· == '\n') cs)
    rw [List.splitOnP_cons_eq_if_modifyHead, lines, ih, hlines]
    by_cases hc : c = '\n'
    · simp [hc]
    · simp [hc]

end EmbedUI.Text
