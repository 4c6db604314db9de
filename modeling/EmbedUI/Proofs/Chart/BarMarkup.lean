import EmbedUI.Proofs.Markup.Amount
import EmbedUI.Proofs.Markup.Declaration
import EmbedUI.Proofs.Markup.Injection

/-!
# Reading bars

Charts and dashboards draw the same bars. Whoever reads them finds one for each value, with the
value in it and in the height that was worked out for it, and one label for each of the labels.

## The architecture

* **`Series.ShownBy`**: what there is to be read of a series.
* **`select_bars`**, **`select_labels`**: the bars and labels among everything that is drawn.
  Labels are told from other elements by their style, and styles by their first letters.
* **`declared?_height`**: the height of a bar is read from its style.
* **`shownBy_barNodes`**: the three together.
-/

namespace EmbedUI.Chart

open Markup

/-! ## Bars -/

/-- The style of labels under bars, by which they are told from what is around them. -/
def labelStyle : String := "font-size: 0.85rem; opacity: 0.8; text-align: center;"

/-- The contents show a series as bars: one for each value, in its height, and one label for each
of the labels, all in their order. -/
structure Series.ShownBy (s : Series) (scale : Float) (contents : List Content) : Prop where
  values : (select (classed "bar") contents).map Content.shown = s.values.map amountText
  heights : (select (classed "bar") contents).map (Content.declared? "height") =
    (barHeights s.values scale).map fun h => some (amountText h ++ "px")
  labels : (select (valued "style" labelStyle) contents).map Content.shown = s.labels

/-- The first letter tells a style from that of labels. -/
def StartsApart (style : String) : Prop := ∃ c, style.toList.head? = some c ∧ c ≠ 'f'

theorem StartsApart.append {style : String} (h : StartsApart style) (rest : String) :
    StartsApart (style ++ rest) := by
  obtain ⟨c, hc, hne⟩ := h
  refine ⟨c, ?_, hne⟩
  rw [String.toList_append, List.head?_append, hc]
  rfl

theorem startsApart_ofList {c : Char} (cs : List Char) (hc : c ≠ 'f') :
    StartsApart (String.ofList (c :: cs)) :=
  ⟨c, by rw [String.toList_ofList]; rfl, hc⟩

theorem StartsApart.ne {style : String} (h : StartsApart style) : style ≠ labelStyle := by
  rintro rfl
  obtain ⟨c, hc, hne⟩ := h
  rw [labelStyle, String.toList_ofList] at hc
  exact hne (Option.some.inj hc).symm

theorem closed_barNodes (s : Series) (scale area : Float) : AllClosed (barNodes s scale area) := by
  have hbars := allClosed_lines (f := fun (b : Float × Float) => barNode b.1 b.2)
    (fun b => by simp +decide [barNode]) 4 (s.values.zip (barHeights s.values scale))
  have hlabels := allClosed_map (f := labelNode)
    (fun l => by simp +decide [labelNode, styled]) s.labels
  unfold barNodes
  simpa +decide [styled, hlabels] using hbars

theorem select_bars (s : Series) (scale area : Float) :
    select (classed "bar") (nodesContents (barNodes s scale area)) =
      (s.values.zip (barHeights s.values scale)).flatMap fun b =>
        (barNode b.1 b.2).contents := by
  simp +decide [barNodes, barNode, labelNode, styled, List.lookup_cons]

theorem select_labels (s : Series) (scale area : Float) :
    select (valued "style" labelStyle) (nodesContents (barNodes s scale area)) =
      s.labels.flatMap fun l => (labelNode l).contents := by
  have hlabel : labelStyle = "font-size: 0.85rem; opacity: 0.8; text-align: center;" := rfl
  have hrow : StartsApart "display: flex; justify-content: space-around; margin-top: 0.5rem;" :=
    startsApart_ofList _ (by decide)
  have harea : StartsApart "height: " := startsApart_ofList _ (by decide)
  have hbar : StartsApart "background: " := startsApart_ofList _ (by decide)
  -- the styles of the area and of bars go on with sizes, so only their beginnings are known
  simp [barNodes, barNode, labelNode, styled, List.lookup_cons, ← hlabel, StartsApart.ne,
    String.append_assoc, StartsApart.append, hrow, harea, hbar]

/-- The text of a size in a style. -/
theorem trimmed_amount {cs unit : List Char} (h : IsAmount cs)
    (hblank : unit.all (!Text.isBlank ·) = true) : Text.trimmed (cs ++ unit) = cs ++ unit := by
  have hall : ∀ c ∈ cs ++ unit, Text.isBlank c = false := by
    refine List.forall_mem_append.mpr ⟨fun c hc => ?_, fun c hc => ?_⟩
    · exact isBlank_of_isAmountChar (List.all_eq_true.mp h.chars c hc)
    · simpa using List.all_eq_true.mp hblank c hc
  exact Text.trimmed_eq_self (fun c hc => hall c (List.mem_of_mem_head? hc))
    fun c hc => hall c (List.mem_of_mem_getLast? hc)

theorem declared?_height (value height : Float) :
    (barNode value height).contents.map (Content.declared? "height") =
      [some (amountText height ++ "px")] := by
  have hamount := isAmount_amountText height
  have hvalue : Text.trimmed (amountText height ++ "px").toList =
      (amountText height ++ "px").toList ∧ ';' ∉ (amountText height ++ "px").toList := by
    have hnot : ';' ∉ (amountText height).toList := hamount.not_mem (by decide)
    rw [String.toList_append]
    exact ⟨trimmed_amount hamount (by decide), by simp [hnot]⟩
  rw [barNode, contents_element]
  simp only [List.map_cons, List.map_nil, pair_attr, declared?_classed]
  -- the gradient and the width come first, and nothing behind the height is about heights
  rw [styleValue?_between
    ("background: linear-gradient(135deg, #10b981 0%, #059669 100%); width: 36px").toList
    (" border-radius: 4px; display: flex; align-items: end; justify-content: center; color: white;"
      ++ " font-size: 0.85rem; font-weight: bold;").toList ?_ (by decide) hvalue ?_]
  · simp only [greenGradient, String.toList_append]
    repeat rw [String.toList_ofList]
    simp
  · rw [String.toList_append]
    repeat rw [String.toList_ofList]
    decide +kernel

/-- **Bars.** What is read of the bars of a series shows the series. -/
theorem shownBy_barNodes (s : Series) (scale area : Float) :
    s.ShownBy scale (nodesContents (barNodes s scale area)) := by
  have hlength := length_barHeights s.values scale
  have hshown : ∀ value height : Float,
      (barNode value height).contents.map Content.shown = [amountText value] := by
    intro value height
    simp [barNode]
  have hlabel : ∀ label : String, (labelNode label).contents.map Content.shown = [label] := by
    intro label
    simp [labelNode, styled]
  constructor
  · rw [select_bars, List.map_flatMap]
    simp only [hshown]
    -- a bar for each pair, and a pair for each value
    rw [← List.map_eq_flatMap]
    show (s.values.zip (barHeights s.values scale)).map (amountText ∘ Prod.fst) = _
    rw [← List.map_map, List.map_fst_zip (by omega)]
  · rw [select_bars, List.map_flatMap]
    simp only [declared?_height]
    rw [← List.map_eq_flatMap]
    show (s.values.zip (barHeights s.values scale)).map
      ((fun h => some (amountText h ++ "px")) ∘ Prod.snd) = _
    rw [← List.map_map, List.map_snd_zip (by omega)]
  · rw [select_labels, List.map_flatMap]
    simp only [hlabel]
    rw [← List.map_eq_flatMap, List.map_id']

/-- What is selected decides about bars. -/
theorem Series.ShownBy.congr {s : Series} {scale : Float} {contents contents' : List Content}
    (hbars : select (classed "bar") contents' = select (classed "bar") contents)
    (hlabels : select (valued "style" labelStyle) contents' =
      select (valued "style" labelStyle) contents) (h : s.ShownBy scale contents) :
    s.ShownBy scale contents' := by
  constructor
  · rw [hbars, h.values]
  · rw [hbars, h.heights]
  · rw [hlabels, h.labels]

end EmbedUI.Chart
