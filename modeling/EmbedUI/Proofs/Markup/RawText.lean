import EmbedUI.Dashboard.Markup
import EmbedUI.Form.Markup
import EmbedUI.Proofs.Json.Literal
import EmbedUI.Proofs.Markup.Tokenizer

/-!
# The raw text of components

Scripts and style sheets are the only parts of a component that are not escaped. None of them
depends on what a component shows, and none of them has a `<` in it (`Plain`), so each of them ends
where it should. This is shown along the way they are put together: from literals, line by line and
block by block.
-/

namespace EmbedUI.Markup

/-- Text without a `<`. -/
def Plain (s : String) : Prop := '<' ∉ s.toList

theorem plain_ofList {cs : List Char} (h : '<' ∉ cs) : Plain (String.ofList cs) := by
  rw [Plain, String.toList_ofList]
  exact h

theorem Plain.append {s t : String} (hs : Plain s) (ht : Plain t) : Plain (s ++ t) := by
  rw [Plain, String.toList_append, List.mem_append, not_or]
  exact ⟨hs, ht⟩

theorem plain_join {parts : List String} (h : ∀ s ∈ parts, Plain s) :
    Plain (String.join parts) := by
  rw [Plain, String.toList_join, List.mem_flatMap]
  rintro ⟨s, hs, hlt⟩
  exact h s hs hlt

theorem plain_intercalate {separator : String} (hseparator : Plain separator) :
    ∀ {parts : List String}, (∀ s ∈ parts, Plain s) → Plain (separator.intercalate parts)
  | [], _ => by
    rw [String.intercalate_nil]
    exact plain_ofList (by decide)
  | [s], h => by
    rw [String.intercalate_singleton]
    exact h s List.mem_cons_self
  | s :: t :: rest, h => by
    rw [String.intercalate_cons_cons]
    have hs : Plain s := h s List.mem_cons_self
    have hrest := plain_intercalate hseparator fun u hu => h u (List.mem_cons_of_mem s hu)
    exact (hs.append hseparator).append hrest

/-! ## Lines -/

namespace Block

theorem plain_indented {lines : List String} (h : ∀ s ∈ lines, Plain s) :
    ∀ s ∈ indented lines, Plain s := by
  intro s hs
  obtain ⟨line, hline, rfl⟩ := List.mem_map.mp hs
  exact (plain_ofList (by decide)).append (h line hline)

theorem plain_braced {content : String} (h : Plain content) : Plain (braced content) :=
  ((plain_ofList (by decide)).append h).append (plain_ofList (by decide))

theorem plain_block {head tail : String} {body : List String} (hhead : Plain head)
    (hbody : ∀ s ∈ body, Plain s) (htail : Plain tail) : ∀ s ∈ block head body tail, Plain s := by
  have hopen : Plain (head ++ "\x7b") := hhead.append (plain_ofList (by decide))
  have hclose : Plain ("\x7d" ++ tail) := (plain_ofList (by decide)).append htail
  intro s hs
  rcases List.mem_append.mp hs with hs | hs
  · rcases List.mem_cons.mp hs with rfl | hs
    · exact hopen
    · exact plain_indented hbody s hs
  · rw [List.mem_singleton.mp hs]
    exact hclose

theorem plain_content {lines : List String} (h : ∀ s ∈ lines, Plain s) : Plain (content lines) := by
  refine (plain_ofList (by decide)).append (plain_join fun s hs => ?_)
  obtain ⟨line, hline, rfl⟩ := List.mem_map.mp hs
  exact (plain_indented h line hline).append (plain_ofList (by decide))

end Block

/-! ## Scripts -/

namespace Script

theorem lt_mem_literalChar {c : Char} (h : '<' ∈ Json.literalChar c) : '<' = c :=
  ((Json.mem_literalChar h).resolve_left (by decide)).1

theorem lt_mem_literal {cs : List Char} (h : '<' ∈ Json.literal cs) : '<' ∈ cs := by
  have hcs : '<' ∈ cs.flatMap Json.literalChar := by simpa [Json.literal] using h
  obtain ⟨c, hc, hlt⟩ := List.mem_flatMap.mp hcs
  rw [lt_mem_literalChar hlt]
  exact hc

/-- Nothing but backslashes is put in. -/
theorem mem_guardClosers {c : Char} {cs : List Char} (h : c ∈ guardClosers cs) :
    c = '\\' ∨ c ∈ cs := by
  fun_induction guardClosers cs with
  | case1 rest ih =>
    rcases List.mem_cons.mp h with rfl | h
    · exact Or.inr List.mem_cons_self
    · rcases List.mem_cons.mp h with rfl | h
      · exact Or.inl rfl
      · rcases List.mem_cons.mp h with rfl | h
        · exact Or.inr (List.mem_cons_of_mem '<' List.mem_cons_self)
        · exact (ih h).imp_right fun hrest => List.mem_cons_of_mem _ (List.mem_cons_of_mem _ hrest)
  | case2 d rest hd ih =>
    rcases List.mem_cons.mp h with rfl | hrest
    · exact Or.inr List.mem_cons_self
    · exact (ih hrest).imp_right (List.mem_cons_of_mem d)
  | case3 => exact Or.inr h

theorem plain_stringLiteral {s : String} (h : Plain s) : Plain (stringLiteral s) :=
  plain_ofList fun hlt => h (lt_mem_literal ((mem_guardClosers hlt).resolve_left (by decide)))

theorem plain_name (t : ActionType) : Plain t.name := by
  cases t <;> exact plain_ofList (by decide)

theorem plain_post (t : ActionType) {payload : String} (h : Plain payload) :
    Plain (post t payload) :=
  ((((plain_ofList (by decide)).append (plain_stringLiteral (plain_name t))).append
    (plain_ofList (by decide))).append h).append (plain_ofList (by decide))

theorem plain_call {function : String} (hfunction : Plain function) {arguments : List String}
    (h : ∀ s ∈ arguments, Plain s) : Plain (call function arguments) :=
  ((hfunction.append (plain_ofList (by decide))).append
    (plain_intercalate (plain_ofList (by decide)) h)).append (plain_ofList (by decide))

theorem plain_postFunction : ∀ s ∈ postFunction, Plain s := by
  refine Block.plain_block (plain_ofList (by decide)) ?_ (plain_ofList (by decide))
  intro s hs
  rcases List.mem_append.mp hs with hs | hs
  · refine Block.plain_block (plain_ofList (by decide)) ?_ (plain_ofList (by decide)) s hs
    exact List.forall_mem_singleton.mpr (plain_ofList (by decide))
  · rw [List.mem_singleton.mp hs]
    refine (plain_call (plain_ofList (by decide)) ?_).append (plain_ofList (by decide))
    exact List.forall_mem_cons.mpr ⟨Block.plain_braced (plain_ofList (by decide)),
      List.forall_mem_singleton.mpr (plain_stringLiteral (plain_ofList (by decide)))⟩

theorem plain_hover {event transform shadow : String} (hevent : Plain event)
    (htransform : Plain transform) (hshadow : Plain shadow) :
    ∀ s ∈ hover event transform shadow, Plain s := by
  refine Block.plain_block ?_ ?_ (plain_ofList (by decide))
  · exact ((plain_ofList (by decide)).append hevent).append (plain_ofList (by decide))
  · refine List.forall_mem_cons.mpr ⟨?_, List.forall_mem_singleton.mpr ?_⟩
    · exact ((plain_ofList (by decide)).append htransform).append (plain_ofList (by decide))
    · exact ((plain_ofList (by decide)).append hshadow).append (plain_ofList (by decide))

theorem plain_hoverEffects : ∀ s ∈ hoverEffects, Plain s := by
  refine Block.plain_block (plain_ofList (by decide)) ?_ (plain_ofList (by decide))
  exact List.forall_mem_append.mpr
    ⟨plain_hover (plain_ofList (by decide)) (plain_ofList (by decide)) (plain_ofList (by decide)),
      plain_hover (plain_ofList (by decide)) (plain_ofList (by decide)) (plain_ofList (by decide))⟩

theorem plain_prologue : Plain prologue := by
  have hversion : Plain (Decimal.integerText protocolVersion) := plain_ofList (by decide)
  have hactions : Plain (", ".intercalate (ActionType.all.map fun t => stringLiteral t.name)) := by
    refine plain_intercalate (plain_ofList (by decide)) fun s hs => ?_
    obtain ⟨t, -, rfl⟩ := List.mem_map.mp hs
    exact plain_stringLiteral (plain_name t)
  refine Block.plain_content (List.forall_mem_append.mpr ⟨List.forall_mem_append.mpr ⟨?_,
    plain_postFunction⟩, plain_hoverEffects⟩)
  refine List.forall_mem_cons.mpr ⟨?_, List.forall_mem_singleton.mpr ?_⟩
  · exact ((plain_ofList (by decide)).append hversion).append (plain_ofList (by decide))
  · exact ((plain_ofList (by decide)).append hactions).append (plain_ofList (by decide))

/-- The script of a component is plain when its handlers are. -/
theorem plain_script {handlers : List String} (h : ∀ s ∈ handlers, Plain s) :
    Plain (prologue ++ if handlers.isEmpty then "" else Block.content handlers) := by
  refine plain_prologue.append ?_
  split
  · exact plain_ofList (by decide)
  · exact Block.plain_content h

end Script

end EmbedUI.Markup

namespace EmbedUI

open Markup

/-! ## Handlers and style sheets -/

theorem Form.plain_submitHandler : ∀ s ∈ Form.submitHandler, Plain s := by
  refine Block.plain_block (plain_ofList (by decide)) ?_ (plain_ofList (by decide))
  refine List.forall_mem_append.mpr ⟨List.forall_mem_append.mpr ⟨?_, ?_⟩, ?_⟩
  · refine List.forall_mem_cons.mpr ⟨plain_ofList (by decide), List.forall_mem_singleton.mpr ?_⟩
    exact ((plain_ofList (by decide)).append (plain_ofList (by decide))).append
      (plain_ofList (by decide))
  · refine Block.plain_block (plain_ofList (by decide)) ?_ (plain_ofList (by decide))
    exact List.forall_mem_singleton.mpr (plain_ofList (by decide))
  · refine List.forall_mem_cons.mpr ⟨?_, List.forall_mem_singleton.mpr (plain_ofList (by decide))⟩
    exact Script.plain_post _ (Block.plain_braced (plain_ofList (by decide)))

theorem Dashboard.plain_refreshHandler : ∀ s ∈ Dashboard.refreshHandler, Plain s := by
  refine Block.plain_block (plain_ofList (by decide)) ?_ (plain_ofList (by decide))
  refine List.forall_mem_singleton.mpr ?_
  exact Script.plain_post _ (Block.plain_braced (plain_ofList (by decide)))

theorem Chart.plain_exportHandler : ∀ s ∈ Chart.exportHandler, Plain s := by
  refine Block.plain_block (plain_ofList (by decide)) ?_ (plain_ofList (by decide))
  refine List.forall_mem_singleton.mpr ?_
  exact Script.plain_post _ (Block.plain_braced (plain_ofList (by decide)))

theorem Form.tame_styleSheet : Tame Form.styleSheet := by
  rw [Form.styleSheet, Tame]
  refine ⟨by decide, Block.plain_content ?_⟩
  refine List.forall_mem_append.mpr ⟨List.forall_mem_append.mpr
    ⟨List.forall_mem_append.mpr ⟨?_, ?_⟩, ?_⟩, List.forall_mem_singleton.mpr ?_⟩
  · refine List.forall_mem_cons.mpr ⟨?_, List.forall_mem_singleton.mpr ?_⟩
    · exact (plain_ofList (by decide)).append (Block.plain_braced (plain_ofList (by decide)))
    · exact (plain_ofList (by decide)).append (Block.plain_braced (plain_ofList (by decide)))
  · refine Block.plain_block (plain_ofList (by decide)) ?_ (plain_ofList (by decide))
    refine List.forall_mem_cons.mpr ⟨?_, List.forall_mem_singleton.mpr ?_⟩
    · exact (plain_ofList (by decide)).append (plain_ofList (by decide))
    · exact (plain_ofList (by decide)).append (plain_ofList (by decide))
  · refine Block.plain_block (plain_ofList (by decide)) ?_ (plain_ofList (by decide))
    exact List.forall_mem_singleton.mpr (plain_ofList (by decide))
  · exact (plain_ofList (by decide)).append (Block.plain_braced (plain_ofList (by decide)))

theorem tame_script {handlers : List String} (h : ∀ s ∈ handlers, Plain s) :
    Tame (Script.element handlers) := by
  rw [Script.element, Tame]
  exact ⟨by decide, Script.plain_script h⟩

end EmbedUI
