import EmbedUI.Proofs.Markup.Tokenizer

/-!
# Outlines

The outline of markup is what is left of it without the text between tags and without the values of
attributes: the tags in order, the names of their attributes, and everything in scripts and style
sheets. Two nodes with the same outline differ in what they show and in nothing else.

The outline of a node is computed from the node (`Node.outline`), and lists of nodes that are made
from items in the same way have the same outline as soon as the items agree in shape.
-/

namespace EmbedUI.Markup

/-! ## Of tokens -/

/-- What a token contributes to an outline. -/
inductive Mark where
  | opening (name : List Char) (attributes : List (List Char))
  | closing (name : List Char)
  | raw (c : Char)
  | declaration (content : List Char)
deriving DecidableEq, Repr

def Token.mark? : Token → Option Mark
  | .opening name attributes => some (.opening name (attributes.map Prod.fst))
  | .closing name => some (.closing name)
  | .text _ => none
  | .raw c => some (.raw c)
  | .declaration content => some (.declaration content)

/-- The outline of markup as it is read. -/
def outline (text : String) : List Mark := (tokenize text).filterMap Token.mark?

/-! ## Of nodes -/

/-- The names of attributes. -/
def attributeNames (attributes : List Attribute) : List (List Char) :=
  attributes.map fun a => a.name.toList

mutual

def Node.outline : Node → List Mark
  | .text _ => []
  | .element tag attributes children =>
    .opening tag.toList (attributeNames attributes) :: nodesOutline children
      ++ [.closing tag.toList]
  | .void tag attributes => [.opening tag.toList (attributeNames attributes)]
  | .raw tag content =>
    .opening tag.toList [] :: content.toList.map .raw ++ [.closing tag.toList]
  | .reference _ => []
  | .verbatim _ => []

def nodesOutline : List Node → List Mark
  | [] => []
  | n :: rest => n.outline ++ nodesOutline rest

end

attribute [simp] Node.outline nodesOutline

@[simp] theorem attributeNames_nil : attributeNames [] = [] := rfl

@[simp] theorem attributeNames_cons (a : Attribute) (rest : List Attribute) :
    attributeNames (a :: rest) = a.name.toList :: attributeNames rest :=
  rfl

@[simp] theorem attributeNames_append (before after : List Attribute) :
    attributeNames (before ++ after) = attributeNames before ++ attributeNames after :=
  List.map_append

@[simp] theorem outline_newline (indent : Nat) : (newline indent).outline = [] := by
  rw [newline, Node.outline]

@[simp] theorem outline_styled (tag style : String) (children : List Node) :
    (styled tag style children).outline =
      .opening tag.toList ["style".toList] :: nodesOutline children ++ [.closing tag.toList] := by
  rw [styled, Node.outline]
  rfl

theorem map_fst_read (attributes : List Attribute) :
    (attributes.map Attribute.read).map Prod.fst = attributeNames attributes := by
  rw [attributeNames, List.map_map]
  refine List.map_congr_left fun a _ => ?_
  cases a <;> rfl

theorem marks_text (cs : List Char) : (cs.map Token.text).filterMap Token.mark? = [] := by
  induction cs with
  | nil => rfl
  | cons c rest ih => exact ih

theorem marks_raw (cs : List Char) :
    (cs.map Token.raw).filterMap Token.mark? = cs.map Mark.raw := by
  induction cs with
  | nil => rfl
  | cons c rest ih => exact congrArg (Mark.raw c :: ·) ih

mutual

theorem marks_tokens : ∀ n : Node, n.tokens.filterMap Token.mark? = n.outline
  | .text s => by
    rw [Node.tokens, Node.outline]
    exact marks_text _
  | .element tag attributes children => by
    rw [Node.tokens, Node.outline, List.filterMap_append, List.filterMap_cons]
    simp only [Token.mark?, map_fst_read, marks_nodesTokens children]
    rfl
  | .void tag attributes => by
    rw [Node.tokens, Node.outline, ← map_fst_read]
    rfl
  | .raw tag content => by
    rw [Node.tokens, Node.outline, List.filterMap_append, List.filterMap_cons]
    simp only [Token.mark?, marks_raw, List.map_nil]
    rfl
  | .reference code => by
    rw [Node.tokens, Node.outline]
    exact marks_text _
  | .verbatim _ => by
    rw [Node.tokens, Node.outline]
    rfl

theorem marks_nodesTokens :
    ∀ nodes : List Node, (nodesTokens nodes).filterMap Token.mark? = nodesOutline nodes
  | [] => rfl
  | n :: rest => by
    rw [nodesTokens, nodesOutline, List.filterMap_append, marks_tokens n, marks_nodesTokens rest]

end

/-- **Outlines.** The markup of a tame node has the outline of the node. -/
theorem outline_render {n : Node} (h : Tame n) : outline n.render = n.outline := by
  rw [outline, tokenize_render h, marks_tokens]

/-! ## Of lists -/

@[simp] theorem nodesOutline_append (before after : List Node) :
    nodesOutline (before ++ after) = nodesOutline before ++ nodesOutline after := by
  induction before with
  | nil => rfl
  | cons n rest ih =>
    rw [List.cons_append, nodesOutline, nodesOutline, ih, List.append_assoc]

/-- Items of the same shapes become nodes with the same outline. -/
theorem nodesOutline_flatMap {α β : Type} {f : α → List Node} {shape : α → β} {xs ys : List α}
    (h : ∀ x ∈ xs, ∀ y ∈ ys, shape x = shape y → nodesOutline (f x) = nodesOutline (f y))
    (hshapes : xs.map shape = ys.map shape) :
    nodesOutline (xs.flatMap f) = nodesOutline (ys.flatMap f) := by
  induction xs generalizing ys with
  | nil =>
    have hys : ys = [] := List.map_eq_nil_iff.mp hshapes.symm
    rw [hys]
  | cons x rest ih =>
    cases ys with
    | nil => cases hshapes
    | cons y rest' =>
      rw [List.map_cons, List.map_cons, List.cons.injEq] at hshapes
      have hfirst := h x List.mem_cons_self y List.mem_cons_self hshapes.1
      have hrest := ih (fun x hx y hy =>
        h x (List.mem_cons_of_mem _ hx) y (List.mem_cons_of_mem _ hy)) hshapes.2
      rw [List.flatMap_cons, List.flatMap_cons, nodesOutline_append, nodesOutline_append,
        hfirst, hrest]

/-- When the shape of an item does not matter, the number of items does. -/
theorem nodesOutline_flatMap_of_length {α : Type} {f : α → List Node}
    (h : ∀ x y, nodesOutline (f x) = nodesOutline (f y)) {xs ys : List α}
    (hlength : xs.length = ys.length) :
    nodesOutline (xs.flatMap f) = nodesOutline (ys.flatMap f) := by
  have hunit : xs.map (fun _ => ()) = ys.map fun _ => () := by
    rw [List.map_const', List.map_const', hlength]
  refine nodesOutline_flatMap (fun x _ y _ _ => h x y) hunit

theorem nodesOutline_map_of_length {α : Type} {f : α → Node}
    (h : ∀ x y, (f x).outline = (f y).outline) {xs ys : List α}
    (hlength : xs.length = ys.length) :
    nodesOutline (xs.map f) = nodesOutline (ys.map f) := by
  rw [List.map_eq_flatMap, List.map_eq_flatMap]
  refine nodesOutline_flatMap_of_length (fun x y => ?_) hlength
  rw [nodesOutline, nodesOutline, nodesOutline, h x y, nodesOutline]

end EmbedUI.Markup
