import Mathlib.Data.List.Forall2
import EmbedUI.Proofs.Markup.Content
import EmbedUI.Proofs.Text.Words

/-!
# Looking things up in contents

Whoever reads a component back looks for elements by their names and attributes, and takes their
attributes and texts. All elements are looked at, at any depth and in the order of their opening
tags, so what is found is all there is.

## The architecture

* **`Selector`**, **`select`**: conditions on elements, and the elements that satisfy one.
* **`Content.attribute?`**, **`Content.shown`**: what can be asked of an element.
* The contents of nodes are computed by simplification, part by part.
-/

namespace EmbedUI.Markup

/-! ## Elements -/

/-- A condition on the name of an element and its attributes. -/
abbrev Selector := String → List (String × String) → Bool

mutual

/-- The elements of a tree that satisfy a condition, each one before those inside it. -/
def Content.matching (p : Selector) : Content → List Content
  | .text _ => []
  | .element name attributes children =>
    (if p name attributes then [.element name attributes children] else []) ++ select p children

def select (p : Selector) : List Content → List Content
  | [] => []
  | c :: rest => c.matching p ++ select p rest

end

def named (name : String) : Selector := fun own _ => own == name

def everything : Selector := fun _ _ => true

/-- Elements whose attribute has a value. -/
def valued (name value : String) : Selector := fun _ attributes =>
  attributes.lookup name == some value

/-- Elements in a class. -/
def classed (name : String) : Selector := fun _ attributes =>
  (Text.words ((attributes.lookup "class").getD "").toList).contains name.toList

@[simp] theorem named_apply (name own : String) (attributes : List (String × String)) :
    named name own attributes = (own == name) := rfl

@[simp] theorem everything_apply (own : String) (attributes : List (String × String)) :
    everything own attributes = true := rfl

@[simp] theorem valued_apply (name value own : String) (attributes : List (String × String)) :
    valued name value own attributes = (attributes.lookup name == some value) := rfl

@[simp] theorem classed_apply (name own : String) (attributes : List (String × String)) :
    classed name own attributes =
      (Text.words ((attributes.lookup "class").getD "").toList).contains name.toList := rfl

section

variable (p : Selector)

@[simp] theorem select_nil : select p [] = [] := rfl

@[simp] theorem select_element (name : String) (attributes : List (String × String))
    (children rest : List Content) :
    select p (.element name attributes children :: rest) =
      (if p name attributes then [.element name attributes children] else []) ++
        select p children ++ select p rest := by
  rw [select, Content.matching]

@[simp] theorem select_append (before after : List Content) :
    select p (before ++ after) = select p before ++ select p after := by
  induction before with
  | nil => rfl
  | cons c rest ih => rw [List.cons_append, select, select, ih, List.append_assoc]

@[simp] theorem select_flatMap {α : Type} (f : α → List Content) (xs : List α) :
    select p (xs.flatMap f) = xs.flatMap fun x => select p (f x) := by
  induction xs with
  | nil => rfl
  | cons x rest ih => rw [List.flatMap_cons, List.flatMap_cons, select_append, ih]

@[simp] theorem select_text_cons (c : Char) (rest : List Content) :
    select p (.text c :: rest) = select p rest := rfl

@[simp] theorem select_text (cs : List Char) : select p (cs.map .text) = [] := by
  induction cs with
  | nil => rfl
  | cons c rest ih => exact ih

end

/-- One element for each. -/
theorem forall₂_flatMap_singleton {α : Type} {R : α → Content → Prop} {f : α → List Content}
    {xs : List α} (h : ∀ x ∈ xs, ∃ e, f x = [e] ∧ R x e) : List.Forall₂ R xs (xs.flatMap f) := by
  induction xs with
  | nil => exact .nil
  | cons x rest ih =>
    obtain ⟨⟨e, he, hR⟩, hrest⟩ := List.forall_mem_cons.mp h
    rw [List.flatMap_cons, he]
    exact .cons hR (ih hrest)

/-! ## What can be asked of an element -/

namespace Content

/-- The first attribute of a name counts. -/
def attribute? (name : String) : Content → Option String
  | .text _ => none
  | .element _ attributes _ => attributes.lookup name

def name : Content → String
  | .text _ => ""
  | .element name _ _ => name

def children : Content → List Content
  | .text _ => []
  | .element _ _ children => children

def classes (e : Content) : List String :=
  (Text.words ((e.attribute? "class").getD "").toList).map String.ofList

attribute [simp] attribute? name children

end Content

mutual

/-- The characters of a tree, without its tags. -/
def Content.chars : Content → List Char
  | .text c => [c]
  | .element _ _ children => charsOf children

def charsOf : List Content → List Char
  | [] => []
  | c :: rest => c.chars ++ charsOf rest

end

/-- The text that an element shows. -/
def Content.shown (e : Content) : String := String.ofList e.chars

/-- An element without elements inside it. -/
def Content.isLeaf (e : Content) : Bool := (select everything e.children).isEmpty

/-- The texts that are shown by innermost elements. -/
def leafTexts (contents : List Content) : List String :=
  ((select everything contents).filter Content.isLeaf).map Content.shown

mutual

/-- The characters outside of innermost elements. -/
def Content.loose : Content → List Char
  | .text c => [c]
  | .element _ _ children => if (select everything children).isEmpty then [] else looseOf children

def looseOf : List Content → List Char
  | [] => []
  | c :: rest => c.loose ++ looseOf rest

end

@[simp] theorem charsOf_text (cs : List Char) : charsOf (cs.map .text) = cs := by
  induction cs with
  | nil => rfl
  | cons c rest ih => exact congrArg (c :: ·) ih

@[simp] theorem looseOf_nil : looseOf [] = [] := rfl

@[simp] theorem looseOf_element (name : String) (attributes : List (String × String))
    (children rest : List Content) :
    looseOf (.element name attributes children :: rest) =
      (if (select everything children).isEmpty then [] else looseOf children) ++ looseOf rest := by
  rw [looseOf, Content.loose]

@[simp] theorem looseOf_append (before after : List Content) :
    looseOf (before ++ after) = looseOf before ++ looseOf after := by
  induction before with
  | nil => rfl
  | cons c rest ih => rw [List.cons_append, looseOf, looseOf, ih, List.append_assoc]

@[simp] theorem looseOf_text (cs : List Char) : looseOf (cs.map .text) = cs := by
  induction cs with
  | nil => rfl
  | cons c rest ih => exact congrArg (c :: ·) ih

/-- An element with nothing but text in it. -/
@[simp] theorem shown_text (name : String) (attributes : List (String × String)) (s : String) :
    (Content.element name attributes (s.toList.map .text)).shown = s := by
  rw [Content.shown, Content.chars, charsOf_text, String.ofList_toList]

/-! ## Of nodes -/

@[simp] theorem contents_text (s : String) : (Node.text s).contents = s.toList.map .text := by
  rw [Node.contents]

@[simp] theorem contents_element (tag : String) (attributes : List Attribute)
    (children : List Node) :
    (Node.element tag attributes children).contents =
      [.element tag (attributes.map Attribute.pair) (nodesContents children)] := by
  rw [Node.contents]

@[simp] theorem contents_void (tag : String) (attributes : List Attribute) :
    (Node.void tag attributes).contents = [.element tag (attributes.map Attribute.pair) []] := by
  rw [Node.contents]

@[simp] theorem contents_raw (tag content : String) :
    (Node.raw tag content).contents = [.element tag [] (content.toList.map .text)] := by
  rw [Node.contents]

@[simp] theorem pair_attr (name value : String) : (attr name value).pair = (name, value) := rfl

@[simp] theorem pair_bare (name : String) : (Attribute.bare name).pair = (name, "") := rfl

@[simp] theorem nodesContents_nil : nodesContents [] = [] := rfl

@[simp] theorem nodesContents_cons (n : Node) (rest : List Node) :
    nodesContents (n :: rest) = n.contents ++ nodesContents rest := by
  rw [nodesContents]

@[simp] theorem nodesContents_append (before after : List Node) :
    nodesContents (before ++ after) = nodesContents before ++ nodesContents after := by
  induction before with
  | nil => rfl
  | cons n rest ih =>
    rw [List.cons_append, nodesContents, nodesContents, ih, List.append_assoc]

@[simp] theorem nodesContents_flatMap {α : Type} (f : α → List Node) (xs : List α) :
    nodesContents (xs.flatMap f) = xs.flatMap fun x => nodesContents (f x) := by
  induction xs with
  | nil => rfl
  | cons x rest ih => rw [List.flatMap_cons, List.flatMap_cons, nodesContents_append, ih]

@[simp] theorem nodesContents_map {α : Type} (f : α → Node) (xs : List α) :
    nodesContents (xs.map f) = xs.flatMap fun x => (f x).contents := by
  induction xs with
  | nil => rfl
  | cons x rest ih => rw [List.map_cons, List.flatMap_cons, nodesContents, ih]

@[simp] theorem select_newline (p : Selector) (indent : Nat) :
    select p (newline indent).contents = [] := by
  rw [newline, contents_text, select_text]

@[simp] theorem all_isBlank_newline (indent : Nat) :
    (looseOf (newline indent).contents).all Text.isBlank = true := by
  have hline : Text.isBlank '\n' = true := by decide
  have hblank : Text.isBlank ' ' = true := by decide
  rw [newline, contents_text, looseOf_text, String.toList_ofList, List.all_cons, List.all_replicate,
    hline, hblank, ite_self]
  rfl

end EmbedUI.Markup
