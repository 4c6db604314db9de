import EmbedUI.Proofs.Markup.Reference
import EmbedUI.Proofs.Markup.Tokenizer

/-!
# The contents of markup

Tags that are properly nested make a tree of elements, and the references in its texts and attribute
values stand for characters. Whoever looks at a component sees this tree and not its text. The tree
of a rendered node is the node again, whatever strings it contains.

## The architecture

* **`resolveFrom`**: puts characters in the place of references, token by token.
* **`Content`**, **`nestFrom`**: builds the tree with a stack of elements that are not closed yet.
  Tags that are not properly nested make no tree.
* **`Node.contents`**, **`contents?_render`**: the tree of a node, and that it is read.
-/

namespace EmbedUI.Markup

/-! ## References -/

/-- Tokens with characters in the place of references. These are looked for in attribute values and
in text up to the next tag; `pending` is the text behind the last one. -/
def resolveFrom (pending : List Char) : List Token → List Token
  | [] => (decode pending).map .text
  | .text c :: rest => resolveFrom (pending ++ [c]) rest
  | .opening name attributes :: rest =>
    (decode pending).map .text ++
      .opening name (attributes.map fun a => (a.1, decode a.2)) :: resolveFrom [] rest
  | .closing name :: rest => (decode pending).map .text ++ .closing name :: resolveFrom [] rest
  | .raw c :: rest => (decode pending).map .text ++ .raw c :: resolveFrom [] rest
  | .declaration content :: rest =>
    (decode pending).map .text ++ .declaration content :: resolveFrom [] rest

/-- The characters stand for others, whatever is behind them. -/
def StandsFor (cs out : List Char) : Prop := ∀ rest, decode (cs ++ rest) = out ++ decode rest

theorem standsFor_escapeText (cs : List Char) : StandsFor (escapeText cs) cs := by
  intro rest
  induction cs with
  | nil => rfl
  | cons c cs ih =>
    show decode (textChar c ++ escapeText cs ++ rest) = c :: (cs ++ decode rest)
    rw [List.append_assoc, decode_textChar, ih]

theorem foldlM_digits {ds : List Char} (h : ∀ c ∈ ds, c.isDigit = true) (n : Nat) :
    ds.foldlM (fun n c => (Text.baseValue? 10 c).map fun d => n * 10 + d) n =
      some (Nat.ofDigitChars 10 ds n) := by
  induction ds generalizing n with
  | nil => rfl
  | cons c ds ih =>
    obtain ⟨hc, hds⟩ := List.forall_mem_cons.mp h
    have hrange : '0' ≤ c ∧ c ≤ '9' := by
      rw [Char.isDigit, Bool.and_eq_true, decide_eq_true_eq, decide_eq_true_eq] at hc
      exact hc
    have hvalue : Text.baseValue? 10 c = some (c.toNat - '0'.toNat) := by
      have hlow : '0'.toNat ≤ c.toNat := hrange.1
      have hhigh : c.toNat ≤ '9'.toNat := hrange.2
      have hsmall : c.toNat - '0'.toNat < 10 := by
        have : '9'.toNat = '0'.toNat + 9 := rfl
        omega
      rw [Text.baseValue?, Text.hexValue?, if_pos hrange, Option.bind_some, if_pos hsmall]
    rw [List.foldlM_cons, hvalue, Nat.ofDigitChars_cons]
    show ds.foldlM _ (n * 10 + (c.toNat - '0'.toNat)) = _
    rw [ih hds, Nat.mul_comm]

/-- A reference by number. -/
theorem standsFor_reference (code : Nat) :
    StandsFor ('&' :: '#' :: Nat.toDigits 10 code ++ [';']) [Char.ofNat code] := by
  intro rest
  have hdigits : ∀ c ∈ Nat.toDigits 10 code, c.isDigit = true := fun c hc =>
    Nat.isDigit_of_mem_toDigits (by decide) (by decide) hc
  have hname : Referable ('#' :: Nat.toDigits 10 code) := by
    refine List.forall_mem_cons.mpr ⟨by decide, fun c hc => ⟨?_, ?_⟩⟩
    · rintro rfl
      exact absurd (hdigits _ hc) (by decide)
    · rintro rfl
      exact absurd (hdigits _ hc) (by decide)
  have hchar : Reference.char? ('#' :: Nat.toDigits 10 code) = some (Char.ofNat code) := by
    show (Text.numeral? 10 (Nat.toDigits 10 code)).map Char.ofNat = _
    rw [Text.numeral?, foldlM_digits hdigits, Nat.ofDigitChars_toDigits (by decide) (by decide)]
    rfl
  have hdecode := decode_referable hname hchar rest
  simpa using hdecode

/-- What the pending text begins with can be put in place at once. -/
theorem resolveFrom_append {cs out : List Char} (h : StandsFor cs out) (pending : List Char)
    (tokens : List Token) :
    resolveFrom (cs ++ pending) tokens = out.map .text ++ resolveFrom pending tokens := by
  -- characters join what is pending; any other token has all of it decoded
  induction tokens generalizing pending with
  | nil =>
    rw [resolveFrom, resolveFrom, h, List.map_append]
  | cons t rest ih =>
    cases t with
    | text c =>
      rw [resolveFrom, resolveFrom, List.append_assoc]
      exact ih (pending ++ [c])
    | _ => rw [resolveFrom, resolveFrom, h, List.map_append, List.append_assoc]

theorem resolveFrom_pending (pending cs : List Char) (tokens : List Token) :
    resolveFrom pending (cs.map .text ++ tokens) = resolveFrom (pending ++ cs) tokens := by
  induction cs generalizing pending with
  | nil =>
    rw [List.append_nil]
    rfl
  | cons c cs ih =>
    rw [List.map_cons, List.cons_append, resolveFrom, ih, List.append_assoc, List.singleton_append]

/-- **Text.** -/
theorem resolveFrom_text {cs out : List Char} (h : StandsFor cs out) (tokens : List Token) :
    resolveFrom [] (cs.map .text ++ tokens) = out.map .text ++ resolveFrom [] tokens := by
  have happend := resolveFrom_append h [] tokens
  rw [List.append_nil] at happend
  rw [resolveFrom_pending, List.nil_append, happend]

theorem resolveFrom_raw (cs : List Char) (tokens : List Token) :
    resolveFrom [] (cs.map .raw ++ tokens) = cs.map .raw ++ resolveFrom [] tokens := by
  induction cs with
  | nil => rfl
  | cons c cs ih =>
    show .raw c :: resolveFrom [] (cs.map .raw ++ tokens) = _
    rw [ih]
    rfl

/-! ## Trees -/

/-- A character, or an element with its attributes and what is inside it. -/
inductive Content where
  | text (c : Char)
  | element (name : String) (attributes : List (String × String)) (children : List Content)

/-- An element whose closing tag is still to come, and what is in front of it. -/
structure Unclosed where
  before : List Content
  name : List Char
  attributes : List (List Char × List Char)

/-- The element with what is inside it, behind what is in front of it. -/
def Unclosed.close (u : Unclosed) (children : List Content) : List Content :=
  u.before ++ [.element (String.ofList u.name)
    (u.attributes.map fun a => (String.ofList a.1, String.ofList a.2)) children]

/-- Whether elements of a name have no closing tag and nothing inside. -/
def isVoid (name : List Char) : Bool :=
  (["area", "base", "br", "col", "embed", "hr", "img", "input", "link", "meta", "source", "track",
    "wbr"].map String.toList).contains name

/-- Builds trees from tokens. `siblings` are those behind the opening tag of the innermost element
that is not closed yet, and this element is the only one that may be closed. -/
def nestFrom (unclosed : List Unclosed) (siblings : List Content) :
    List Token → Option (List Content)
  | [] => if unclosed.isEmpty then some siblings else none
  | .text c :: rest => nestFrom unclosed (siblings ++ [.text c]) rest
  | .raw c :: rest => nestFrom unclosed (siblings ++ [.text c]) rest
  | .declaration _ :: rest => nestFrom unclosed siblings rest
  | .opening name attributes :: rest =>
    if isVoid name then
      nestFrom unclosed (Unclosed.close ⟨siblings, name, attributes⟩ []) rest
    else nestFrom (⟨siblings, name, attributes⟩ :: unclosed) [] rest
  | .closing name :: rest =>
    match unclosed with
    | [] => none
    | u :: outer => if u.name = name then nestFrom outer (u.close siblings) rest else none

/-- What markup contains, if its tags are properly nested. -/
def contents? (text : String) : Option (List Content) :=
  nestFrom [] [] (resolveFrom [] (tokenize text))

example : contents? "<p id=\"a&amp;b\">1 &lt; 2<br></p>" =
    some [.element "p" [("id", "a&b")]
      ("1 < 2".toList.map .text ++ [.element "br" [] []])] := by
  rfl

example : (contents? "<b><i></b></i>").isNone := by rfl

theorem nestFrom_text (unclosed : List Unclosed) (siblings : List Content) (cs : List Char)
    (rest : List Token) :
    nestFrom unclosed siblings (cs.map .text ++ rest) =
      nestFrom unclosed (siblings ++ cs.map .text) rest := by
  induction cs generalizing siblings with
  | nil =>
    show nestFrom unclosed siblings rest = nestFrom unclosed (siblings ++ []) rest
    rw [List.append_nil]
  | cons c cs ih =>
    rw [List.map_cons, List.cons_append, nestFrom, ih, List.append_assoc]
    rfl

theorem nestFrom_raw (unclosed : List Unclosed) (siblings : List Content) (cs : List Char)
    (rest : List Token) :
    nestFrom unclosed siblings (cs.map .raw ++ rest) =
      nestFrom unclosed (siblings ++ cs.map .text) rest := by
  induction cs generalizing siblings with
  | nil =>
    show nestFrom unclosed siblings rest = nestFrom unclosed (siblings ++ []) rest
    rw [List.append_nil]
  | cons c cs ih =>
    rw [List.map_cons, List.cons_append, nestFrom, ih, List.append_assoc]
    rfl

/-! ## Of nodes -/

mutual

/-- Closing tags are left out in those elements only that have none. -/
def Closed : Node → Prop
  | .text _ => True
  | .element tag _ children => isVoid tag.toList = false ∧ AllClosed children
  | .void tag _ => isVoid tag.toList = true
  | .raw _ _ => True
  | .reference _ => True
  | .verbatim _ => True

def AllClosed : List Node → Prop
  | [] => True
  | n :: rest => Closed n ∧ AllClosed rest

end

attribute [simp] Closed AllClosed

@[simp] theorem closed_newline (indent : Nat) : Closed (newline indent) := trivial

theorem allClosed_iff {nodes : List Node} : AllClosed nodes ↔ ∀ n ∈ nodes, Closed n := by
  induction nodes with
  | nil => simp [AllClosed]
  | cons n rest ih => rw [AllClosed, ih, List.forall_mem_cons]

@[simp] theorem allClosed_append {before after : List Node} :
    AllClosed (before ++ after) ↔ AllClosed before ∧ AllClosed after := by
  rw [allClosed_iff, allClosed_iff, allClosed_iff, List.forall_mem_append]

theorem allClosed_flatMap {α : Type} {f : α → List Node} (h : ∀ x, AllClosed (f x)) (xs : List α) :
    AllClosed (xs.flatMap f) := by
  refine allClosed_iff.mpr fun n hn => ?_
  obtain ⟨x, -, hx⟩ := List.mem_flatMap.mp hn
  exact allClosed_iff.mp (h x) n hx

/-- Nodes on lines of their own. -/
theorem allClosed_lines {α : Type} {f : α → Node} (h : ∀ x, Closed (f x)) (indent : Nat)
    (xs : List α) : AllClosed (xs.flatMap fun x => [newline indent, f x]) :=
  allClosed_flatMap (f := fun x => [newline indent, f x]) (fun x => ⟨trivial, h x, trivial⟩) xs

theorem allClosed_map {α : Type} {f : α → Node} (h : ∀ x, Closed (f x)) (xs : List α) :
    AllClosed (xs.map f) := by
  refine allClosed_iff.mpr fun n hn => ?_
  obtain ⟨x, -, rfl⟩ := List.mem_map.mp hn
  exact h x

/-- An attribute without a value has the empty one. -/
def Attribute.pair : Attribute → String × String
  | .valued name value => (name, value)
  | .bare name => (name, "")

mutual

def Node.contents : Node → List Content
  | .text s => s.toList.map .text
  | .element tag attributes children =>
    [.element tag (attributes.map Attribute.pair) (nodesContents children)]
  | .void tag attributes => [.element tag (attributes.map Attribute.pair) []]
  | .raw tag content => [.element tag [] (content.toList.map .text)]
  | .reference code => [.text (Char.ofNat code)]
  | .verbatim _ => []

def nodesContents : List Node → List Content
  | [] => []
  | n :: rest => n.contents ++ nodesContents rest

end

/-- The value of an attribute is decoded and is what was escaped. -/
theorem pair_read (attributes : List Attribute) :
    (((attributes.map Attribute.read).map fun a => (a.1, decode a.2)).map fun a =>
      (String.ofList a.1, String.ofList a.2)) = attributes.map Attribute.pair := by
  induction attributes with
  | nil => rfl
  | cons a rest ih =>
    have hfirst : (String.ofList a.read.1, String.ofList (decode a.read.2)) = a.pair := by
      cases a with
      | valued name value =>
        show (String.ofList name.toList, String.ofList (decode (escapeValue value.toList))) = _
        rw [decode_escapeValue, String.ofList_toList, String.ofList_toList]
        rfl
      | bare name =>
        show (String.ofList name.toList, _) = _
        rw [String.ofList_toList]
        rfl
    rw [List.map_cons, List.map_cons, List.map_cons, List.map_cons, ih, hfirst]

/-- What is read of an element and of what is in front of it. -/
theorem close_read (siblings : List Content) (tag : String) (attributes : List Attribute)
    (children : List Content) :
    Unclosed.close
        ⟨siblings, tag.toList, (attributes.map Attribute.read).map fun a => (a.1, decode a.2)⟩
        children =
      siblings ++ [.element tag (attributes.map Attribute.pair) children] := by
  rw [Unclosed.close, pair_read, String.ofList_toList]

theorem isVoid_of_raw {tag : String} (h : tag.toList ∈ rawNames) : isVoid tag.toList = false := by
  have hnames : (rawNames.all fun name => !isVoid name) = true := by decide
  simpa using List.all_eq_true.mp hnames _ h

mutual

theorem nestFrom_tokens : ∀ n : Node, Tame n → Closed n → ∀ unclosed siblings rest,
    nestFrom unclosed siblings (resolveFrom [] (n.tokens ++ rest)) =
      nestFrom unclosed (siblings ++ n.contents) (resolveFrom [] rest)
  | .text s, _, _, unclosed, siblings, rest => by
    rw [Node.tokens, Node.contents, resolveFrom_text (standsFor_escapeText _), nestFrom_text]
  | .element tag attributes children, htame, hclosed, unclosed, siblings, rest => by
    rw [Tame] at htame
    rw [Closed] at hclosed
    obtain ⟨-, -, -, hchildren⟩ := htame
    obtain ⟨hvoid, hclosed⟩ := hclosed
    -- what is inside comes behind the opening tag, and is what the closing tag finds
    rw [Node.tokens, Node.contents, List.append_assoc, List.cons_append]
    show nestFrom unclosed siblings (.opening _ _ :: resolveFrom [] _) = _
    rw [nestFrom, hvoid, if_neg Bool.false_ne_true,
      nestFrom_nodesTokens children hchildren hclosed]
    show nestFrom (⟨siblings, tag.toList, _⟩ :: unclosed) _ (.closing _ :: resolveFrom [] rest) = _
    rw [nestFrom, if_pos rfl, close_read]
    rfl
  | .void tag attributes, _, hclosed, unclosed, siblings, rest => by
    rw [Closed] at hclosed
    rw [Node.tokens, Node.contents]
    show nestFrom unclosed siblings (.opening _ _ :: resolveFrom [] rest) = _
    rw [nestFrom, if_pos hclosed, close_read]
  | .raw tag content, htame, _, unclosed, siblings, rest => by
    rw [Tame] at htame
    rw [Node.tokens, Node.contents, List.append_assoc, List.cons_append]
    show nestFrom unclosed siblings (.opening _ [] :: resolveFrom [] _) = _
    rw [nestFrom, isVoid_of_raw htame.1, if_neg Bool.false_ne_true, resolveFrom_raw, nestFrom_raw]
    show nestFrom (⟨siblings, tag.toList, _⟩ :: unclosed) _ (.closing _ :: resolveFrom [] rest) = _
    rw [nestFrom, if_pos rfl, Unclosed.close, String.ofList_toList]
    rfl
  | .reference code, _, _, unclosed, siblings, rest => by
    rw [Node.tokens, Node.contents, resolveFrom_text (standsFor_reference code), nestFrom_text]
    rfl
  | .verbatim _, htame, _, _, _, _ => by
    rw [Tame] at htame
    exact htame.elim

theorem nestFrom_nodesTokens : ∀ nodes : List Node, AllTame nodes → AllClosed nodes →
    ∀ unclosed siblings rest,
    nestFrom unclosed siblings (resolveFrom [] (nodesTokens nodes ++ rest)) =
      nestFrom unclosed (siblings ++ nodesContents nodes) (resolveFrom [] rest)
  | [], _, _, unclosed, siblings, rest => by
    rw [nodesContents, List.append_nil]
    rfl
  | n :: others, htame, hclosed, unclosed, siblings, rest => by
    rw [AllTame] at htame
    rw [AllClosed] at hclosed
    rw [nodesTokens, nodesContents, List.append_assoc, nestFrom_tokens n htame.1 hclosed.1,
      nestFrom_nodesTokens others htame.2 hclosed.2, List.append_assoc]

end

/-- **Contents.** What is read of the markup of a node is what the node contains. -/
theorem contents?_render {n : Node} (htame : Tame n) (hclosed : Closed n) :
    contents? n.render = some n.contents := by
  have hnest := nestFrom_tokens n htame hclosed [] [] []
  rw [List.append_nil] at hnest
  rw [contents?, tokenize_render htame, hnest]
  rfl

end EmbedUI.Markup
