/-!
# Markup

Markup is built as a tree, and `Node.render` is the only place where it becomes text. Text nodes and
attribute values are escaped there, so no string that comes from outside can open or close a tag or
an attribute. Scripts and style sheets are raw text; so are the two escape hatches for markup that
is given as text and for character references.
-/

namespace EmbedUI.Markup

/-- An attribute: a name with a value, or a bare name. -/
inductive Attribute where
  | valued (name value : String)
  | bare (name : String)
deriving DecidableEq, Repr

inductive Node where
  | text (s : String)
  | element (tag : String) (attributes : List Attribute) (children : List Node)
  /-- An element without content and closing tag. -/
  | void (tag : String) (attributes : List Attribute)
  /-- A script or style sheet, whose content is not markup. -/
  | raw (tag : String) (content : String)
  /-- A reference to a character by its number. -/
  | reference (code : Nat)
  /-- Markup given as text, embedded as it stands. -/
  | verbatim (s : String)

/-! ### Escaping -/

/-- How a character stands between tags. -/
def textChar (c : Char) : List Char :=
  if c = '&' then ['&', 'a', 'm', 'p', ';']
  else if c = '<' then ['&', 'l', 't', ';']
  else if c = '>' then ['&', 'g', 't', ';']
  else [c]

/-- How a character stands in a double-quoted attribute value. -/
def valueChar (c : Char) : List Char :=
  if c = '"' then ['&', 'q', 'u', 'o', 't', ';'] else textChar c

def escapeText (cs : List Char) : List Char := cs.flatMap textChar

def escapeValue (cs : List Char) : List Char := cs.flatMap valueChar

/-! ### Rendering -/

def Attribute.chars : Attribute → List Char
  | .valued name value =>
    ' ' :: name.toList ++ '=' :: '"' :: escapeValue value.toList ++ ['"']
  | .bare name => ' ' :: name.toList

def openTag (tag : String) (attributes : List Attribute) : List Char :=
  '<' :: tag.toList ++ attributes.flatMap Attribute.chars ++ ['>']

def closeTag (tag : String) : List Char := '<' :: '/' :: tag.toList ++ ['>']

mutual

def Node.chars : Node → List Char
  | .text s => escapeText s.toList
  | .element tag attributes children =>
    openTag tag attributes ++ nodesChars children ++ closeTag tag
  | .void tag attributes => openTag tag attributes
  | .raw tag content => openTag tag [] ++ content.toList ++ closeTag tag
  | .reference code => '&' :: '#' :: Nat.toDigits 10 code ++ [';']
  | .verbatim s => s.toList

def nodesChars : List Node → List Char
  | [] => []
  | n :: rest => n.chars ++ nodesChars rest

end

/-- The text of a node. -/
def Node.render (n : Node) : String := String.ofList n.chars

/-- The text of several nodes in a row. -/
def render (nodes : List Node) : String := String.ofList (nodesChars nodes)

/-! ### Short forms -/

/-- A value attribute. -/
def attr (name value : String) : Attribute := .valued name value

/-- A line break and some indentation between tags. -/
def newline (indent : Nat) : Node := .text (String.ofList ('\n' :: List.replicate indent ' '))

/-- An element whose only attribute is an inline style. -/
def styled (tag style : String) (children : List Node) : Node :=
  .element tag [attr "style" style] children

end EmbedUI.Markup
