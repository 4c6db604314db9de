/-!
# Characters of TOML

The classes of characters that the grammar distinguishes, and the two line breaks. Control
characters other than the tab stand nowhere but in escapes.
-/

namespace EmbedUI.Toml

/-- A blank within a line. -/
def isBlank (c : Char) : Bool := c = ' ' || c = '\t'

/-- A character that may stand in comments and strings as it is. -/
def isPlain (c : Char) : Bool := c = '\t' || (decide (0x20 ≤ c.toNat) && c ≠ '\x7f')

/-- A character of a key that is written without quotes. -/
def isBare (c : Char) : Bool := c.isAlphanum || c = '_' || c = '-'

/-- What follows a line break, if one stands here. -/
def lineBreak? : List Char → Option (List Char)
  | '\n' :: rest => some rest
  | '\r' :: '\n' :: rest => some rest
  | _ => none

/-- What follows the rest of a line that holds nothing but blanks and a comment. The end of the text
ends a line too. -/
def lineEnd? (cs : List Char) : Option (List Char) :=
  let rest :=
    match cs.dropWhile isBlank with
    | '#' :: rest => rest.dropWhile isPlain
    | rest => rest
  if rest.isEmpty then some [] else lineBreak? rest

/-- What follows blanks, line breaks and comments. A comment in between ends with its line. -/
def gapEnd? (inComment : Bool) : List Char → Option (List Char)
  | [] => if inComment then none else some []
  | '\n' :: rest => gapEnd? false rest
  | '\r' :: '\n' :: rest => gapEnd? false rest
  | c :: rest =>
    if inComment then (if isPlain c then gapEnd? true rest else none)
    else if c = '#' then gapEnd? true rest
    else if isBlank c then gapEnd? false rest
    else some (c :: rest)

end EmbedUI.Toml
