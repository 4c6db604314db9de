/-!
# Blocks of lines

Scripts and style sheets are put together from lines. Braces are written here and nowhere else.
-/

namespace EmbedUI.Markup.Block

/-- Lines one level further in. -/
def indented (lines : List String) : List String := lines.map ("  " ++ ·)

/-- Content between braces, on one line. -/
def braced (content : String) : String := "\x7b " ++ content ++ " \x7d"

/-- Braces with nothing between them. -/
def emptyBraces : String := "\x7b\x7d"

/-- A head with an opening brace, an indented body, and the closing brace with what follows it. -/
def block (head : String) (body : List String) (tail : String) : List String :=
  (head ++ "\x7b") :: indented body ++ ["\x7d" ++ tail]

/-- The content of an element that holds lines: each on its own, one level in. -/
def content (lines : List String) : String :=
  "\n" ++ String.join ((indented lines).map (· ++ "\n"))

end EmbedUI.Markup.Block
