/-!
# Keywords in running text

Descriptions are searched for keywords without regard to letter case: the text is lower-cased once
and every keyword, which is written in lower-case ASCII letters, is looked for as a substring.
-/

namespace EmbedUI.Text

/-- The lower case of one letter, as far as an ASCII keyword can tell. Apart from `A`–`Z`, two
letters have an ASCII letter in their lower case: the dotted capital I, which becomes `i` and a
combining dot, and the Kelvin sign, which becomes `k`. Every other letter stays what no keyword
contains, so it is left as it is. -/
def lowerChar (c : Char) : List Char :=
  if c.isUpper then [c.toLower]
  else if c = '\u0130' then ['i', '\u0307']
  else if c = '\u212a' then ['k']
  else [c]

/-- The text in which keywords are looked for. -/
def lowered (s : String) : List Char := s.toList.flatMap lowerChar

/-- Whether a word occurs as a run of consecutive characters. -/
def occursIn (word : List Char) : List Char → Bool
  | [] => word.isEmpty
  | c :: cs => word.isPrefixOf (c :: cs) || occursIn word cs

/-- Whether lowered text mentions a keyword. -/
def mentions (text : List Char) (keyword : String) : Bool := occursIn keyword.toList text

/-- Whether lowered text mentions one of several keywords. -/
def mentionsAny (text : List Char) (keywords : List String) : Bool :=
  keywords.any (mentions text)

theorem lowered_append (s t : String) : lowered (s ++ t) = lowered s ++ lowered t := by
  simp [lowered]

end EmbedUI.Text
