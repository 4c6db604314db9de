import EmbedUI.Json.Basic

/-!
# JSON text

Values are written compactly, or over several lines with two spaces of indentation. A string
literal escapes the quote, the backslash and the control characters, and nothing else.
-/

namespace EmbedUI.Json

/-- The lower-case hexadecimal digit of a number below sixteen. -/
def hexDigit (n : Nat) : Char := (Nat.digitChar n)

/-- How one character stands in a string literal. -/
def literalChar (c : Char) : List Char :=
  if c = '"' then ['\\', '"']
  else if c = '\\' then ['\\', '\\']
  else if c = '\x08' then ['\\', 'b']
  else if c = '\x0c' then ['\\', 'f']
  else if c = '\n' then ['\\', 'n']
  else if c = '\r' then ['\\', 'r']
  else if c = '\t' then ['\\', 't']
  else if c.toNat < 0x20 then
    ['\\', 'u', '0', '0', hexDigit (c.toNat / 16), hexDigit (c.toNat % 16)]
  else [c]

/-- A string literal, quotes included. -/
def literal (cs : List Char) : List Char := '"' :: cs.flatMap literalChar ++ ['"']

/-! ### On one line -/

mutual

def compactChars : Json → List Char
  | .null => ['n', 'u', 'l', 'l']
  | .bool true => ['t', 'r', 'u', 'e']
  | .bool false => ['f', 'a', 'l', 's', 'e']
  | .num n => n.toText.toList
  | .str s => literal s.toList
  | .arr items => '[' :: compactItems items ++ [']']
  | .obj entries => '\x7b' :: compactEntries entries ++ ['\x7d']

/-- The items with a comma between them. -/
def compactItems : List Json → List Char
  | [] => []
  | [v] => compactChars v
  | v :: rest => compactChars v ++ ',' :: compactItems rest

/-- The entries with a comma between them. -/
def compactEntries : List (String × Json) → List Char
  | [] => []
  | [(k, v)] => literal k.toList ++ ':' :: compactChars v
  | (k, v) :: rest => literal k.toList ++ ':' :: compactChars v ++ ',' :: compactEntries rest

end

/-- A value on one line, without blanks. -/
def compact (v : Json) : String := String.ofList (compactChars v)

/-! ### Over several lines -/

/-- A line break and the indentation of a level. -/
def lineBreak (level : Nat) : List Char := '\n' :: List.replicate (2 * level) ' '

mutual

def prettyChars (level : Nat) : Json → List Char
  | .arr [] => ['[', ']']
  | .arr items =>
    '[' :: lineBreak (level + 1) ++ prettyItems (level + 1) items ++ lineBreak level ++ [']']
  | .obj [] => ['\x7b', '\x7d']
  | .obj entries =>
    '\x7b' :: lineBreak (level + 1) ++ prettyEntries (level + 1) entries ++ lineBreak level
      ++ ['\x7d']
  | v => compactChars v

/-- The items, each on a line of its own. -/
def prettyItems (level : Nat) : List Json → List Char
  | [] => []
  | [v] => prettyChars level v
  | v :: rest => prettyChars level v ++ ',' :: lineBreak level ++ prettyItems level rest

/-- The entries, each on a line of its own. -/
def prettyEntries (level : Nat) : List (String × Json) → List Char
  | [] => []
  | [(k, v)] => literal k.toList ++ ':' :: ' ' :: prettyChars level v
  | (k, v) :: rest =>
    literal k.toList ++ ':' :: ' ' :: prettyChars level v ++ ',' :: lineBreak level
      ++ prettyEntries level rest

end

/-- A value over several lines. Empty arrays and objects stay on theirs. -/
def pretty (v : Json) : String := String.ofList (prettyChars 0 v)

end EmbedUI.Json
