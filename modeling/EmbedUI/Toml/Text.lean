import EmbedUI.Text.Digits
import EmbedUI.Toml.Character

/-!
# Strings of TOML

A string is split off at its closing quotes first and interpreted afterwards. Strings in double
quotes have escapes, strings in single quotes have none. Strings in triple quotes extend over lines:
a line break at their start does not count, every other one counts as a line feed, and up to two
quotes may stand before the closing ones.
-/

namespace EmbedUI.Toml

/-! ### Splitting off -/

/-- The text up to a closing quote, and what follows it. With escapes, a backslash keeps the next
character from closing the text. -/
def untilQuote (quote : Char) (escapes : Bool) : List Char → Option (List Char × List Char)
  | [] => none
  | [c] => if c = quote then some ([], []) else none
  | c :: d :: rest =>
    if c = quote then some ([], d :: rest)
    else if escapes && c = '\\' then
      (untilQuote quote escapes rest).map fun (body, rest) => (c :: d :: body, rest)
    else (untilQuote quote escapes (d :: rest)).map fun (body, rest) => (c :: body, rest)

/-- The text up to three closing quotes, and what follows them. Of a longer run of quotes, the first
one or two belong to the text. -/
def untilTriple (quote : Char) (escapes : Bool) : List Char → Option (List Char × List Char)
  | [] => none
  | [_] => none
  | c :: d :: rest =>
    let run := ((d :: rest).takeWhile fun e => e = quote).length
    if c = quote ∧ 2 ≤ run then
      let kept := min (run - 2) 2
      some (List.replicate kept quote, (d :: rest).drop (2 + kept))
    else if escapes && c = '\\' then
      (untilTriple quote escapes rest).map fun (body, rest) => (c :: d :: body, rest)
    else (untilTriple quote escapes (d :: rest)).map fun (body, rest) => (c :: body, rest)

/-! ### Interpreting -/

/-- What a simple escape stands for. -/
def simpleEscape? (c : Char) : Option Char :=
  match c with
  | 'b' => some '\x08'
  | 't' => some '\t'
  | 'n' => some '\n'
  | 'f' => some '\x0c'
  | 'r' => some '\r'
  | '"' => some '"'
  | '\\' => some '\\'
  | _ => none

/-- The character whose number hexadecimal digits denote. Surrogates have none. -/
def scalar? (ds : List Char) : Option Char :=
  (Text.numeral? 16 ds).bind fun n => if n.isValidChar then some (Char.ofNat n) else none

/-- Writes every line break as a line feed. -/
def unifyBreaks : List Char → List Char
  | [] => []
  | '\r' :: '\n' :: rest => '\n' :: unifyBreaks rest
  | c :: rest => c :: unifyBreaks rest

/-- Whether a character may stand as it is in a text of one line or of several. -/
def standsIn (several : Bool) (c : Char) : Bool := isPlain c || (several && c = '\n')

/-- Replaces the escapes of a text. In a text of several lines, a backslash at the end of a line
joins it with the next character that is neither blank nor a line break; `joining` tells that this
is being looked for. -/
def unescape (several joining : Bool) : List Char → Option (List Char)
  | [] => some []
  | '\\' :: 'u' :: a :: b :: c :: d :: rest => do
    let e ← scalar? [a, b, c, d]
    return e :: (← unescape several false rest)
  | '\\' :: 'U' :: a :: b :: c :: d :: e :: f :: g :: h :: rest => do
    let e ← scalar? [a, b, c, d, e, f, g, h]
    return e :: (← unescape several false rest)
  | '\\' :: c :: rest =>
    match simpleEscape? c with
    | some e => (unescape several false rest).map (e :: ·)
    | none =>
      if several && ((c :: rest).dropWhile isBlank).head? = some '\n' then
        unescape several true rest
      else none
  | c :: rest =>
    if joining && (isBlank c || c = '\n') then unescape several true rest
    else if standsIn several c && c ≠ '\\' then (unescape several false rest).map (c :: ·)
    else none

/-- A text without escapes. -/
def verbatim (several : Bool) (cs : List Char) : Option (List Char) :=
  if cs.all (standsIn several) then some cs else none

/-- What a text between single or double quotes means. -/
def interpret (quote : Char) (several : Bool) (body : List Char) : Option String :=
  let meaning := if quote = '"' then unescape several false body else verbatim several body
  meaning.map String.ofList

/-- Reads a string of one line, after its opening quote. -/
def readLine (quote : Char) (cs : List Char) : Option (String × List Char) := do
  let (body, rest) ← untilQuote quote (quote = '"') cs
  return (← interpret quote false body, rest)

/-- Reads a string of several lines, after its three opening quotes. -/
def readBlock (quote : Char) (cs : List Char) : Option (String × List Char) := do
  let (body, rest) ← untilTriple quote (quote = '"') ((lineBreak? cs).getD cs)
  return (← interpret quote true (unifyBreaks body), rest)

/-- Reads a string of either kind, after its first quote. -/
def readText (quote : Char) : List Char → Option (String × List Char)
  | c :: d :: rest =>
    if c = quote ∧ d = quote then readBlock quote rest else readLine quote (c :: d :: rest)
  | cs => readLine quote cs

end EmbedUI.Toml
