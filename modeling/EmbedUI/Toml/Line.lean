import EmbedUI.Toml.Draft
import EmbedUI.Toml.Text

/-!
# Lines of a TOML text

A text is a sequence of lines: headers of tables and entries, blank lines and comments apart. Arrays
and strings in triple quotes extend over line breaks.

A reader answers what it has read and what remains, or nothing. Arrays and tables in braces may be
nested, and keys dotted, to a limited depth; that depth bounds the recursion.
-/

namespace EmbedUI.Toml

/-- Keys have at most this many parts, and values are nested at most this deep. -/
def maxDepth : Nat := 79

/-! ### Keys -/

def readKey : List Char → Option (String × List Char)
  | '"' :: rest => readLine '"' rest
  | '\'' :: rest => readLine '\'' rest
  | cs =>
    let (name, rest) := cs.span isBare
    if name.isEmpty then none else some (String.ofList name, rest)

/-- A dotted key of at most so many parts. There may be blanks around each part. -/
def readPath : Nat → List Char → Option (List String × List Char)
  | 0, _ => none
  | limit + 1, cs => do
    let (key, rest) ← readKey (cs.dropWhile isBlank)
    match rest.dropWhile isBlank with
    | '.' :: rest =>
      let (path, rest) ← readPath limit rest
      return (key :: path, rest)
    | rest => return ([key], rest)

/-! ### Values -/

/-- A reader of values. -/
abbrev ValueReader := List Char → Option (Value × List Char)

/-- An entry: a key, an equals sign and a value. -/
def readEntry (value : ValueReader) (cs : List Char) :
    Option ((List String × Value) × List Char) := do
  let (path, rest) ← readPath maxDepth cs
  match rest with
  | '=' :: rest =>
    let (v, rest) ← value (rest.dropWhile isBlank)
    return ((path, v), rest)
  | _ => none

/-- The items of an array up to its closing bracket. A comma may follow the last one. Each item but
the last takes a comma off the text, so as many steps as there are characters are enough. -/
def readItems (value : ValueReader) : Nat → List Char → Option (List Value × List Char)
  | 0, _ => none
  | fuel + 1, cs => do
    match ← gapEnd? false cs with
    | ']' :: rest => return ([], rest)
    | cs =>
      let (v, rest) ← value cs
      match ← gapEnd? false rest with
      | ']' :: rest => return ([v], rest)
      | ',' :: rest =>
        let (vs, rest) ← readItems value fuel rest
        return (v :: vs, rest)
      | _ => none

/-- The entries of a table in braces up to its closing brace; at least one is due. -/
def readMembers (value : ValueReader) :
    Nat → List Char → Option (List (List String × Value) × List Char)
  | 0, _ => none
  | fuel + 1, cs => do
    let (entry, rest) ← readEntry value cs
    match rest.dropWhile isBlank with
    | '\x7d' :: rest => return ([entry], rest)
    | ',' :: rest =>
      let (entries, rest) ← readMembers value fuel rest
      return (entry :: entries, rest)
    | _ => none

/-- A value that contains no other value. -/
def readSimple : ValueReader
  | '"' :: rest => (readText '"' rest).map fun (s, rest) => (.text s, rest)
  | '\'' :: rest => (readText '\'' rest).map fun (s, rest) => (.text s, rest)
  | 't' :: 'r' :: 'u' :: 'e' :: rest => some (.flag true, rest)
  | 'f' :: 'a' :: 'l' :: 's' :: 'e' :: rest => some (.flag false, rest)
  | cs =>
    if Moment.begins cs then (Moment.read cs).map fun (m, rest) => (.moment m, rest)
    else (Number.read cs).map fun (n, rest) => (.number n, rest)

/-- A value in which others are nested at most so deep. -/
def readValue : Nat → ValueReader
  | 0, cs => readSimple cs
  | depth + 1, '[' :: rest => do
    let (items, rest) ← readItems (readValue depth) (rest.length + 1) rest
    return (.list items, rest)
  | depth + 1, '\x7b' :: rest =>
    match rest.dropWhile isBlank with
    | '\x7d' :: rest => some (.table [], rest)
    | rest => do
      let (body, rest) ← readMembers (readValue depth) (rest.length + 1) rest
      return (.table (← Draft.table? body), rest)
  | _ + 1, cs => readSimple cs

/-! ### Lines -/

inductive Line where
  /-- The header of a table. -/
  | table (path : List String)
  /-- The header that several tables share; it begins another one. -/
  | item (path : List String)
  | entry (path : List String) (value : Value)

namespace Line

/-- The line that begins here. -/
def read : List Char → Option (Line × List Char)
  | '[' :: '[' :: rest => do
    let (path, rest) ← readPath maxDepth rest
    match rest with
    | ']' :: ']' :: rest => return (.item path, rest)
    | _ => none
  | '[' :: rest => do
    let (path, rest) ← readPath maxDepth rest
    match rest with
    | ']' :: rest => return (.table path, rest)
    | _ => none
  | cs => do
    let ((path, v), rest) ← readEntry (readValue maxDepth) cs
    return (.entry path v, rest)

/-- Whether there is nothing to be read in this line, or nothing that may be read. -/
def isVoid : List Char → Bool
  | [] => true
  | c :: _ => c = '#' || c = '\n' || c = '\r'

/-- The lines of a text. Each takes at least its line break off the text, so as many steps as there
are characters are enough. -/
def readAll : Nat → List Char → Option (List Line)
  | 0, _ => none
  | fuel + 1, cs =>
    match cs.dropWhile isBlank with
    | [] => some []
    | cs =>
      if isVoid cs then (lineEnd? cs).bind (readAll fuel)
      else do
        let (line, rest) ← read cs
        let lines ← readAll fuel (← lineEnd? rest)
        return line :: lines

end Line

end EmbedUI.Toml
