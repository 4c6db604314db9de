import EmbedUI.Json.Basic

/-!
# Reading JSON text

Reading never fails: a text that is not JSON becomes a document with a flaw where it stops being
JSON. The reader keeps the entries of an object in the order of the text, repeated keys included,
because what a repetition means is up to the decoder.

Each reader returns what remains of the text, or nothing when it cannot be followed any further.
The recursion is bounded by fuel computed from the length of the text: every second step takes a
character off it.
-/

namespace EmbedUI.Json

/-- Containers may be nested this deep; one more is passed over but not read. -/
def maxDepth : Nat := 127

def isSpace (c : Char) : Bool := c = ' ' || c = '\n' || c = '\t' || c = '\r'

/-- The fault of a text that does not go on as it should: it ends, or something else stands
there. -/
def faultAt : List Char → Fault
  | [] => .truncated
  | _ => .malformed

namespace Flaw

/-- No value starts here. -/
def noValue (f : Fault) : Flaw :=
  { place := .value, reading := f, naming := f, skipping := some f }

/-- A word or number that is broken off or cannot be a value. -/
def word (f : Fault) (skipping : Option Fault) : Flaw :=
  { place := .value, reading := f, naming := .malformed, skipping := skipping }

/-- A string that is broken off or cannot be a value. -/
def string (f : Fault) (skipping : Option Fault) : Flaw :=
  { place := .value, reading := f, naming := f, skipping := skipping }

/-- A key is due and none can be read. -/
def noKey (f : Fault) (skipping : Option Fault) : Flaw :=
  { place := .key, reading := f, naming := f, skipping := skipping }

/-- A comma or a closing bracket is due. -/
def noSeparator (f : Fault) : Flaw :=
  { place := .separator, reading := f, naming := f, skipping := some f }

end Flaw

/-! ### Passing over a value -/

mutual

/-- The first fault met when a value is passed over without being read. -/
def skipFault? {ε : Type} [Source ε] : Tree ε → Option Fault
  | .flaw e => (Source.flaw e).skipping
  | .arr items => skipItems? items
  | .obj entries => skipEntries? entries
  | _ => none

def skipItems? {ε : Type} [Source ε] : List (Tree ε) → Option Fault
  | [] => none
  | v :: rest => (skipFault? v).or (skipItems? rest)

def skipEntries? {ε : Type} [Source ε] : List (String × Tree ε) → Option Fault
  | [] => none
  | (_, v) :: rest => (skipFault? v).or (skipEntries? rest)

end

/-! ### Strings -/

/-- The code unit that four hexadecimal digits denote. -/
def codeUnit? (a b c d : Char) : Option Nat := Text.numeral? 16 [a, b, c, d]

/-- The fault of an escape with fewer than four characters left. What is left is measured in bytes:
four of them are enough to see that they are no digits. -/
def shortEscapeFault (rest : List Char) : Fault :=
  if (String.ofList rest).utf8ByteSize < 4 then .truncated else .malformed

/-- What a simple escape stands for. -/
def simpleEscape? (c : Char) : Option Char :=
  match c with
  | '"' => some '"'
  | '\\' => some '\\'
  | '/' => some '/'
  | 'b' => some '\x08'
  | 'f' => some '\x0c'
  | 'n' => some '\n'
  | 'r' => some '\r'
  | 't' => some '\t'
  | _ => none

def isHighSurrogate (n : Nat) : Bool := decide (0xD800 ≤ n) && decide (n < 0xDC00)
def isLowSurrogate (n : Nat) : Bool := decide (0xDC00 ≤ n) && decide (n < 0xE000)

/-- The character that a surrogate pair encodes. -/
def pairChar (high low : Nat) : Char :=
  Char.ofNat (0x10000 + (high - 0xD800) * 0x400 + (low - 0xDC00))

/-- Reads a string up to its closing quote. -/
def readString : List Char → Except Fault (List Char × List Char)
  | [] => .error .truncated
  | '"' :: rest => .ok ([], rest)
  | '\\' :: 'u' :: a :: b :: c :: d :: rest =>
    match codeUnit? a b c d with
    | none => .error .malformed
    | some n =>
      if isLowSurrogate n then .error .malformed
      else if isHighSurrogate n then
        match rest with
        | '\\' :: 'u' :: a :: b :: c :: d :: rest =>
          match codeUnit? a b c d with
          | none => .error .malformed
          | some m =>
            if isLowSurrogate m then
              (readString rest).map fun (cs, r) => (pairChar n m :: cs, r)
            else .error .malformed
        | '\\' :: 'u' :: rest => .error (shortEscapeFault rest)
        | ['\\'] => .error .truncated
        | rest => .error (faultAt rest)
      else (readString rest).map fun (cs, r) => (Char.ofNat n :: cs, r)
  | '\\' :: 'u' :: rest => .error (shortEscapeFault rest)
  | '\\' :: c :: rest =>
    match simpleEscape? c with
    | some e => (readString rest).map fun (cs, r) => (e :: cs, r)
    | none => .error .malformed
  | ['\\'] => .error .truncated
  | c :: rest =>
    if c.toNat < 0x20 then .error .malformed
    else (readString rest).map fun (cs, r) => (c :: cs, r)

/-- Passes over a string up to its closing quote. Surrogates need not come in pairs. -/
def skipString : List Char → Except Fault (List Char)
  | [] => .error .truncated
  | '"' :: rest => .ok rest
  | '\\' :: 'u' :: a :: b :: c :: d :: rest =>
    if (codeUnit? a b c d).isSome then skipString rest else .error .malformed
  | '\\' :: 'u' :: rest => .error (shortEscapeFault rest)
  | '\\' :: c :: rest => if (simpleEscape? c).isSome then skipString rest else .error .malformed
  | ['\\'] => .error .truncated
  | c :: rest => if c.toNat < 0x20 then .error .malformed else skipString rest

/-! ### Words and numbers -/

/-- What a reader makes of the front of a text, and what remains. -/
abbrev Scanned (α : Type) := α × Option (List Char)

/-- A value that is spelled out as a word. -/
def readWord (value : Tree Flaw) : List Char → List Char → Scanned (Tree Flaw)
  | [], rest => (value, some rest)
  | c :: word, d :: rest =>
    if c = d then readWord value word rest
    else (.flaw (.word .malformed (some .malformed)), none)
  | _ :: _, [] => (.flaw (.word .truncated (some .truncated)), none)

/-- The exponent of a literal, if one follows. An exponent without digits is an error, whose kind
is told by what stands in their place. -/
def readExponent (cs : List Char) : Except Fault (Option (Bool × List Char) × List Char) :=
  match cs with
  | [] => .ok (none, [])
  | c :: rest =>
    if c = 'e' ∨ c = 'E' then
      let (down, rest) :=
        match rest with
        | '-' :: r => (true, r)
        | '+' :: r => (false, r)
        | r => (false, r)
      let (ds, rest) := rest.span Char.isDigit
      if ds.isEmpty then .error (faultAt rest) else .ok (some (down, ds), rest)
    else .ok (none, cs)

/-- A number, after its sign. A zero is not followed by further digits. A number that breaks off is
malformed for whoever passes over it, even where the text ends. -/
def readNumber (negative : Bool) (cs : List Char) : Scanned (Tree Flaw) :=
  let broken (f : Fault) : Scanned (Tree Flaw) := (.flaw (.word f (some .malformed)), none)
  let (whole, rest) := cs.span Char.isDigit
  if whole.isEmpty then broken (faultAt rest)
  else if whole.head? = some '0' ∧ 1 < whole.length then broken .malformed
  else
    let (fraction, rest) :=
      match rest with
      | '.' :: r => let (ds, r) := r.span Char.isDigit; (some ds, r)
      | r => (none, r)
    if fraction = some [] then broken (faultAt rest)
    else
      match readExponent rest with
      | .error f => broken f
      | .ok (exponent, rest) =>
        match Number.Literal.number? ⟨negative, whole, fraction, exponent⟩ with
        | some n => (.num n, some rest)
        | none => (.flaw (.word .malformed none), some rest)

/-! ### Values -/

/-- A string value, after its opening quote. -/
def readText (cs : List Char) : Scanned (Tree Flaw) :=
  match readString cs, skipString cs with
  | .ok (s, rest), _ => (.str (String.ofList s), some rest)
  | .error f, .ok rest => (.flaw (.string f none), some rest)
  | .error f, .error g => (.flaw (.string f (some g)), none)

/-- A container at a given depth: one that is nested too deep can only be passed over. -/
def limitDepth (depth : Nat) (read : Scanned (Tree Flaw)) : Scanned (Tree Flaw) :=
  if depth < maxDepth then read
  else (.flaw (.word .malformed (skipFault? read.1)), read.2)

mutual

/-- The value at the front of a text, inside `depth` containers. -/
def readValue (fuel depth : Nat) (cs : List Char) : Scanned (Tree Flaw) :=
  match fuel with
  | 0 => (.flaw (.noValue .malformed), none)
  | fuel + 1 =>
    match cs.dropWhile isSpace with
    | [] => (.flaw (.noValue .truncated), none)
    | 'n' :: rest => readWord .null ['u', 'l', 'l'] rest
    | 't' :: rest => readWord (.bool true) ['r', 'u', 'e'] rest
    | 'f' :: rest => readWord (.bool false) ['a', 'l', 's', 'e'] rest
    | '"' :: rest => readText rest
    | '-' :: rest => readNumber true rest
    | '[' :: rest =>
      match rest.dropWhile isSpace with
      | [] => limitDepth depth (.arr [.flaw (.noSeparator .truncated)], none)
      | ']' :: rest => limitDepth depth (.arr [], some rest)
      | rest =>
        let (items, rest) := readItems fuel (depth + 1) rest
        limitDepth depth (.arr items, rest)
    | '\x7b' :: rest =>
      match rest.dropWhile isSpace with
      | '\x7d' :: rest => limitDepth depth (.obj [], some rest)
      | rest =>
        let (entries, rest) := readEntries fuel (depth + 1) rest
        limitDepth depth (.obj entries, rest)
    | c :: rest => if c.isDigit then readNumber false (c :: rest)
      else (.flaw (.noValue .malformed), none)

/-- The items from the front of a text up to the closing bracket; at least one is due. -/
def readItems (fuel depth : Nat) (cs : List Char) : Scanned (List (Tree Flaw)) :=
  match fuel with
  | 0 => ([.flaw (.noValue .malformed)], none)
  | fuel + 1 =>
    match readValue fuel depth cs with
    | (v, none) => ([v], none)
    | (v, some rest) =>
      match rest.dropWhile isSpace with
      | ']' :: rest => ([v], some rest)
      | ',' :: rest => let (vs, rest) := readItems fuel depth rest; (v :: vs, rest)
      | rest => ([v, .flaw (.noSeparator (faultAt rest))], none)

/-- The entries from the front of a text up to the closing brace; at least one is due. -/
def readEntries (fuel depth : Nat) (cs : List Char) : Scanned (List (String × Tree Flaw)) :=
  match fuel with
  | 0 => ([("", .flaw (.noValue .malformed))], none)
  | fuel + 1 =>
    match cs.dropWhile isSpace with
    | '"' :: rest =>
      match readString rest, skipString rest with
      | .ok (key, rest), _ => readEntry fuel depth (String.ofList key) rest
      | .error f, .ok rest =>
        let (es, rest) := readEntry fuel depth "" rest
        (("", .flaw (.noKey f none)) :: es, rest)
      | .error f, .error g => ([("", .flaw (.noKey f (some g)))], none)
    | rest => ([("", .flaw (.noKey (faultAt rest) (some (faultAt rest))))], none)

/-- The rest of an entry after its key, and the entries behind it. -/
def readEntry (fuel depth : Nat) (key : String) (cs : List Char) :
    Scanned (List (String × Tree Flaw)) :=
  match fuel with
  | 0 => ([("", .flaw (.noValue .malformed))], none)
  | fuel + 1 =>
    match cs.dropWhile isSpace with
    | ':' :: rest =>
      match readValue fuel depth rest with
      | (v, none) => ([(key, v)], none)
      | (v, some rest) =>
        match rest.dropWhile isSpace with
        | '\x7d' :: rest => ([(key, v)], some rest)
        | ',' :: rest => let (es, rest) := readEntries fuel depth rest; ((key, v) :: es, rest)
        | rest => ([(key, v), ("", .flaw (.noSeparator (faultAt rest)))], none)
    | rest => ([(key, .flaw (.noValue (faultAt rest)))], none)

end

/-- A whole text: its value, and whether anything but blanks follows it. -/
structure Document where
  root : Tree Flaw
  trailing : Bool

/-- Reads a text. Between two characters that are taken off it at most three calls are nested. -/
def Document.ofText (text : String) : Document :=
  let cs := text.toList
  let (root, rest) := readValue (3 * cs.length + 3) 0 cs
  { root := root, trailing := (rest.getD []).any (fun c => !isSpace c) }

end EmbedUI.Json
