import EmbedUI.Text.Blank

/-!
# Titles in descriptions

A description may name the title of what it asks for: `title: Weekly, ...`. The word is found in any
letter case; what separates it from the title is a run of colons and blanks; the title ends at a
comma, a full stop or a line break.

When nothing can follow the whole run, the run gives up its last character that is not a line
break, and this character is the title. The word is then looked for no further, whether or not
anything is left of the title after trimming.
-/

namespace EmbedUI.Description

def isSeparator (c : Char) : Bool := c = ':' || Text.isBlank c

def endsTitle (c : Char) : Bool := c = ',' || c = '.' || c = '\n'

/-- What follows a word at the front of a text; the word is given in lower case and found in any
case. -/
def afterWord? : List Char → List Char → Option (List Char)
  | [], rest => some rest
  | c :: word, d :: rest => if d.toLower = c then afterWord? word rest else none
  | _ :: _, [] => none

/-- The character that a run of separators gives up: its last one that is not a line break. The
first one always stays. -/
def givenUp? (run : List Char) : Option Char :=
  ((run.drop 1).reverse.dropWhile (· = '\n')).head?

/-- The title behind the word, if one follows. -/
def titleBehind? (rest : List Char) : Option (List Char) :=
  let run := rest.takeWhile isSeparator
  let title := (rest.dropWhile isSeparator).takeWhile fun c => !endsTitle c
  if run.isEmpty then none
  else if title.isEmpty then (givenUp? run).map fun c => [c]
  else some title

/-- The title at the first place where one is named. -/
def firstTitle? : List Char → Option (List Char)
  | [] => none
  | c :: cs =>
    match (afterWord? ['t', 'i', 't', 'l', 'e'] (c :: cs)).bind titleBehind? with
    | some title => some title
    | none => firstTitle? cs

/-- The title that a description names. A blank one does not count. -/
def title? (description : String) : Option String :=
  (firstTitle? description.toList).bind fun title =>
    let title := Text.trimmed title
    if title.isEmpty then none else some (String.ofList title)

end EmbedUI.Description
