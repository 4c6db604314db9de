import EmbedUI.Markup.Node
import EmbedUI.Text.Digits

/-!
# Character references

Escaping writes a reference in the place of a few characters, and whoever reads a text or the value
of an attribute puts the characters back. Since every `&` is among the characters that are escaped,
nothing that was in a text before can be taken for a reference afterwards.

## The architecture

* **`decodeFrom`**: reads text that may have references in it, character by character.
* **`decode_referable`**, **`decode_named`**: one reference at the front of a text.
* **`decode_escapeText`**, **`decode_escapeValue`**: what was escaped comes back.
-/

namespace EmbedUI.Markup

namespace Reference

/-- The references that have a name. -/
def named : List (List Char × Char) :=
  [(['a', 'm', 'p'], '&'), (['l', 't'], '<'), (['g', 't'], '>'), (['q', 'u', 'o', 't'], '"'),
    (['a', 'p', 'o', 's'], '\'')]

/-- The character that is referred to by what stands between `&` and `;`. -/
def char? : List Char → Option Char
  | '#' :: digits => (Text.numeral? 10 digits).map Char.ofNat
  | name => named.lookup name

/-- What becomes of text behind an `&` and what was read since then, if there is one. A reference
ends with a semicolon; what does not make one stays as it is. -/
def decodeFrom : Option (List Char) → List Char → List Char
  | none, [] => []
  | some read, [] => '&' :: read
  | none, c :: rest => if c = '&' then decodeFrom (some []) rest else c :: decodeFrom none rest
  | some read, c :: rest =>
    if c = ';' then
      match char? read with
      | some d => d :: decodeFrom none rest
      | none => '&' :: read ++ ';' :: decodeFrom none rest
    else if c = '&' then '&' :: read ++ decodeFrom (some []) rest
    else decodeFrom (some (read ++ [c])) rest

end Reference

open Reference

/-- Text with the characters in the place of their references. -/
def decode (cs : List Char) : List Char := decodeFrom none cs

example : decode "&lt;b&gt; &amp;lt; &#65;&x; & &".toList = "<b> &lt; A&x; & &".toList := by decide

theorem decode_cons {c : Char} (h : c ≠ '&') (rest : List Char) :
    decode (c :: rest) = c :: decode rest := if_neg h

/-- Characters that can stand in a reference. -/
def Referable (cs : List Char) : Prop := ∀ c ∈ cs, c ≠ ';' ∧ c ≠ '&'

-- the characters of the list are looked at, and not all that there are
instance : DecidablePred Referable := fun cs => List.decidableBAll _ cs

theorem decodeFrom_append {cs : List Char} (h : Referable cs) (read rest : List Char) :
    decodeFrom (some read) (cs ++ rest) = decodeFrom (some (read ++ cs)) rest := by
  induction cs generalizing read with
  | nil => rw [List.append_nil, List.nil_append]
  | cons c cs ih =>
    obtain ⟨⟨hsemicolon, hampersand⟩, hcs⟩ := List.forall_mem_cons.mp h
    rw [List.cons_append, decodeFrom, if_neg hsemicolon, if_neg hampersand, ih hcs,
      List.append_assoc, List.singleton_append]

/-- **One reference.** -/
theorem decode_referable {name : List Char} {c : Char} (hname : Referable name)
    (hc : char? name = some c) (rest : List Char) :
    decode ('&' :: name ++ ';' :: rest) = c :: decode rest := by
  show decodeFrom (some []) (name ++ ';' :: rest) = _
  rw [decodeFrom_append hname, List.nil_append, decodeFrom, if_pos rfl, hc]
  rfl

/-- **A reference by name.** -/
theorem decode_named (name : List Char) {c : Char} (h : (name, c) ∈ named) (rest : List Char) :
    decode ('&' :: name ++ ';' :: rest) = c :: decode rest := by
  have hnames : ∀ entry ∈ named, Referable entry.1 ∧ char? entry.1 = some entry.2 := by decide
  obtain ⟨hname, hc⟩ := hnames _ h
  exact decode_referable hname hc rest

theorem decode_textChar (c : Char) (rest : List Char) :
    decode (textChar c ++ rest) = c :: decode rest := by
  unfold textChar
  split
  · next hc =>
    rw [hc]
    exact decode_named ['a', 'm', 'p'] (by decide) rest
  · next hampersand =>
    split
    · next hc =>
      rw [hc]
      exact decode_named ['l', 't'] (by decide) rest
    · split
      · next hc =>
        rw [hc]
        exact decode_named ['g', 't'] (by decide) rest
      · exact decode_cons hampersand rest

theorem decode_valueChar (c : Char) (rest : List Char) :
    decode (valueChar c ++ rest) = c :: decode rest := by
  unfold valueChar
  split
  · next hc =>
    rw [hc]
    exact decode_named ['q', 'u', 'o', 't'] (by decide) rest
  · exact decode_textChar c rest

/-- Escaping that is undone character by character is undone. -/
theorem decode_flatMap {escape : Char → List Char}
    (h : ∀ c rest, decode (escape c ++ rest) = c :: decode rest) (cs : List Char) :
    decode (cs.flatMap escape) = cs := by
  induction cs with
  | nil => rfl
  | cons c rest ih => rw [List.flatMap_cons, h, ih]

/-- **Text comes back.** -/
theorem decode_escapeText (cs : List Char) : decode (escapeText cs) = cs :=
  decode_flatMap decode_textChar cs

/-- **Attribute values come back.** -/
theorem decode_escapeValue (cs : List Char) : decode (escapeValue cs) = cs :=
  decode_flatMap decode_valueChar cs

end EmbedUI.Markup
