import EmbedUI.Proofs.Json.Literal
import EmbedUI.Proofs.Markup.Lexeme
import EmbedUI.Proofs.Markup.Reference

/-!
# String literals in scripts and handlers

Text from outside gets into scripts as string literals, and into handlers as string literals that
are escaped once more as the value of an attribute. Three encoders are stacked: the escapes of a
literal, the backslash that keeps closing tags out, and character references. Nothing in what they
write can end the script, the literal or the attribute, and each of them is undone by its reader.

## The architecture

* **`closer_not_infix_guardClosers`**: whatever text is guarded, no closing tag is left or made.
* **`staysOpen`**: a stretch inside a literal in which no quote ends it; **`staysOpen_guarded`**.
* **`readString_guarded`**: the backslash of the second pass is read as an escape of its own, also
  next to backslashes of the first.
* **`Represents`**, **`stringLiteral_faithful`**: what a literal has to be, and that it is.
-/

namespace EmbedUI.Markup.Script

/-! ## Closing tags -/

/-- Guarding puts no slash at the front. -/
theorem exists_eq_slash_cons_of_guardClosers {cs tail : List Char}
    (h : guardClosers cs = '/' :: tail) : ∃ rest, cs = '/' :: rest := by
  fun_cases guardClosers cs with
  | case1 rest =>
    rw [guardClosers] at h
    exact absurd (List.cons.inj h).1 (by decide)
  | case2 c rest hcloser =>
    rw [guardClosers] at h
    · exact ⟨rest, by rw [(List.cons.inj h).1]⟩
    · exact hcloser
  | case3 => cases h

/-- **No closing tag.** -/
theorem closer_not_infix_guardClosers (cs : List Char) : ¬ ['<', '/'] <:+: guardClosers cs := by
  fun_induction guardClosers cs with
  | case1 rest ih => simpa [List.infix_cons_iff, List.cons_prefix_cons] using ih
  | case2 c rest hcloser ih =>
    rw [List.infix_cons_iff, not_or]
    refine ⟨?_, ih⟩
    -- a `<` that is kept has no slash behind it, and guarding brings none to the front
    intro hprefix
    obtain ⟨hlt, tail, htail⟩ := List.cons_prefix_cons.mp hprefix
    obtain ⟨rest', hrest⟩ := exists_eq_slash_cons_of_guardClosers htail.symm
    exact hcloser rest' hlt.symm hrest
  | case3 => decide

/-! ## Controls -/

theorem le_toNat_of_mem_stringLiteral {s : String} {c : Char} (h : c ∈ (stringLiteral s).toList) :
    0x20 ≤ c.toNat := by
  rw [stringLiteral, String.toList_ofList] at h
  rcases mem_guardClosers h with rfl | h
  · decide
  · exact Json.le_toNat_of_mem_literal h

/-! ## Quotes -/

/-- Inside a literal the characters do not end it: each quote has a backslash in front that belongs
to it, and so has each backslash a character behind. -/
def staysOpen : List Char → Bool
  | [] => true
  | ['\\'] => false
  | '\\' :: _ :: rest => staysOpen rest
  | c :: rest => decide (c ≠ '"') && staysOpen rest

theorem staysOpen_plain {c : Char} (hquote : c ≠ '"') (hbackslash : c ≠ '\\') (rest : List Char) :
    staysOpen (c :: rest) = staysOpen rest := by
  rw [staysOpen.eq_4 c rest (fun h _ => hbackslash h) (fun _ _ h _ => hbackslash h)]
  simp [hquote]

theorem staysOpen_literalChar (c : Char) (rest : List Char) :
    staysOpen (Json.literalChar c ++ rest) = staysOpen rest := by
  rcases Json.literalChar_cases c with ⟨d, hd, -, -⟩ | ⟨hcontrol, hd⟩ | ⟨hquote, hbackslash, -, hd⟩
  · rw [hd]
    rfl
  · have hdigits : ∀ n : Fin 16, Json.hexDigit n.val ≠ '"' ∧ Json.hexDigit n.val ≠ '\\' := by
      decide
    obtain ⟨hhighQuote, hhighBackslash⟩ := hdigits ⟨c.toNat / 16, by omega⟩
    obtain ⟨hlowQuote, hlowBackslash⟩ := hdigits ⟨c.toNat % 16, by omega⟩
    rw [hd]
    -- the backslash takes the `u` with it, and zeros are passed over
    show staysOpen (Json.hexDigit _ :: Json.hexDigit _ :: rest) = _
    rw [staysOpen_plain hhighQuote hhighBackslash, staysOpen_plain hlowQuote hlowBackslash]
  · rw [hd]
    exact staysOpen_plain hquote hbackslash rest

theorem staysOpen_guarded (cs : List Char) : staysOpen (guarded cs) = true := by
  fun_induction guarded cs with
  | case1 rest ih => exact ih
  | case2 c rest _ ih => rw [staysOpen_literalChar, ih]
  | case3 => rfl

/-! ## Reading -/

/-- Behind the opening quote, the string and what follows it are found. -/
theorem readString_guarded (cs rest : List Char) :
    Json.readString (guarded cs ++ '"' :: rest) = .ok (cs, rest) := by
  fun_induction guarded cs with
  | case1 cs ih =>
    have hlt : ∀ tail,
        Json.readString ('<' :: tail) = (Json.readString tail).map (Json.found '<') :=
      Json.readString_plain (by decide) (by decide) (by decide)
    -- a reader knows the escape of a slash, though no literal has one after the first pass
    have hslash : Json.simpleEscape? '/' = some '/' := rfl
    show Json.readString ('<' :: '\\' :: '/' :: (guarded cs ++ '"' :: rest)) = _
    rw [hlt, Json.readString_escape hslash (by decide), ih]
    rfl
  | case2 c cs _ ih =>
    rw [List.append_assoc, Json.readString_literalChar, ih]
    rfl
  | case3 => exact Json.readString.eq_2 rest

theorem ofText_stringLiteral (s : String) : Json.ofText (stringLiteral s) = .ok (.str s) := by
  have hread : Json.readString (guarded s.toList ++ ['"']) = .ok (s.toList, []) :=
    readString_guarded s.toList []
  have hchars : stringLiteral s = String.ofList ('"' :: (guarded s.toList ++ ['"'])) := by
    rw [← List.cons_append, ← toList_stringLiteral, String.ofList_toList]
  rw [hchars, Json.ofText_quoted hread, String.ofList_toList]

/-! ## The literal -/

/-- A text is a literal of a string that is safe in a script: nothing in it closes the script or the
literal, and readers of values and of scripts find the string and nothing else. -/
structure Represents (literal s : String) : Prop where
  closerFree : ¬ ['<', '/'] <:+: literal.toList
  uncontrolled : ∀ c ∈ literal.toList, 0x20 ≤ c.toNat
  quoted : ∃ body, literal.toList = '"' :: body ++ ['"'] ∧ staysOpen body = true
  value : Json.ofText literal = .ok (.str s)
  lexeme : lex literal.toList = [.text s.toList]

theorem represents_stringLiteral (s : String) : Represents (stringLiteral s) s where
  closerFree := by
    rw [stringLiteral, String.toList_ofList]
    exact closer_not_infix_guardClosers _
  uncontrolled := fun _ => le_toNat_of_mem_stringLiteral
  quoted := ⟨guarded s.toList, toList_stringLiteral s, staysOpen_guarded s.toList⟩
  value := ofText_stringLiteral s
  lexeme := (lexes_stringLiteral s).lex_eq

/-- **String literals are safe and faithful.** Every string has a literal that represents it in a
script. In the value of an attribute the same literal has no quote and no angle bracket, so it ends
neither the value nor the tag, and whoever reads the value finds the literal again. -/
theorem stringLiteral_faithful (s : String) :
    Represents (stringLiteral s) s ∧
    (∀ c ∈ escapeValue (stringLiteral s).toList, c ≠ '"' ∧ c ≠ '<' ∧ c ≠ '>') ∧
    String.ofList (decode (escapeValue (stringLiteral s).toList)) = stringLiteral s := by
  refine ⟨represents_stringLiteral s, fun c hc => ?_, ?_⟩
  · exact marks_of_mem_escapeValue hc
  · rw [decode_escapeValue, String.ofList_toList]

end EmbedUI.Markup.Script
