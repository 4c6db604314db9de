import EmbedUI.Json.Decode
import EmbedUI.Json.Printer

/-!
# String literals

A string is printed between quotes, with escapes for the quote, the backslash and the controls. The
reader of JSON text finds the same characters again, and the literal ends where it was ended.

## The architecture

* **`literalChar_cases`**: the ways in which a character is written in a literal;
  **`mem_literalChar`**: the characters that come of it.
* **`readString_literalChar`**: each of them is read as the character, whatever follows;
  **`readString_literal`**: and so are all of them in a row.
* **`ofText_quoted`**, **`ofText_compact_single`**: texts that are a literal, or an object with one
  entry.
-/

namespace EmbedUI.Json

/-! ## Writing -/

/-- The characters that are escaped by a letter or by themselves, and what stands behind the
backslash. -/
def simpleEscapes : List (Char × Char) :=
  [('"', '"'), ('\\', '\\'), ('\x08', 'b'), ('\x0c', 'f'), ('\n', 'n'), ('\r', 'r'), ('\t', 't')]

theorem literalChar_simple : ∀ p ∈ simpleEscapes, literalChar p.1 = ['\\', p.2] ∧
    simpleEscape? p.2 = some p.1 ∧ p.2 ≠ 'u' := by
  decide

/-- **How a character is written:** by a simple escape, by its number, or as it is. -/
theorem literalChar_cases (c : Char) :
    (∃ d, literalChar c = ['\\', d] ∧ simpleEscape? d = some c ∧ d ≠ 'u') ∨
    (c.toNat < 32 ∧ literalChar c =
      ['\\', 'u', '0', '0', hexDigit (c.toNat / 16), hexDigit (c.toNat % 16)]) ∨
    (c ≠ '"' ∧ c ≠ '\\' ∧ ¬c.toNat < 32 ∧ literalChar c = [c]) := by
  by_cases hsimple : c ∈ simpleEscapes.map Prod.fst
  · obtain ⟨p, hp, rfl⟩ := List.mem_map.mp hsimple
    exact Or.inl ⟨p.2, literalChar_simple p hp⟩
  · simp only [simpleEscapes, List.map_cons, List.map_nil, List.mem_cons, List.not_mem_nil,
      or_false, not_or] at hsimple
    obtain ⟨hquote, hbackslash, hb, hf, hn, hr, ht⟩ := hsimple
    unfold literalChar
    rw [if_neg hquote, if_neg hbackslash, if_neg hb, if_neg hf, if_neg hn, if_neg hr, if_neg ht]
    by_cases hcontrol : c.toNat < 32
    · exact Or.inr (Or.inl ⟨hcontrol, if_pos hcontrol⟩)
    · exact Or.inr (Or.inr ⟨hquote, hbackslash, hcontrol, if_neg hcontrol⟩)

/-- The four digits of a control character. -/
theorem numeral?_control {n : Nat} (h : n < 32) :
    Text.numeral? 16 ['0', '0', hexDigit (n / 16), hexDigit (n % 16)] = some n := by
  have hall : ∀ m : Fin 32, Text.numeral? 16
      ['0', '0', hexDigit (m.val / 16), hexDigit (m.val % 16)] = some m.val := by decide
  exact hall ⟨n, h⟩

/-- The characters that escapes are made of. -/
def escapeChars : List Char := "\\\"/bfnrtu0123456789abcdef".toList

theorem mem_escapeChars_of_simpleEscape? {c d : Char} (h : simpleEscape? d = some c) :
    d ∈ escapeChars := by
  unfold simpleEscape? at h
  split at h
  all_goals first
    | decide
    | cases h

theorem hexDigit_mem_escapeChars {n : Nat} (h : n < 16) : hexDigit n ∈ escapeChars := by
  have hall : ∀ m : Fin 16, hexDigit m.val ∈ escapeChars := by decide
  exact hall ⟨n, h⟩

/-- Nothing stands in a literal but parts of escapes and characters as they are. -/
theorem mem_literalChar {c d : Char} (h : d ∈ literalChar c) :
    d ∈ escapeChars ∨ d = c ∧ 32 ≤ c.toNat := by
  rcases literalChar_cases c with ⟨e, he, hc, -⟩ | ⟨hcontrol, he⟩ | ⟨-, -, hc, he⟩
  · have hescape : ['\\', e] ⊆ escapeChars :=
      List.cons_subset.mpr ⟨by decide,
        List.cons_subset.mpr ⟨mem_escapeChars_of_simpleEscape? hc, List.nil_subset _⟩⟩
    rw [he] at h
    exact Or.inl (hescape h)
  · have hhigh := hexDigit_mem_escapeChars (show c.toNat / 16 < 16 by omega)
    have hlow := hexDigit_mem_escapeChars (show c.toNat % 16 < 16 by omega)
    have hfront : ['\\', 'u', '0', '0'] ⊆ escapeChars := by decide
    have hdigits : [hexDigit (c.toNat / 16), hexDigit (c.toNat % 16)] ⊆ escapeChars :=
      List.cons_subset.mpr ⟨hhigh, List.cons_subset.mpr ⟨hlow, List.nil_subset _⟩⟩
    rw [he] at h
    rcases List.mem_append.mp (show d ∈ ['\\', 'u', '0', '0'] ++ _ from h) with h | h
    · exact Or.inl (hfront h)
    · exact Or.inl (hdigits h)
  · rw [he] at h
    exact Or.inr ⟨List.mem_singleton.mp h, Nat.le_of_not_lt hc⟩

/-- No control character stands in a literal as it is. -/
theorem le_toNat_of_mem_literalChar {c d : Char} (h : d ∈ literalChar c) : 32 ≤ d.toNat := by
  have hescapes : (escapeChars.all fun e => 32 ≤ e.toNat) = true := by decide
  rcases mem_literalChar h with hd | ⟨rfl, hc⟩
  · exact of_decide_eq_true (List.all_eq_true.mp hescapes d hd)
  · exact hc

theorem le_toNat_of_mem_literal {cs : List Char} {d : Char} (h : d ∈ literal cs) :
    32 ≤ d.toNat := by
  obtain rfl | ⟨c, -, hc⟩ : d = '"' ∨ ∃ c ∈ cs, d ∈ literalChar c := by
    simpa [literal, or_comm] using h
  · decide
  · exact le_toNat_of_mem_literalChar hc

/-! ## Reading -/

/-- A character in front of what is read. -/
def found (c : Char) (read : List Char × List Char) : List Char × List Char :=
  (c :: read.1, read.2)

theorem readString_escape {c d : Char} (hc : simpleEscape? d = some c) (hu : d ≠ 'u')
    (rest : List Char) : readString ('\\' :: d :: rest) = (readString rest).map (found c) := by
  rw [readString.eq_5 d rest (fun _ _ _ _ _ h _ => hu h) hu, hc]
  rfl

theorem readString_control {c : Char} (h : c.toNat < 32) (rest : List Char) :
    readString ('\\' :: 'u' :: '0' :: '0' :: hexDigit (c.toNat / 16) :: hexDigit (c.toNat % 16) ::
      rest) = (readString rest).map (found c) := by
  have hlow : ¬ isLowSurrogate c.toNat = true := by simp [isLowSurrogate]; omega
  have hhigh : ¬ isHighSurrogate c.toNat = true := by simp [isHighSurrogate]; omega
  rw [readString.eq_3, codeUnit?, numeral?_control h]
  dsimp only
  rw [if_neg hlow, if_neg hhigh, Char.ofNat_toNat]
  rfl

theorem readString_plain {c : Char} (hquote : c ≠ '"') (hbackslash : c ≠ '\\')
    (hcontrol : ¬ c.toNat < 32) (rest : List Char) :
    readString (c :: rest) = (readString rest).map (found c) := by
  rw [readString.eq_7 c rest hquote (fun _ _ _ _ _ h _ => hbackslash h)
    (fun _ h _ => hbackslash h) (fun _ _ h _ => hbackslash h) (fun h _ => hbackslash h),
    if_neg hcontrol]
  rfl

/-- **One character of a literal.** -/
theorem readString_literalChar (c : Char) (rest : List Char) :
    readString (literalChar c ++ rest) = (readString rest).map (found c) := by
  rcases literalChar_cases c with ⟨d, hd, hc, hu⟩ | ⟨hcontrol, hd⟩ | ⟨hquote, hbackslash, hc, hd⟩
  · rw [hd]
    exact readString_escape hc hu rest
  · rw [hd]
    exact readString_control hcontrol rest
  · rw [hd]
    exact readString_plain hquote hbackslash hc rest

/-- **A whole literal,** behind its opening quote. -/
theorem readString_literal (cs rest : List Char) :
    readString (cs.flatMap literalChar ++ '"' :: rest) = .ok (cs, rest) := by
  induction cs with
  | nil => exact readString.eq_2 rest
  | cons c cs ih =>
    rw [List.flatMap_cons, List.append_assoc, readString_literalChar, ih]
    rfl

theorem readText_eq {body cs rest : List Char} (h : readString body = .ok (cs, rest)) :
    readText body = (.str (String.ofList cs), some rest) := by
  rw [readText, h]

/-- A value that stands alone in a text. -/
theorem ofText_eq {cs : List Char} {v : Tree Flaw} {w : Json}
    (hread : readValue (3 * cs.length + 3) 0 cs = (v, some [])) (hvalue : anyValue v = .ok w) :
    ofText (String.ofList cs) = .ok w := by
  rw [ofText, decodeText, Document.ofText, String.toList_ofList, hread]
  dsimp only
  rw [hvalue]
  rfl

theorem readValue_quote (fuel depth : Nat) (body : List Char) :
    readValue (fuel + 1) depth ('"' :: body) = readText body := by
  rw [readValue]
  rfl

/-- A text that is one literal. -/
theorem ofText_quoted {body cs : List Char} (h : readString body = .ok (cs, [])) :
    ofText (String.ofList ('"' :: body)) = .ok (.str (String.ofList cs)) := by
  apply ofText_eq (v := .str (String.ofList cs))
  · rw [readValue_quote, readText_eq h]
  · rfl

theorem readEntry_last (fuel depth : Nat) (key : String) {body rest : List Char} {v : Tree Flaw}
    (h : readValue fuel depth body = (v, some ('\x7d' :: rest))) :
    readEntry (fuel + 1) depth key (':' :: body) = ([(key, v)], some rest) := by
  have hcolon : (':' :: body).dropWhile isSpace = ':' :: body := rfl
  have hbrace : ('\x7d' :: rest).dropWhile isSpace = '\x7d' :: rest := rfl
  simp only [readEntry, hcolon, h, hbrace]

theorem readEntries_literal (fuel depth : Nat) (key rest : List Char) :
    readEntries (fuel + 1) depth ('"' :: (key.flatMap literalChar ++ '"' :: rest)) =
      readEntry fuel depth (String.ofList key) rest := by
  have hquote : ∀ cs, ('"' :: cs).dropWhile isSpace = '"' :: cs := fun _ => rfl
  simp only [readEntries, hquote, readString_literal]

theorem readValue_brace (fuel : Nat) {body : List Char} {entries : List (String × Tree Flaw)}
    {rest : Option (List Char)} (h : readEntries fuel 1 ('"' :: body) = (entries, rest)) :
    readValue (fuel + 1) 0 ('\x7b' :: '"' :: body) = (.obj entries, rest) := by
  have hbrace : ('\x7b' :: '"' :: body).dropWhile isSpace = '\x7b' :: '"' :: body := rfl
  have hquote : ('"' :: body).dropWhile isSpace = '"' :: body := rfl
  simp only [readValue, hbrace, hquote]
  show limitDepth 0 (.obj (readEntries fuel 1 ('"' :: body)).1, (readEntries fuel 1 _).2) = _
  rw [h]
  rfl

/-- A text that is an object with one entry, a string. -/
theorem ofText_compact_single (key s : String) :
    ofText (compact (.obj [(key, .str s)])) = .ok (.obj [(key, .str s)]) := by
  have hchars : compactChars (.obj [(key, .str s)]) =
      '\x7b' :: '"' :: (key.toList.flatMap literalChar ++
        '"' :: ':' :: '"' :: (s.toList.flatMap literalChar ++ ['"', '\x7d'])) := by
    simp [compactChars, compactEntries, literal]
  have hvalue : ∀ fuel, readValue (fuel + 1) 1
      ('"' :: (s.toList.flatMap literalChar ++ ['"', '\x7d'])) = (.str s, some ['\x7d']) := by
    intro fuel
    rw [readValue_quote, readText_eq (readString_literal _ _), String.ofList_toList]
  have hentries : ∀ fuel, readEntries (fuel + 3) 1 ('"' :: (key.toList.flatMap literalChar ++
      '"' :: ':' :: '"' :: (s.toList.flatMap literalChar ++ ['"', '\x7d']))) =
        ([(key, .str s)], some []) := by
    intro fuel
    rw [readEntries_literal, readEntry_last _ _ _ (hvalue fuel), String.ofList_toList]
  -- four calls are nested, which is less than there is fuel for
  rw [compact, hchars]
  apply ofText_eq (v := .obj [(key, .str s)])
  · exact readValue_brace _ (hentries _)
  · rfl

end EmbedUI.Json
