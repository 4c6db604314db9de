import EmbedUI.Markup.Script
import EmbedUI.Proofs.Json.Literal
import EmbedUI.Proofs.Markup.RawText

/-!
# Words and strings of scripts

What a script says is found by cutting it into words, strings and single marks. The string literals
of scripts and of inline handlers carry text that comes from outside. They are written in two
passes, of which the second one keeps closing tags out, and here they are read again: as one string,
with exactly the characters that were written.

## The architecture

* **`Lexeme`, `LexState`, `lexFrom`**: the machine that cuts a script.
* **`Lexes`**: a stretch of characters takes the machine from one state to another and yields
  lexemes, whatever follows. Stretches are put together with `Lexes.append`.
* **`guarded`**, **`guardClosers_flatMap`**: both passes of a string literal as one function of its
  characters.
* **`lexes_stringLiteral`**: a string literal is read as its string.
-/

namespace EmbedUI.Markup.Script

/-! ## The machine -/

inductive Lexeme where
  | word (cs : List Char)
  /-- A string literal, with the characters that it stands for. -/
  | text (cs : List Char)
  | mark (c : Char)
  /-- From here on there is no script. -/
  | broken
deriving DecidableEq, Repr

/-- Where the machine stands. Strings are closed by the quote they were opened with. -/
inductive LexState where
  | gap
  | word (cs : List Char)
  | text (quote : Char) (cs : List Char)
  | escape (quote : Char) (cs : List Char)
  /-- Behind `\u` and some digits. -/
  | unicode (quote : Char) (cs digits : List Char)
  | broken
deriving DecidableEq, Repr

def isWordChar (c : Char) : Bool := c.isAlphanum || c == '_' || c == '$'

def stepGap (c : Char) : List Lexeme × LexState :=
  if isSpace c then ([], .gap)
  else if c = '"' ∨ c = '\'' then ([], .text c [])
  else if isWordChar c then ([], .word [c])
  else ([.mark c], .gap)

/-- The last of the four digits of an escape. -/
def stepUnicode (quote : Char) (cs digits : List Char) : LexState :=
  match Text.numeral? 16 digits with
  | some n => if n.isValidChar then .text quote (cs ++ [Char.ofNat n]) else .broken
  | none => .broken

/-- What one character yields, and where the machine stands behind it. -/
def LexState.step : LexState → Char → List Lexeme × LexState
  | .gap, c => stepGap c
  | .word cs, c =>
    if isWordChar c then ([], .word (cs ++ [c]))
    else (.word cs :: (stepGap c).1, (stepGap c).2)
  | .text quote cs, c =>
    if c = quote then ([.text cs], .gap)
    else if c = '\\' then ([], .escape quote cs)
    else if c = '\n' ∨ c = '\r' then ([], .broken)
    else ([], .text quote (cs ++ [c]))
  | .escape quote cs, c =>
    if c = 'u' then ([], .unicode quote cs [])
    else
      match Json.simpleEscape? c with
      | some d => ([], .text quote (cs ++ [d]))
      | none => ([], .broken)
  | .unicode quote cs digits, c =>
    if digits.length < 3 then ([], .unicode quote cs (digits ++ [c]))
    else ([], stepUnicode quote cs (digits ++ [c]))
  | .broken, _ => ([], .broken)

/-- What is left at the end. -/
def LexState.close : LexState → List Lexeme
  | .gap => []
  | .word cs => [.word cs]
  | _ => [.broken]

def lexFrom : LexState → List Char → List Lexeme
  | s, [] => s.close
  | s, c :: rest => (s.step c).1 ++ lexFrom (s.step c).2 rest

/-- The lexemes of a script. -/
def lex (cs : List Char) : List Lexeme := lexFrom .gap cs

example : lex "f(x1, 'a\\n\"');".toList =
    [.word ['f'], .mark '(', .word ['x', '1'], .mark ',', .text ['a', '\n', '"'], .mark ')',
      .mark ';'] := by decide

/-! ## Stretches of characters -/

/-- The characters take the machine from `s` to `s'` and yield the lexemes. -/
def Lexes (s : LexState) (cs : List Char) (lexemes : List Lexeme) (s' : LexState) : Prop :=
  ∀ rest, lexFrom s (cs ++ rest) = lexemes ++ lexFrom s' rest

theorem Lexes.nil (s : LexState) : Lexes s [] [] s := fun _ => rfl

theorem Lexes.cons {s m s' : LexState} {c : Char} {cs : List Char} {now later : List Lexeme}
    (hstep : s.step c = (now, m)) (hrest : Lexes m cs later s') :
    Lexes s (c :: cs) (now ++ later) s' := by
  intro rest
  rw [List.cons_append, lexFrom, hstep, List.append_assoc]
  exact congrArg (now ++ ·) (hrest rest)

theorem Lexes.append {s m s' : LexState} {as bs : List Char} {before after : List Lexeme}
    (has : Lexes s as before m) (hbs : Lexes m bs after s') :
    Lexes s (as ++ bs) (before ++ after) s' := by
  intro rest
  rw [List.append_assoc, has, hbs, List.append_assoc]

theorem Lexes.lex_eq {cs : List Char} {lexemes : List Lexeme} (h : Lexes .gap cs lexemes .gap) :
    lex cs = lexemes := by
  have hend := h []
  rw [List.append_nil] at hend
  rw [lex, hend]
  exact List.append_nil lexemes

/-! ## String literals -/

/-- No character is written with a slash first, but the slash. -/
theorem exists_literalChar_eq_cons (c : Char) :
    ∃ d ds, Json.literalChar c = d :: ds ∧ (d = '/' → c = '/') := by
  rcases Json.literalChar_cases c with ⟨d, hd, -, -⟩ | ⟨-, hd⟩ | ⟨-, -, -, hd⟩
  · exact ⟨_, _, hd, fun h => absurd h (by decide)⟩
  · exact ⟨_, _, hd, fun h => absurd h (by decide)⟩
  · exact ⟨_, _, hd, id⟩

/-- How the characters of a string stand in a literal that may stand in a script. -/
def guarded : List Char → List Char
  | '<' :: '/' :: rest => '<' :: '\\' :: '/' :: guarded rest
  | c :: rest => Json.literalChar c ++ guarded rest
  | [] => []

theorem guardClosers_append {as : List Char} (h : '<' ∉ as) (bs : List Char) :
    guardClosers (as ++ bs) = as ++ guardClosers bs := by
  induction as with
  | nil => rfl
  | cons c rest ih =>
    rw [List.mem_cons, not_or] at h
    have hstep : guardClosers (c :: (rest ++ bs)) = c :: guardClosers (rest ++ bs) := by
      rw [guardClosers]
      rintro tail rfl
      exact absurd rfl h.1
    rw [List.cons_append, hstep, ih h.2, List.cons_append]

/-- A literal that goes on with a slash is that of a string that does. -/
theorem exists_eq_slash_cons {cs tail : List Char}
    (h : cs.flatMap Json.literalChar ++ ['"'] = '/' :: tail) : ∃ rest, cs = '/' :: rest := by
  cases cs with
  | nil => cases h
  | cons c rest =>
    obtain ⟨d, ds, hd, hslash⟩ := exists_literalChar_eq_cons c
    rw [List.flatMap_cons, hd] at h
    exact ⟨rest, by rw [hslash (List.cons.inj h).1]⟩

/-- **Both passes at once.** -/
theorem guardClosers_flatMap (cs : List Char) :
    guardClosers (cs.flatMap Json.literalChar ++ ['"']) = guarded cs ++ ['"'] := by
  fun_induction guarded cs with
  | case1 rest ih =>
    show guardClosers ('<' :: '/' :: (rest.flatMap Json.literalChar ++ ['"'])) = _
    rw [guardClosers, ih]
    rfl
  | case2 c rest hcloser ih =>
    rw [List.flatMap_cons, List.append_assoc, List.append_assoc, ← ih]
    by_cases hlt : '<' ∈ Json.literalChar c
    · -- a `<` on its own
      obtain rfl : '<' = c := lt_mem_literalChar hlt
      rw [show Json.literalChar '<' = ['<'] by decide, List.singleton_append,
        List.singleton_append, guardClosers]
      intro tail _ htail
      obtain ⟨rest', hrest'⟩ := exists_eq_slash_cons htail
      exact hcloser rest' rfl hrest'
    · exact guardClosers_append hlt _
  | case3 => rfl

theorem toList_stringLiteral (s : String) :
    (stringLiteral s).toList = '"' :: guarded s.toList ++ ['"'] := by
  have hopen : '<' ∉ ['"'] := by decide
  have hquote : guardClosers ('"' :: (s.toList.flatMap Json.literalChar ++ ['"'])) =
      '"' :: guardClosers (s.toList.flatMap Json.literalChar ++ ['"']) :=
    guardClosers_append hopen _
  rw [stringLiteral, String.toList_ofList, Json.literal, List.cons_append, hquote,
    guardClosers_flatMap]
  rfl

theorem stepUnicode_control {c : Char} (h : c.toNat < 32) (pre : List Char) :
    stepUnicode '"' pre ['0', '0', Json.hexDigit (c.toNat / 16), Json.hexDigit (c.toNat % 16)] =
      .text '"' (pre ++ [c]) := by
  have hvalid : c.toNat.isValidChar := Or.inl (by omega)
  rw [stepUnicode, Json.numeral?_control h]
  dsimp only
  rw [if_pos hvalid, Char.ofNat_toNat]

/-- **One character of a literal.** -/
theorem lexes_literalChar (c : Char) (pre : List Char) :
    Lexes (.text '"' pre) (Json.literalChar c) [] (.text '"' (pre ++ [c])) := by
  rcases Json.literalChar_cases c with ⟨d, hd, hc, hu⟩ | ⟨hcontrol, hd⟩ | ⟨hquote, hbackslash, hc, hd⟩
  · have hstep : LexState.step (.escape '"' pre) d = ([], .text '"' (pre ++ [c])) := by
      rw [LexState.step, if_neg hu, hc]
    rw [hd]
    exact Lexes.cons rfl (Lexes.cons hstep (Lexes.nil _))
  · rw [hd, ← stepUnicode_control hcontrol pre]
    intro rest
    rfl
  · have hbreaks : c ≠ '\n' ∧ c ≠ '\r' := by
      constructor
      · rintro rfl
        exact hc (by decide)
      · rintro rfl
        exact hc (by decide)
    have hstep : LexState.step (.text '"' pre) c = ([], .text '"' (pre ++ [c])) := by
      simp [LexState.step, hquote, hbackslash, hbreaks]
    rw [hd]
    exact Lexes.cons hstep (Lexes.nil _)

theorem lexes_guarded (cs pre : List Char) :
    Lexes (.text '"' pre) (guarded cs) [] (.text '"' (pre ++ cs)) := by
  fun_induction guarded cs generalizing pre with
  | case1 rest ih =>
    have hcloser : Lexes (.text '"' pre) ['<', '\\', '/'] [] (.text '"' (pre ++ ['<', '/'])) := by
      intro tail
      rw [List.append_cons pre '<' ['/']]
      rfl
    have hrest := ih (pre ++ ['<', '/'])
    rw [List.append_assoc] at hrest
    exact hcloser.append hrest
  | case2 c rest _ ih =>
    have hrest := ih (pre ++ [c])
    rw [List.append_assoc] at hrest
    exact (lexes_literalChar c pre).append hrest
  | case3 =>
    rw [List.append_nil]
    exact Lexes.nil _

/-- **String literals.** A literal is read as the string that it was written for. -/
theorem lexes_stringLiteral (s : String) :
    Lexes .gap (stringLiteral s).toList [.text s.toList] .gap := by
  have hopen : Lexes .gap ['"'] [] (.text '"' []) := fun _ => rfl
  have hclose : Lexes (.text '"' s.toList) ['"'] [.text s.toList] .gap := fun _ => rfl
  have hbody := lexes_guarded s.toList []
  rw [List.nil_append] at hbody
  rw [toList_stringLiteral]
  exact (hopen.append hbody).append hclose

end EmbedUI.Markup.Script
