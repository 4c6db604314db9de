import EmbedUI.Markup.Node

/-!
# Reading markup

What a browser makes of markup is decided character by character, by a machine that knows whether
it stands between tags, in a tag, in an attribute value, or in a script. This module has that
machine, and what it makes of rendered nodes: the tags and attributes of the node and nothing else,
whatever strings it contains.

## The architecture

* **`Token`, `State`, `step`, `run`**: the machine. Character references are left as they are
  written; the contents of `script` and `style` elements are raw.
* **`Reads`**: a stretch of characters takes the machine from one state to another and yields
  tokens. Stretches are put together with `Reads.append`.
* **`Tame`**: nodes with proper names and without markup given as text.
* **`Node.tokens`** and **`reads_chars`**: a tame node is read as its own tags.
-/

namespace EmbedUI.Markup

/-! ## The machine -/

/-- What markup is read as. -/
inductive Token where
  /-- An opening tag with its attributes, whose values are as they are written. -/
  | opening (name : List Char) (attributes : List (List Char × List Char))
  | closing (name : List Char)
  /-- A character between tags. -/
  | text (c : Char)
  /-- A character of a script or style sheet. -/
  | raw (c : Char)
  /-- A comment or any other construct that starts with an exclamation or question mark. -/
  | declaration (content : List Char)
deriving DecidableEq, Repr

/-- A tag that is being read. -/
structure Tag where
  closes : Bool
  name : List Char
  attributes : List (List Char × List Char)
deriving DecidableEq, Repr

/-- How an attribute value is delimited. -/
inductive Delimiter where
  | double
  | single
  | blank
deriving DecidableEq, Repr

/-- Where the machine stands. -/
inductive State where
  | data
  /-- Behind a `<`. -/
  | less
  /-- Behind `</`. -/
  | lessSlash
  | declaration (content : List Char)
  | tagName (tag : Tag)
  /-- In a tag, where an attribute may start. -/
  | between (tag : Tag)
  | attributeName (tag : Tag) (name : List Char)
  /-- Behind the name of an attribute and some space. -/
  | afterName (tag : Tag) (name : List Char)
  /-- Behind the `=` of an attribute. -/
  | beforeValue (tag : Tag) (name : List Char)
  | value (tag : Tag) (name : List Char) (delimiter : Delimiter) (value : List Char)
  /-- In a script or style sheet. -/
  | raw (name : List Char)
  | rawLess (name : List Char)
  /-- Behind `</` and some letters in a script or style sheet. -/
  | rawEnd (name letters : List Char)
deriving DecidableEq, Repr

/-- The elements whose content is raw. -/
def rawNames : List (List Char) := ["script".toList, "style".toList]

def isSpace (c : Char) : Bool := c ∈ [' ', '\n', '\t', '\r', '\x0c']

/-- The tag with one more attribute. -/
def Tag.add (t : Tag) (name value : List Char) : Tag :=
  { t with attributes := t.attributes ++ [(name, value)] }

/-- What a tag yields at its end, and where the machine stands behind it. -/
def Tag.finish (t : Tag) : List Token × State :=
  if t.closes then ([.closing t.name], .data)
  else ([.opening t.name t.attributes], if t.name ∈ rawNames then .raw t.name else .data)

/-- In a tag, where an attribute may start. A slash has no meaning there. -/
def stepBetween (t : Tag) (c : Char) : List Token × State :=
  if isSpace c || c == '/' then ([], .between t)
  else if c = '>' then t.finish
  else ([], .attributeName t [c.toLower])

/-- One character in an attribute value. -/
def stepValue (t : Tag) (name : List Char) (delimiter : Delimiter) (value : List Char) (c : Char) :
    List Token × State :=
  match delimiter with
  | .double =>
    if c = '"' then ([], .between (t.add name value))
    else ([], .value t name .double (value ++ [c]))
  | .single =>
    if c = '\'' then ([], .between (t.add name value))
    else ([], .value t name .single (value ++ [c]))
  | .blank =>
    if isSpace c then ([], .between (t.add name value))
    else if c = '>' then (t.add name value).finish
    else ([], .value t name .blank (value ++ [c]))

/-- What one character yields, and where the machine stands behind it. -/
def step : State → Char → List Token × State
  | .data, c => if c = '<' then ([], .less) else ([.text c], .data)
  | .less, c =>
    if c = '/' then ([], .lessSlash)
    else if c.isAlpha then ([], .tagName ⟨false, [c.toLower], []⟩)
    else if c = '!' ∨ c = '?' then ([], .declaration [])
    else if c = '<' then ([.text '<'], .less)
    else ([.text '<', .text c], .data)
  | .lessSlash, c =>
    if c.isAlpha then ([], .tagName ⟨true, [c.toLower], []⟩)
    else if c = '>' then ([], .data)
    else ([], .declaration [c])
  | .declaration content, c =>
    if c = '>' then ([.declaration content], .data) else ([], .declaration (content ++ [c]))
  | .tagName t, c =>
    if isSpace c || c == '/' then ([], .between t)
    else if c = '>' then t.finish
    else ([], .tagName { t with name := t.name ++ [c.toLower] })
  | .between t, c => stepBetween t c
  | .attributeName t name, c =>
    if isSpace c then ([], .afterName t name)
    else if c = '/' then ([], .between (t.add name []))
    else if c = '>' then (t.add name []).finish
    else if c = '=' then ([], .beforeValue t name)
    else ([], .attributeName t (name ++ [c.toLower]))
  | .afterName t name, c =>
    if isSpace c then ([], .afterName t name)
    else if c = '=' then ([], .beforeValue t name)
    else stepBetween (t.add name []) c
  | .beforeValue t name, c =>
    if isSpace c then ([], .beforeValue t name)
    else if c = '"' then ([], .value t name .double [])
    else if c = '\'' then ([], .value t name .single [])
    else if c = '>' then (t.add name []).finish
    else ([], .value t name .blank [c])
  | .value t name delimiter value, c => stepValue t name delimiter value c
  | .raw name, c => if c = '<' then ([], .rawLess name) else ([.raw c], .raw name)
  | .rawLess name, c =>
    if c = '/' then ([], .rawEnd name [])
    else if c = '<' then ([.raw '<'], .rawLess name)
    else ([.raw '<', .raw c], .raw name)
  | .rawEnd name letters, c =>
    if c.isAlpha then ([], .rawEnd name (letters ++ [c]))
    else if letters.map Char.toLower = name ∧ (isSpace c || c == '/' || c == '>') then
      stepBetween ⟨true, name, []⟩ c
    else
      let passed := ('<' :: '/' :: letters).map Token.raw
      if c = '<' then (passed, .rawLess name) else (passed ++ [.raw c], .raw name)

/-- What characters yield one after the other, and where the machine stands in the end. -/
def run (s : State) : List Char → List Token × State
  | [] => ([], s)
  | c :: rest =>
    let (now, next) := step s c
    let (later, last) := run next rest
    (now ++ later, last)

/-- The tokens of a text. -/
def tokenize (text : String) : List Token := (run .data text.toList).1

example : tokenize "<p>a</p>" =
    [.opening ['p'] [], .text 'a', .closing ['p']] := by decide

/-! ## Stretches of characters -/

/-- The characters take the machine from `s` to `s'` and yield the tokens. -/
def Reads (s : State) (cs : List Char) (tokens : List Token) (s' : State) : Prop :=
  run s cs = (tokens, s')

theorem Reads.nil (s : State) : Reads s [] [] s := rfl

theorem Reads.cons {s m s' : State} {c : Char} {now later : List Token} {cs : List Char}
    (hstep : step s c = (now, m)) (hrest : Reads m cs later s') :
    Reads s (c :: cs) (now ++ later) s' := by
  unfold Reads at *
  rw [run, hstep]
  simp only [hrest]

/-- A character that yields nothing. -/
theorem Reads.silent {s m s' : State} {c : Char} {later : List Token} {cs : List Char}
    (hstep : step s c = ([], m)) (hrest : Reads m cs later s') : Reads s (c :: cs) later s' :=
  Reads.cons hstep hrest

theorem Reads.append {s m s' : State} {as bs : List Char} {before after : List Token}
    (has : Reads s as before m) (hbs : Reads m bs after s') :
    Reads s (as ++ bs) (before ++ after) s' := by
  induction as generalizing s before with
  | nil =>
    cases has
    exact hbs
  | cons c rest ih =>
    -- the run over the first stretch is one step and a run over what is left of it
    unfold Reads at has
    rw [run] at has
    have hrest : Reads (step s c).2 rest (run (step s c).2 rest).1 m := by
      have hlast := congrArg Prod.snd has
      exact Prod.ext rfl hlast
    have hbefore : (step s c).1 ++ (run (step s c).2 rest).1 = before := congrArg Prod.fst has
    rw [← hbefore, List.append_assoc]
    exact Reads.cons rfl (ih hrest)

/-! ## Text -/

/-- The characters of the references that escaping writes. -/
def referenceChars : List Char := ['&', ';', 'a', 'g', 'l', 'm', 'o', 'p', 'q', 't', 'u']

theorem marks_of_mem_referenceChars :
    ∀ d ∈ referenceChars, d ≠ '"' ∧ d ≠ '<' ∧ d ≠ '>' := by
  simp [referenceChars]

/-- A character is either replaced by a reference or is none that has one. -/
theorem mem_textChar {c d : Char} (h : d ∈ textChar c) :
    d ∈ referenceChars ∨ d = c ∧ c ≠ '<' ∧ c ≠ '>' := by
  have hreference : ∀ {cs : List Char}, cs ⊆ referenceChars → d ∈ cs → d ∈ referenceChars ∨
      d = c ∧ c ≠ '<' ∧ c ≠ '>' := fun hcs hd => Or.inl (hcs hd)
  unfold textChar at h
  split at h
  · exact hreference (by decide) h
  · split at h
    · exact hreference (by decide) h
    · split at h
      · exact hreference (by decide) h
      · next hlt hgt => exact Or.inr ⟨List.mem_singleton.mp h, hlt, hgt⟩

theorem brackets_of_mem_textChar {c d : Char} (h : d ∈ textChar c) : d ≠ '<' ∧ d ≠ '>' := by
  rcases mem_textChar h with hd | ⟨rfl, hc⟩
  · exact (marks_of_mem_referenceChars d hd).2
  · exact hc

theorem marks_of_mem_valueChar {c d : Char} (h : d ∈ valueChar c) :
    d ≠ '"' ∧ d ≠ '<' ∧ d ≠ '>' := by
  unfold valueChar at h
  split at h
  · have hreference : ['&', 'q', 'u', 'o', 't', ';'] ⊆ referenceChars := by decide
    exact marks_of_mem_referenceChars d (hreference h)
  · next hquote =>
    rcases mem_textChar h with hd | ⟨rfl, hc⟩
    · exact marks_of_mem_referenceChars d hd
    · exact ⟨hquote, hc⟩

theorem lt_not_mem_escapeText (cs : List Char) : '<' ∉ escapeText cs := by
  intro h
  obtain ⟨c, -, hc⟩ := List.mem_flatMap.mp h
  exact (brackets_of_mem_textChar hc).1 rfl

/-- Nothing in a value ends it or the tag. -/
theorem marks_of_mem_escapeValue {d : Char} {cs : List Char} (h : d ∈ escapeValue cs) :
    d ≠ '"' ∧ d ≠ '<' ∧ d ≠ '>' := by
  obtain ⟨c, -, hc⟩ := List.mem_flatMap.mp h
  exact marks_of_mem_valueChar hc

theorem quote_not_mem_escapeValue (cs : List Char) : '"' ∉ escapeValue cs :=
  fun h => (marks_of_mem_escapeValue h).1 rfl

/-- Text without a `<` stays text. -/
theorem reads_text {cs : List Char} (h : '<' ∉ cs) : Reads .data cs (cs.map .text) .data := by
  induction cs with
  | nil => exact Reads.nil _
  | cons c rest ih =>
    rw [List.mem_cons, not_or] at h
    have hstep : step .data c = ([.text c], .data) := if_neg (Ne.symm h.1)
    exact Reads.cons hstep (ih h.2)

/-- So does raw text. -/
theorem reads_raw {name cs : List Char} (h : '<' ∉ cs) :
    Reads (.raw name) cs (cs.map .raw) (.raw name) := by
  induction cs with
  | nil => exact Reads.nil _
  | cons c rest ih =>
    rw [List.mem_cons, not_or] at h
    have hstep : step (.raw name) c = ([.raw c], .raw name) := if_neg (Ne.symm h.1)
    exact Reads.cons hstep (ih h.2)

/-- A double-quoted value goes on up to the next quote. -/
theorem reads_value {t : Tag} {name value cs : List Char} (h : '"' ∉ cs) :
    Reads (.value t name .double value) (cs ++ ['"']) [] (.between (t.add name (value ++ cs))) := by
  induction cs generalizing value with
  | nil =>
    rw [List.append_nil]
    exact Reads.silent rfl (Reads.nil _)
  | cons c rest ih =>
    rw [List.mem_cons, not_or] at h
    have hstep : step (.value t name .double value) c =
        ([], .value t name .double (value ++ [c])) := if_neg (Ne.symm h.1)
    have hrest : Reads (.value t name .double (value ++ [c])) (rest ++ ['"']) []
        (.between (t.add name (value ++ [c] ++ rest))) := ih h.2
    rw [List.append_assoc, List.singleton_append] at hrest
    exact Reads.silent hstep hrest

/-! ## Names -/

/-- The characters of the names that are in use. -/
def isNameChar (c : Char) : Bool := c.isLower || c.isDigit || c == '-'

/-- A name starts with a letter. -/
def isName (s : String) : Bool :=
  match s.toList with
  | [] => false
  | c :: rest => c.isLower && rest.all isNameChar

theorem isNameChar_ne {c d : Char} (hc : isNameChar c = true) (hd : isNameChar d = false) :
    c ≠ d := by
  rintro rfl
  rw [hc] at hd
  cases hd

theorem isSpace_eq_false {c : Char} (hc : isNameChar c = true) : isSpace c = false := by
  have hspaces : [' ', '\n', '\t', '\r', '\x0c'].all (fun d => !isNameChar d) = true := by decide
  have hne : ∀ d ∈ [' ', '\n', '\t', '\r', '\x0c'], c ≠ d := by
    intro d hd
    have hspace := List.all_eq_true.mp hspaces d hd
    exact isNameChar_ne hc (by simpa using hspace)
  simpa [isSpace] using hne

theorem toLower_eq_self {c : Char} (hc : isNameChar c = true) : c.toLower = c := by
  unfold Char.toLower
  refine dif_neg ?_
  rintro ⟨hlow, hhigh⟩
  rw [isNameChar, Bool.or_eq_true, Bool.or_eq_true] at hc
  -- none of the name characters lies between the capital letters
  rcases hc with (hlower | hdigit) | hdash
  · have hlower : 'a'.val ≤ c.val := of_decide_eq_true (Bool.and_eq_true_iff.mp hlower).1
    exact absurd (UInt32.le_trans hlower hhigh) (by decide)
  · have hdigit : c.val ≤ '9'.val := of_decide_eq_true (Bool.and_eq_true_iff.mp hdigit).2
    exact absurd (UInt32.le_trans hlow hdigit) (by decide)
  · rw [eq_of_beq hdash] at hlow
    exact absurd hlow (by decide)

theorem isAlpha_of_isLower {c : Char} (hc : c.isLower = true) : c.isAlpha = true := by
  show (c.isUpper || c.isLower) = true
  rw [hc, Bool.or_true]

theorem isNameChar_of_isLower {c : Char} (hc : c.isLower = true) : isNameChar c = true := by
  rw [isNameChar, hc]
  rfl

theorem isName_cons {s : String} (h : isName s = true) :
    ∃ c rest, s.toList = c :: rest ∧ c.isLower = true ∧ ∀ d ∈ rest, isNameChar d = true := by
  unfold isName at h
  split at h
  · cases h
  · next c rest hs =>
    rw [Bool.and_eq_true] at h
    exact ⟨c, rest, hs, h.1, List.all_eq_true.mp h.2⟩

theorem reads_tagName {t : Tag} {cs : List Char} (h : ∀ c ∈ cs, isNameChar c = true) :
    Reads (.tagName t) cs [] (.tagName { t with name := t.name ++ cs }) := by
  induction cs generalizing t with
  | nil =>
    rw [List.append_nil]
    exact Reads.nil _
  | cons c rest ih =>
    have hc : isNameChar c = true := h c List.mem_cons_self
    have hslash : c ≠ '/' := isNameChar_ne hc (by decide)
    have hend : c ≠ '>' := isNameChar_ne hc (by decide)
    have hstep : step (.tagName t) c = ([], .tagName { t with name := t.name ++ [c] }) := by
      simp [step, isSpace_eq_false hc, hslash, hend, toLower_eq_self hc]
    have hrest := ih (t := { t with name := t.name ++ [c] }) fun d hd =>
      h d (List.mem_cons_of_mem _ hd)
    simp only [List.append_assoc, List.singleton_append] at hrest
    exact Reads.silent hstep hrest

theorem reads_attributeName {t : Tag} {name cs : List Char}
    (h : ∀ c ∈ cs, isNameChar c = true) :
    Reads (.attributeName t name) cs [] (.attributeName t (name ++ cs)) := by
  induction cs generalizing name with
  | nil =>
    rw [List.append_nil]
    exact Reads.nil _
  | cons c rest ih =>
    have hc : isNameChar c = true := h c List.mem_cons_self
    have hslash : c ≠ '/' := isNameChar_ne hc (by decide)
    have hend : c ≠ '>' := isNameChar_ne hc (by decide)
    have hequals : c ≠ '=' := isNameChar_ne hc (by decide)
    have hstep : step (.attributeName t name) c = ([], .attributeName t (name ++ [c])) := by
      simp [step, isSpace_eq_false hc, hslash, hend, hequals, toLower_eq_self hc]
    have hrest : Reads (.attributeName t (name ++ [c])) rest []
        (.attributeName t (name ++ [c] ++ rest)) :=
      ih fun d hd => h d (List.mem_cons_of_mem _ hd)
    simp only [List.append_assoc, List.singleton_append] at hrest
    exact Reads.silent hstep hrest

/-! ## Tags -/

/-- The machine stands behind a tag name or an attribute, and has read the tag so far. -/
inductive Holds : State → Tag → Prop where
  | name (t : Tag) : Holds (.tagName t) t
  | valued (t : Tag) : Holds (.between t) t
  | bare (t : Tag) (name : List Char) : Holds (.attributeName t name) (t.add name [])

theorem Holds.finish {s : State} {t : Tag} (h : Holds s t) : step s '>' = t.finish := by
  cases h <;> rfl

/-- Behind a space the next attribute starts with its first letter. -/
theorem Holds.next {s s' : State} {t : Tag} (h : Holds s t) {c : Char} (hc : isNameChar c = true)
    {cs : List Char} {tokens : List Token} (hrest : Reads (.attributeName t [c]) cs tokens s') :
    Reads s (' ' :: c :: cs) tokens s' := by
  have hslash : c ≠ '/' := isNameChar_ne hc (by decide)
  have hend : c ≠ '>' := isNameChar_ne hc (by decide)
  have hequals : c ≠ '=' := isNameChar_ne hc (by decide)
  have hbetween : stepBetween t c = ([], .attributeName t [c]) := by
    simp [stepBetween, isSpace_eq_false hc, hslash, hend, toLower_eq_self hc]
  -- the three states differ in what they make of the space
  cases h with
  | name t => exact Reads.silent rfl (Reads.silent hbetween hrest)
  | valued t => exact Reads.silent rfl (Reads.silent hbetween hrest)
  | bare t name =>
    have hafter : step (.afterName t name) c = ([], .attributeName (t.add name []) [c]) := by
      simp [step, isSpace_eq_false hc, hequals, hbetween]
    exact Reads.silent rfl (Reads.silent hafter hrest)

/-- The name of an attribute, and its value as it is written. -/
def Attribute.read : Attribute → List Char × List Char
  | .valued name value => (name.toList, escapeValue value.toList)
  | .bare name => (name.toList, [])

def Attribute.name : Attribute → String
  | .valued name _ => name
  | .bare name => name

@[simp] theorem name_attr (name value : String) : (attr name value).name = name := rfl

@[simp] theorem name_bare (name : String) : (Attribute.bare name).name = name := rfl

/-- The tag with the attribute as it is read. -/
def Tag.attach (t : Tag) (a : Attribute) : Tag := t.add a.read.1 a.read.2

/-- **Attributes.** An attribute is read as itself, whatever its value. -/
theorem reads_attribute {s : State} {t : Tag} (h : Holds s t) {a : Attribute}
    (ha : isName a.name = true) : ∃ s', Holds s' (t.attach a) ∧ Reads s a.chars [] s' := by
  obtain ⟨c, rest, hname, hfirst, hrest⟩ := isName_cons ha
  have hletters : Reads (.attributeName t [c]) rest [] (.attributeName t (c :: rest)) :=
    reads_attributeName hrest
  cases a with
  | bare name =>
    have hname : name.toList = c :: rest := hname
    -- nothing marks the end of a bare name: the machine is still in it
    refine ⟨.attributeName t (c :: rest), ?_, ?_⟩
    · have hattach : t.attach (.bare name) = t.add (c :: rest) [] := by
        rw [Tag.attach, Attribute.read, hname]
      rw [hattach]
      exact Holds.bare t _
    · rw [Attribute.chars, hname]
      exact h.next (isNameChar_of_isLower hfirst) hletters
  | valued name value =>
    have hname : name.toList = c :: rest := hname
    refine ⟨.between (t.attach (.valued name value)), Holds.valued _, ?_⟩
    -- the value ends at the closing quote because escaping leaves no other
    have hvalue : Reads (.value t (c :: rest) .double []) (escapeValue value.toList ++ ['"']) []
        (.between (t.attach (.valued name value))) := by
      rw [Tag.attach, Attribute.read, hname]
      exact reads_value (quote_not_mem_escapeValue value.toList)
    have hsign : Reads (.attributeName t (c :: rest))
        ('=' :: '"' :: (escapeValue value.toList ++ ['"'])) []
        (.between (t.attach (.valued name value))) :=
      Reads.silent rfl (Reads.silent rfl hvalue)
    have hall := h.next (isNameChar_of_isLower hfirst) (hletters.append hsign)
    rw [Attribute.chars, hname]
    simpa using hall

theorem reads_attributes {s : State} {t : Tag} (h : Holds s t) {attributes : List Attribute}
    (hnames : ∀ a ∈ attributes, isName a.name = true) :
    ∃ s', Holds s' (attributes.foldl Tag.attach t) ∧
      Reads s (attributes.flatMap Attribute.chars) [] s' := by
  induction attributes generalizing s t with
  | nil => exact ⟨s, h, Reads.nil s⟩
  | cons a rest ih =>
    obtain ⟨m, hm, hfirst⟩ := reads_attribute h (hnames a List.mem_cons_self)
    obtain ⟨s', hs', hrest⟩ := ih hm fun b hb => hnames b (List.mem_cons_of_mem _ hb)
    exact ⟨s', hs', hfirst.append hrest⟩

theorem foldl_attach (t : Tag) (attributes : List Attribute) :
    attributes.foldl Tag.attach t =
      { t with attributes := t.attributes ++ attributes.map Attribute.read } := by
  induction attributes generalizing t with
  | nil => simp
  | cons a rest ih =>
    rw [List.foldl_cons, ih]
    simp [Tag.attach, Tag.add]

/-- Where the machine stands behind the opening tag of an element. -/
def contentState (tag : String) : State :=
  if tag.toList ∈ rawNames then .raw tag.toList else .data

/-- **Opening tags.** -/
theorem reads_openTag {tag : String} {attributes : List Attribute} (htag : isName tag = true)
    (hnames : ∀ a ∈ attributes, isName a.name = true) :
    Reads .data (openTag tag attributes)
      [.opening tag.toList (attributes.map Attribute.read)] (contentState tag) := by
  obtain ⟨c, rest, htag, hfirst, hrest⟩ := isName_cons htag
  have hlower := toLower_eq_self (isNameChar_of_isLower hfirst)
  have hstart : step .less c = ([], .tagName ⟨false, [c], []⟩) := by
    have hslash : c ≠ '/' := isNameChar_ne (isNameChar_of_isLower hfirst) (by decide)
    simp [step, hslash, isAlpha_of_isLower hfirst, hlower]
  have hname : Reads (.tagName ⟨false, [c], []⟩) rest [] (.tagName ⟨false, c :: rest, []⟩) :=
    reads_tagName hrest
  -- whichever state the attributes end in, the tag is finished by the bracket
  obtain ⟨s, hs, hattributes⟩ := reads_attributes (Holds.name ⟨false, c :: rest, []⟩) hnames
  rw [foldl_attach] at hs
  have hend : step s '>' =
      ([.opening (c :: rest) (attributes.map Attribute.read)], contentState tag) := by
    rw [hs.finish, contentState, htag]
    rfl
  have hall := (hname.append hattributes).append (Reads.cons hend (Reads.nil _))
  have hless : step .data '<' = ([], .less) := rfl
  rw [openTag, htag]
  simpa using Reads.silent hless (Reads.silent hstart hall)

/-- **Closing tags.** -/
theorem reads_closeTag {tag : String} (htag : isName tag = true) :
    Reads .data (closeTag tag) [.closing tag.toList] .data := by
  obtain ⟨c, rest, htag, hfirst, hrest⟩ := isName_cons htag
  have hlower := toLower_eq_self (isNameChar_of_isLower hfirst)
  have hstart : step .lessSlash c = ([], .tagName ⟨true, [c], []⟩) := by
    simp [step, isAlpha_of_isLower hfirst, hlower]
  have hname : Reads (.tagName ⟨true, [c], []⟩) rest [] (.tagName ⟨true, c :: rest, []⟩) :=
    reads_tagName hrest
  have hend : step (.tagName ⟨true, c :: rest, []⟩) '>' = ([.closing (c :: rest)], .data) := rfl
  rw [closeTag, htag]
  exact Reads.silent rfl (Reads.silent rfl
    (Reads.silent hstart (hname.append (Reads.cons hend (Reads.nil _)))))

theorem reads_letters {name letters cs : List Char} (h : ∀ c ∈ cs, c.isAlpha = true) :
    Reads (.rawEnd name letters) cs [] (.rawEnd name (letters ++ cs)) := by
  induction cs generalizing letters with
  | nil =>
    rw [List.append_nil]
    exact Reads.nil _
  | cons c rest ih =>
    have hstep : step (.rawEnd name letters) c = ([], .rawEnd name (letters ++ [c])) := by
      simp [step, h c List.mem_cons_self]
    have hrest : Reads (.rawEnd name (letters ++ [c])) rest []
        (.rawEnd name (letters ++ [c] ++ rest)) :=
      ih fun d hd => h d (List.mem_cons_of_mem _ hd)
    rw [List.append_assoc, List.singleton_append] at hrest
    exact Reads.silent hstep hrest

/-- The closing tag of a script or style sheet ends its content. -/
theorem reads_rawEnd {tag : String} (hraw : tag.toList ∈ rawNames) :
    Reads (.raw tag.toList) (closeTag tag) [.closing tag.toList] .data := by
  have hnames : rawNames.all (fun name =>
      name.all Char.isAlpha && decide (name.map Char.toLower = name)) = true := by decide
  have hname := List.all_eq_true.mp hnames _ hraw
  rw [Bool.and_eq_true, List.all_eq_true, decide_eq_true_eq] at hname
  obtain ⟨hletters, hlower⟩ := hname
  -- the letters behind the slash are those of the element, so its content ends here
  have hend : step (.rawEnd tag.toList tag.toList) '>' = ([.closing tag.toList], .data) := by
    have hnot : ('>' : Char).isAlpha = false := by decide
    simp [step, hnot, hlower, stepBetween, isSpace, Tag.finish]
  rw [closeTag]
  exact Reads.silent rfl (Reads.silent rfl
    ((reads_letters hletters).append (Reads.cons hend (Reads.nil _))))

/-! ## Nodes -/

mutual

/-- Nodes with proper names, whose scripts and style sheets have no `<` in them. Markup that is
given as text is left out: there is nothing to be said about it. -/
def Tame : Node → Prop
  | .text _ => True
  | .element tag attributes children =>
    isName tag = true ∧ tag.toList ∉ rawNames ∧ (∀ a ∈ attributes, isName a.name = true) ∧
      AllTame children
  | .void tag attributes =>
    isName tag = true ∧ tag.toList ∉ rawNames ∧ ∀ a ∈ attributes, isName a.name = true
  | .raw tag content => tag.toList ∈ rawNames ∧ '<' ∉ content.toList
  | .reference _ => True
  | .verbatim _ => False

def AllTame : List Node → Prop
  | [] => True
  | n :: rest => Tame n ∧ AllTame rest

end

attribute [simp] Tame AllTame

@[simp] theorem tame_newline (indent : Nat) : Tame (newline indent) := trivial

theorem allTame_iff {nodes : List Node} : AllTame nodes ↔ ∀ n ∈ nodes, Tame n := by
  induction nodes with
  | nil => simp [AllTame]
  | cons n rest ih => rw [AllTame, ih, List.forall_mem_cons]

@[simp] theorem allTame_append {before after : List Node} :
    AllTame (before ++ after) ↔ AllTame before ∧ AllTame after := by
  rw [allTame_iff, allTame_iff, allTame_iff, List.forall_mem_append]

theorem allTame_flatMap {α : Type} {f : α → List Node} (h : ∀ x, AllTame (f x)) (xs : List α) :
    AllTame (xs.flatMap f) := by
  refine allTame_iff.mpr fun n hn => ?_
  obtain ⟨x, -, hx⟩ := List.mem_flatMap.mp hn
  exact allTame_iff.mp (h x) n hx

theorem allTame_map {α : Type} {f : α → Node} (h : ∀ x, Tame (f x)) (xs : List α) :
    AllTame (xs.map f) := by
  refine allTame_iff.mpr fun n hn => ?_
  obtain ⟨x, -, rfl⟩ := List.mem_map.mp hn
  exact h x

mutual

/-- What a node should be read as. -/
def Node.tokens : Node → List Token
  | .text s => (escapeText s.toList).map .text
  | .element tag attributes children =>
    .opening tag.toList (attributes.map Attribute.read) :: nodesTokens children
      ++ [.closing tag.toList]
  | .void tag attributes => [.opening tag.toList (attributes.map Attribute.read)]
  | .raw tag content =>
    .opening tag.toList [] :: content.toList.map .raw ++ [.closing tag.toList]
  | .reference code => ('&' :: '#' :: Nat.toDigits 10 code ++ [';']).map .text
  | .verbatim _ => []

def nodesTokens : List Node → List Token
  | [] => []
  | n :: rest => n.tokens ++ nodesTokens rest

end

theorem contentState_eq_data {tag : String} (h : tag.toList ∉ rawNames) :
    contentState tag = .data :=
  if_neg h

theorem isName_of_raw {tag : String} (h : tag.toList ∈ rawNames) : isName tag = true := by
  unfold isName
  generalize tag.toList = name at h ⊢
  revert name
  decide

theorem lt_not_mem_toDigits (code : Nat) :
    '<' ∉ '&' :: '#' :: Nat.toDigits 10 code ++ [';'] := by
  have hdigits : '<' ∉ Nat.toDigits 10 code := by
    intro h
    exact absurd (Nat.isDigit_of_mem_toDigits (by decide) (by decide) h) (by decide)
  simp [hdigits]

mutual

/-- **Nodes.** A tame node is read as its own tags, and leaves the machine between tags. -/
theorem reads_chars : ∀ n : Node, Tame n → Reads .data n.chars n.tokens .data
  | .text s, _ => by
    rw [Node.chars, Node.tokens]
    exact reads_text (lt_not_mem_escapeText _)
  | .element tag attributes children, h => by
    rw [Tame] at h
    obtain ⟨htag, hraw, hnames, hchildren⟩ := h
    have hopen := reads_openTag htag hnames
    rw [contentState_eq_data hraw] at hopen
    rw [Node.chars, Node.tokens]
    exact (hopen.append (reads_nodesChars children hchildren)).append (reads_closeTag htag)
  | .void tag attributes, h => by
    rw [Tame] at h
    obtain ⟨htag, hraw, hnames⟩ := h
    have hopen := reads_openTag htag hnames
    rw [contentState_eq_data hraw] at hopen
    rw [Node.chars, Node.tokens]
    exact hopen
  | .raw tag content, h => by
    rw [Tame] at h
    obtain ⟨hraw, hcontent⟩ := h
    have hopen := reads_openTag (isName_of_raw hraw) (List.forall_mem_nil _)
    rw [contentState, if_pos hraw] at hopen
    rw [Node.chars, Node.tokens]
    exact (hopen.append (reads_raw hcontent)).append (reads_rawEnd hraw)
  | .reference code, _ => by
    rw [Node.chars, Node.tokens]
    exact reads_text (lt_not_mem_toDigits code)
  | .verbatim _, h => by
    rw [Tame] at h
    exact h.elim

theorem reads_nodesChars :
    ∀ nodes : List Node, AllTame nodes → Reads .data (nodesChars nodes) (nodesTokens nodes) .data
  | [], _ => Reads.nil _
  | n :: rest, h => by
    rw [AllTame] at h
    rw [nodesChars, nodesTokens]
    exact (reads_chars n h.1).append (reads_nodesChars rest h.2)

end

/-- **Rendered nodes.** The text of a tame node is read as its own tags. -/
theorem tokenize_render {n : Node} (h : Tame n) : tokenize n.render = n.tokens := by
  rw [tokenize, Node.render, String.toList_ofList, reads_chars n h]

end EmbedUI.Markup
