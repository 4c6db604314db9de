import EmbedUI.Proofs.Component.Validity

/-!
# The first offender of a form

A form is rejected when one of its fields offends, and the rejection is about the first one that
does: about its name if the name is blank or taken, and about its options otherwise. What stands
behind that field makes no difference.

## The architecture

* **`Misnamed`**, **`Optionless`**, **`Offends`**: what a field of a form can do wrong.
* **`Blames`**: what a rejection says about a field.
* **`Field.problem?_eq_none_iff_offends`**, **`Field.blames_of_problem?`**: one field, behind the
  names of the fields in front of it.
* **`earliest_firstProblem?`**: the run over all fields.
* **`first_offender_reported`**: the compiler.
-/

namespace EmbedUI.Form

variable {fields : List Field} {i : Nat} {f : Field} {r : Rejection}

/-! ## Offenders -/

/-- The name is exactly that of a field in front of the index. -/
def Taken (fields : List Field) (i : Nat) (name : String) : Prop :=
  ∃ j g, j < i ∧ fields[j]? = some g ∧ g.name = name

/-- The field at an index has a blank name, or one that is taken. -/
def Misnamed (fields : List Field) (i : Nat) : Prop :=
  ∃ f, fields[i]? = some f ∧ (Text.trim f.name = "" ∨ Taken fields i f.name)

/-- The field at an index is a select without any option. -/
def Optionless (fields : List Field) (i : Nat) : Prop :=
  ∃ f, fields[i]? = some f ∧ f.kind = .select ∧ ∀ options, f.options = some options → options = []

def Offends (fields : List Field) (i : Nat) : Prop := Misnamed fields i ∨ Optionless fields i

/-- What a rejection says about the field at an index: its name goes before its options. -/
structure Blames (fields : List Field) (i : Nat) (f : Field) (r : Rejection) : Prop where
  field : fields[i]? = some f
  kind : r.kind = .form
  name : Misnamed fields i → r.path = "fields[" ++ Decimal.integerText i ++ "].name" ∧
    r.complaint = if Text.trim f.name = "" then .blankFieldName else .duplicateFieldName f.name
  options : ¬ Misnamed fields i → r.path = "fields[" ++ Decimal.integerText i ++ "].options" ∧
    r.complaint = .noOptions f.name

/-! ## One field -/

theorem mem_names_take_iff {name : String} :
    name ∈ (fields.take i).map Field.name ↔ Taken fields i name := by
  rw [List.mem_map]
  constructor
  · rintro ⟨g, hg, hname⟩
    obtain ⟨j, hj⟩ := List.mem_iff_getElem?.mp hg
    rw [List.getElem?_take] at hj
    by_cases hlt : j < i
    · rw [if_pos hlt] at hj
      exact ⟨j, g, hlt, hj, hname⟩
    · rw [if_neg hlt] at hj
      exact nomatch hj
  · rintro ⟨j, g, hlt, hj, hname⟩
    refine ⟨g, List.mem_iff_getElem?.mpr ⟨j, ?_⟩, hname⟩
    rw [List.getElem?_take_of_lt hlt, hj]

theorem misnamed_iff (h : fields[i]? = some f) :
    Misnamed fields i ↔
      Text.allBlank f.name = true ∨ f.name ∈ (fields.take i).map Field.name := by
  rw [mem_names_take_iff, ← Text.trim_eq_empty_iff]
  constructor
  · rintro ⟨g, hg, hname⟩
    rw [Option.some.inj (h.symm.trans hg)]
    exact hname
  · exact fun hname => ⟨f, h, hname⟩

theorem optionless_iff (h : fields[i]? = some f) :
    Optionless fields i ↔ f.kind = .select ∧ f.options.getD [] = [] := by
  have hoptions : (∀ options, f.options = some options → options = []) ↔
      f.options.getD [] = [] := by
    cases f.options <;> simp
  rw [← hoptions]
  constructor
  · rintro ⟨g, hg, hselect⟩
    rw [Option.some.inj (h.symm.trans hg)]
    exact hselect
  · exact fun hselect => ⟨f, h, hselect⟩

/-- A field has a problem when it offends. -/
theorem Field.problem?_eq_none_iff_offends (h : fields[i]? = some f) :
    f.problem? ((fields.take i).map Field.name) i = none ↔ ¬ Offends fields i := by
  rw [Field.problem?_eq_none_iff, Offends, misnamed_iff h, optionless_iff h]
  simp only [not_or, not_and, Bool.not_eq_true, and_assoc, ne_eq]

theorem path_reject (index : Nat) (part : String) (complaint : Complaint) :
    (reject index part complaint).path =
      "fields[" ++ Decimal.integerText index ++ ("]." ++ part) :=
  String.append_assoc

/-- The problem of a field is about the field. -/
theorem Field.blames_of_problem? (h : fields[i]? = some f)
    (hr : f.problem? ((fields.take i).map Field.name) i = some r) : Blames fields i f r := by
  have hmisnamed := misnamed_iff h
  unfold Field.problem? at hr
  by_cases hblank : Text.allBlank f.name = true
  · rw [if_pos hblank, Option.some.injEq] at hr
    subst hr
    refine ⟨h, rfl, fun _ => ⟨path_reject i "name" _, ?_⟩, fun hnot => ?_⟩
    · rw [if_pos (Text.trim_eq_empty_iff.mpr hblank), reject]
    · exact absurd (hmisnamed.mpr (.inl hblank)) hnot
  · rw [if_neg hblank] at hr
    by_cases htaken : f.name ∈ (fields.take i).map Field.name
    · rw [if_pos htaken, Option.some.injEq] at hr
      subst hr
      refine ⟨h, rfl, fun _ => ⟨path_reject i "name" _, ?_⟩, fun hnot => ?_⟩
      · rw [if_neg (mt Text.trim_eq_empty_iff.mp hblank), reject]
      · exact absurd (hmisnamed.mpr (.inr htaken)) hnot
    · rw [if_neg htaken] at hr
      split at hr
      · rw [Option.some.injEq] at hr
        subst hr
        refine ⟨h, rfl, fun hname => ?_, fun _ => ⟨path_reject i "options" _, rfl⟩⟩
        exact absurd (hmisnamed.mp hname) (not_or.mpr ⟨hblank, htaken⟩)
      · exact nomatch hr

/-! ## All fields -/

/-- The problem at a place among fields that stand behind others. -/
def problemAt (earlier : List String) (index : Nat) (fields : List Field) (i : Nat) :
    Option Rejection :=
  fields[i]?.bind fun f => f.problem? (earlier ++ (fields.take i).map Field.name) (index + i)

/-- The run: the names behind which a field stands are those in front of all fields and those of the
fields that were passed. -/
theorem earliest_firstProblem? (earlier : List String) (index : Nat) (fields : List Field) :
    Earliest (problemAt earlier index fields) (firstProblem? earlier index fields) := by
  induction fields generalizing earlier index with
  | nil => exact fun _ => rfl
  | cons f rest ih =>
    have hfront : problemAt earlier index (f :: rest) 0 = f.problem? earlier index := by
      simp [problemAt]
    have hrest : ∀ i, problemAt (earlier ++ [f.name]) (index + 1) rest i =
        problemAt earlier index (f :: rest) (i + 1) := by
      intro i
      simp only [problemAt, List.getElem?_cons_succ, List.take_succ_cons, List.map_cons,
        List.append_assoc, List.singleton_append, Nat.add_assoc, Nat.add_comm 1 i]
    rw [firstProblem?, ← hfront]
    exact Earliest.or (funext hrest ▸ ih (earlier ++ [f.name]) (index + 1))

theorem earliest_problem? (form : Form) :
    Earliest (problemAt [] 0 form.fields) form.problem? :=
  earliest_firstProblem? [] 0 form.fields

theorem problemAt_eq_none_iff : problemAt [] 0 fields i = none ↔ ¬ Offends fields i := by
  unfold problemAt
  cases hi : fields[i]? with
  | none => simp [Offends, Misnamed, Optionless, hi]
  | some f =>
    rw [Option.bind_some, List.nil_append, Nat.zero_add]
    exact Field.problem?_eq_none_iff_offends hi

theorem exists_problemAt_iff : (∃ r, problemAt [] 0 fields i = some r) ↔ Offends fields i := by
  rw [← Option.ne_none_iff_exists', ne_eq, problemAt_eq_none_iff, Classical.not_not]

theorem blames_of_problemAt (h : problemAt [] 0 fields i = some r) : ∃ f, Blames fields i f r := by
  obtain ⟨f, hf, hr⟩ := Option.bind_eq_some_iff.mp h
  rw [List.nil_append, Nat.zero_add] at hr
  exact ⟨f, Field.blames_of_problem? hf hr⟩

/-- Fields behind a place make no difference to the problem at that place. -/
theorem problemAt_congr {others : List Field} {n : Nat} (h : others.take n = fields.take n)
    (hi : i < n) : problemAt [] 0 others i = problemAt [] 0 fields i := by
  have hget : others[i]? = fields[i]? := by
    rw [← List.getElem?_take_of_lt hi, h, List.getElem?_take_of_lt hi]
  have htake : others.take i = fields.take i := by
    rw [← Nat.min_eq_left (Nat.le_of_lt hi), ← List.take_take, h, List.take_take]
  rw [problemAt, problemAt, hget, htake]

/-! ## The compiler -/

/-- **The first offender is reported.** -/
theorem first_offender_reported (form : Form) (id : ComponentId) :
    ((∃ r, form.compile id = .error r) ↔ ∃ i, Offends form.fields i) ∧
    ∀ r, form.compile id = .error r →
      ∃ i f, Offends form.fields i ∧ (∀ j < i, ¬ Offends form.fields j) ∧
        Blames form.fields i f r ∧
        ∀ (other : Form) (id' : ComponentId),
          other.fields.take (i + 1) = form.fields.take (i + 1) →
            other.compile id' = .error r := by
  have hearliest := earliest_problem? form
  constructor
  · simp only [compile_eq_error_iff]
    rw [← Option.ne_none_iff_exists', ne_eq, hearliest.eq_none_iff]
    simp only [problemAt_eq_none_iff, Classical.not_forall, Classical.not_not]
  · intro r hr
    obtain ⟨i, hi, hbefore⟩ := hearliest.eq_some_iff.mp (compile_eq_error_iff.mp hr)
    obtain ⟨f, hblames⟩ := blames_of_problemAt hi
    refine ⟨i, f, exists_problemAt_iff.mp ⟨r, hi⟩,
      fun j hj => problemAt_eq_none_iff.mp (hbefore j hj), hblames, ?_⟩
    intro other id' hsame
    refine compile_eq_error_iff.mpr ((earliest_problem? other).eq_some_iff.mpr ⟨i, ?_, ?_⟩)
    · rw [problemAt_congr hsame (Nat.lt_succ_self i), hi]
    · intro j hj
      rw [problemAt_congr hsame (Nat.lt_succ_of_lt hj), hbefore j hj]

/-- A select with nothing to select and a blank name, in front of a name that is taken: its own name
goes before its options. -/
example :
    (problem? ⟨"", [⟨"a", .text, "", none, false, none⟩, ⟨" ", .select, "", none, false, some []⟩,
      ⟨"a", .text, "", none, false, none⟩], ""⟩).map Rejection.message =
        some "invalid form config: fields[1].name: field name must not be empty" := by
  decide +kernel

end EmbedUI.Form
