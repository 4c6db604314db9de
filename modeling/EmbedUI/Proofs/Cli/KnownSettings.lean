import EmbedUI.Configuration
import EmbedUI.Proofs.Json.Guarantee
import EmbedUI.Proofs.Toml.DistinctKeys

/-!
# Which settings a configuration knows

A configuration is accepted when all that is written in it can be used, and then every setting has
the value that is written, or its standard value. What is written under a name that is no setting is
an error at the top and in the section of the host. The section of the generator is not looked
through, so there a misspelled setting is passed over, and the standard value stands in its place.

## The architecture

* **`Lists`**, **`SectionIs`**: the settings that are written in a section, and their values.
* **`Settled`**: a setting has the value that is written, or its standard value.
* **`Describes`**: the table of a text describes a configuration.
* **`checkKnown_eq_ok_iff`**, **`setting_eq_ok_iff`**, **`sectionOf_eq_ok_iff`**: the three things
  that are done with a table; **`ofTable_eq_ok_iff`**: all of them in turn.
* **`settings_accepted`**: the whole text.
-/

namespace EmbedUI.Configuration

open Toml

/-! ## What is written -/

/-- The names that stand in a table. -/
def names (entries : Table) : List String := entries.map Prod.fst

/-- What a section lists: the entries of a table, or the items of an array under the names of the
settings in their order. A date or time has one entry, under a name that no setting has. -/
inductive Lists (known : List String) : Value → Table → Prop where
  | table (entries : Table) : Lists known (.table entries) entries
  | list (items : List Value) : Lists known (.list items) (known.zip items)
  | moment (m : Moment) : Lists known (.moment m) [("", .moment m)]

/-- The entries of the section of a name; there are none if it is left out. -/
inductive SectionIs (table : Table) (name : String) (known : List String) : Table → Prop where
  | written {v : Value} {entries : Table} (h : (name, v) ∈ table) (lists : Lists known v entries) :
      SectionIs table name known entries
  | absent (h : name ∉ names table) : SectionIs table name known []

/-- The setting has the value that is written, or its standard value if none is. -/
structure Settled {α : Type} (entries : Table) (name : String) (standard : α)
    (Means : Value → α → Prop) (x : α) : Prop where
  written : ∀ v, (name, v) ∈ entries → Means v x
  absent : name ∉ names entries → x = standard

def IsText (v : Value) (s : String) : Prop := v = .text s

def IsCount (v : Value) (n : UInt64) : Prop := v = .number (.integer n.toNat)

/-- The section of the generator has usable values under the names that are settings. -/
structure DescribesGenerator (entries : Table) (c : Configuration) : Prop where
  described : Settled entries "described_namespace" "ai" IsText c.spaces.described
  explicit : Settled entries "explicit_namespace" "dynamic" IsText c.spaces.explicit

/-- The section of the host has usable values under the names that are settings, and no others. -/
structure DescribesHost (entries : Table) (c : Configuration) : Prop where
  known : ∀ name ∈ names entries, name ∈ hostSettings
  ttl : Settled entries "notification_ttl_secs" 5 IsCount c.ttlSeconds
  kept : Settled entries "max_submissions" 100 IsCount c.maxSubmissions

/-- The table has no other sections than the two, and both describe the configuration. -/
structure Describes (table : Table) (c : Configuration) : Prop where
  known : ∀ name ∈ names table, name ∈ sections
  generator : ∃ entries, SectionIs table "generator" generatorSettings entries ∧
    DescribesGenerator entries c
  host : ∃ entries, SectionIs table "host" hostSettings entries ∧ DescribesHost entries c

/-! ## What is read -/

theorem text?_eq_some_iff {v : Value} {s : String} : text? v = some s ↔ IsText v s := by
  unfold text? IsText
  cases v <;> simp

theorem count?_eq_some_iff {v : Value} {n : UInt64} : count? v = some n ↔ IsCount v n := by
  unfold IsCount
  constructor
  · intro h
    unfold count? at h
    split at h
    next z =>
      split at h
      next hrange =>
        cases h
        have hlt : z.toNat < UInt64.size := by omega
        rw [Nat.toUInt64_eq, UInt64.toNat_ofNat_of_lt' hlt, Int.toNat_of_nonneg hrange.1]
      next => cases h
    next => cases h
  · rintro rfl
    have hlt : (n.toNat : Int) < UInt64.size := by exact_mod_cast n.toNat_lt
    rw [count?, if_pos ⟨Int.natCast_nonneg _, hlt⟩, Int.toNat_natCast]
    simp

theorem checkKnown_eq_ok_iff {known : List String} {table : Table} {u : Unit} :
    checkKnown known table = .ok u ↔ ∀ name ∈ names table, name ∈ known := by
  unfold checkKnown
  split
  next hfind =>
    rw [List.find?_eq_none] at hfind
    simpa [names] using hfind
  next hfind =>
    have hmem := List.mem_of_find?_eq_some hfind
    have hunknown := List.find?_some hfind
    have hnot : ¬∀ name ∈ names table, name ∈ known := fun hall =>
      of_decide_eq_true hunknown (hall _ (List.mem_map.mpr ⟨_, hmem, rfl⟩))
    simp [hnot]

theorem not_mem_names_iff {entries : Table} {name : String} :
    name ∉ names entries ↔ entries.lookup name = none := by
  rw [List.lookup_eq_none_iff, names]
  constructor
  · intro h e he
    exact bne_iff_ne.mpr fun heq => h (List.mem_map.mpr ⟨e, he, heq.symm⟩)
  · rintro h hname
    obtain ⟨e, he, rfl⟩ := List.mem_map.mp hname
    exact bne_iff_ne.mp (h e he) rfl

theorem setting_eq_ok_iff {α : Type} {entries : Table} (h : (names entries).Nodup) {name : String}
    {standard x : α} {read : Value → Option α} {Means : Value → α → Prop}
    (hread : ∀ {v x}, read v = some x ↔ Means v x) :
    setting entries name standard read = .ok x ↔ Settled entries name standard Means x := by
  unfold setting
  cases hlookup : entries.lookup name with
  | none =>
    have habsent : name ∉ names entries := not_mem_names_iff.mpr hlookup
    constructor
    · rintro ⟨⟩
      exact ⟨fun v hv => absurd (List.mem_map.mpr ⟨_, hv, rfl⟩) habsent, fun _ => rfl⟩
    · intro hsettled
      rw [hsettled.absent habsent]
  | some v =>
    have hv : (name, v) ∈ entries := (lookup_eq_some_iff_mem h).mp hlookup
    have honly : ∀ w, (name, w) ∈ entries → w = v := fun w hw =>
      Option.some.inj (((lookup_eq_some_iff_mem h).mpr hw).symm.trans hlookup)
    have hname : name ∈ names entries := List.mem_map.mpr ⟨_, hv, rfl⟩
    dsimp only
    constructor
    · intro hok
      refine ⟨fun w hw => ?_, fun habsent => absurd hname habsent⟩
      rw [honly w hw, ← hread]
      cases hx : read v with
      | none =>
        rw [hx] at hok
        cases hok
      | some y =>
        rw [hx] at hok
        cases hok
        rfl
    · intro hsettled
      rw [hread.mpr (hsettled.written v hv)]

theorem settingsOf_eq_ok_iff {name : String} {known : List String} {v : Value} {entries : Table} :
    settingsOf name known v = .ok entries ↔ Lists known v entries := by
  unfold settingsOf
  constructor
  · intro h
    split at h
    · cases h
      exact .table _
    · cases h
      exact .list _
    · cases h
      exact .moment _
    · cases h
  · intro h
    cases h with
    | table => rfl
    | list => rfl
    | moment => rfl

theorem sectionOf_eq_ok_iff {table : Table} (h : (names table).Nodup) {name : String}
    {known : List String} {entries : Table} :
    sectionOf table name known = .ok entries ↔ SectionIs table name known entries := by
  unfold sectionOf
  cases hlookup : table.lookup name with
  | none =>
    have habsent : name ∉ names table := not_mem_names_iff.mpr hlookup
    constructor
    · rintro ⟨⟩
      exact .absent habsent
    · rintro (⟨hv, -⟩ | ⟨-⟩)
      · exact absurd (List.mem_map.mpr ⟨_, hv, rfl⟩) habsent
      · rfl
  | some v =>
    have hv : (name, v) ∈ table := (lookup_eq_some_iff_mem h).mp hlookup
    dsimp only
    rw [settingsOf_eq_ok_iff]
    constructor
    · exact .written hv
    · rintro (⟨hw, hlists⟩ | ⟨habsent⟩)
      · obtain rfl := Option.some.inj (hlookup.symm.trans ((lookup_eq_some_iff_mem h).mpr hw))
        exact hlists
      · exact absurd (List.mem_map.mpr ⟨_, hv, rfl⟩) habsent

/-- No name stands twice in a section. -/
theorem SectionIs.nodup {table : Table} (h : DistinctEntries Value.Distinct table) {name : String}
    {known : List String} (hknown : known.Nodup) {entries : Table}
    (hsection : SectionIs table name known entries) : (names entries).Nodup := by
  cases hsection with
  | absent => exact List.nodup_nil
  | written hv hlists =>
    have hdistinct := h.values _ hv
    cases hlists with
    | table => exact (Value.distinct_table_iff.mp hdistinct).keys
    | list items =>
      rw [names, List.zip_eq_zip_take_min, List.map_fst_zip (by simp)]
      exact hknown.sublist (List.take_sublist _ _)
    | moment => exact List.pairwise_singleton _ _

/-! ## The main statement -/

/-- **Reading a table** is checking and looking up, in turn. -/
theorem ofTable_eq_ok_iff {table : Table} (h : DistinctEntries Value.Distinct table)
    {c : Configuration} : ofTable table = .ok c ↔ Describes table c := by
  unfold ofTable
  simp only [bind, pure, Except.pure, Json.bind_eq_ok, checkKnown_eq_ok_iff, exists_const,
    sectionOf_eq_ok_iff h.keys, Except.ok.injEq]
  constructor
  · rintro ⟨hknown, generator, hgenerator, described, hdescribed, explicit, hexplicit,
      host, hhost, hhostKnown, ttl, httl, kept, hkept, rfl⟩
    have hnames := hgenerator.nodup h (by decide)
    have hhostNames := hhost.nodup h (by decide)
    refine ⟨hknown, ⟨generator, hgenerator, ?_, ?_⟩, host, hhost, hhostKnown, ?_, ?_⟩
    · exact (setting_eq_ok_iff hnames text?_eq_some_iff).mp hdescribed
    · exact (setting_eq_ok_iff hnames text?_eq_some_iff).mp hexplicit
    · exact (setting_eq_ok_iff hhostNames count?_eq_some_iff).mp httl
    · exact (setting_eq_ok_iff hhostNames count?_eq_some_iff).mp hkept
  · rintro ⟨hknown, ⟨generator, hgenerator, hdescribed, hexplicit⟩,
      host, hhost, hhostKnown, httl, hkept⟩
    have hnames := hgenerator.nodup h (by decide)
    have hhostNames := hhost.nodup h (by decide)
    refine ⟨hknown, generator, hgenerator, _, ?_, _, ?_, host, hhost, hhostKnown, _, ?_, _, ?_, rfl⟩
    · exact (setting_eq_ok_iff hnames text?_eq_some_iff).mpr hdescribed
    · exact (setting_eq_ok_iff hnames text?_eq_some_iff).mpr hexplicit
    · exact (setting_eq_ok_iff hhostNames count?_eq_some_iff).mpr httl
    · exact (setting_eq_ok_iff hhostNames count?_eq_some_iff).mpr hkept

/-- **Accepted settings.** A text is accepted as a configuration exactly when it is a table of the
two known sections, the settings within them have usable values, and the section of the host has no
others; then each of the four has the value that is written, or its standard value. -/
theorem settings_accepted (text : String) (c : Configuration) :
    ofText text = .ok c ↔ ∃ table, Table.ofText? text = some table ∧ Describes table c := by
  unfold ofText
  cases htable : Table.ofText? text with
  | none => simp
  | some table => simp [ofTable_eq_ok_iff (Table.distinct_ofText? htable)]

/-- Every name in the table and in its two sections is one that the program knows. -/
structure KnownThroughout (table : Table) : Prop where
  top : ∀ name ∈ names table, name ∈ sections
  generator : ∀ entries, SectionIs table "generator" generatorSettings entries →
    ∀ name ∈ names entries, name ∈ generatorSettings
  host : ∀ entries, SectionIs table "host" hostSettings entries →
    ∀ name ∈ names entries, name ∈ hostSettings

/-- The names that stand in a section, if it is a table. -/
def namesIn (section? : Option Value) : List String :=
  match section? with
  | some (.table entries) => names entries
  | _ => []

def misspelledSetting : String := "[generator]\nexplicit_namspace = \"cfg\"\n"

/-- **A misspelled setting of the generator is passed over**, and its standard value is taken. -/
theorem misspelled_setting_accepted :
    ¬ ∀ (text : String) (c : Configuration) (table : Table),
      ofText text = .ok c → Table.ofText? text = some table → KnownThroughout table := by
  intro h
  have haccepted : ofText misspelledSetting = .ok standard := by decide +kernel
  have hwritten : (Table.ofText? misspelledSetting).map (fun t => namesIn (t.lookup "generator")) =
      some ["explicit_namspace"] := by decide +kernel
  obtain ⟨table, htable, hnames⟩ := Option.map_eq_some_iff.mp hwritten
  have hknown := h _ _ _ haccepted htable
  unfold namesIn at hnames
  split at hnames
  next entries hlookup =>
    have hmem := (lookup_eq_some_iff_mem (Table.distinct_ofText? htable).keys).mp hlookup
    have hsetting := hknown.generator _ (.written hmem (.table _)) "explicit_namspace"
      (hnames ▸ List.mem_cons_self)
    exact absurd hsetting (by decide)
  next => cases hnames

end EmbedUI.Configuration
