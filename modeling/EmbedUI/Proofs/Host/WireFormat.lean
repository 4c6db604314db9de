import EmbedUI.Generator
import EmbedUI.Host.Notice
import EmbedUI.Host.Settings
import EmbedUI.Message.Envelope
import EmbedUI.Proofs.Component.WireFormat

/-!
# Everything on the wire comes back

Configurations are read back from their wire form as they were, and so is everything else that is
written down: the namespaces of a generator, resources, what a host holds, and the records of a
registry. Two things stand in the way of reading back, and nothing else does: a float that is not
finite is written as `null`, and free data whose keys are repeated or out of order is put in order
when it is held.

Both are exact conditions. A decoder that reads floats hands out finite ones, and a decoder that
keeps free data hands out data in order, so a value without these properties is not read back from
anything.

## The architecture

* **`guarantees_canonical`**: what a decoder that keeps free data hands out.
* **`decode_encode`** for each type, and **`guarantees_finite`** or **`guarantees_canonical`** where
  there is a condition.
* **`reads_back`**: the table of all wire types.
-/

namespace EmbedUI

open Json Json.Record

/-! ## Free data -/

theorem Json.guarantees_anyValue {ε : Type} [Source ε] :
    Guarantees (anyValue (ε := ε)) Canonical :=
  fun t _ hv => canonical_of_anyValue t hv

theorem Json.guarantees_anyObject {ε : Type} [Source ε] :
    Guarantees (anyObject (ε := ε)) fun entries => Canonical (.obj entries) := by
  intro t entries hentries
  cases t with
  | obj es =>
    have hvalue : anyValue (.obj es) = .ok (.obj entries) := by
      rw [anyValue, show anyEntries [] es = .ok entries from hentries]
      rfl
    exact canonical_of_anyValue _ hvalue
  | _ => cases hentries

/-! ## Series -/

namespace Chart

def Series.Finite (s : Series) : Prop := ∀ v ∈ s.values, v.isFinite = true

theorem Series.decode_encode {s : Series} (hfinite : s.Finite) :
    Series.decode s.encode.kept = .ok s := by
  obtain ⟨values, labels⟩ := s
  have hnodup : (([("values", encodeValues values), ("labels", ofStrings labels)] :
      List (String × Json)).map Prod.fst).Nodup := by simp
  have hvalues := finds_required hnodup "values" (list float) rfl (list_floats hfinite)
  have hlabels := finds_required hnodup "labels" (list string) rfl (list_ofStrings labels)
  exact ((hvalues.map Series.mk).seq hlabels (by simp)).decode "Series"

theorem Series.guarantees_finite {ε : Type} [Source ε] :
    Guarantees (Series.decode (ε := ε)) Series.Finite := by
  have hvalues := guarantees_field "values" [] none (guarantees_float (ε := ε)).list
    fun _ hnone => nomatch hnone
  have hlabels := guarantees_true (required "labels" (list (string (ε := ε))))
  have hrecord := (hvalues.map (f := Series.mk)
    (Q := fun make => ∀ labels, True → (make labels).Finite)
    fun _ hfinite _ _ => hfinite).seq hlabels
  exact hrecord.decode "Series"

def Data.Finite (d : Data) : Prop := ∀ v ∈ d.values, v.isFinite = true

theorem Data.guarantees_finite {ε : Type} [Source ε] :
    Guarantees (Data.decode (ε := ε)) Data.Finite := by
  have hkind := guarantees_true (required "kind" (Style.decode (ε := ε)))
  have hvalues := guarantees_field "values" [] none (guarantees_float (ε := ε)).list
    fun _ hnone => nomatch hnone
  have hlabels := guarantees_true (required "labels" (list (string (ε := ε))))
  have hrecord := ((hkind.map (f := Data.mk) (Q := fun make => ∀ values,
    (∀ v ∈ values, v.isFinite = true) → ∀ labels, True → (make values labels).Finite)
    fun _ _ _ hfinite _ _ => hfinite).seq hvalues).seq hlabels
  exact hrecord.decode "ChartData"

end Chart

/-! ## Requirements -/

theorem Requirements.guarantees_finite {ε : Type} [Source ε] :
    Guarantees (Requirements.decode (ε := ε)) Requirements.Finite := by
  have hkind := guarantees_true (required "type" (ComponentKind.decode (ε := ε)))
  have htitle := guarantees_true (required "title" (string (ε := ε)))
  have hfields := guarantees_true (defaulted "fields" [] (list (Form.Field.decode (ε := ε))))
  have hwidgets := guarantees_field "widgets" [] (some [])
    (Dashboard.Widget.guarantees_finite (ε := ε)).list fun _ ho w hw => by
      cases ho
      cases hw
  have hdata := guarantees_field "data" [] (some .empty)
    (Chart.Data.guarantees_finite (ε := ε)) fun _ ho v hv => by
      cases ho
      cases hv
  have hhtml := guarantees_true (Record.optional "html" (string (ε := ε)))
  -- the two parts with floats are handed on past the others
  have hrecord := (((((hkind.map (f := Requirements.mk) (Q := fun make => ∀ title, True →
    ∀ fields, True → ∀ widgets : List Dashboard.Widget, (∀ w ∈ widgets, w.Finite) →
      ∀ data : Chart.Data, data.Finite → ∀ html, True →
        (make title fields widgets data html).Finite)
    fun _ _ _ _ _ _ _ hwidgets _ hdata _ _ => ⟨hwidgets, hdata⟩).seq htitle).seq hfields).seq
    hwidgets).seq hdata).seq hhtml
  exact hrecord.decode "ComponentRequirements"

/-! ## Resources and namespaces -/

theorem Resource.decode_encode (r : Resource) : Resource.decode r.encode.kept = .ok r := by
  obtain ⟨address, mediaType, text, encoding⟩ := r
  have hnodup : (([("uri", .str address), ("mimeType", .str mediaType), ("text", .str text),
      ("encoding", .str encoding)] : List (String × Json)).map Prod.fst).Nodup := by simp
  have haddress := finds_required hnodup "uri" string (x := address) rfl rfl
  have htype := finds_required hnodup "mimeType" string (x := mediaType) rfl rfl
  have htext := finds_required hnodup "text" string (x := text) rfl rfl
  have hencoding := finds_defaulted hnodup "encoding" defaultEncoding string (x := encoding) rfl rfl
  have hrecord := (((haddress.map Resource.mk).seq htype (by simp)).seq htext (by simp)).seq
    hencoding (by simp)
  exact hrecord.decode "UiResource"

theorem Namespaces.decode_encode (n : Namespaces) : Namespaces.decode n.encode.kept = .ok n := by
  obtain ⟨described, explicit⟩ := n
  have hnodup : (([("described_namespace", .str described),
      ("explicit_namespace", .str explicit)] : List (String × Json)).map Prod.fst).Nodup := by simp
  have hdescribed := finds_defaulted hnodup "described_namespace" standard.described string
    (x := described) rfl rfl
  have hexplicit := finds_defaulted hnodup "explicit_namespace" standard.explicit string
    (x := explicit) rfl rfl
  exact ((hdescribed.map Namespaces.mk).seq hexplicit (by simp)).decode "FactoryConfig"

/-! ## What a host holds -/

namespace Host

theorem natural_ofUInt {limit n : Nat} {wanted : String} (hn : n < limit) (h : IsExact n) :
    natural limit wanted (.num (.integer n h) : Json) = .ok n := by
  have hrange : 0 ≤ (n : Int) ∧ (n : Int) < limit := by omega
  rw [natural, if_pos hrange, Int.toNat_natCast]

theorem uint32_ofUInt32 (n : UInt32) : uint32 (.num (.ofUInt32 n) : Json) = .ok n := by
  rw [uint32, Number.ofUInt32, natural_ofUInt n.toNat_lt]
  show Except.ok n.toNat.toUInt32 = _
  rw [Nat.toUInt32_eq, UInt32.ofNat_toNat]

theorem uint64_ofUInt64 (n : UInt64) : uint64 (.num (.ofUInt64 n) : Json) = .ok n := by
  rw [uint64, Number.ofUInt64, natural_ofUInt n.toNat_lt]
  show Except.ok n.toNat.toUInt64 = _
  rw [Nat.toUInt64_eq, UInt64.ofNat_toNat]

theorem AnimationSpeed.decode_encode (s : AnimationSpeed) :
    AnimationSpeed.decode s.encode.kept = .ok s := by
  cases s <;> rfl

theorem Settings.decode_encode (s : Settings) : Settings.decode s.encode.kept = .ok s := by
  obtain ⟨theme, fontSize, animationSpeed⟩ := s
  have hnodup : (([("theme", .str theme), ("fontSize", .num (.ofUInt32 fontSize)),
      ("animationSpeed", animationSpeed.encode)] : List (String × Json)).map Prod.fst).Nodup := by
    simp
  have htheme := finds_required hnodup "theme" string (x := theme) rfl rfl
  have hsize := finds_required hnodup "fontSize" uint32 rfl (uint32_ofUInt32 fontSize)
  have hspeed := finds_required hnodup "animationSpeed" AnimationSpeed.decode rfl
    (AnimationSpeed.decode_encode animationSpeed)
  exact (((htheme.map Settings.mk).seq hsize (by simp)).seq hspeed (by simp)).decode "HostSettings"

theorem Severity.decode_encode (s : Severity) : Severity.decode s.encode.kept = .ok s := by
  cases s <;> rfl

theorem Notice.decode_encode (n : Notice) : Notice.decode n.encode.kept = .ok n := by
  obtain ⟨id, message, severity, createdAt⟩ := n
  have hnodup : (([("id", .num (.ofUInt64 id)), ("message", .str message),
      ("severity", severity.encode), ("createdAt", .str createdAt)] :
      List (String × Json)).map Prod.fst).Nodup := by simp
  have hid := finds_required hnodup "id" uint64 rfl (uint64_ofUInt64 id)
  have hmessage := finds_required hnodup "message" string (x := message) rfl rfl
  have hseverity := finds_required hnodup "severity" Severity.decode rfl
    (Severity.decode_encode severity)
  have hcreated := finds_required hnodup "createdAt" string (x := createdAt) rfl rfl
  have hrecord := (((hid.map Notice.mk).seq hmessage (by simp)).seq hseverity (by simp)).seq
    hcreated (by simp)
  exact hrecord.decode "Notification"

end Host

namespace FormSubmission

def Canonical (s : FormSubmission) : Prop := Json.Canonical (.obj s.data)

theorem decode_encode {s : FormSubmission} (hdata : s.Canonical) :
    decode s.encode.kept = .ok s := by
  obtain ⟨form, data⟩ := s
  have hnodup : (([("formId", .str form), ("data", .obj data)] :
      List (String × Json)).map Prod.fst).Nodup := by simp
  have hform := finds_required hnodup "formId" string (x := form) rfl rfl
  -- data in order stays as it is when it is held
  have hread : anyObject (kept (.obj data)) = .ok data := by
    rw [kept_eq_self hdata]
    exact anyObject_eq_ok hdata
  have hobject := finds_required hnodup "data" anyObject rfl hread
  exact ((hform.map FormSubmission.mk).seq hobject (by simp)).decode "Submission"

theorem guarantees_canonical {ε : Type} [Source ε] :
    Guarantees (FormSubmission.decode (ε := ε)) Canonical := by
  have hform := guarantees_true (required "formId" (string (ε := ε)))
  have hdata := guarantees_field "data" [] none (guarantees_anyObject (ε := ε))
    fun _ hnone => nomatch hnone
  have hrecord := (hform.map (f := FormSubmission.mk) (Q := fun make =>
    ∀ data : List (String × Json), Json.Canonical (.obj data) → (make data).Canonical)
    fun _ _ _ hdata => hdata).seq hdata
  exact hrecord.decode "Submission"

end FormSubmission

/-! ## Records of a registry -/

namespace Registry

def ComponentRecord.Canonical (r : ComponentRecord) : Prop := r.config.Canonical

theorem ComponentRecord.decode_encode {r : ComponentRecord} (hconfig : r.Canonical) :
    ComponentRecord.decode r.encode.kept = .ok r := by
  obtain ⟨id, kind, config, createdAt⟩ := r
  have hnodup : (([("component_id", .str id), ("type", .str kind), ("config", config),
      ("created_at", .str createdAt)] : List (String × Json)).map Prod.fst).Nodup := by simp
  have hid := finds_required hnodup "component_id" string (x := id) rfl rfl
  have hkind := finds_required hnodup "type" string (x := kind) rfl rfl
  have hread : anyValue config.kept = .ok config := by
    rw [kept_eq_self hconfig]
    exact anyValue_eq_ok config hconfig
  have hvalue := finds_required hnodup "config" anyValue rfl hread
  have hcreated := finds_required hnodup "created_at" string (x := createdAt) rfl rfl
  have hrecord := (((hid.map ComponentRecord.mk).seq hkind (by simp)).seq hvalue (by simp)).seq
    hcreated (by simp)
  exact hrecord.decode "ComponentRecord"

theorem ComponentRecord.guarantees_canonical {ε : Type} [Source ε] :
    Guarantees (ComponentRecord.decode (ε := ε)) ComponentRecord.Canonical := by
  have hid := guarantees_true (required "component_id" (string (ε := ε)))
  have hkind := guarantees_true (required "type" (string (ε := ε)))
  have hconfig := guarantees_field "config" [] none (guarantees_anyValue (ε := ε))
    fun _ hnone => nomatch hnone
  have hcreated := guarantees_true (required "created_at" (string (ε := ε)))
  have hrecord := (((hid.map (f := ComponentRecord.mk) (Q := fun make => ∀ kind, True →
    ∀ config : Json, config.Canonical → ∀ createdAt, True →
      (make kind config createdAt).Canonical)
    fun _ _ _ _ _ hconfig _ _ => hconfig).seq hkind).seq hconfig).seq hcreated
  exact hrecord.decode "ComponentRecord"

def UserRecord.Canonical (r : UserRecord) : Prop := r.data.Canonical

theorem UserRecord.decode_encode {r : UserRecord} (hdata : r.Canonical) :
    UserRecord.decode r.encode.kept = .ok r := by
  obtain ⟨user, data⟩ := r
  have hnodup : (([("user_id", .str user), ("data", data)] :
      List (String × Json)).map Prod.fst).Nodup := by simp
  have huser := finds_required hnodup "user_id" string (x := user) rfl rfl
  have hread : anyValue data.kept = .ok data := by
    rw [kept_eq_self hdata]
    exact anyValue_eq_ok data hdata
  have hvalue := finds_required hnodup "data" anyValue rfl hread
  exact ((huser.map UserRecord.mk).seq hvalue (by simp)).decode "UserDataRecord"

theorem UserRecord.guarantees_canonical {ε : Type} [Source ε] :
    Guarantees (UserRecord.decode (ε := ε)) UserRecord.Canonical := by
  have huser := guarantees_true (required "user_id" (string (ε := ε)))
  have hdata := guarantees_field "data" [] none (guarantees_anyValue (ε := ε))
    fun _ hnone => nomatch hnone
  have hrecord := (huser.map (f := UserRecord.mk) (Q := fun make =>
    ∀ data : Json, data.Canonical → (make data).Canonical)
    fun _ _ _ hdata => hdata).seq hdata
  exact hrecord.decode "UserDataRecord"

end Registry

/-! ## The table of wire types -/

/-- What is written for a value and held as data is read as that value. -/
def ReadsBack {α : Type} (encode : α → Json) (decode : Decoder Empty α) (x : α) : Prop :=
  decode (encode x).kept = .ok x

theorem readsBack_iff {α : Type} {encode : α → Json} {decode : Decoder Empty α} {P : α → Prop}
    (hread : ∀ {x}, P x → decode (encode x).kept = .ok x) (hP : Guarantees decode P) (x : α) :
    ReadsBack encode decode x ↔ P x :=
  ⟨fun h => hP _ x h, hread⟩

/-- **The table of wire types.** Every value of every type that is written on the wire is read back
from what is written, with the two conditions that its floats are finite and that its free data has
its keys in order; and these are necessary. -/
theorem reads_back :
    (∀ o, ReadsBack Form.ChoiceOption.encode Form.ChoiceOption.decode o) ∧
    (∀ f, ReadsBack Form.Field.encode Form.Field.decode f) ∧
    (∀ f, ReadsBack Form.encode Form.decode f) ∧
    (∀ d, ReadsBack Dashboard.MetricData.encode Dashboard.MetricData.decode d) ∧
    (∀ d, ReadsBack Dashboard.ListData.encode Dashboard.ListData.decode d) ∧
    (∀ d, ReadsBack Dashboard.ChartData.encode Dashboard.ChartData.decode d ↔ d.Finite) ∧
    (∀ w, ReadsBack Dashboard.Widget.encode Dashboard.Widget.decode w ↔ w.Finite) ∧
    (∀ d, ReadsBack Dashboard.encode Dashboard.decode d ↔ d.Finite) ∧
    (∀ s, ReadsBack Chart.Series.encode Chart.Series.decode s ↔ s.Finite) ∧
    (∀ d, ReadsBack Chart.Data.encode Chart.Data.decode d ↔ d.Finite) ∧
    (∀ c, ReadsBack Chart.encode Chart.decode c ↔ c.Finite) ∧
    (∀ c, ReadsBack Custom.encode Custom.decode c) ∧
    (∀ r, ReadsBack Requirements.encode Requirements.decode r ↔ r.Finite) ∧
    (∀ r, ReadsBack Resource.encode Resource.decode r) ∧
    (∀ n, ReadsBack Namespaces.encode Namespaces.decode n) ∧
    (∀ s, ReadsBack Host.Settings.encode Host.Settings.decode s) ∧
    (∀ n, ReadsBack Host.Notice.encode Host.Notice.decode n) ∧
    (∀ s, ReadsBack FormSubmission.encode FormSubmission.decode s ↔ s.Canonical) ∧
    (∀ r, ReadsBack Registry.ComponentRecord.encode Registry.ComponentRecord.decode r ↔
      r.Canonical) ∧
    ∀ r, ReadsBack Registry.UserRecord.encode Registry.UserRecord.decode r ↔ r.Canonical := by
  refine ⟨Form.ChoiceOption.decode_encode, Form.Field.decode_encode, Form.decode_encode,
    Dashboard.MetricData.decode_encode, Dashboard.ListData.decode_encode, ?_, ?_, ?_, ?_, ?_, ?_,
    Custom.decode_encode, ?_, Resource.decode_encode, Namespaces.decode_encode,
    Host.Settings.decode_encode, Host.Notice.decode_encode, ?_, ?_, ?_⟩
  · exact readsBack_iff Dashboard.ChartData.decode_encode Dashboard.ChartData.guarantees_finite
  · exact readsBack_iff Dashboard.Widget.decode_encode Dashboard.Widget.guarantees_finite
  · exact readsBack_iff Dashboard.decode_encode Dashboard.guarantees_finite
  · exact readsBack_iff Chart.Series.decode_encode Chart.Series.guarantees_finite
  · exact readsBack_iff Chart.Data.decode_encode Chart.Data.guarantees_finite
  · exact readsBack_iff Chart.decode_encode Chart.guarantees_finite
  · exact readsBack_iff Requirements.decode_encode Requirements.guarantees_finite
  · exact readsBack_iff FormSubmission.decode_encode FormSubmission.guarantees_canonical
  · exact readsBack_iff Registry.ComponentRecord.decode_encode
      Registry.ComponentRecord.guarantees_canonical
  · exact readsBack_iff Registry.UserRecord.decode_encode Registry.UserRecord.guarantees_canonical

end EmbedUI
