import EmbedUI.Proofs.Json.Guarantee
import EmbedUI.Proofs.Json.RoundTrip
import EmbedUI.Requirements

/-!
# Configurations come back from their wire form

A configuration that is written down and held as data is read back as it was, part by part:
choices, fields, widgets with the data of their kind, charts, and the requirements of a description.
Floats have to be finite, because what is not finite is written as `null`; those of a configuration
that was itself read are.

Writing and reading are not mirror images. A part that is not there is left out and read as missing,
the kind of a part has a second name that is never written, a choice and a metric may be given in
short forms, and the data of a widget is set aside until its kind is known.
-/

namespace EmbedUI

open Json Json.Record

/-! ## Forms -/

namespace Form

theorem FieldKind.decode_encode (k : FieldKind) : FieldKind.decode k.encode.kept = .ok k := by
  cases k <;> rfl

theorem ChoiceOption.decode_encode (o : ChoiceOption) :
    ChoiceOption.decode o.encode.kept = .ok o := by
  obtain ⟨value, label⟩ := o
  have hnodup : (([("value", .str value), ("label", .str label)] :
      List (String × Json)).map Prod.fst).Nodup := by simp
  have hvalue := finds_required hnodup "value" string (x := value) rfl rfl
  have hlabel := finds_optional hnodup "label" string .str (o := some label) rfl fun _ _ => rfl
  have hrecord : record.ofEntries (keptEntries [] [("value", .str value), ("label", .str label)]) =
      .ok ⟨value, label⟩ :=
    ((hvalue.map fun value (label : Option String) =>
      (⟨value, label.getD value⟩ : ChoiceOption)).seq hlabel (by simp)).reads
  -- the value is set aside first, which a value without flaws does not notice
  have hheld := hold_eq_ok (encode ⟨value, label⟩).kept
  rw [encode, kept] at hheld
  rw [decode, encode, kept, hheld]
  dsimp only [bind, Except.bind]
  rw [hrecord]
  rfl

theorem Field.decode_encode (f : Field) : Field.decode f.encode.kept = .ok f := by
  obtain ⟨name, kind, label, placeholder, needed, options⟩ := f
  have hnodup : (([("name", .str name), ("kind", kind.encode), ("label", .str label)]
      ++ optionalEntry "placeholder" (placeholder.map .str) ++ [("required", .bool needed)]
      ++ optionalEntry "options" (options.map fun os => .arr (os.map ChoiceOption.encode)) :
      List (String × Json)).map Prod.fst).Nodup := by
    cases placeholder <;> cases options <;> simp [optionalEntry]
  have hname := finds_required hnodup "name" string (x := name) rfl rfl
  have hkind := finds_field hnodup "kind" ["type"] none
    (by cases placeholder <;> cases options <;> simp [optionalEntry]) rfl
    (FieldKind.decode_encode kind)
  have hlabel := finds_defaulted hnodup "label" "" string (x := label) rfl rfl
  have hplaceholder := finds_optional hnodup "placeholder" string .str (o := placeholder)
    (by simp [lookup_append, lookup_optionalEntry, lookup]) fun _ _ => rfl
  have hrequired := finds_defaulted hnodup "required" false boolean (v := .bool needed)
    (x := needed) (by simp [lookup_append, lookup_optionalEntry, lookup]) rfl
  have hoptions := finds_optional hnodup "options" (list ChoiceOption.decode)
    (fun os => .arr (os.map ChoiceOption.encode)) (o := options)
    (by simp [lookup_append, lookup_optionalEntry, lookup])
    fun os _ => optional_kept_arr (list_kept fun o _ => ChoiceOption.decode_encode o)
  have hrecord := (((((hname.map Field.mk).seq hkind (by simp)).seq hlabel (by simp)).seq
    hplaceholder (by simp)).seq hrequired (by simp)).seq hoptions (by simp)
  exact hrecord.decode "FieldSpec"

theorem decode_encode (f : Form) : decode f.encode.kept = .ok f := by
  obtain ⟨title, fields, submitText⟩ := f
  have hnodup : (([("title", .str title), ("fields", .arr (fields.map Field.encode)),
      ("submitText", .str submitText)] : List (String × Json)).map Prod.fst).Nodup := by simp
  have htitle := finds_required hnodup "title" string (x := title) rfl rfl
  have hfields := finds_defaulted hnodup "fields" [] (list Field.decode) (x := fields) rfl
    (list_kept fun f _ => Field.decode_encode f)
  have hsubmit := finds_defaulted hnodup "submitText" defaultSubmitText string (x := submitText)
    rfl rfl
  exact (((htitle.map Form.mk).seq hfields (by simp)).seq hsubmit (by simp)).decode "FormConfig"

end Form

/-! ## Charts -/

namespace Chart

theorem Style.decode_encode (s : Style) : Style.decode s.encode.kept = .ok s := by
  cases s <;> rfl

theorem Data.decode_encode {d : Data} (hfinite : ∀ v ∈ d.values, v.isFinite = true) :
    Data.decode d.encode.kept = .ok d := by
  obtain ⟨style, values, labels⟩ := d
  have hnodup : (([("kind", style.encode), ("values", Series.encodeValues values),
      ("labels", ofStrings labels)] : List (String × Json)).map Prod.fst).Nodup := by simp
  have hkind := finds_required hnodup "kind" Style.decode rfl (Style.decode_encode style)
  have hvalues := finds_required hnodup "values" (list float) rfl (list_floats hfinite)
  have hlabels := finds_required hnodup "labels" (list string) rfl (list_ofStrings labels)
  exact (((hkind.map Data.mk).seq hvalues (by simp)).seq hlabels (by simp)).decode "ChartData"

def Finite (c : Chart) : Prop := ∀ v ∈ c.values, v.isFinite = true

theorem decode_encode {c : Chart} (hfinite : c.Finite) : decode c.encode.kept = .ok c := by
  obtain ⟨title, style, values, labels⟩ := c
  have hnodup : (([("title", .str title), ("kind", style.encode),
      ("values", Series.encodeValues values), ("labels", ofStrings labels)] :
      List (String × Json)).map Prod.fst).Nodup := by simp
  have htitle := finds_required hnodup "title" string (x := title) rfl rfl
  have hkind := finds_field hnodup "kind" ["type"] (some .bar) (by simp) rfl
    (Style.decode_encode style)
  have hvalues := finds_required hnodup "values" (list float) rfl (list_floats hfinite)
  have hlabels := finds_defaulted hnodup "labels" [] (list string) rfl (list_ofStrings labels)
  have hrecord := (((htitle.map Chart.mk).seq hkind (by simp)).seq hvalues (by simp)).seq hlabels
    (by simp)
  exact hrecord.decode "ChartSpec"

theorem guarantees_finite {ε : Type} [Source ε] : Guarantees (decode (ε := ε)) Finite := by
  have htitle := guarantees_true (required "title" (string (ε := ε)))
  have hstyle := guarantees_true (field "kind" ["type"] (some .bar) (Style.decode (ε := ε)))
  have hvalues := guarantees_field "values" [] none
    (guarantees_float (ε := ε)).list fun _ hnone => nomatch hnone
  have hlabels := guarantees_true (defaulted "labels" [] (list (string (ε := ε))))
  -- what the values guarantee is handed on past the fields behind them
  have hrecord := (((htitle.map (f := Chart.mk) (Q := fun make => ∀ style, True → ∀ values,
    (∀ v ∈ values, v.isFinite = true) → ∀ labels, True → (make style values labels).Finite)
    fun _ _ _ _ _ hfinite _ _ => hfinite).seq hstyle).seq hvalues).seq hlabels
  exact hrecord.decode "ChartSpec"

end Chart

/-! ## Dashboards -/

namespace Dashboard

theorem MetricData.decode_encode (d : MetricData) : MetricData.decode d.encode.kept = .ok d := by
  obtain ⟨value, label⟩ := d
  have hnodup : (([("value", .str value), ("label", .str label)] :
      List (String × Json)).map Prod.fst).Nodup := by simp
  have hvalue := finds_required hnodup "value" Metric.decodeText (x := value) rfl rfl
  have hlabel := finds_defaulted hnodup "label" "" string (x := label) rfl rfl
  exact ((hvalue.map MetricData.mk).seq hlabel (by simp)).decode "MetricData"

theorem ListData.decode_encode (d : ListData) : ListData.decode d.encode.kept = .ok d := by
  obtain ⟨items⟩ := d
  have hnodup : (([("items", ofStrings items)] : List (String × Json)).map Prod.fst).Nodup := by
    simp
  have hitems := finds_defaulted hnodup "items" [] (list string) rfl (list_ofStrings items)
  exact (hitems.map ListData.mk).decode "ListData"

def ChartData.Finite (d : ChartData) : Prop :=
  ∀ values, d.values = some values → ∀ v ∈ values, v.isFinite = true

theorem ChartData.decode_encode {d : ChartData} (hfinite : d.Finite) :
    ChartData.decode d.encode.kept = .ok d := by
  obtain ⟨values, labels, value, label⟩ := d
  have hnodup : ((optionalEntry "values" (values.map Chart.Series.encodeValues)
      ++ optionalEntry "labels" (labels.map ofStrings) ++ optionalEntry "value" (value.map .str)
      ++ optionalEntry "label" (label.map .str) :
      List (String × Json)).map Prod.fst).Nodup := by
    cases values <;> cases labels <;> cases value <;> cases label <;> simp [optionalEntry]
  have hvalues := finds_optional hnodup "values" (list float) Chart.Series.encodeValues
    (o := values) (by simp [lookup_append, lookup_optionalEntry])
    fun vs hvs => optional_kept_arr (list_floats (hfinite vs hvs))
  have hlabels := finds_optional hnodup "labels" (list string) ofStrings (o := labels)
    (by simp [lookup_append, lookup_optionalEntry])
    fun texts _ => optional_kept_arr (list_ofStrings texts)
  have hvalue := finds_optional hnodup "value" Metric.decodeText .str (o := value)
    (by simp [lookup_append, lookup_optionalEntry]) fun _ _ => rfl
  have hlabel := finds_optional hnodup "label" string .str (o := label)
    (by simp [lookup_append, lookup_optionalEntry]) fun _ _ => rfl
  have hrecord := (((hvalues.map ChartData.mk).seq hlabels (by simp)).seq hvalue (by simp)).seq
    hlabel (by simp)
  exact hrecord.decode "ChartWidgetData"

theorem ChartData.guarantees_finite {ε : Type} [Source ε] :
    Guarantees (ChartData.decode (ε := ε)) ChartData.Finite := by
  have hvalues := guarantees_field "values" [] (some none)
    (guarantees_float (ε := ε)).list.optional fun o ho values hvalues => by
      cases ho
      cases hvalues
  have hlabels := guarantees_true (Record.optional "labels" (list (string (ε := ε))))
  have hvalue := guarantees_true (Record.optional "value" (Metric.decodeText (ε := ε)))
  have hlabel := guarantees_true (Record.optional "label" (string (ε := ε)))
  have hrecord := (((hvalues.map (f := ChartData.mk) (Q := fun make => ∀ labels, True → ∀ value,
    True → ∀ label, True → (make labels value label).Finite)
    fun _ hfinite _ _ _ _ _ _ => hfinite).seq hlabels).seq hvalue).seq hlabel
  exact hrecord.decode "ChartWidgetData"

/-- The floats of a widget are those of a series. -/
def Widget.Finite : Widget → Prop
  | chart _ d => d.Finite
  | _ => True

/-- What is written for the kind of a widget is one of the names that are read. -/
theorem Widget.decode_tag (w : Widget) : WidgetKind.decode (.str w.tag : Json) = .ok w.kind := by
  cases w <;> rfl

theorem Widget.decode_encodeData {w : Widget} (hfinite : w.Finite) :
    (Undecided.mk w.kind w.title w.encodeData.kept).decide = .ok w := by
  cases w with
  | metric title data =>
    show ((MetricData.decode data.encode.kept).map (metric title)).mapError
      (DecodeError.inWidget "metric" title) = _
    rw [MetricData.decode_encode]
    rfl
  | list title data =>
    show ((ListData.decode data.encode.kept).map (list title)).mapError
      (DecodeError.inWidget "list" title) = _
    rw [ListData.decode_encode]
    rfl
  | chart title data =>
    show ((ChartData.decode data.encode.kept).map (chart title)).mapError
      (DecodeError.inWidget "chart" title) = _
    rw [ChartData.decode_encode hfinite]
    rfl

theorem Widget.decode_encode {w : Widget} (hfinite : w.Finite) :
    Widget.decode w.encode.kept = .ok w := by
  have hnodup : (([("kind", .str w.tag), ("title", .str w.title), ("data", w.encodeData)] :
      List (String × Json)).map Prod.fst).Nodup := by simp
  have hkind := finds_field hnodup "kind" ["type"] none (by simp) rfl
    w.decode_tag
  have htitle := finds_defaulted hnodup "title" "" string (x := w.title) rfl rfl
  -- a decoder that keeps everything keeps what is held already
  have hdata := finds_defaulted hnodup "data" .null anyValue rfl
    (anyValue_eq_ok _ (canonical_kept w.encodeData))
  have hrecord := (((hkind.map Undecided.mk).seq htitle (by simp)).seq hdata (by simp)).decode
    "RawWidget"
  show (Undecided.record.decode "RawWidget" _).bind _ = _
  rw [Undecided.record, encode, hrecord]
  exact Widget.decode_encodeData hfinite

theorem Widget.guarantees_finite {ε : Type} [Source ε] :
    Guarantees (Widget.decode (ε := ε)) Widget.Finite := by
  intro t w hw
  obtain ⟨⟨kind, title, data⟩, -, hw⟩ := bind_eq_ok.mp hw
  -- only the data of a chart has floats in it
  cases kind with
  | metric =>
    obtain ⟨d, -, rfl⟩ := map_eq_ok.mp (mapError_eq_ok.mp hw)
    trivial
  | list =>
    obtain ⟨d, -, rfl⟩ := map_eq_ok.mp (mapError_eq_ok.mp hw)
    trivial
  | chart =>
    obtain ⟨d, hd, rfl⟩ := map_eq_ok.mp (mapError_eq_ok.mp hw)
    exact ChartData.guarantees_finite _ d hd

def Finite (d : Dashboard) : Prop := ∀ w ∈ d.widgets, w.Finite

theorem guarantees_finite {ε : Type} [Source ε] : Guarantees (decode (ε := ε)) Finite := by
  have htitle := guarantees_true (required "title" (string (ε := ε)))
  have hwidgets := guarantees_field "widgets" [] (some [])
    (Widget.guarantees_finite (ε := ε)).list fun _ ho w hw => by
      cases ho
      cases hw
  have hrecord := (htitle.map (f := Dashboard.mk) (Q := fun make => ∀ widgets : List Widget,
    (∀ w ∈ widgets, w.Finite) → (make widgets).Finite) fun _ _ _ hfinite => hfinite).seq hwidgets
  exact hrecord.decode "DashboardConfig"

theorem decode_encode {d : Dashboard} (hfinite : d.Finite) : decode d.encode.kept = .ok d := by
  obtain ⟨title, widgets⟩ := d
  have hnodup : (([("title", .str title), ("widgets", .arr (widgets.map Widget.encode))] :
      List (String × Json)).map Prod.fst).Nodup := by simp
  have htitle := finds_required hnodup "title" string (x := title) rfl rfl
  have hwidgets := finds_defaulted hnodup "widgets" [] (list Widget.decode) rfl
    (list_kept fun w hw => Widget.decode_encode (hfinite w hw))
  exact ((htitle.map Dashboard.mk).seq hwidgets (by simp)).decode "DashboardConfig"

end Dashboard

/-! ## Custom components -/

theorem Custom.decode_encode (c : Custom) : Custom.decode c.encode.kept = .ok c := by
  obtain ⟨title, html⟩ := c
  have hnodup : ((optionalEntry "title" (title.map .str) ++ [("html", .str html)] :
      List (String × Json)).map Prod.fst).Nodup := by
    cases title <;> simp [optionalEntry]
  have htitle := finds_optional hnodup "title" string .str (o := title)
    (by simp [lookup_append, lookup_optionalEntry, lookup]) fun _ _ => rfl
  have hhtml := finds_required hnodup "html" string (v := .str html) (x := html)
    (by simp [lookup_append, lookup_optionalEntry, lookup]) rfl
  exact ((htitle.map Custom.mk).seq hhtml (by simp)).decode "CustomConfig"

/-! ## Requirements -/

theorem ComponentKind.decode_encode (k : ComponentKind) :
    ComponentKind.decode k.encode.kept = .ok k := by
  cases k <;> rfl

namespace Requirements

/-- The entries that requirements are written as. -/
def entries (r : Requirements) : List (String × Json) :=
  [("type", r.kind.encode), ("title", .str r.title),
      ("fields", .arr (r.fields.map Form.Field.encode)),
      ("widgets", .arr (r.widgets.map Dashboard.Widget.encode)), ("data", r.data.encode)]
    ++ optionalEntry "html" (r.html.map .str)

theorem keys_entries (r : Requirements) :
    r.entries.map Prod.fst =
      ["type", "title", "fields", "widgets", "data"] ++ if r.html.isSome then ["html"] else [] := by
  rw [entries, List.map_append, keys_optionalEntry, Option.isSome_map]
  rfl

theorem nodup_entries (r : Requirements) : (r.entries.map Prod.fst).Nodup := by
  rw [keys_entries]
  cases r.html <;> simp

theorem lookup_html (r : Requirements) : lookup "html" r.entries = r.html.map .str := by
  simp [entries, lookup_optionalEntry, lookup]

def Finite (r : Requirements) : Prop :=
  (∀ w ∈ r.widgets, w.Finite) ∧ ∀ v ∈ r.data.values, v.isFinite = true

theorem finds_title (r : Requirements) :
    (required "title" string).Finds ["title"] (keptEntries [] r.entries) r.title :=
  finds_required r.nodup_entries "title" string rfl rfl

theorem finds_fields (r : Requirements) :
    (defaulted "fields" [] (list Form.Field.decode)).Finds ["fields"] (keptEntries [] r.entries)
      r.fields :=
  finds_defaulted r.nodup_entries "fields" [] (list Form.Field.decode) rfl
    (list_kept fun f _ => Form.Field.decode_encode f)

theorem finds_widgets {r : Requirements} (hfinite : r.Finite) :
    (defaulted "widgets" [] (list Dashboard.Widget.decode)).Finds ["widgets"]
      (keptEntries [] r.entries) r.widgets :=
  finds_defaulted r.nodup_entries "widgets" [] (list Dashboard.Widget.decode) rfl
    (list_kept fun w hw => Dashboard.Widget.decode_encode (hfinite.1 w hw))

theorem decode_encode {r : Requirements} (hfinite : r.Finite) :
    decode r.encode.kept = .ok r := by
  have hkind := finds_required r.nodup_entries "type" ComponentKind.decode rfl
    (ComponentKind.decode_encode r.kind)
  have hdata := finds_defaulted r.nodup_entries "data" .empty Chart.Data.decode rfl
    (Chart.Data.decode_encode hfinite.2)
  have hhtml := finds_optional r.nodup_entries "html" string .str r.lookup_html fun _ _ => rfl
  have hrecord := (((((hkind.map Requirements.mk).seq r.finds_title (by simp)).seq r.finds_fields
    (by simp)).seq (finds_widgets hfinite) (by simp)).seq hdata (by simp)).seq hhtml (by simp)
  exact hrecord.decode "ComponentRequirements"

end Requirements

end EmbedUI
