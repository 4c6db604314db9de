import EmbedUI.Proofs.Component.WireFormat
import EmbedUI.Proofs.Generator.Run

/-!
# Rebuilding a component from its record

A component that was generated leaves a record with its kind and with what it was made from. An
explicit configuration is recorded as it is, and a described component is recorded as its
requirements, which is another shape under the same kind. Whether the component can be made again
from the record as a configuration of its kind depends on how the two shapes fit together.

For forms, dashboards and custom components they do: the configuration reads the parts it knows from
the requirements and passes over the rest. For charts they do not: the values are a level deeper,
and the kind of the component stands where a chart has the second name of its style.

## The architecture

* **`rebuild?`**: what a recorded configuration of a kind gives rise to.
* **`decode_form`**, **`decode_dashboard`**, **`decode_custom`**: requirements read as
  configurations.
* **`decode_chart_ne_ok`**: requirements are never read as a chart.
* **`record_rebuilds`**: every record of a success, and the one exception.
-/

namespace EmbedUI

open Json Json.Record

/-! ## Requirements read as configurations -/

namespace Requirements

theorem decode_form (r : Requirements) : Form.decode r.encode.kept = .ok r.form := by
  -- the button has the default name, which is the one of a described form
  have hsubmit : lookup "submitText" r.entries = none := by
    rw [lookup_eq_none_iff, keys_entries]
    cases r.html <;> simp
  have hrecord := ((r.finds_title.map Form.mk).seq r.finds_fields (by simp)).seq
    (finds_default r.nodup_entries "submitText" Form.defaultSubmitText string hsubmit)
    (by simp)
  exact hrecord.decode "FormConfig"

theorem decode_dashboard {r : Requirements} (hfinite : r.Finite) :
    Dashboard.decode r.encode.kept = .ok r.dashboard := by
  have hrecord := (r.finds_title.map Dashboard.mk).seq (finds_widgets hfinite) (by simp)
  exact hrecord.decode "DashboardConfig"

theorem decode_custom {r : Requirements} {html : String} (hhtml : r.html = some html) :
    Custom.decode r.encode.kept = .ok r.custom := by
  have htitle := finds_optional r.nodup_entries "title" string .str (o := some r.title) rfl
    fun _ _ => rfl
  have hmarkup := finds_required r.nodup_entries "html" string (x := html)
    (by rw [lookup_html, hhtml]; rfl) rfl
  have hrecord := ((htitle.map Custom.mk).seq hmarkup (by simp)).decode "CustomConfig"
  have hcustom : r.custom = ⟨some r.title, html⟩ := by rw [custom, hhtml]; rfl
  rw [hcustom]
  exact hrecord

theorem decode_chart_ne_ok (r : Requirements) (c : Chart) :
    Chart.decode r.encode.kept ≠ .ok c := by
  intro h
  -- requirements have no values of their own, and a chart has to have some
  have hvalues : lookup "values" (keptEntries [] r.entries) = none := by
    have hkeys : lookup "values" r.entries = none := by
      rw [lookup_eq_none_iff, keys_entries]
      cases r.html <;> simp
    rw [lookup_held r.nodup_entries, hkeys]
    rfl
  have htitle := (owns_required "title" (string (ε := Empty))).map Chart.mk
  have hkind := htitle.seq
    (owns_field_aliases "kind" ["type"] (some .bar) (Chart.Style.decode (ε := Empty)))
  have howns := hkind.seq (owns_required "values" (list (float (ε := Empty))))
  change Chart.record.ofEntries (keptEntries [] r.entries) = .ok c at h
  rw [Chart.record, ofEntries_seq howns (owns_defaulted "labels" [] (list string)) (by simp)] at h
  obtain ⟨make, labels, hmake, -, -⟩ := h
  rw [ofEntries_seq hkind (owns_required "values" (list float)) (by simp)] at hmake
  obtain ⟨make, values, -, hread, -⟩ := hmake
  obtain ⟨v, hv, -⟩ := (ofEntries_required (nodup_held r.entries)).mp hread
  rw [hvalues] at hv
  cases hv

end Requirements

/-! ## Floats of a description -/

namespace Description

theorem finite_requirements (d : String) : (requirements d).Finite := by
  have hwidgets : ∀ w ∈ widgetDictionary.map Prod.snd, w.Finite := by
    intro w hw
    simp only [widgetDictionary, List.map_cons, List.map_nil, List.mem_cons, List.not_mem_nil,
      or_false] at hw
    rcases hw with rfl | rfl | rfl | rfl | rfl
    · trivial
    · trivial
    · trivial
    · trivial
    · intro values hvalues
      cases hvalues
      decide
  unfold requirements
  cases kind d with
  | form => exact ⟨List.forall_mem_nil _, List.forall_mem_nil _⟩
  | dashboard =>
    exact ⟨fun w hw => hwidgets w ((dashboardWidgets_sublist _).subset hw), List.forall_mem_nil _⟩
  | chart =>
    refine ⟨List.forall_mem_nil _, ?_⟩
    exact chartSeries_cases (P := fun s => ∀ v ∈ s.values, v.isFinite = true) _ (by decide)
      (by decide) (by decide)
  | custom => exact ⟨List.forall_mem_nil _, List.forall_mem_nil _⟩

end Description

/-! ## Records -/

namespace Generator

open Registry

/-- Read from a value or from a text. -/
def ReadAs {α : Type} (ofValue : Decoder Empty α) (ofDocument : Decoder Flaw α) (x : α) : Prop :=
  (∃ v, ofValue v = .ok x) ∨ ∃ text, decodeText ofDocument text = .ok x

/-- A description, or a configuration that was itself read. -/
def Request.Read : Request → Prop
  | .described _ => True
  | .form f => ReadAs Form.decode Form.decode f
  | .dashboard d => ReadAs Dashboard.decode Dashboard.decode d
  | .chart c => ReadAs Chart.decode Chart.decode c
  | .custom c => ReadAs Custom.decode Custom.decode c

/-- A described component whose kind is that of charts. -/
def Request.DescribesChart : Request → Prop
  | .described d => Description.kind d = .chart
  | _ => False

/-- What was read is compiled, if it could be read. -/
def compiled? {α : Type} (read : Except DecodeError α)
    (compile : α → Except Rejection Resource) : Option Resource :=
  read.toOption.bind fun x => (compile x).toOption

/-- The component that a recorded configuration gives rise to: it is read as a configuration of its
kind and compiled. -/
def rebuild? (kind : ComponentKind) (config : Json) (id : ComponentId) : Option Resource :=
  match kind with
  | .form => compiled? (Form.decode config) fun f => f.compile id
  | .dashboard => compiled? (Dashboard.decode config) fun d => d.compile id
  | .chart => compiled? (Chart.decode config) fun c => c.compile id
  | .custom => compiled? (Custom.decode config) fun c => c.compile id

theorem compiled?_eq_some {α : Type} {read : Except DecodeError α}
    {compile : α → Except Rejection Resource} {x : α} {resource : Resource}
    (hread : read = .ok x) (hcompile : compile x = .ok resource) :
    compiled? read compile = some resource := by
  rw [compiled?, hread]
  show (compile x).toOption = some resource
  rw [hcompile]
  rfl

theorem ReadAs.guarantees {α : Type} {ofValue : Decoder Empty α} {ofDocument : Decoder Flaw α}
    {P : α → Prop} (hvalue : Guarantees ofValue P) (hdocument : Guarantees ofDocument P) {x : α}
    (h : ReadAs ofValue ofDocument x) : P x := by
  rcases h with ⟨v, hv⟩ | ⟨text, htext⟩
  · exact hvalue v x hv
  · obtain ⟨y, hy, hrest⟩ := bind_eq_ok.mp htext
    split at hrest
    · cases hrest
    · cases hrest
      exact hdocument _ x hy

theorem recorded_of_success {spaces : Namespaces} {c : Call} {m : Memory} {resource : Resource}
    (h : (c.perform spaces m).1 = .ok resource) :
    c.request.compile (c.id spaces) = .ok resource ∧
      (c.perform spaces m).2.components.get? (c.id spaces).text = some (c.record spaces) := by
  rcases perform_cases spaces c m with ⟨-, made, hcompile, hperform⟩ | ⟨-, e, hperform, -⟩
  · rw [hperform] at h ⊢
    cases h
    refine ⟨hcompile, ?_⟩
    rw [Shelf.get?_put, if_pos rfl]
  · rw [hperform] at h
    cases h

/-- **Requirements and configurations fit together** for all kinds but one. -/
theorem rebuild?_requirements {r : Requirements} (hfinite : r.Finite) (hchart : r.kind ≠ .chart)
    (hcustom : r.kind = .custom → ∃ html, r.html = some html) {id : ComponentId}
    {resource : Resource} (h : r.compile id = .ok resource) :
    rebuild? r.kind r.encode.kept id = some resource := by
  unfold Requirements.compile at h
  cases hkind : r.kind with
  | form =>
    rw [hkind] at h
    exact compiled?_eq_some r.decode_form h
  | dashboard =>
    rw [hkind] at h
    exact compiled?_eq_some (Requirements.decode_dashboard hfinite) h
  | chart => exact absurd hkind hchart
  | custom =>
    obtain ⟨html, hhtml⟩ := hcustom hkind
    rw [hkind] at h
    exact compiled?_eq_some (Requirements.decode_custom hhtml) h

theorem rebuild?_explicit {request : Request} (hread : request.Read)
    (hexplicit : ∀ d, request ≠ .described d) {id : ComponentId} {resource : Resource}
    (h : request.compile id = .ok resource) :
    rebuild? request.kind request.config id = some resource := by
  cases request with
  | described d => exact absurd rfl (hexplicit d)
  | form f => exact compiled?_eq_some f.decode_encode h
  | dashboard d =>
    have hfinite : d.Finite :=
      hread.guarantees Dashboard.guarantees_finite Dashboard.guarantees_finite
    exact compiled?_eq_some (Dashboard.decode_encode hfinite) h
  | chart c =>
    have hfinite : c.Finite := hread.guarantees Chart.guarantees_finite Chart.guarantees_finite
    exact compiled?_eq_some (Chart.decode_encode hfinite) h
  | custom c => exact compiled?_eq_some c.decode_encode h

theorem rebuild?_described {d : String} (hchart : Description.kind d ≠ .chart) {id : ComponentId}
    {resource : Resource} (h : (Request.described d).compile id = .ok resource) :
    rebuild? (Description.kind d) (Request.described d).config id = some resource := by
  rw [← Description.kind_requirements] at hchart ⊢
  refine rebuild?_requirements (Description.finite_requirements d) hchart (fun hkind => ?_) h
  have hfitting := Description.fitting_requirements d
  rw [Description.Fitting, hkind] at hfitting
  obtain ⟨⟨html, hhtml, -⟩, -⟩ := hfitting
  exact ⟨html, hhtml⟩

/-- **What a record is good for.** A call that succeeds leaves a record with its kind. From the
record of an explicit configuration, and of a described form, dashboard or custom component, the
configuration of that kind is read back, and compiling it under the same identity makes the resource
that was handed out. Every described component is recorded as its requirements, which make that
resource as well; those of a chart are never read as a configuration of a chart. -/
theorem record_rebuilds (spaces : Namespaces) (c : Call) (m : Memory) (resource : Resource)
    (hread : c.request.Read) (hok : (c.perform spaces m).1 = .ok resource) :
    ∃ record, (c.perform spaces m).2.components.get? (c.id spaces).text = some record ∧
      ComponentKind.ofName? record.kind = some c.request.kind ∧
      (¬c.request.DescribesChart →
        rebuild? c.request.kind record.config (c.id spaces) = some resource) ∧
      (c.request.DescribesChart → ∀ chart, Chart.decode record.config ≠ .ok chart) ∧
      ∀ d, c.request = .described d → ∃ r, Requirements.decode record.config = .ok r ∧
        r.compile (c.id spaces) = .ok resource := by
  obtain ⟨hcompile, hrecord⟩ := recorded_of_success hok
  refine ⟨c.record spaces, hrecord, ComponentKind.ofName?_name _, fun hchart => ?_,
    fun hchart chart => ?_, ?_⟩
  · show rebuild? c.request.kind c.request.config (c.id spaces) = some resource
    -- the two shapes of a record: requirements, and the configuration itself
    by_cases hdescribed : ∃ d, c.request = .described d
    · obtain ⟨d, hrequest⟩ := hdescribed
      rw [hrequest] at hchart hcompile ⊢
      exact rebuild?_described hchart hcompile
    · exact rebuild?_explicit hread (fun d hrequest => hdescribed ⟨d, hrequest⟩) hcompile
  · show Chart.decode c.request.config ≠ .ok chart
    cases hrequest : c.request with
    | described d => exact (Description.requirements d).decode_chart_ne_ok chart
    | _ =>
      rw [hrequest] at hchart
      exact hchart.elim
  · intro d hrequest
    refine ⟨Description.requirements d, ?_, ?_⟩
    · show Requirements.decode c.request.config = _
      rw [hrequest]
      exact Requirements.decode_encode (Description.finite_requirements d)
    · rw [hrequest] at hcompile
      exact hcompile

/-- A chart as it is written by hand: the style under its second name, and whole numbers. -/
def writtenPie : Json :=
  .obj [("labels", .arr [.str "a", .str "b"]), ("title", .str "Shares"), ("type", .str "pie"),
    ("values", .arr [.num (.integer 1 (by decide)), .num (.integer 2 (by decide))])]

def pieCall : Call :=
  ⟨"u1", ⟨1, "12:00"⟩, .chart ⟨"Shares", .pie, [Float.ofInt 1, Float.ofInt 2], ["a", "b"]⟩⟩

def chartCall : Call := ⟨"u1", ⟨2, "12:01"⟩, .described "a chart"⟩

theorem acceptable_pieCall : pieCall.Acceptable := by decide

theorem acceptable_chartCall : chartCall.Acceptable := by decide

theorem record_rebuilds_charts :
    (pieCall.request.Read ∧ ∃ resource record,
      (pieCall.perform .standard .empty).1 = .ok resource ∧
      (pieCall.perform .standard .empty).2.components.get? "chart-u1-1" = some record ∧
      rebuild? .chart record.config (pieCall.id .standard) = some resource) ∧
    chartCall.request.Read ∧ ∃ resource record requirements,
      (chartCall.perform .standard .empty).1 = .ok resource ∧
      (chartCall.perform .standard .empty).2.components.get? "chart-u1-2" = some record ∧
      Requirements.decode record.config = .ok requirements ∧
      requirements.compile (chartCall.id .standard) = .ok resource := by
  have hpie : pieCall.request.Read := Or.inl ⟨writtenPie, rfl⟩
  obtain ⟨pie, hpieOk⟩ := acceptable_pieCall.succeeds .standard .empty
  obtain ⟨chart, hchartOk⟩ := acceptable_chartCall.succeeds .standard .empty
  obtain ⟨record, hrecord, -, hrebuild, -⟩ :=
    record_rebuilds .standard pieCall .empty pie hpie hpieOk
  obtain ⟨record', hrecord', -, -, -, hdescribed⟩ :=
    record_rebuilds .standard chartCall .empty chart trivial hchartOk
  obtain ⟨requirements, hdecode, hcompile⟩ := hdescribed "a chart" rfl
  exact ⟨⟨hpie, pie, record, hpieOk, hrecord, hrebuild not_false⟩, trivial, chart, record',
    requirements, hchartOk, hrecord', hdecode, hcompile⟩

/-- The record of a described chart is not read as a chart: the kind of the component is taken for
its style. -/
theorem described_chart_not_rebuilt :
    (∃ resource, (chartCall.perform .standard .empty).1 = .ok resource) ∧
    ∃ record, (chartCall.perform .standard .empty).2.components.get? "chart-u1-2" = some record ∧
      record.kind = "chart" ∧
      Chart.decode record.config = .error (.unknownVariant "chart" ["bar", "pie"]) := by
  obtain ⟨resource, hok⟩ := acceptable_chartCall.succeeds .standard .empty
  obtain ⟨-, hrecord⟩ := recorded_of_success hok
  exact ⟨⟨resource, hok⟩, chartCall.record .standard, hrecord, rfl, rfl⟩

end Generator

end EmbedUI
