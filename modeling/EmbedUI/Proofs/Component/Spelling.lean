import EmbedUI.Dashboard.Basic
import EmbedUI.Form.Basic
import EmbedUI.Json.Printer
import EmbedUI.Proofs.Json.Respelling
import Mathlib.Logic.Relation

/-!
# Spellings of forms, dashboards and charts

Callers need not spell a configuration in full. A kind may be called `type`, an option may be a bare
string, the data of a widget may be missing or `null`, a metric may be a number, what has a default
may be left out, and there may be entries that nobody asks for. A configuration that was respelled
in any number of such places is read as the same one.

Each kind of part has a relation `Step` for a single change anywhere in it, and a lemma that says
that the decoder does not see the change. A widget is the one place where the lemma of a record does
not say enough: its data is held when it is read, and what the held data means is only decided
afterwards, so two widgets before that decision are related, not equal.
-/

namespace EmbedUI

open Json Json.Record

/-! ## Forms -/

namespace Form

namespace ChoiceOption

def members : List Part := [.plain "value" [] [], .plain "label" [] [.null]]

/-- The label of an option is its value, or there is none. -/
def Unlabelled (entries : List (String × Json)) (value : String) : Prop :=
  lookup "label" entries = none ∨ lookup "label" entries = some .null ∨
    lookup "label" entries = some (.str value)

/-- A change of an option: one of its full form, or from that to the bare string. -/
inductive Step : Json → Json → Prop
  | object {entries entries' : List (String × Json)} (h : EntriesStep members entries entries') :
      Step (.obj entries) (.obj entries')
  | bare {entries : List (String × Json)} {s : String}
      (hvalue : lookup "value" entries = some (.str s)) (hlabel : Unlabelled entries s) :
      Step (.obj entries) (.str s)

theorem follows_record : Follows .written members members record Eq := by
  have hapart : Apart members := by decide
  have hvalue : Follows .written members [_] (Record.required "value" string) Eq :=
    follows_required hapart (by simp [members]) string
  have hlabel : Follows .written members [_] (Record.optional "label" string) Eq :=
    follows_optional hapart (by simp [members]) string
  exact (hvalue.map_same _).seq_same hlabel (by decide)

theorem decode_obj {entries : List (String × Json)} {o : ChoiceOption} :
    decode (.obj entries : Json) = .ok o ↔ record.ofEntries entries = .ok o := by
  unfold decode
  rw [hold_eq_ok]
  cases hread : record.ofEntries entries with
  | error e =>
    constructor
    · intro h
      simp [bind, Except.bind, hread] at h
    · exact fun h => nomatch h
  | ok o' => simp [bind, Except.bind, pure, Except.pure, hread]

/-- An option whose label says nothing new. -/
theorem eq_same {entries : List (String × Json)} {s : String} {o : ChoiceOption}
    (hvalue : lookup "value" entries = some (.str s)) (hlabel : Unlabelled entries s)
    (h : record.ofEntries entries = .ok o) : o = same s := by
  have hvalueOwns := (owns_required "value" (string (ε := Empty))).map
    fun value (label : Option String) => (⟨value, label.getD value⟩ : ChoiceOption)
  have hlabelOwns := owns_defaulted "label" none (Json.optional (string (ε := Empty)))
  obtain ⟨g, label, hg, hlabelRead, rfl⟩ :=
    (ofEntries_seq hvalueOwns hlabelOwns (by decide)).mp h
  obtain ⟨value, hvalueRead, rfl⟩ := ofEntries_map.mp hg
  rw [Unlabelled, lookup_eq_head?] at hlabel
  rw [lookup_eq_head?] at hvalue
  have hvalue' : value = s := by
    obtain ⟨v, hv, hstring⟩ | ⟨-, hnone⟩ := ofEntries_field_under.mp hvalueRead
    · rw [hv] at hvalue
      obtain rfl := Option.some.inj hvalue
      exact (Except.ok.inj hstring).symm
    · cases hnone
  have hlabel' : label.getD value = s := by
    rw [hvalue']
    obtain ⟨v, hv, hstring⟩ | ⟨hnil, hnone⟩ := ofEntries_field_under.mp hlabelRead
    · rw [hv] at hlabel
      obtain hlabel | hlabel | hlabel := hlabel
      · cases hlabel
      · obtain rfl := Option.some.inj hlabel
        obtain rfl := Except.ok.inj hstring
        rfl
      · obtain rfl := Option.some.inj hlabel
        obtain rfl := Except.ok.inj hstring
        rfl
    · obtain rfl := Option.some.inj hnone
      rfl
  exact congrArg₂ ChoiceOption.mk hvalue' hlabel'

theorem unseen : Unseen Step decode := by
  intro v v' o hstep h
  cases hstep with
  | object hentries =>
    obtain ⟨o', ho', rfl⟩ := follows_record.entries hentries (decode_obj.mp h)
    exact decode_obj.mpr ho'
  | bare hvalue hlabel =>
    rw [eq_same hvalue hlabel (decode_obj.mp h)]
    rfl

end ChoiceOption

namespace Field

def members : List Part :=
  [.plain "name" [] [], .plain "kind" ["type"] [], .plain "label" [] [.str ""],
    .plain "placeholder" [] [.null], .plain "required" [] [.bool false],
    ⟨"options", [], [.null], ListStep ChoiceOption.Step⟩]

/-- A change of a field, or of one of its options. -/
def Step : Json → Json → Prop := RecordStep members

theorem follows_record : Follows .written members members record Eq := by
  have hapart : Apart members := by decide
  have hname : Follows .written members [_] (Record.required "name" string) Eq :=
    follows_required hapart (by simp [members]) string
  have hkind : Follows .written members [.plain "kind" ["type"] []]
      (.field "kind" ["type"] none FieldKind.decode) Eq :=
    follows_plain hapart (by simp [members]) (.inl rfl) fun _ hv => nomatch hv
  have hlabel : Follows .written members [_] (Record.defaulted "label" "" string) Eq :=
    follows_defaulted hapart (v := .str "") (by simp [members]) string rfl
  have hplaceholder : Follows .written members [_] (Record.optional "placeholder" string) Eq :=
    follows_optional hapart (by simp [members]) string
  have hrequired : Follows .written members [_] (Record.defaulted "required" false boolean) Eq :=
    follows_defaulted hapart (v := .bool false) (by simp [members]) boolean rfl
  have hoptions : Follows .written members [_]
      (Record.optional "options" (Json.list ChoiceOption.decode)) Eq :=
    follows_nullable hapart (by simp [members])
      (ChoiceOption.unseen.list.optional ListStep.there)
  exact (((((hname.map_same _).seq_same hkind (by decide)).seq_same hlabel (by decide)).seq_same
    hplaceholder (by decide)).seq_same hrequired (by decide)).seq_same hoptions (by decide)

theorem unseen : Unseen Step decode := follows_record.unseen "FieldSpec"

end Field

def members : List Part :=
  [.plain "title" [] [], ⟨"fields", [], [.arr []], ListStep Field.Step⟩,
    .plain "submitText" [] [.str defaultSubmitText]]

/-- A change anywhere in a form. -/
def Step : Json → Json → Prop := RecordStep members

theorem follows_record : Follows .written members members record Eq := by
  have hapart : Apart members := by decide
  have htitle : Follows .written members [_] (Record.required "title" string) Eq :=
    follows_required hapart (by simp [members]) string
  have hfields : Follows .written members [_]
      (Record.defaulted "fields" [] (Json.list Field.decode)) Eq :=
    follows_list hapart (by simp [members]) Field.unseen
  have hsubmitText : Follows .written members [_]
      (Record.defaulted "submitText" defaultSubmitText string) Eq :=
    follows_defaulted hapart (v := .str defaultSubmitText) (by simp [members]) string rfl
  exact ((htitle.map_same _).seq_same hfields (by decide)).seq_same hsubmitText (by decide)

theorem unseen : Unseen Step decode := follows_record.unseen "FormConfig"

end Form

/-! ## Dashboards -/

namespace Dashboard

/-- A number is changed into the text that is printed for it. -/
inductive NumberStep : Json → Json → Prop
  | text (n : Json.Number) : NumberStep (.num n) (.str (compact (.num n)))

theorem NumberStep.unseen : Unseen NumberStep Metric.decodeText := by
  intro v v' s hstep h
  cases hstep with
  | text n =>
    have hprinted : compact (.num n) = n.toText := String.ofList_toList
    rw [hprinted]
    exact h

/-- Numbers and texts stay as they are when they are held. -/
theorem NumberStep.held (v v' : Json) (h : NumberStep v v') : NumberStep v.kept v'.kept := by
  cases h with
  | text n => exact .text n

theorem NumberStep.there (v v' : Json) (h : NumberStep v v') : v ≠ .null ∧ v' ≠ .null := by
  cases h
  simp

/-- The parts of the data of a widget. -/
def dataMembers : WidgetKind → List Part
  | .metric => [⟨"value", [], [], NumberStep⟩, .plain "label" [] [.str ""]]
  | .list => [.plain "items" [] [.arr []]]
  | .chart =>
    [.plain "values" [] [.null], .plain "labels" [] [.null], ⟨"value", [], [.null], NumberStep⟩,
      .plain "label" [] [.null]]

theorem follows_metricData :
    Follows .held (dataMembers .metric) (dataMembers .metric) MetricData.record Eq := by
  have hapart : Apart (dataMembers .metric) := by decide
  have hvalue : Follows .held (dataMembers .metric) [⟨"value", [], [], NumberStep⟩]
      (Record.required "value" Metric.decodeText) Eq :=
    follows_field hapart (by simp [dataMembers]) (.inr rfl)
      (.same (NumberStep.unseen.comp NumberStep.held) fun _ hv => nomatch hv)
  have hlabel : Follows .held (dataMembers .metric) [_] (Record.defaulted "label" "" string) Eq :=
    follows_defaulted hapart (v := .str "") (by simp [dataMembers]) string rfl
  exact (hvalue.map_same _).seq_same hlabel (by decide)

theorem follows_listData :
    Follows .held (dataMembers .list) (dataMembers .list) ListData.record Eq := by
  have hitems : Follows .held (dataMembers .list) [_]
      (Record.defaulted "items" [] (Json.list string)) Eq :=
    follows_defaulted (by decide) (v := .arr []) (by simp [dataMembers]) (Json.list string) rfl
  exact hitems.map_same _

theorem follows_chartData :
    Follows .held (dataMembers .chart) (dataMembers .chart) ChartData.record Eq := by
  have hapart : Apart (dataMembers .chart) := by decide
  have hvalues : Follows .held (dataMembers .chart) [_]
      (Record.optional "values" (Json.list float)) Eq :=
    follows_optional hapart (by simp [dataMembers]) (Json.list float)
  have hlabels : Follows .held (dataMembers .chart) [_]
      (Record.optional "labels" (Json.list string)) Eq :=
    follows_optional hapart (by simp [dataMembers]) (Json.list string)
  have hvalue : Follows .held (dataMembers .chart) [_]
      (Record.optional "value" Metric.decodeText) Eq :=
    follows_nullable hapart (by simp [dataMembers])
      ((NumberStep.unseen.optional NumberStep.there).comp NumberStep.held)
  have hlabel : Follows .held (dataMembers .chart) [_] (Record.optional "label" string) Eq :=
    follows_optional hapart (by simp [dataMembers]) string
  exact (((hvalues.map_same _).seq_same hlabels (by decide)).seq_same hvalue (by decide)).seq_same
    hlabel (by decide)

/-- A change of the data of a widget: one of its parts, or that it is there at all. -/
inductive DataStep (kind : WidgetKind) : Json → Json → Prop
  | null : DataStep kind .null (.obj [])
  | record {v v' : Json} (h : RecordStep (dataMembers kind) v v') : DataStep kind v v'

namespace Widget

/-- Data that means the same for a kind of widget. -/
def SameData (kind : WidgetKind) (d d' : Json) : Prop :=
  ∀ title w, (⟨kind, title, d⟩ : Undecided).decide = .ok w →
    (⟨kind, title, d'⟩ : Undecided).decide = .ok w

/-- Data that is there is read by the record of its kind. -/
theorem decide_of_ne_null (kind : WidgetKind) (title : String) {d : Json} (h : d ≠ .null) :
    (⟨kind, title, d⟩ : Undecided).decide =
      match kind with
      | .metric => ((MetricData.decode d).map (metric title)).mapError (.inWidget "metric" title)
      | .list => ((ListData.decode d).map (list title)).mapError (.inWidget "list" title)
      | .chart => ((ChartData.decode d).map (chart title)).mapError (.inWidget "chart" title) := by
  cases d with
  | null => exact absurd rfl h
  | _ => rfl

/-- What is read of one data in place of another is the same widget. -/
theorem decided_of_read {α : Type} {read read' : Except DecodeError α}
    (h : ∀ data, read = .ok data → read' = .ok data) {make : α → Widget}
    {fault : DecodeError → DecodeError} {w : Widget} (hw : (read.map make).mapError fault = .ok w) :
    (read'.map make).mapError fault = .ok w := by
  obtain ⟨data, hdata, rfl⟩ := map_eq_ok.mp (mapError_eq_ok.mp hw)
  rw [h data hdata]
  rfl

theorem sameData_of_step {kind : WidgetKind} {v v' : Json} (h : DataStep kind v v') :
    SameData kind v.kept v'.kept := by
  cases h with
  | null => exact fun title w => id
  | record hrecord =>
    intro title w hread
    obtain ⟨hv, hv'⟩ : v.kept ≠ .null ∧ v'.kept ≠ .null := by
      cases hrecord <;> simp [kept]
    rw [decide_of_ne_null kind title hv] at hread
    rw [decide_of_ne_null kind title hv']
    cases kind with
    | metric =>
      exact decided_of_read
        (fun data => follows_metricData.unseen "MetricData" v v' data hrecord) hread
    | list =>
      exact decided_of_read
        (fun data => follows_listData.unseen "ListData" v v' data hrecord) hread
    | chart =>
      exact decided_of_read
        (fun data => follows_chartData.unseen "ChartWidgetData" v v' data hrecord) hread

def members (kind : WidgetKind) : List Part :=
  [.plain "kind" ["type"] [], .plain "title" [] [.str ""],
    ⟨"data", [], [.null, .obj []], DataStep kind⟩]

/-- A change of a widget. The parts of its data are those of its kind. -/
inductive Step : Json → Json → Prop
  | record {v v' : Json} {w : Widget} (hw : decode v = .ok w)
      (h : RecordStep (members w.kind) v v') : Step v v'

/-- Widgets of one kind whose data has not been looked at yet. -/
def SameUndecided (kind : WidgetKind) (u u' : Undecided) : Prop :=
  ∃ title d d', u = ⟨kind, title, d⟩ ∧ u' = ⟨kind, title, d'⟩ ∧ SameData kind d d'

theorem kind_of_decide {u : Undecided} {w : Widget} (h : u.decide = .ok w) : w.kind = u.kind := by
  unfold Undecided.decide at h
  cases hkind : u.kind <;> rw [hkind] at h <;>
    obtain ⟨d, -, rfl⟩ := map_eq_ok.mp (mapError_eq_ok.mp h) <;> rfl

theorem follows_undecided (kind : WidgetKind) :
    Follows .written (members kind) (members kind) Undecided.record
      fun u u' => u.kind = kind → SameUndecided kind u u' := by
  have hapart : Apart (members kind) := (by decide : ["kind", "type", "title", "data"].Nodup)
  have hlast : ∀ k ∈ ["kind", "type", "title"], k ∉ ["data"] := by decide
  have hkind : Follows .written (members kind) [.plain "kind" ["type"] []]
      (.field "kind" ["type"] none WidgetKind.decode) Eq :=
    follows_plain hapart (by simp [members]) (.inl rfl) fun _ hv => nomatch hv
  have htitle : Follows .written (members kind) [_] (Record.defaulted "title" "" string) Eq :=
    follows_defaulted hapart (v := .str "") (by simp [members]) string rfl
  have hdata : Follows .written (members kind)
      [⟨"data", [], [.null, .obj []], DataStep kind⟩]
      (Record.defaulted "data" .null anyValue) (SameData kind) := by
    refine follows_field hapart (by simp [members]) (.inl rfl) ⟨fun _ _ _ => id, ?_, ?_⟩
    · intro v v' d hstep hd
      obtain rfl := Except.ok.inj ((anyValue_eq_kept v).symm.trans hd)
      exact ⟨v'.kept, anyValue_eq_kept v', sameData_of_step hstep⟩
    · intro v hv d hd
      obtain rfl := Option.some.inj hd
      refine ⟨v.kept, anyValue_eq_kept v, ?_⟩
      rw [List.mem_cons, List.mem_singleton] at hv
      obtain rfl | rfl := hv
      · exact fun _ _ => id
      · exact sameData_of_step .null
  -- what is there of a widget before its data is read
  have hkinded : Follows .written (members kind) [.plain "kind" ["type"] []]
      (Undecided.mk <$> .field "kind" ["type"] none WidgetKind.decode)
      fun g g' => g' = g ∧ ∃ k, g = Undecided.mk k := by
    refine hkind.map Undecided.mk ?_
    rintro k _ rfl
    exact ⟨rfl, k, rfl⟩
  have htitled : Follows .written (members kind)
      ([.plain "kind" ["type"] []] ++ [.plain "title" [] [.str ""]])
      (Undecided.mk <$> .field "kind" ["type"] none WidgetKind.decode
        <*> .defaulted "title" "" string)
      fun g g' => g' = g ∧ ∃ k title, g = Undecided.mk k title := by
    refine hkinded.seq htitle (by decide) ?_
    rintro g _ title _ ⟨rfl, k, rfl⟩ rfl
    exact ⟨rfl, k, title, rfl⟩
  refine htitled.seq hdata hlast ?_
  rintro g _ d d' ⟨rfl, k, title, rfl⟩ hsame rfl
  exact ⟨title, d, d', rfl, rfl, hsame⟩

theorem unseen : Unseen Step decode := by
  intro v v' w hstep h
  cases hstep with
  | record hw hrecord =>
    obtain rfl := Except.ok.inj (hw.symm.trans h)
    obtain ⟨u, hu, hdecide⟩ := bind_eq_ok.mp h
    obtain ⟨u', hu', hsame⟩ := (follows_undecided _).decode "RawWidget" hrecord hu
    obtain ⟨title, d, d', rfl, rfl, hdata⟩ := hsame (kind_of_decide hdecide).symm
    exact bind_eq_ok.mpr ⟨_, hu', hdata title _ hdecide⟩

end Widget

def members : List Part :=
  [.plain "title" [] [], ⟨"widgets", [], [.arr []], ListStep Widget.Step⟩]

/-- A change anywhere in a dashboard. -/
def Step : Json → Json → Prop := RecordStep members

theorem follows_record : Follows .written members members record Eq := by
  have hapart : Apart members := by decide
  have htitle : Follows .written members [_] (Record.required "title" string) Eq :=
    follows_required hapart (by simp [members]) string
  have hwidgets : Follows .written members [⟨"widgets", [], [.arr []], ListStep Widget.Step⟩]
      (Record.defaulted "widgets" [] (Json.list Widget.decode)) Eq :=
    follows_list hapart (by simp [members]) Widget.unseen
  exact (htitle.map_same _).seq_same hwidgets (by decide)

theorem unseen : Unseen Step decode := follows_record.unseen "DashboardConfig"

end Dashboard

/-! ## Charts -/

namespace Chart

def members : List Part :=
  [.plain "title" [] [], .plain "kind" ["type"] [.str Style.bar.name], .plain "values" [] [],
    .plain "labels" [] [.arr []]]

/-- A change of a chart. -/
def Step : Json → Json → Prop := RecordStep members

theorem follows_record : Follows .written members members record Eq := by
  have hapart : Apart members := by decide
  have htitle : Follows .written members [_] (Record.required "title" string) Eq :=
    follows_required hapart (by simp [members]) string
  have hkind : Follows .written members [.plain "kind" ["type"] [.str Style.bar.name]]
      (.field "kind" ["type"] (some .bar) Style.decode) Eq := by
    refine follows_plain hapart (by simp [members]) (.inl rfl) ?_
    intro v hv style hstyle
    rw [List.mem_singleton.mp hv]
    exact congrArg Except.ok (Option.some.inj hstyle)
  have hvalues : Follows .written members [_] (Record.required "values" (Json.list float)) Eq :=
    follows_required hapart (by simp [members]) (Json.list float)
  have hlabels : Follows .written members [_]
      (Record.defaulted "labels" [] (Json.list string)) Eq :=
    follows_defaulted hapart (v := .arr []) (by simp [members]) (Json.list string) rfl
  exact (((htitle.map_same _).seq_same hkind (by decide)).seq_same hvalues (by decide)).seq_same
    hlabels (by decide)

theorem unseen : Unseen Step decode := follows_record.unseen "ChartSpec"

end Chart

/-! ## The main statement -/

/-- **Spellings.** A form, a dashboard or a chart that was respelled in any number of places is read
as the same one, so nothing that is made of it is different. -/
theorem decode_respelled :
    (∀ v v' f, Relation.ReflTransGen Form.Step v v' →
      Form.decode v = .ok f → Form.decode v' = .ok f) ∧
    (∀ v v' d, Relation.ReflTransGen Dashboard.Step v v' →
      Dashboard.decode v = .ok d → Dashboard.decode v' = .ok d) ∧
    ∀ v v' c, Relation.ReflTransGen Chart.Step v v' →
      Chart.decode v = .ok c → Chart.decode v' = .ok c :=
  ⟨Form.unseen.steps, Dashboard.unseen.steps, Chart.unseen.steps⟩

/-! ### Respelled configurations -/

/-- A form with one field, whose kind is called by a key and whose only option is spelled in some
way, with more entries behind. -/
def orderForm (key : String) (option : Json) (others : List (String × Json)) : Json :=
  .obj (("title", .str "Order") :: ("fields", .arr [.obj [("name", .str "size"),
    (key, .str "select"), ("options", .arr [option])]]) :: others)

def unlabelledOption : Json := .obj [("value", .str "S"), ("label", .null)]

/-- One step for the name of the kind, one for the option and one for an entry nobody asks for. -/
theorem steps_form : Relation.ReflTransGen Form.Step (orderForm "kind" unlabelledOption [])
    (orderForm "type" (.str "S") [("note", .null)]) := by
  have hfields : ∀ {key key' : String} {option option' : Json}, Form.Field.Step
      (.obj [("name", .str "size"), (key, .str "select"), ("options", .arr [option])])
      (.obj [("name", .str "size"), (key', .str "select"), ("options", .arr [option'])]) →
      Form.Step (orderForm key option []) (orderForm key' option' []) := fun h =>
    .object (.inside [("title", .str "Order")] []
      (p := ⟨"fields", [], [.arr []], ListStep Form.Field.Step⟩) (by simp [Form.members])
      List.mem_cons_self (ListStep.item [] [] h))
  have hkind : Form.Step (orderForm "kind" unlabelledOption [])
      (orderForm "type" unlabelledOption []) :=
    hfields (.object (.rename [("name", .str "size")] [("options", .arr [unlabelledOption])]
      (p := .plain "kind" ["type"] []) (.str "select") (by simp [Form.Field.members])
      (by decide) (by decide)))
  have hoption : Form.Step (orderForm "type" unlabelledOption [])
      (orderForm "type" (.str "S") []) :=
    hfields (.object (.inside [("name", .str "size"), ("type", .str "select")] []
      (p := ⟨"options", [], [.null], ListStep Form.ChoiceOption.Step⟩)
      (by simp [Form.Field.members]) List.mem_cons_self
      (ListStep.item [] [] (.bare rfl (.inr (.inl rfl))))))
  have hnote : Form.Step (orderForm "type" (.str "S") [])
      (orderForm "type" (.str "S") [("note", .null)]) :=
    .object (.unknown [_, _] [] .null (by simp [Form.members, Part.keys, Part.plain]))
  exact ((Relation.ReflTransGen.single hkind).tail hoption).tail hnote

/-- A dashboard with a metric and a list. -/
def salesDashboard (value data : Json) : Json :=
  .obj [("title", .str "Sales"), ("widgets", .arr [
    .obj [("kind", .str "metric"), ("data", .obj [("value", value)])],
    .obj [("kind", .str "list"), ("data", data)]])]

/-- One step for a metric that is a number, and one for data that is not there. -/
theorem steps_dashboard : Relation.ReflTransGen Dashboard.Step
    (salesDashboard (.num (.integer 42 (by decide))) .null)
    (salesDashboard (.str "42") (.obj [])) := by
  have hwidgets : ∀ (before after : List Json) {v v' : Json}, Dashboard.Widget.Step v v' →
      Dashboard.Step (.obj [("title", .str "Sales"), ("widgets", .arr (before ++ v :: after))])
        (.obj [("title", .str "Sales"), ("widgets", .arr (before ++ v' :: after))]) :=
    fun before after _ _ h =>
      .object (.inside [("title", .str "Sales")] []
        (p := ⟨"widgets", [], [.arr []], ListStep Dashboard.Widget.Step⟩)
        (by simp [Dashboard.members]) List.mem_cons_self (ListStep.item before after h))
  have hdata : ∀ {kind v v' : Json} {w : Dashboard.Widget},
      Dashboard.Widget.decode (.obj [("kind", kind), ("data", v)]) = .ok w →
      Dashboard.DataStep w.kind v v' → Dashboard.Widget.Step
        (.obj [("kind", kind), ("data", v)]) (.obj [("kind", kind), ("data", v')]) :=
    fun {kind _ _ w} hw h =>
      .record hw (.object (.inside [("kind", kind)] []
        (p := ⟨"data", [], [.null, .obj []], Dashboard.DataStep w.kind⟩)
        (by simp [Dashboard.Widget.members]) List.mem_cons_self h))
  have htext : Dashboard.NumberStep (.num (.integer 42 (by decide))) (.str "42") := by
    have hprinted : compact (.num (.integer 42 (by decide))) = "42" := by decide +kernel
    exact hprinted ▸ .text _
  have hnumber : Dashboard.Step (salesDashboard (.num (.integer 42 (by decide))) .null)
      (salesDashboard (.str "42") .null) :=
    hwidgets [] [_] (hdata (w := .metric "" ⟨"42", ""⟩) rfl (.record (.object (.inside [] []
      (p := ⟨"value", [], [], Dashboard.NumberStep⟩)
      (by simp [Dashboard.dataMembers, Dashboard.Widget.kind]) List.mem_cons_self htext))))
  have hnull : Dashboard.Step (salesDashboard (.str "42") .null)
      (salesDashboard (.str "42") (.obj [])) :=
    hwidgets [_] [] (hdata (w := .list "" ⟨[]⟩) rfl .null)
  exact (Relation.ReflTransGen.single hnumber).tail hnull

/-- A chart with some entries for its kind. -/
def visitsChart (kind : List (String × Json)) : Json :=
  .obj ([("title", .str "Visits")] ++ (kind ++ [("values", .arr [.num (.integer 3 (by decide))])]))

/-- One step for the kind that is missing, and one for its name. -/
theorem steps_chart : Relation.ReflTransGen Chart.Step (visitsChart [])
    (visitsChart [("type", .str "bar")]) := by
  have hkind : Chart.Step (visitsChart []) (visitsChart [("kind", .str "bar")]) :=
    .object (.missing [("title", .str "Visits")] [_] (p := .plain "kind" ["type"] [.str "bar"])
      (by simp [Chart.members, Chart.Style.name]) List.mem_cons_self (by decide))
  have hname : Chart.Step (visitsChart [("kind", .str "bar")])
      (visitsChart [("type", .str "bar")]) :=
    .object (.rename [("title", .str "Visits")] [_] (p := .plain "kind" ["type"] [.str "bar"])
      (.str "bar") (by simp [Chart.members, Chart.Style.name]) (by decide) (by decide))
  exact (Relation.ReflTransGen.single hkind).tail hname

theorem decode_respelled_everyKind :
    Relation.ReflTransGen Form.Step (orderForm "kind" unlabelledOption [])
        (orderForm "type" (.str "S") [("note", .null)]) ∧
      Form.decode (orderForm "type" (.str "S") [("note", .null)]) =
        .ok ⟨"Order", [⟨"size", .select, "", none, false, some [⟨"S", "S"⟩]⟩], "Submit"⟩ ∧
    Relation.ReflTransGen Dashboard.Step (salesDashboard (.num (.integer 42 (by decide))) .null)
        (salesDashboard (.str "42") (.obj [])) ∧
      Dashboard.decode (salesDashboard (.str "42") (.obj [])) =
        .ok ⟨"Sales", [.metric "" ⟨"42", ""⟩, .list "" ⟨[]⟩]⟩ ∧
    Relation.ReflTransGen Chart.Step (visitsChart []) (visitsChart [("type", .str "bar")]) ∧
      Chart.decode (visitsChart [("type", .str "bar")]) =
        .ok ⟨"Visits", .bar, [Float.ofInt 3], []⟩ := by
  obtain ⟨hform, hdashboard, hchart⟩ := decode_respelled
  exact ⟨steps_form, hform _ _ _ steps_form rfl, steps_dashboard,
    hdashboard _ _ _ steps_dashboard rfl, steps_chart, hchart _ _ _ steps_chart rfl⟩

end EmbedUI
