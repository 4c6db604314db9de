import EmbedUI.Message.Envelope
import EmbedUI.Proofs.Json.RecordReading

/-!
# What the host accepts

`Envelope.ofMessage?` is the only way in for what embedded content posts, so what it accepts is what
the rest of the host has to expect. It is described here by what a message holds under its keys,
without any decoder.

## The architecture

* **`tag_variant` / `exists_tag_eq_name`** — names of types and tags of variants are two tables, and
  they agree.
* **`Carries`** — which payload stands for which envelope: an object with the fields of the variant
  under their names, or an array with the same fields in declared order.
* **`decodePayload_eq_ok` / `decodeHeld_eq_ok`** — reading a payload is `Carries`, whether the tag
  came before it or after it.
* **`offerAll_nothing`** — over the entries of an object, what counts is what stands under `type`
  and `payload`.
* **`ofMessage?_eq_some_iff`** — the two together.
* **`accepted_iff`** — what is accepted, compared with the documented form (`Documented`): a payload
  may also list its fields in order (`InOrder`), and nothing else is let in.

A message is a value, so its keys are distinct (`Json.Canonical`); that is the only thing asked of
it here.
-/

namespace EmbedUI

/-! ## Names of types -/

namespace ActionType

theorem ofName?_eq_some {s : String} {t : ActionType} : ofName? s = some t ↔ s = t.name := by
  constructor
  · intro h
    have hname := List.find?_some h
    exact (of_decide_eq_true hname).symm
  · rintro rfl
    exact ofName?_name t

/-- The key of the string that every payload of a type carries. -/
def requiredKey : ActionType → String
  | tool => "toolName"
  | notify => "message"
  | formSubmit => "formId"
  | dashboardRefresh => "dashboardId"
  | chartExport => "chartId"

end ActionType

namespace Envelope

open Json (lookup)
open Json.Record

/-! ## Tags

An envelope has its name from the one table and its tag from the other. They are the same text, and
no name is left over. -/

theorem Variant.decode_tag (v : Variant) : decode (.str v.tag : Json) = .ok v := by
  cases v <;> rfl

theorem tag_variant (e : Envelope) : e.variant.tag = e.type.name := by
  cases e <;> rfl

theorem exists_tag_eq_name (t : ActionType) : ∃ v : Variant, v.tag = t.name := by
  cases t with
  | tool => exact ⟨.tool, rfl⟩
  | notify => exact ⟨.notify, rfl⟩
  | formSubmit => exact ⟨.formSubmit, rfl⟩
  | dashboardRefresh => exact ⟨.dashboardRefresh, rfl⟩
  | chartExport => exact ⟨.chartExport, rfl⟩

/-! ## Payloads -/

/-- The payload stands for the envelope. -/
def Carries : Json → Envelope → Prop
  | .obj entries, tool r =>
    lookup "toolName" entries = some (.str r.tool) ∧
      (lookup "params" entries).getD .null = r.parameters
  | .obj entries, notify message => lookup "message" entries = some (.str message)
  | .obj entries, formSubmit s =>
    lookup "formId" entries = some (.str s.form) ∧
      (lookup "data" entries).getD (.obj []) = .obj s.data
  | .obj entries, dashboardRefresh d => lookup "dashboardId" entries = some (.str d)
  | .obj entries, chartExport c => lookup "chartId" entries = some (.str c)
  | .arr items, tool r =>
    (items = [.str r.tool] ∧ r.parameters = .null) ∨ items = [.str r.tool, r.parameters]
  | .arr items, notify message => items = [.str message]
  | .arr items, formSubmit s =>
    (items = [.str s.form] ∧ s.data = []) ∨ items = [.str s.form, .obj s.data]
  | .arr items, dashboardRefresh d => items = [.str d]
  | .arr items, chartExport c => items = [.str c]
  | _, _ => False

/-- A payload with one field, which is a string. -/
theorem decode_string_eq_ok {key name : String} {p : Json} (hp : p.Canonical) {s : String} :
    (required key Json.string).decode name p = .ok s ↔
      (∃ entries, p = .obj entries ∧ lookup key entries = some (.str s)) ∨ p = .arr [.str s] := by
  cases p with
  | obj entries =>
    show (required key Json.string).ofEntries entries = .ok s ↔ _
    simp [ofEntries_required hp.nodup, Json.string_eq_ok]
  | arr items =>
    show (required key Json.string).ofItems _ items = .ok s ↔ _
    simp [ofItems_eq_ok, take_required, Json.string_eq_ok]
  | _ => simp [Json.Record.decode]

/-- A payload with a string and a second field, which may be left out, as an object. -/
theorem ofEntries_two {α β : Type} {wrap : String → α → β} {key other : String}
    (hne : key ≠ other) {absent : α} {decode : Json.Decoder Empty α}
    {entries : List (String × Json)} (hnodup : (entries.map Prod.fst).Nodup) {e : β} :
    (wrap <$> required key Json.string <*> defaulted other absent decode).ofEntries entries =
        .ok e ↔
      ∃ s v, lookup key entries = some (.str s) ∧
        ((∃ w, lookup other entries = some w ∧ decode w = .ok v) ∨
          (lookup other entries = none ∧ v = absent)) ∧ wrap s v = e := by
  have hapart : ∀ k ∈ [key], k ∉ [other] := by simpa using hne
  rw [ofEntries_seq ((owns_required key Json.string).map wrap) (owns_defaulted other absent decode)
    hapart]
  simp only [ofEntries_map, ofEntries_defaulted hnodup, ofEntries_required hnodup,
    Json.string_eq_ok]
  constructor
  · rintro ⟨g, v, ⟨s, ⟨w, hw, rfl⟩, rfl⟩, hv, he⟩
    exact ⟨s, v, hw, hv, he⟩
  · rintro ⟨s, v, hs, hv, he⟩
    exact ⟨wrap s, v, ⟨s, ⟨.str s, hs, rfl⟩, rfl⟩, hv, he⟩

/-- The same payload as an array. -/
theorem ofItems_two {α β : Type} {wrap : String → α → β} {key other wanted : String}
    {absent : α} {decode : Json.Decoder Empty α} {items : List Json} {e : β} :
    (wrap <$> required key Json.string <*> defaulted other absent decode).ofItems wanted items =
        .ok e ↔
      ∃ s v, ((∃ w, items = [.str s, w] ∧ decode w = .ok v) ∨ (items = [.str s] ∧ v = absent)) ∧
        wrap s v = e := by
  -- the first item is the string; what is left over must be taken by the second field
  rw [ofItems_eq_ok, take_seq]
  simp only [take_map, take_required, take_defaulted, Json.string_eq_ok]
  constructor
  · rintro ⟨g, v, mid, ⟨s, ⟨w, rfl, rfl⟩, rfl⟩, hv, he⟩
    refine ⟨s, v, ?_, he⟩
    rcases hv with ⟨w, rfl, hw⟩ | ⟨rfl, -, hv⟩
    · exact Or.inl ⟨w, rfl, hw⟩
    · exact Or.inr ⟨rfl, hv⟩
  · rintro ⟨s, v, ⟨w, rfl, hw⟩ | ⟨rfl, hv⟩, he⟩
    · exact ⟨wrap s, v, [w], ⟨s, ⟨.str s, rfl, rfl⟩, rfl⟩, Or.inl ⟨w, rfl, hw⟩, he⟩
    · exact ⟨wrap s, v, [], ⟨s, ⟨.str s, rfl, rfl⟩, rfl⟩, Or.inr ⟨rfl, trivial, hv⟩, he⟩

/-- Parameters may be anything. -/
theorem parameters_iff {found : Option Json} (hfound : ∀ w, found = some w → w.Canonical)
    {v : Json} :
    ((∃ w, found = some w ∧ Json.anyValue w = .ok v) ∨ (found = none ∧ v = .null)) ↔
      found.getD .null = v := by
  cases found with
  | none => simp [eq_comm]
  | some w => simp [Json.anyValue_eq_ok w (hfound w rfl)]

/-- Data is an object, when there is any. -/
theorem data_iff {found : Option Json} (hfound : ∀ w, found = some w → w.Canonical)
    {data : List (String × Json)} :
    ((∃ w, found = some w ∧ Json.anyObject w = .ok data) ∨ (found = none ∧ data = [])) ↔
      found.getD (.obj []) = .obj data := by
  cases found with
  | none => simp [eq_comm]
  | some w => simp [Json.anyObject_iff (hfound w rfl)]

theorem toolRequest_eq_ok {p : Json} (hp : p.Canonical) {r : ToolRequest} :
    ToolRequest.decode p = .ok r ↔ Carries p (tool r) := by
  cases p with
  | obj entries =>
    show (ToolRequest.mk <$> required "toolName" Json.string <*>
      defaulted "params" .null Json.anyValue).ofEntries entries = .ok r ↔ _
    have hparameters : ∀ w, lookup "params" entries = some w → w.Canonical := fun w hw =>
      Json.CanonicalEntries.lookup hp.2 hw
    rw [ofEntries_two (by decide) hp.nodup]
    simp only [parameters_iff hparameters, Carries]
    constructor
    · rintro ⟨s, v, hs, hv, rfl⟩
      exact ⟨hs, hv⟩
    · rintro ⟨hs, hv⟩
      exact ⟨r.tool, r.parameters, hs, hv, rfl⟩
  | arr items =>
    show (ToolRequest.mk <$> required "toolName" Json.string <*>
      defaulted "params" .null Json.anyValue).ofItems _ items = .ok r ↔ _
    rw [ofItems_two]
    simp only [Carries]
    constructor
    · rintro ⟨s, v, ⟨w, rfl, hw⟩ | ⟨rfl, rfl⟩, rfl⟩
      · rw [Json.anyValue_eq_ok w hp.2.1] at hw
        cases hw
        exact Or.inr rfl
      · exact Or.inl ⟨rfl, rfl⟩
    · rintro (⟨rfl, hv⟩ | rfl)
      · exact ⟨r.tool, r.parameters, Or.inr ⟨rfl, hv⟩, rfl⟩
      · exact ⟨r.tool, r.parameters,
          Or.inl ⟨r.parameters, rfl, Json.anyValue_eq_ok _ hp.2.1⟩, rfl⟩
  | _ => simp [ToolRequest.decode, Json.Record.decode, Carries]

theorem formSubmission_eq_ok {p : Json} (hp : p.Canonical) {s : FormSubmission} {name : String} :
    FormSubmission.payloadRecord.decode name p = .ok s ↔ Carries p (formSubmit s) := by
  cases p with
  | obj entries =>
    show (FormSubmission.mk <$> required "formId" Json.string <*>
      defaulted "data" [] Json.anyObject).ofEntries entries = .ok s ↔ _
    have hdata : ∀ w, lookup "data" entries = some w → w.Canonical := fun w hw =>
      Json.CanonicalEntries.lookup hp.2 hw
    rw [ofEntries_two (by decide) hp.nodup]
    simp only [data_iff hdata, Carries]
    constructor
    · rintro ⟨form, data, hform, hdata, rfl⟩
      exact ⟨hform, hdata⟩
    · rintro ⟨hform, hdata⟩
      exact ⟨s.form, s.data, hform, hdata, rfl⟩
  | arr items =>
    show (FormSubmission.mk <$> required "formId" Json.string <*>
      defaulted "data" [] Json.anyObject).ofItems _ items = .ok s ↔ _
    rw [ofItems_two]
    simp only [Carries]
    constructor
    · rintro ⟨form, data, ⟨w, rfl, hw⟩ | ⟨rfl, rfl⟩, rfl⟩
      · rw [Json.anyObject_iff hp.2.1] at hw
        cases hw
        exact Or.inr rfl
      · exact Or.inl ⟨rfl, rfl⟩
    · rintro (⟨rfl, hdata⟩ | rfl)
      · exact ⟨s.form, s.data, Or.inr ⟨rfl, hdata⟩, rfl⟩
      · exact ⟨s.form, s.data, Or.inl ⟨.obj s.data, rfl, (Json.anyObject_iff hp.2.1).mpr rfl⟩, rfl⟩
  | _ => simp [Json.Record.decode, Carries]

/-- **Reading a payload.** What is read is what the payload carries for its variant. -/
theorem decodePayload_eq_ok {v : Variant} {p : Json} (hp : p.Canonical) {e : Envelope} :
    decodePayload v p = .ok e ↔ e.variant = v ∧ Carries p e := by
  -- three of the variants have a single string as their payload
  have hstring : ∀ (wrap : String → Envelope) (key name : String),
      (wrap <$> required key Json.string).decode name p = .ok e ↔
        ∃ s, ((∃ entries, p = .obj entries ∧ lookup key entries = some (.str s)) ∨
          p = .arr [.str s]) ∧ wrap s = e := by
    intro wrap key name
    simp only [decode_map, decode_string_eq_ok hp]
  cases v with
  | tool =>
    show (ToolRequest.decode p).map tool = .ok e ↔ _
    simp only [map_eq_ok, toolRequest_eq_ok hp]
    cases e <;> simp [variant]
  | formSubmit =>
    show (formSubmit <$> FormSubmission.payloadRecord).decode _ p = .ok e ↔ _
    simp only [decode_map, formSubmission_eq_ok hp]
    cases e <;> simp [variant]
  | notify =>
    refine (hstring notify "message" "NotifyPayload").trans ?_
    cases e <;> cases p <;> simp [variant, Carries]
  | dashboardRefresh =>
    refine (hstring dashboardRefresh "dashboardId" "DashboardRefreshPayload").trans ?_
    cases e <;> cases p <;> simp [variant, Carries]
  | chartExport =>
    refine (hstring chartExport "chartId" "ChartExportPayload").trans ?_
    cases e <;> cases p <;> simp [variant, Carries]

/-- A payload that was set aside is read like any other. -/
theorem decodeHeld_eq_ok {v : Variant} {p : Json} (hp : p.Canonical) {e : Envelope} :
    decodeHeld v p = .ok e ↔ e.variant = v ∧ Carries p e := by
  rw [← decodePayload_eq_ok hp, decodeHeld]
  cases decodePayload v p with
  | error err => simp [Except.mapError]
  | ok e' => simp [Except.mapError]

/-! ## Entries

The entries of a message are taken one by one. How they are taken depends on what has turned up
before, so there is one lemma for each state of progress, from the last one to the first. -/

theorem offerAll_cons (progress : Progress) (key : String) (x : Json)
    (rest : List (String × Json)) :
    offerAll progress ((key, x) :: rest) =
      (offer progress key x).bind fun p => offerAll p rest := by
  rw [offerAll, Json.keyFault?_eq_none]
  rfl

theorem offer_other {key : String} (htype : key ≠ "type") (hpayload : key ≠ "payload")
    (progress : Progress) (x : Json) : offer progress key x = .ok progress := by
  unfold offer
  rw [if_neg htype, if_neg hpayload, Json.skip_eq_ok]
  rfl

theorem offerAll_both {e : Envelope} {entries : List (String × Json)}
    (htype : "type" ∉ entries.map Prod.fst) (hpayload : "payload" ∉ entries.map Prod.fst) :
    offerAll (.both e) entries = .ok (.both e) := by
  induction entries with
  | nil => rfl
  | cons entry rest ih =>
    obtain ⟨key, x⟩ := entry
    rw [List.map_cons, List.mem_cons, not_or] at htype hpayload
    rw [offerAll_cons, offer_other (Ne.symm htype.1) (Ne.symm hpayload.1)]
    exact ih htype.2 hpayload.2

theorem offerAll_variant {v : Variant} {entries : List (String × Json)}
    (hcanonical : Json.CanonicalEntries entries) (hnodup : (entries.map Prod.fst).Nodup)
    (htype : "type" ∉ entries.map Prod.fst) {e : Envelope} :
    offerAll (.variant v) entries = .ok (.both e) ↔
      e.variant = v ∧ ∃ p, lookup "payload" entries = some p ∧ Carries p e := by
  induction entries with
  | nil => simp [offerAll, lookup]
  | cons entry rest ih =>
    obtain ⟨key, x⟩ := entry
    obtain ⟨hfresh, hrest⟩ := List.nodup_cons.mp hnodup
    rw [List.map_cons, List.mem_cons, not_or] at htype
    rw [offerAll_cons]
    by_cases hkey : key = "payload"
    · -- it is read at once, and no second payload can follow
      subst hkey
      have hoffer : offer (.variant v) "payload" x = (decodePayload v x).map .both := rfl
      rw [hoffer, Json.lookup_cons_self]
      have hread := decodePayload_eq_ok (v := v) (e := e) hcanonical.1
      cases hdecode : decodePayload v x with
      | error err =>
        rw [hdecode] at hread
        simpa [Except.map, Except.bind] using hread
      | ok e' =>
        rw [hdecode] at hread
        show offerAll (.both e') rest = .ok (.both e) ↔ _
        rw [offerAll_both htype.2 hfresh]
        simpa using hread
    · rw [offer_other (Ne.symm htype.1) hkey, Json.lookup_cons_ne hkey]
      exact ih hcanonical.2 hrest htype.2

theorem offerAll_payload {p : Json} (hp : p.Canonical) {v : Variant}
    {entries : List (String × Json)} (hnodup : (entries.map Prod.fst).Nodup)
    (hpayload : "payload" ∉ entries.map Prod.fst)
    (htype : lookup "type" entries = some (.str v.tag)) {e : Envelope} :
    offerAll (.payload p) entries = .ok (.both e) ↔ e.variant = v ∧ Carries p e := by
  induction entries with
  | nil => cases htype
  | cons entry rest ih =>
    obtain ⟨key, x⟩ := entry
    obtain ⟨hfresh, hrest⟩ := List.nodup_cons.mp hnodup
    rw [List.map_cons, List.mem_cons, not_or] at hpayload
    rw [offerAll_cons]
    by_cases hkey : key = "type"
    · -- now the payload that was set aside can be read
      subst hkey
      rw [Json.lookup_cons_self] at htype
      cases htype
      have hoffer : offer (.payload p) "type" (.str v.tag : Json) =
          (decodeHeld v p).map .both := by
        show (Variant.decode (.str v.tag : Json)).bind
          (fun v => (decodeHeld v p).map Progress.both) = _
        rw [Variant.decode_tag]
        rfl
      have hread := decodeHeld_eq_ok (v := v) (e := e) hp
      rw [hoffer]
      cases hdecode : decodeHeld v p with
      | error err =>
        rw [hdecode] at hread
        simpa [Except.map, Except.bind] using hread
      | ok e' =>
        rw [hdecode] at hread
        show offerAll (.both e') rest = .ok (.both e) ↔ _
        rw [offerAll_both hfresh hpayload.2]
        simpa using hread
    · rw [Json.lookup_cons_ne hkey] at htype
      rw [offer_other hkey (Ne.symm hpayload.1)]
      exact ih hrest hpayload.2 htype

/-- **The entries of a message.** Only what stands under the two keys counts. -/
theorem offerAll_nothing {v : Variant} {entries : List (String × Json)}
    (hcanonical : Json.CanonicalEntries entries) (hnodup : (entries.map Prod.fst).Nodup)
    (htype : lookup "type" entries = some (.str v.tag)) {e : Envelope} :
    offerAll .nothing entries = .ok (.both e) ↔
      e.variant = v ∧ ∃ p, lookup "payload" entries = some p ∧ Carries p e := by
  induction entries with
  | nil => cases htype
  | cons entry rest ih =>
    obtain ⟨key, x⟩ := entry
    obtain ⟨hfresh, hrest⟩ := List.nodup_cons.mp hnodup
    rw [offerAll_cons]
    by_cases hkey : key = "type"
    · -- the tag comes first, and the payload is read where it stands
      subst hkey
      rw [Json.lookup_cons_self] at htype
      cases htype
      have hoffer : offer .nothing "type" (.str v.tag : Json) = .ok (.variant v) := by
        show (Variant.decode (.str v.tag : Json)).map Progress.variant = _
        rw [Variant.decode_tag]
        rfl
      rw [hoffer, Json.lookup_cons_ne (by decide)]
      exact offerAll_variant hcanonical.2 hrest hfresh
    · rw [Json.lookup_cons_ne hkey] at htype
      by_cases hkey' : key = "payload"
      · -- the payload comes first, and is read once the variant is known
        subst hkey'
        have hoffer : offer .nothing "payload" x = .ok (.payload x) := by
          show (Json.hold x).map Progress.payload = _
          rw [Json.hold_eq_ok]
          rfl
        rw [hoffer, Json.lookup_cons_self]
        show offerAll (.payload x) rest = .ok (.both e) ↔ _
        simpa using offerAll_payload hcanonical.1 hrest hfresh htype
      · rw [offer_other hkey hkey', Json.lookup_cons_ne hkey']
        exact ih hcanonical.2 hrest htype

theorem decode_eq_ok {entries : List (String × Json)} {e : Envelope} :
    decode (.obj entries) = .ok e ↔ offerAll .nothing entries = .ok (.both e) := by
  cases hoffer : offerAll .nothing entries with
  | error err => simp [decode, hoffer, bind, Except.bind]
  | ok progress => cases progress <;> simp [decode, hoffer, bind, Except.bind, pure, Except.pure]

/-- The name of a type comes first: with it, and only then, the decoder is asked. -/
theorem ofMessage?_eq_some_iff_decode {m : Json} {e : Envelope} :
    ofMessage? m = some e ↔
      (∃ t : ActionType, m.get? "type" = some (.str t.name)) ∧ decode m = .ok e := by
  unfold ofMessage?
  constructor
  · intro h
    split at h
    · cases h
    · next name hname =>
      split at h
      · cases h
      · next t ht =>
        obtain ⟨v, hv, hstr⟩ := Option.bind_eq_some_iff.mp hname
        refine ⟨⟨t, ?_⟩, ?_⟩
        · rw [hv, ← ActionType.ofName?_eq_some.mp ht]
          cases v with
          | str s =>
            cases hstr
            rfl
          | _ => cases hstr
        · cases hdecode : decode m with
          | error err =>
            rw [hdecode] at h
            cases h
          | ok e' =>
            rw [hdecode] at h
            cases h
            rfl
  · rintro ⟨⟨t, htype⟩, hdecode⟩
    have hname : (m.get? "type").bind Json.str? = some t.name := by
      rw [htype]
      rfl
    simp only [hname, ActionType.ofName?_name, hdecode]
    rfl

/-- **Acceptance.** A message is accepted when its type is named and its payload carries the
envelope; whatever else it holds does not matter. -/
theorem ofMessage?_eq_some_iff {m : Json} (hm : m.Canonical) {e : Envelope} :
    ofMessage? m = some e ↔
      m.get? "type" = some (.str e.type.name) ∧ ∃ p, m.get? "payload" = some p ∧ Carries p e := by
  rw [ofMessage?_eq_some_iff_decode]
  cases m with
  | obj entries =>
    have hread : ∀ v : Variant, lookup "type" entries = some (.str v.tag) →
        (decode (.obj entries : Json) = .ok e ↔
          e.variant = v ∧ ∃ p, lookup "payload" entries = some p ∧ Carries p e) := fun v htag =>
      decode_eq_ok.trans (offerAll_nothing hm.2 hm.nodup htag)
    constructor
    · -- what was found to be a name is read once more, as a tag
      rintro ⟨⟨t, htype⟩, hdecode⟩
      obtain ⟨v, htag⟩ := exists_tag_eq_name t
      obtain ⟨rfl, hpayload⟩ := (hread v (htag ▸ htype)).mp hdecode
      refine ⟨?_, hpayload⟩
      rw [← tag_variant, htag]
      exact htype
    · rintro ⟨htype, hpayload⟩
      exact ⟨⟨e.type, htype⟩, (hread e.variant (tag_variant e ▸ htype)).mpr ⟨rfl, hpayload⟩⟩
  | _ => simp [Json.get?]

/-! ## The documented form

What is written about messages asks for an object as the payload. -/

/-- The payload is an object with the string that its type requires; the data of a form, when there
is any, is an object. -/
def DocumentedPayload (t : ActionType) : Json → Prop
  | .obj entries =>
    (∃ s, lookup t.requiredKey entries = some (.str s)) ∧
      (t = .formSubmit → ∀ d, lookup "data" entries = some d → ∃ data, d = .obj data)
  | _ => False

/-- A message as it is documented. -/
def Documented (m : Json) : Prop :=
  ∃ t : ActionType, m.get? "type" = some (.str t.name) ∧
    ∃ p, m.get? "payload" = some p ∧ DocumentedPayload t p

/-- The payload is an array of the fields of its type in declared order; the last of two may be
left out. -/
def InOrderPayload (t : ActionType) : Json → Prop
  | .arr items =>
    ∃ s, items = [.str s] ∨ (t = .tool ∧ ∃ parameters, items = [.str s, parameters]) ∨
      (t = .formSubmit ∧ ∃ data, items = [.str s, .obj data])
  | _ => False

/-- A message whose payload lists its fields. -/
def InOrder (m : Json) : Prop :=
  ∃ t : ActionType, m.get? "type" = some (.str t.name) ∧
    ∃ p, m.get? "payload" = some p ∧ InOrderPayload t p

theorem form_of_carries {p : Json} {e : Envelope} (h : Carries p e) :
    DocumentedPayload e.type p ∨ InOrderPayload e.type p := by
  cases p with
  | obj entries =>
    left
    cases e with
    | tool r => exact ⟨⟨r.tool, h.1⟩, fun htype => by cases htype⟩
    | notify message => exact ⟨⟨message, h⟩, fun htype => by cases htype⟩
    | formSubmit s =>
      -- data that is there is the data that was read
      refine ⟨⟨s.form, h.1⟩, fun _ d hd => ⟨s.data, ?_⟩⟩
      have hdata := h.2
      rw [hd] at hdata
      exact hdata
    | dashboardRefresh d => exact ⟨⟨d, h⟩, fun htype => by cases htype⟩
    | chartExport c => exact ⟨⟨c, h⟩, fun htype => by cases htype⟩
  | arr items =>
    right
    cases e with
    | tool r =>
      rcases h with ⟨hitems, -⟩ | hitems
      · exact ⟨r.tool, Or.inl hitems⟩
      · exact ⟨r.tool, Or.inr (Or.inl ⟨rfl, r.parameters, hitems⟩)⟩
    | notify message => exact ⟨message, Or.inl h⟩
    | formSubmit s =>
      rcases h with ⟨hitems, -⟩ | hitems
      · exact ⟨s.form, Or.inl hitems⟩
      · exact ⟨s.form, Or.inr (Or.inr ⟨rfl, s.data, hitems⟩)⟩
    | dashboardRefresh d => exact ⟨d, Or.inl h⟩
    | chartExport c => exact ⟨c, Or.inl h⟩
  | _ => cases h

theorem carries_of_documented {t : ActionType} {p : Json} (h : DocumentedPayload t p) :
    ∃ e, e.type = t ∧ Carries p e := by
  cases p with
  | obj entries =>
    obtain ⟨⟨s, hs⟩, hdata⟩ := h
    cases t with
    | tool => exact ⟨tool ⟨s, _⟩, rfl, hs, rfl⟩
    | notify => exact ⟨notify s, rfl, hs⟩
    | formSubmit =>
      cases hd : lookup "data" entries with
      | none => exact ⟨formSubmit ⟨s, []⟩, rfl, hs, by rw [hd]; rfl⟩
      | some d =>
        obtain ⟨data, rfl⟩ := hdata rfl d hd
        exact ⟨formSubmit ⟨s, data⟩, rfl, hs, by rw [hd]; rfl⟩
    | dashboardRefresh => exact ⟨dashboardRefresh s, rfl, hs⟩
    | chartExport => exact ⟨chartExport s, rfl, hs⟩
  | _ => cases h

theorem carries_of_inOrder {t : ActionType} {p : Json} (h : InOrderPayload t p) :
    ∃ e, e.type = t ∧ Carries p e := by
  cases p with
  | arr items =>
    obtain ⟨s, rfl | ⟨rfl, parameters, rfl⟩ | ⟨rfl, data, rfl⟩⟩ := h
    · cases t with
      | tool => exact ⟨tool ⟨s, .null⟩, rfl, Or.inl ⟨rfl, rfl⟩⟩
      | notify => exact ⟨notify s, rfl, rfl⟩
      | formSubmit => exact ⟨formSubmit ⟨s, []⟩, rfl, Or.inl ⟨rfl, rfl⟩⟩
      | dashboardRefresh => exact ⟨dashboardRefresh s, rfl, rfl⟩
      | chartExport => exact ⟨chartExport s, rfl, rfl⟩
    · exact ⟨tool ⟨s, parameters⟩, rfl, Or.inr rfl⟩
    · exact ⟨formSubmit ⟨s, data⟩, rfl, Or.inr rfl⟩
  | _ => cases h

/-- **What is let in.** Messages as they are documented, messages whose payload lists its fields
instead, and no others. What is read from a message are the fields of its payload: nothing else in
it has a part in that. -/
theorem accepted_iff {m : Json} (hm : m.Canonical) :
    ((ofMessage? m).isSome ↔ Documented m ∨ InOrder m) ∧
      ∀ e, ofMessage? m = some e ↔
        m.get? "type" = some (.str e.type.name) ∧
          ∃ p, m.get? "payload" = some p ∧ Carries p e := by
  refine ⟨?_, fun e => ofMessage?_eq_some_iff hm⟩
  constructor
  · intro h
    obtain ⟨e, he⟩ := Option.isSome_iff_exists.mp h
    obtain ⟨htype, p, hp, hcarries⟩ := (ofMessage?_eq_some_iff hm).mp he
    rcases form_of_carries hcarries with hform | hform
    · exact Or.inl ⟨e.type, htype, p, hp, hform⟩
    · exact Or.inr ⟨e.type, htype, p, hp, hform⟩
  · intro h
    have hcarries : ∃ e : Envelope, m.get? "type" = some (.str e.type.name) ∧
        ∃ p, m.get? "payload" = some p ∧ Carries p e := by
      rcases h with ⟨t, htype, p, hp, hform⟩ | ⟨t, htype, p, hp, hform⟩
      · obtain ⟨e, rfl, he⟩ := carries_of_documented hform
        exact ⟨e, htype, p, hp, he⟩
      · obtain ⟨e, rfl, he⟩ := carries_of_inOrder hform
        exact ⟨e, htype, p, hp, he⟩
    obtain ⟨e, he⟩ := hcarries
    rw [(ofMessage?_eq_some_iff hm).mpr he]
    rfl

/-- A message whose payload is a list of one text. -/
def listedNotice : Json := .obj [("payload", .arr [.str "hi"]), ("type", .str "notify")]

theorem canonical_listedNotice : listedNotice.Canonical := by
  refine ⟨?_, ⟨trivial, trivial⟩, trivial, trivial⟩
  show ["payload", "type"].Pairwise (· < ·)
  decide

theorem accepted_listedNotice :
    listedNotice.Canonical ∧ ofMessage? listedNotice = some (.notify "hi") :=
  ⟨canonical_listedNotice,
    ((accepted_iff canonical_listedNotice).2 (.notify "hi")).mpr
      ⟨rfl, .arr [.str "hi"], rfl, rfl⟩⟩

/-- The documented form is not all that is let in. -/
theorem accepts_undocumented :
    ¬ ∀ m : Json, m.Canonical → ((ofMessage? m).isSome ↔ Documented m) := by
  intro h
  have haccepted : (ofMessage? listedNotice).isSome = true := by rfl
  obtain ⟨t, -, p, hp, hform⟩ := (h listedNotice canonical_listedNotice).mp haccepted
  cases hp
  exact hform

end Envelope

end EmbedUI
