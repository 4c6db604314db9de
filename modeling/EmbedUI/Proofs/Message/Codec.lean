import EmbedUI.Proofs.Json.Kept
import EmbedUI.Proofs.Message.Boundary

/-!
# Writing envelopes and reading them back

A type of action is spelled in two places that have to agree: as the name that the host looks for
before it reads a message, and as the tag under which an envelope is written and read. Here the two
sides meet: what is written for an envelope has the name of its type and is accepted as that
envelope, and the type that a message names is the type of the envelope it is accepted as.

So writing down what was read is a normal form of the messages that are accepted
(`Envelope.normal?`): entries that have no part in the reading are gone, a payload that listed its
fields has them under their names, and what was left out is there.
-/

namespace EmbedUI.Envelope

open Json (lookup lookup_held)

/-! ## What an envelope holds -/

/-- The values in the payload are canonical, as values that are held are. -/
def Canonical : Envelope → Prop
  | tool r => r.parameters.Canonical
  | formSubmit s => Json.Canonical (.obj s.data)
  | _ => True

theorem canonical_of_carries {p : Json} (hp : p.Canonical) {e : Envelope} (h : Carries p e) :
    e.Canonical := by
  cases e with
  | tool r =>
    cases p with
    | obj entries =>
      obtain ⟨-, hparameters⟩ := h
      show r.parameters.Canonical
      rw [← hparameters]
      cases hfound : lookup "params" entries with
      | none => exact trivial
      | some v => exact Json.CanonicalEntries.lookup hp.2 hfound
    | arr items =>
      rcases h with ⟨-, hnull⟩ | hitems
      · show r.parameters.Canonical
        rw [hnull]
        exact trivial
      · subst hitems
        exact hp.2.1
    | _ => cases h
  | formSubmit s =>
    cases p with
    | obj entries =>
      obtain ⟨-, hdata⟩ := h
      show Json.Canonical (.obj s.data)
      rw [← hdata]
      cases hfound : lookup "data" entries with
      | none => exact ⟨List.Pairwise.nil, trivial⟩
      | some v => exact Json.CanonicalEntries.lookup hp.2 hfound
    | arr items =>
      rcases h with ⟨-, hempty⟩ | hitems
      · show Json.Canonical (.obj s.data)
        rw [hempty]
        exact ⟨List.Pairwise.nil, trivial⟩
      · subst hitems
        exact hp.2.1
    | _ => cases h
  | notify message => exact trivial
  | dashboardRefresh d => exact trivial
  | chartExport c => exact trivial

theorem canonical_of_ofMessage? {m : Json} (hm : m.Canonical) {e : Envelope}
    (h : ofMessage? m = some e) : e.Canonical := by
  obtain ⟨-, p, hp, hcarries⟩ := (ofMessage?_eq_some_iff hm).mp h
  have hcanonical : p.Canonical := by
    cases m with
    | obj entries => exact Json.CanonicalEntries.lookup hm.2 hp
    | _ => cases hp
  exact canonical_of_carries hcanonical hcarries

/-! ## What is written -/

theorem get?_type_encode (e : Envelope) : e.encode.kept.get? "type" = some (.str e.type.name) := by
  show lookup "type" (Json.keptEntries [] [("type", .str e.variant.tag), _]) = _
  rw [lookup_held (by simp), tag_variant]
  rfl

theorem get?_payload_encode (e : Envelope) :
    e.encode.kept.get? "payload" = some e.encodePayload.kept := by
  show lookup "payload" (Json.keptEntries [] [("type", .str e.variant.tag), _]) = _
  rw [lookup_held (by simp)]
  rfl

theorem lookup_single (key s : String) :
    lookup key (Json.keptEntries [] [(key, .str s)]) = some (.str s) := by
  rw [lookup_held (by simp), Json.lookup_cons_self]
  rfl

theorem carries_encodePayload {e : Envelope} (he : e.Canonical) :
    Carries e.encodePayload.kept e := by
  -- the envelope's own values are canonical, so holding them changes nothing
  cases e with
  | tool r =>
    have hnodup : (([("toolName", .str r.tool), ("params", r.parameters)] :
        List (String × Json)).map Prod.fst).Nodup := by simp
    have hparameters : r.parameters.kept = r.parameters := Json.kept_eq_self he
    refine ⟨?_, ?_⟩
    · rw [lookup_held hnodup]
      rfl
    · rw [lookup_held hnodup]
      exact hparameters
  | notify message => exact lookup_single "message" message
  | formSubmit s =>
    have hnodup : (([("formId", .str s.form), ("data", .obj s.data)] :
        List (String × Json)).map Prod.fst).Nodup := by simp
    have hdata : Json.kept (.obj s.data) = .obj s.data := Json.kept_eq_self he
    refine ⟨?_, ?_⟩
    · rw [lookup_held hnodup]
      rfl
    · rw [lookup_held hnodup]
      exact hdata
  | dashboardRefresh d => exact lookup_single "dashboardId" d
  | chartExport c => exact lookup_single "chartId" c

/-- **Reading back.** What is written for an envelope is accepted as that envelope. -/
theorem ofMessage?_encode {e : Envelope} (he : e.Canonical) :
    ofMessage? e.encode.kept = some e := by
  rw [ofMessage?_eq_some_iff (Json.canonical_kept _)]
  exact ⟨get?_type_encode e, e.encodePayload.kept, get?_payload_encode e, carries_encodePayload he⟩

/-! ## The normal form -/

/-- What is written for the envelope that a message is accepted as. -/
def normal? (m : Json) : Option Json := (ofMessage? m).map fun e => e.encode.kept

theorem normal?_eq_some_iff {m m' : Json} (hm : m.Canonical) (hm' : m'.Canonical) {n : Json}
    (hn : normal? m = some n) : normal? m' = some n ↔ ofMessage? m' = ofMessage? m := by
  obtain ⟨e, he, rfl⟩ := Option.map_eq_some_iff.mp hn
  rw [he]
  constructor
  · intro h
    obtain ⟨e', he', hsame⟩ := Option.map_eq_some_iff.mp h
    -- the same text is read as the same envelope
    have hback := ofMessage?_encode (canonical_of_ofMessage? hm' he')
    rw [hsame, ofMessage?_encode (canonical_of_ofMessage? hm he)] at hback
    rw [he', hback]
  · intro h
    rw [normal?, h]
    rfl

/-- **Both ways agree.** What is written for an envelope names its type and is accepted as the
envelope; a message that is accepted names the type of its envelope, and what is written for that is
its normal form: accepted as the same envelope, its own normal form, and shared by exactly the
messages that are accepted as this envelope. -/
theorem codec_agreement :
    (∀ e : Envelope, e.Canonical →
      e.encode.kept.get? "type" = some (.str e.type.name) ∧ ofMessage? e.encode.kept = some e) ∧
    (∀ (m : Json) (e : Envelope), m.Canonical → ofMessage? m = some e →
      m.get? "type" = some (.str e.type.name) ∧ ofMessage? e.encode.kept = some e) ∧
    (∀ m n : Json, m.Canonical → normal? m = some n →
      n.Canonical ∧ normal? n = some n ∧
        ∀ m' : Json, m'.Canonical → (normal? m' = some n ↔ ofMessage? m' = ofMessage? m)) := by
  refine ⟨fun e he => ⟨get?_type_encode e, ofMessage?_encode he⟩, ?_, ?_⟩
  · intro m e hm h
    obtain ⟨htype, -⟩ := (ofMessage?_eq_some_iff hm).mp h
    exact ⟨htype, ofMessage?_encode (canonical_of_ofMessage? hm h)⟩
  · intro m n hm hn
    refine ⟨?_, ?_, fun m' hm' => normal?_eq_some_iff hm hm' hn⟩
    · obtain ⟨e, -, rfl⟩ := Option.map_eq_some_iff.mp hn
      exact Json.canonical_kept _
    · obtain ⟨e, he, rfl⟩ := Option.map_eq_some_iff.mp hn
      rw [normal?, ofMessage?_encode (canonical_of_ofMessage? hm he)]
      rfl

/-- A form with one control, sent in. -/
def sentForm : Envelope := .formSubmit { form := "contact", data := [("name", .str "Ada")] }

/-- A notice as the host writes it. -/
def writtenNotice : Json :=
  .obj [("payload", .obj [("message", .str "hi")]), ("type", .str "notify")]

theorem canonical_sentForm : sentForm.Canonical :=
  ⟨List.pairwise_singleton _ _, trivial, trivial⟩

/-- A form comes back as it was sent, and a notice that listed its text gets the written form. -/
theorem codec_agreement_sentForm :
    sentForm.Canonical ∧ ofMessage? sentForm.encode.kept = some sentForm ∧
      listedNotice.Canonical ∧ listedNotice.get? "type" = some (.str "notify") ∧
      normal? listedNotice = some writtenNotice ∧ normal? writtenNotice = some writtenNotice := by
  obtain ⟨hwritten, hread, hnormal⟩ := codec_agreement
  have hnotice : ofMessage? listedNotice = some (.notify "hi") := rfl
  have hform : normal? listedNotice = some writtenNotice := rfl
  exact ⟨canonical_sentForm, (hwritten sentForm canonical_sentForm).2, canonical_listedNotice,
    (hread listedNotice _ canonical_listedNotice hnotice).1, hform,
    (hnormal listedNotice writtenNotice canonical_listedNotice hform).2.1⟩

end EmbedUI.Envelope
