import EmbedUI.Proofs.Json.FiniteFloat
import EmbedUI.Proofs.Json.RecordReading

/-!
# What decoders guarantee

Some of what is true of a value is settled by the decoder that read it, whatever the document was
and whether it was a value or a text: a float that was read is finite. `Guarantees` says so of a
decoder and `Record.Guarantees` of a record, part by part: a record passes on what its fields
guarantee, read from an object or from an array.
-/

namespace EmbedUI.Json

variable {ε α β : Type}

theorem bind_eq_ok {ε : Type} {x : Except ε α} {f : α → Except ε β} {w : β} :
    x.bind f = .ok w ↔ ∃ v, x = .ok v ∧ f v = .ok w := by
  cases x with
  | error e => simp [Except.bind]
  | ok v => simp [Except.bind]

theorem mapError_eq_ok {ε ε' : Type} {x : Except ε α} {f : ε → ε'} {v : α} :
    x.mapError f = .ok v ↔ x = .ok v := by
  cases x with
  | error e => simp [Except.mapError]
  | ok v => simp [Except.mapError]

/-- Whatever is read has a property. -/
def Guarantees (decode : Decoder ε α) (P : α → Prop) : Prop := ∀ t v, decode t = .ok v → P v

theorem Guarantees.map {decode : Decoder ε α} {P : α → Prop} {Q : β → Prop} {f : α → β}
    (h : Guarantees decode P) (hf : ∀ v, P v → Q (f v)) :
    Guarantees (fun t => (decode t).map f) Q := by
  intro t w hw
  obtain ⟨v, hv, rfl⟩ := Record.map_eq_ok.mp hw
  exact hf v (h t v hv)

theorem Guarantees.optional {decode : Decoder ε α} {P : α → Prop} (h : Guarantees decode P) :
    Guarantees (optional decode) fun o => ∀ v, o = some v → P v := by
  have hsome : Guarantees (fun t => (decode t).map some) fun o => ∀ v, o = some v → P v :=
    h.map fun v hv w hw => Option.some.inj hw ▸ hv
  intro t o ho
  cases t with
  | null =>
    cases ho
    exact fun v hv => nomatch hv
  | _ => exact hsome _ o ho

section
variable [Source ε]

theorem guarantees_float : Guarantees (float (ε := ε)) fun v => v.isFinite = true := by
  intro t v h
  cases t with
  | num n =>
    cases h
    exact Number.isFinite_toFloat n
  | _ => cases h

theorem Guarantees.list {decode : Decoder ε α} {P : α → Prop} (h : Guarantees decode P) :
    Guarantees (list decode) fun vs => ∀ v ∈ vs, P v := by
  have hitems : ∀ items vs, listItems decode items = .ok vs → ∀ v ∈ vs, P v := by
    intro items
    induction items with
    | nil =>
      intro vs hvs
      cases hvs
      exact List.forall_mem_nil P
    | cons t rest ih =>
      intro vs hvs
      obtain ⟨v, hv, hvs⟩ := bind_eq_ok.mp hvs
      obtain ⟨others, hothers, hvs⟩ := bind_eq_ok.mp hvs
      cases hvs
      exact List.forall_mem_cons.mpr ⟨h t v hv, ih others hothers⟩
  intro t vs hvs
  cases t with
  | arr items => exact hitems items vs hvs
  | _ => cases hvs

end

namespace Record

/-- Whatever is read has a property: the slots keep another one until then, or the fields of an
array do. -/
def Guarantees (r : Record ε α) (P : α → Prop) : Prop :=
  ∃ Kept : r.Slots → Prop, Kept r.empty ∧
    (∀ slots key t slots', Kept slots → r.offer slots key t = some (.ok slots') → Kept slots') ∧
    (∀ slots v, Kept slots → r.finish slots = .ok v → P v) ∧
    ∀ items v rest, r.take items = .ok (v, rest) → P v

theorem guarantees_true (r : Record ε α) : r.Guarantees fun _ => True :=
  ⟨fun _ => True, trivial, fun _ _ _ _ _ _ => trivial, fun _ _ _ _ => trivial,
    fun _ _ _ _ => trivial⟩

theorem guarantees_field (name : String) (aliases : List String) (absent : Option α)
    {decode : Decoder ε α} {P : α → Prop} (h : Json.Guarantees decode P)
    (habsent : ∀ v, absent = some v → P v) :
    (field name aliases absent decode).Guarantees P := by
  refine ⟨fun slot => ∀ v, slot = some v → P v, (fun v hv => nomatch hv), ?_, ?_, ?_⟩
  · intro slot key t slot' hslot hoffer
    dsimp only [field] at hoffer
    split at hoffer
    · cases slot with
      | some v => cases hoffer
      | none =>
        obtain ⟨v, hv, rfl⟩ := map_eq_ok.mp (Option.some.inj hoffer)
        exact fun w hw => Option.some.inj hw ▸ h t v hv
    · cases hoffer
  · intro slot v hslot hfinish
    cases slot with
    | some w =>
      cases hfinish
      exact hslot v rfl
    | none =>
      cases absent with
      | none => cases hfinish
      | some w =>
        cases hfinish
        exact habsent v rfl
  · intro items v rest htake
    cases items with
    | nil =>
      cases absent with
      | none => cases htake
      | some w =>
        cases htake
        exact habsent v rfl
    | cons t others =>
      dsimp only [field] at htake
      cases hdecode : decode t with
      | error e =>
        rw [hdecode] at htake
        cases htake
      | ok w =>
        rw [hdecode] at htake
        cases htake
        exact h t v hdecode

theorem Guarantees.map {r : Record ε α} {P : α → Prop} {Q : β → Prop} {f : α → β}
    (h : r.Guarantees P) (hf : ∀ v, P v → Q (f v)) : (f <$> r).Guarantees Q := by
  obtain ⟨Kept, hempty, hoffer, hfinish, htake⟩ := h
  refine ⟨Kept, hempty, hoffer, ?_, ?_⟩
  · intro slots w hslots hw
    obtain ⟨v, hv, rfl⟩ := map_eq_ok.mp hw
    exact hf v (hfinish slots v hslots hv)
  · intro items w rest hw
    obtain ⟨⟨v, rest'⟩, hv, heq⟩ := map_eq_ok.mp hw
    cases heq
    exact hf v (htake items v rest hv)

theorem Guarantees.both {r : Record ε α} {s : Record ε β} {P : α → Prop} {Q : β → Prop}
    (hr : r.Guarantees P) (hs : s.Guarantees Q) :
    (r.both s).Guarantees fun pair => P pair.1 ∧ Q pair.2 := by
  obtain ⟨Kept, hempty, hoffer, hfinish, htake⟩ := hr
  obtain ⟨Kept', hempty', hoffer', hfinish', htake'⟩ := hs
  refine ⟨fun slots => Kept slots.1 ∧ Kept' slots.2, ⟨hempty, hempty'⟩, ?_, ?_, ?_⟩
  · rintro ⟨a, b⟩ key t slots' ⟨ha, hb⟩ htaken
    dsimp only [Record.both] at htaken
    cases hleft : r.offer a key t with
    | some taken =>
      -- the first group takes the entry and the second one stays as it was
      rw [hleft] at htaken
      obtain ⟨a', rfl, rfl⟩ := map_eq_ok.mp (Option.some.inj htaken)
      exact ⟨hoffer a key t a' ha hleft, hb⟩
    | none =>
      rw [hleft] at htaken
      obtain ⟨taken, hright, htaken⟩ := Option.map_eq_some_iff.mp htaken
      obtain ⟨b', rfl, rfl⟩ := map_eq_ok.mp htaken
      exact ⟨ha, hoffer' b key t b' hb hright⟩
  · rintro ⟨a, b⟩ pair ⟨ha, hb⟩ hpair
    obtain ⟨v, hv, hpair⟩ := bind_eq_ok.mp hpair
    obtain ⟨w, hw, hpair⟩ := bind_eq_ok.mp hpair
    cases hpair
    exact ⟨hfinish a v ha hv, hfinish' b w hb hw⟩
  · intro items pair rest hpair
    obtain ⟨⟨v, mid⟩, hv, hpair⟩ := bind_eq_ok.mp hpair
    obtain ⟨⟨w, rest'⟩, hw, hpair⟩ := bind_eq_ok.mp hpair
    cases hpair
    exact ⟨htake items v mid hv, htake' mid w rest hw⟩

theorem Guarantees.decode [Source ε] {r : Record ε α} {P : α → Prop} (h : r.Guarantees P)
    (name : String) : Json.Guarantees (r.decode name) P := by
  obtain ⟨Kept, hempty, hoffer, hfinish, htake⟩ := h
  have hfill : ∀ entries slots slots', Kept slots → r.fill slots entries = .ok slots' →
      Kept slots' := by
    intro entries
    induction entries with
    | nil =>
      intro slots slots' hslots hfill
      cases hfill
      exact hslots
    | cons entry rest ih =>
      obtain ⟨key, t⟩ := entry
      intro slots slots' hslots hfill
      rw [fill] at hfill
      cases hkey : keyFault? t with
      | some fault =>
        rw [hkey] at hfill
        cases hfill
      | none =>
        rw [hkey] at hfill
        cases hoffered : r.offer slots key t with
        | some taken =>
          rw [hoffered] at hfill
          obtain ⟨slots₁, rfl, hrest⟩ := bind_eq_ok.mp hfill
          exact ih slots₁ slots' (hoffer slots key t slots₁ hslots hoffered) hrest
        | none =>
          rw [hoffered] at hfill
          obtain ⟨-, -, hrest⟩ := bind_eq_ok.mp hfill
          exact ih slots slots' hslots hrest
  intro t v hv
  cases t with
  | obj entries =>
    obtain ⟨slots, hslots, hv⟩ := bind_eq_ok.mp hv
    exact hfinish slots v (hfill entries r.empty slots hempty hslots) hv
  | arr items =>
    change r.ofItems _ items = _ at hv
    unfold ofItems at hv
    split at hv
    · cases hv
    · cases hv
    · next htaken =>
      cases hv
      exact htake items _ [] htaken
    · cases hv
  | _ => cases hv

theorem Guarantees.seq {f : Record ε (α → β)} {r : Record ε α} {P : α → Prop} {Q : β → Prop}
    (hf : f.Guarantees fun g => ∀ v, P v → Q (g v)) (hr : r.Guarantees P) :
    (f <*> r).Guarantees Q :=
  (hf.both hr).map fun pair hpair => hpair.1 pair.2 hpair.2

end Record

end EmbedUI.Json
