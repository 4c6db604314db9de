import EmbedUI.Proofs.Generator.Run

/-!
# Users do not touch each other's components

Identities that were made since the epoch are equal as text only if kind, user and time are, even
though a user id may imitate the end of another identity; and equal addresses mean equal namespaces
as well, even though a namespace may contain slashes. So on a registry that several generators share
a record depends on the calls of its own user for its own kind and on no other call: it is the same
when all other calls are left out.

## The architecture

* **`text_eq_text_iff_of_nonneg`**, **`address_eq_address_iff`**: the text and the address of an
  identity decide it.
* **`get?_perform`**: what one call does to the record under a key.
* **`AgreeOn`**: two registries hold the same under a key. A call keeps it (`AgreeOn.perform`), and
  a call for another identity can be left out on one side (`get?_perform_of_ne`).
* **`agreeOn_performAll_filter`**: a run against the run without the calls of others.
-/

namespace EmbedUI

namespace ComponentId

/-! ## Identities since the epoch -/

theorem sign_of_nonneg {id : ComponentId} (h : 0 ≤ id.created) : id.sign = [] := by
  unfold sign
  rw [if_neg (by omega)]

/-- **The text tells kind, user and time.** -/
theorem text_eq_text_iff_of_nonneg {a b : ComponentId} (ha : 0 ≤ a.created) (hb : 0 ≤ b.created) :
    a.text = b.text ↔ a.kind = b.kind ∧ a.user = b.user ∧ a.created = b.created := by
  rw [text_eq_text_iff, sign_of_nonneg ha, sign_of_nonneg hb, List.append_nil, List.append_nil,
    String.toList_inj]
  constructor
  · rintro ⟨hkind, hcreated, huser⟩
    exact ⟨hkind, huser, by omega⟩
  · rintro ⟨hkind, huser, hcreated⟩
    exact ⟨hkind, by omega, huser⟩

/-- **The address tells everything.** Its last segment is the text of the identity, and with the
text gone the kind is gone too, so what is left is the namespace. -/
theorem address_eq_address_iff {a b : ComponentId} (ha : 0 ≤ a.created) (hb : 0 ≤ b.created)
    (hslashA : '/' ∉ a.user.toList) (hslashB : '/' ∉ b.user.toList) :
    a.address = b.address ↔ a = b := by
  constructor
  · intro haddress
    have htext : a.text = b.text := by
      rw [← lastSegment_address hslashA, haddress, lastSegment_address hslashB]
    obtain ⟨hkind, huser, hcreated⟩ := (text_eq_text_iff_of_nonneg ha hb).mp htext
    have hspace : a.space = b.space := by
      have hlist := congrArg String.toList haddress
      unfold address at hlist
      rw [htext, hkind] at hlist
      simpa [String.toList_inj] using hlist
    cases a
    cases b
    simp_all
  · intro h
    rw [h]

end ComponentId

namespace Generator

open Registry

/-! ## One call -/

/-- A call of the user for whom a component was made, for its kind. -/
def Call.MadeFor (a : ComponentId) (c : Call) : Prop := c.user = a.user ∧ c.request.kind = a.kind

instance (a : ComponentId) : DecidablePred (Call.MadeFor a) :=
  fun _ => inferInstanceAs (Decidable (_ ∧ _))

theorem Call.madeFor_of_text_eq {a : ComponentId} {c : Call} {spaces : Namespaces}
    (ha : 0 ≤ a.created) (hc : 0 ≤ c.stamp.millis) (htext : (c.id spaces).text = a.text) :
    c.MadeFor a := by
  obtain ⟨hkind, huser, -⟩ :=
    (ComponentId.text_eq_text_iff_of_nonneg (a := c.id spaces) hc ha).mp htext
  exact ⟨huser, hkind⟩

/-- **What a call does to the record under a key.** -/
theorem get?_perform (spaces : Namespaces) (c : Call) (m : Memory) (key : String) :
    (c.perform spaces m).2.components.get? key =
      if c.Acceptable ∧ (c.id spaces).text = key then some (c.record spaces)
      else m.components.get? key := by
  rcases perform_cases spaces c m with ⟨haccept, _, _, hperform⟩ | ⟨hrefuse, _, hperform, _⟩
  · rw [hperform]
    show (m.components.put _ _).get? key = _
    rw [Shelf.get?_put]
    by_cases hkey : key = (c.id spaces).text
    · rw [if_pos hkey, if_pos ⟨haccept, hkey.symm⟩]
    · rw [if_neg hkey, if_neg fun h => hkey h.2.symm]
  · rw [hperform, if_neg fun h => hrefuse h.1]

theorem get?_perform_of_ne {spaces : Namespaces} {c : Call} {key : String}
    (h : (c.id spaces).text ≠ key) (m : Memory) :
    (c.perform spaces m).2.components.get? key = m.components.get? key := by
  rw [get?_perform, if_neg fun hboth => h hboth.2]

/-- Two registries hold the same under a key. -/
def AgreeOn (key : String) (m m' : Memory) : Prop :=
  m.components.get? key = m'.components.get? key

theorem AgreeOn.perform {key : String} {m m' : Memory} (h : AgreeOn key m m')
    (spaces : Namespaces) (c : Call) :
    AgreeOn key (c.perform spaces m).2 (c.perform spaces m').2 := by
  unfold AgreeOn
  rw [get?_perform, get?_perform, h]

/-! ## Calls of several generators -/

/-- Calls one after the other on one registry, each with the namespaces of the generator that
answers it. -/
def performAll (calls : List (Namespaces × Call)) (m : Memory) : Memory :=
  calls.foldl (fun m x => (x.2.perform x.1 m).2) m

/-- **The calls of others can be left out.** -/
theorem agreeOn_performAll_filter {a : ComponentId} (ha : 0 ≤ a.created)
    (calls : List (Namespaces × Call)) (hcalls : ∀ x ∈ calls, 0 ≤ x.2.stamp.millis)
    {m m' : Memory} (h : AgreeOn a.text m m') :
    AgreeOn a.text (performAll calls m)
      (performAll (calls.filter fun x => x.2.MadeFor a) m') := by
  -- the two registries go different ways, and what they hold under the identity stays the same
  induction calls generalizing m m' with
  | nil => exact h
  | cons x rest ih =>
    obtain ⟨hstamp, hrest⟩ := List.forall_mem_cons.mp hcalls
    by_cases hown : x.2.MadeFor a
    · rw [List.filter_cons_of_pos (by simpa using hown)]
      exact ih hrest (h.perform x.1 x.2)
    · rw [List.filter_cons_of_neg (by simpa using hown)]
      have hother : (x.2.id x.1).text ≠ a.text :=
        fun htext => hown (Call.madeFor_of_text_eq ha hstamp htext)
      have hstep : AgreeOn a.text (x.2.perform x.1 m).2 m' := by
        unfold AgreeOn
        rw [get?_perform_of_ne hother]
        exact h
      exact ih hrest hstep

/-- **Identities do not collide across users.** Since the epoch two identities have one text only if
kind, user and time are the same, whatever the namespaces are. Without slashes in user ids two
addresses are equal only if the namespaces are equal too, and the last segment of an address is the
identity. On a registry that is shared by any generators, a record therefore stays as it is while
other users make components or its own user makes components of other kinds, and after any calls
it is what it would be had only its own user called for its kind. -/
theorem identities_apart :
    (∀ a b : ComponentId, 0 ≤ a.created → 0 ≤ b.created →
      (a.text = b.text ↔ a.kind = b.kind ∧ a.user = b.user ∧ a.created = b.created)) ∧
    (∀ a : ComponentId, '/' ∉ a.user.toList → ComponentId.lastSegment a.address = a.text) ∧
    (∀ a b : ComponentId, 0 ≤ a.created → 0 ≤ b.created →
      '/' ∉ a.user.toList → '/' ∉ b.user.toList → (a.address = b.address ↔ a = b)) ∧
    ∀ (a : ComponentId) (calls : List (Namespaces × Call)) (m : Memory), 0 ≤ a.created →
      (∀ x ∈ calls, 0 ≤ x.2.stamp.millis) →
      ((∀ x ∈ calls, x.2.user ≠ a.user ∨ x.2.request.kind ≠ a.kind) →
        (performAll calls m).components.get? a.text = m.components.get? a.text) ∧
      (performAll calls m).components.get? a.text =
        (performAll (calls.filter fun x => x.2.MadeFor a) m).components.get? a.text := by
  refine ⟨fun a b ha hb => ComponentId.text_eq_text_iff_of_nonneg ha hb,
    fun a hslash => ComponentId.lastSegment_address hslash,
    fun a b ha hb hslashA hslashB => ComponentId.address_eq_address_iff ha hb hslashA hslashB,
    fun a calls m ha hcalls => ?_⟩
  have hagree := agreeOn_performAll_filter ha calls hcalls (rfl : AgreeOn a.text m m)
  refine ⟨fun hothers => ?_, hagree⟩
  have hnone : (calls.filter fun x => x.2.MadeFor a) = [] := by
    rw [List.filter_eq_nil_iff]
    intro x hx
    rcases hothers x hx with huser | hkind
    · simp [Call.MadeFor, huser]
    · simp [Call.MadeFor, hkind]
  rw [hnone] at hagree
  exact hagree

/-- The user `ann-17` at 3 and the user `ann` at 173 differ in where a hyphen stands. -/
def hyphenatedId : ComponentId := ⟨"team/form", .form, "ann-17", 3⟩

def imitatedId : ComponentId := ⟨"team", .form, "ann", 173⟩

/-- The call that makes the first component. -/
def hyphenatedCall : Call := ⟨"ann-17", ⟨3, "12:00"⟩, .described "a form to sign up"⟩

/-- A call of the other user for a form, and one for a component of another kind. -/
def foreignCalls : List (Namespaces × Call) :=
  [(.standard, ⟨"ann", ⟨173, "12:01"⟩, .described "a form to sign up"⟩),
    (⟨"team", "team/form"⟩, ⟨"ann-17", ⟨3, "12:02"⟩, .custom ⟨none, "<p></p>"⟩⟩)]

theorem identities_apart_hyphenated :
    hyphenatedId.text ≠ imitatedId.text ∧ hyphenatedId.address ≠ imitatedId.address ∧
      ComponentId.lastSegment hyphenatedId.address = hyphenatedId.text ∧
      (let m := (hyphenatedCall.perform .standard .empty).2
       (performAll foreignCalls m).components.get? hyphenatedId.text =
          some (hyphenatedCall.record .standard) ∧
        (performAll foreignCalls m).componentCount = 3) := by
  obtain ⟨htext, hsegment, haddress, hcalls⟩ := identities_apart
  have hslashA : '/' ∉ hyphenatedId.user.toList := by decide
  have hslashB : '/' ∉ imitatedId.user.toList := by decide
  have hstamps : ∀ x ∈ foreignCalls, 0 ≤ x.2.stamp.millis := by decide
  have hforeign : ∀ x ∈ foreignCalls,
      x.2.user ≠ hyphenatedId.user ∨ x.2.request.kind ≠ hyphenatedId.kind := by decide +kernel
  obtain ⟨hkept, -⟩ := hcalls hyphenatedId foreignCalls
    (hyphenatedCall.perform .standard .empty).2 (by decide) hstamps
  refine ⟨?_, ?_, hsegment _ hslashA, ?_, ?_⟩
  · rw [Ne, htext _ _ (by decide) (by decide)]
    decide
  · rw [Ne, haddress _ _ (by decide) (by decide) hslashA hslashB]
    decide
  · rw [hkept hforeign, get?_perform, if_pos (by decide +kernel)]
  · decide +kernel

end Generator

end EmbedUI
