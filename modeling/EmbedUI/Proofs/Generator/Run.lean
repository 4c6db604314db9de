import EmbedUI.Generator
import EmbedUI.Proofs.Component.Identity
import EmbedUI.Proofs.Description.Fitting
import EmbedUI.Proofs.Registry.Shelf
import Mathlib.Data.List.Dedup

/-!
# What a run of a generator remembers

A generator with a registry in memory answers calls one after the other. A call is checked and
compiled before anything is recorded, and what is recorded is never refused, so a call either fails
and changes nothing or hands out a resource and leaves its record under the identity of the
component. At the end of a run the registry is a table of the last success for each identity.

## The architecture

* **`Call.Acceptable`**: what a call has to be like, in terms of what it carries.
* **`prepare_cases`**, **`perform_cases`**: the two ways in which a call can go.
* **`Log`**: a registry in use, and all calls with their answers; **`Log.step`**, **`run`**.
* **`Recorded`**: what the registry holds in terms of the answers. `Recorded.step` keeps it over one
  call, `recorded_run` over all of them.
* **`Recorded.componentCount_eq_made_iff`**: when no two successes share an identity.
* **`Recorded.last`**: what is remembered of the last success under an identity.
-/

namespace EmbedUI.Generator

open Registry

/-! ## Calls -/

/-- A request of a user, and when it is carried out. -/
structure Call where
  user : String
  stamp : Stamp
  request : Request

/-- Something is described, or the configuration has no problem. -/
def Request.Acceptable : Request → Prop
  | .described d => Text.allBlank d = false
  | .form f => f.problem? = none
  | .dashboard d => d.problem? = none
  | .chart c => c.problem? = none
  | .custom c => c.problem? = none

instance : DecidablePred Request.Acceptable
  | .described d => inferInstanceAs (Decidable (Text.allBlank d = false))
  | .form f => inferInstanceAs (Decidable (f.problem? = none))
  | .dashboard d => inferInstanceAs (Decidable (d.problem? = none))
  | .chart c => inferInstanceAs (Decidable (c.problem? = none))
  | .custom c => inferInstanceAs (Decidable (c.problem? = none))

namespace Call

def Acceptable (c : Call) : Prop :=
  Text.allBlank c.user = false ∧ '/' ∉ c.user.toList ∧ c.request.Acceptable

instance : DecidablePred Acceptable := fun _ => inferInstanceAs (Decidable (_ ∧ _ ∧ _))

def id (spaces : Namespaces) (c : Call) : ComponentId := c.request.id spaces c.user c.stamp

def record (spaces : Namespaces) (c : Call) : ComponentRecord :=
  { id := (c.id spaces).text, kind := c.request.kind.name, config := c.request.config,
    createdAt := c.stamp.shown }

/-- Carries out a call on a registry in memory. -/
def perform (spaces : Namespaces) (c : Call) (m : Memory) :
    Except GenerationError Resource × Memory :=
  Id.run ((generate Memory.backend spaces c.user c.stamp c.request).run m)

end Call

theorem checkUser_eq_ok_iff {user : String} :
    checkUser user = .ok () ↔ Text.allBlank user = false ∧ '/' ∉ user.toList := by
  unfold checkUser
  by_cases hblank : Text.allBlank user = true
  · simp [hblank]
  · by_cases hslash : '/' ∈ user.toList
    · simp [hblank, hslash]
    · simp [hblank, hslash]

/-- A request goes through the checks and its compiler exactly when it is acceptable. -/
theorem Request.acceptable_iff {r : Request} (id : ComponentId) :
    r.Acceptable ↔ r.check = .ok () ∧ ∃ resource, r.compile id = .ok resource := by
  cases r with
  | described d =>
    show Text.allBlank d = false ↔ (if Text.allBlank d then _ else _) = _ ∧ _
    constructor
    · intro h
      rw [if_neg (by simp [h])]
      exact ⟨rfl, Description.compile_requirements d id⟩
    · rintro ⟨h, -⟩
      by_contra hblank
      rw [Bool.not_eq_false] at hblank
      rw [if_pos hblank] at h
      cases h
  | form f => simp [Acceptable, check, compile, Form.compile_ok_iff]
  | dashboard d => simp [Acceptable, check, compile, Dashboard.compile_ok_iff]
  | chart c => simp [Acceptable, check, compile, Chart.compile_ok_iff]
  | custom c => simp [Acceptable, check, compile, Custom.compile_ok_iff]

/-- **The two ways of a call before anything is recorded.** -/
theorem prepare_cases (spaces : Namespaces) (c : Call) :
    (c.Acceptable ∧ ∃ resource, c.request.compile (c.id spaces) = .ok resource ∧
      prepare spaces c.user c.stamp c.request = .ok (resource, c.record spaces)) ∨
    (¬c.Acceptable ∧ ∃ e, prepare spaces c.user c.stamp c.request = .error e ∧
      ∀ fault, e ≠ .storage fault) := by
  unfold Call.Acceptable
  rw [← and_assoc, ← checkUser_eq_ok_iff, Request.acceptable_iff (c.id spaces)]
  unfold prepare
  -- the user is looked at first, then the request, and the compiler has the last word
  cases huser : checkUser c.user with
  | error fault => exact Or.inr ⟨by simp, _, rfl, by simp⟩
  | ok _ =>
    cases hcheck : c.request.check with
    | error fault => exact Or.inr ⟨by simp, _, rfl, by simp⟩
    | ok _ =>
      cases hcompile : c.request.compile (c.id spaces) with
      | error rejection =>
        refine Or.inr ⟨by simp, .rejected rejection, ?_, by simp⟩
        show ((c.request.compile (c.id spaces)).mapError _).bind _ = _
        rw [hcompile]
        rfl
      | ok resource =>
        refine Or.inl ⟨⟨rfl, rfl, resource, rfl⟩, resource, rfl, ?_⟩
        show ((c.request.compile (c.id spaces)).mapError _).bind _ = _
        rw [hcompile]
        rfl

/-- **The two ways of a call.** -/
theorem perform_cases (spaces : Namespaces) (c : Call) (m : Memory) :
    (c.Acceptable ∧ ∃ resource, c.request.compile (c.id spaces) = .ok resource ∧
      c.perform spaces m = (.ok resource,
        { m with components := m.components.put (c.id spaces).text (c.record spaces) })) ∨
    (¬c.Acceptable ∧ ∃ e, c.perform spaces m = (.error e, m) ∧ ∀ fault, e ≠ .storage fault) := by
  unfold Call.perform generate
  rcases prepare_cases spaces c with
    ⟨haccept, resource, hcompile, hprepare⟩ | ⟨hrefuse, e, he, hfault⟩
  · refine Or.inl ⟨haccept, resource, hcompile, ?_⟩
    have hput := Memory.putComponent_of_not_blank (r := c.record spaces)
      (ComponentId.allBlank_text (c.id spaces)) m
    rw [hprepare]
    dsimp only [Memory.backend, StateT.run, bind, StateT.bind, Id.run]
    rw [hput]
    rfl
  · refine Or.inr ⟨hrefuse, e, ?_, hfault⟩
    rw [he]
    rfl

theorem Call.Acceptable.succeeds {c : Call} (h : c.Acceptable) (spaces : Namespaces) (m : Memory) :
    ∃ resource, (c.perform spaces m).1 = .ok resource := by
  rcases perform_cases spaces c m with ⟨-, resource, -, hperform⟩ | ⟨hrefuse, -, -, -⟩
  · exact ⟨resource, by rw [hperform]⟩
  · exact absurd h hrefuse

theorem Request.address_of_compile {r : Request} {id : ComponentId} {resource : Resource}
    (h : r.compile id = .ok resource) : resource.address = id.address := by
  cases r with
  | described d => exact Requirements.address_of_compile h
  | form f => rw [(Form.compile_ok_iff.mp h).2, Resource.ofMarkup]
  | dashboard d => rw [(Dashboard.compile_ok_iff.mp h).2, Resource.ofMarkup]
  | chart c => rw [(Chart.compile_ok_iff.mp h).2, Resource.ofMarkup]
  | custom c => rw [(Custom.compile_ok_iff.mp h).2, Resource.ofMarkup]

/-! ## Runs -/

/-- A registry in use, and every call so far with its answer. -/
structure Log where
  memory : Memory
  answers : List (Call × Except GenerationError Resource)

namespace Log

def step (spaces : Namespaces) (l : Log) (c : Call) : Log :=
  { memory := (c.perform spaces l.memory).2
    answers := l.answers ++ [(c, (c.perform spaces l.memory).1)] }

/-- The calls that succeeded, each with its resource. -/
def made (l : Log) : List (Call × Resource) :=
  l.answers.filterMap fun (c, answer) => answer.toOption.map (c, ·)

/-- The last success under an identity. -/
def lastMade? (spaces : Namespaces) (l : Log) (key : String) : Option (Call × Resource) :=
  (l.made.filter fun (c, _) => (c.id spaces).text = key).getLast?

end Log

/-- Calls one after the other, on a registry that is empty at first. -/
def run (spaces : Namespaces) (calls : List Call) : Log :=
  calls.foldl (Log.step spaces) ⟨.empty, []⟩

theorem run_append (spaces : Namespaces) (calls : List Call) (c : Call) :
    run spaces (calls ++ [c]) = (run spaces calls).step spaces c := by
  rw [run, List.foldl_append]
  rfl

theorem lastMade?_isSome {spaces : Namespaces} {l : Log} {key : String} :
    (l.lastMade? spaces key).isSome ↔ key ∈ l.made.map fun (c, _) => (c.id spaces).text := by
  rw [Log.lastMade?, List.getLast?_isSome, Ne, List.filter_eq_nil_iff]
  simp

/-- What the registry holds, in terms of the calls that succeeded. -/
structure Recorded (spaces : Namespaces) (l : Log) : Prop where
  held : ∀ key, l.memory.components.get? key =
    (l.lastMade? spaces key).map fun (c, _) => c.record spaces
  distinct : l.memory.components.keys.Nodup
  users : l.memory.users = []
  compiled : ∀ x ∈ l.made, x.1.Acceptable ∧ x.1.request.compile (x.1.id spaces) = .ok x.2

theorem Recorded.step {spaces : Namespaces} {l : Log} (h : Recorded spaces l) (c : Call) :
    Recorded spaces (l.step spaces c) := by
  rcases perform_cases spaces c l.memory with
    ⟨haccept, resource, hcompile, hperform⟩ | ⟨-, e, hperform, -⟩
  · have hmade : (l.step spaces c).made = l.made ++ [(c, resource)] := by
      simp [Log.made, Log.step, hperform, Except.toOption]
    have hmemory : (l.step spaces c).memory =
        { l.memory with
          components := l.memory.components.put (c.id spaces).text (c.record spaces) } := by
      rw [Log.step, hperform]
    refine ⟨fun key => ?_, ?_, ?_, ?_⟩
    · -- the new record is the last one under its identity and touches no other
      rw [hmemory, Log.lastMade?, hmade, Shelf.get?_put, List.filter_append]
      by_cases hkey : key = (c.id spaces).text
      · simp [hkey]
      · have hother : ¬(c.id spaces).text = key := Ne.symm hkey
        simp [hkey, hother, h.held, Log.lastMade?]
    · rw [hmemory]
      exact Shelf.nodup_keys_put h.distinct
    · rw [hmemory]
      exact h.users
    · rw [hmade]
      intro x hx
      rcases List.mem_append.mp hx with hx | hx
      · exact h.compiled x hx
      · rw [List.mem_singleton.mp hx]
        exact ⟨haccept, hcompile⟩
  · have hmade : (l.step spaces c).made = l.made := by
      simp [Log.made, Log.step, hperform, Except.toOption]
    have hmemory : (l.step spaces c).memory = l.memory := by
      rw [Log.step, hperform]
    refine ⟨fun key => ?_, ?_, ?_, ?_⟩
    · rw [hmemory, Log.lastMade?, hmade]
      exact h.held key
    · rw [hmemory]
      exact h.distinct
    · rw [hmemory]
      exact h.users
    · rw [hmade]
      exact h.compiled

theorem recorded_run (spaces : Namespaces) (calls : List Call) :
    Recorded spaces (run spaces calls) := by
  induction calls using List.reverseRecOn with
  | nil => exact ⟨fun _ => rfl, List.nodup_nil, rfl, by simp [run, Log.made]⟩
  | append_singleton calls c ih =>
    rw [run_append]
    exact ih.step c

theorem map_answers_run (spaces : Namespaces) (calls : List Call) :
    (run spaces calls).answers.map Prod.fst = calls := by
  induction calls using List.reverseRecOn with
  | nil => rfl
  | append_singleton calls c ih =>
    rw [run_append, Log.step, List.map_append, ih]
    rfl

theorem made_sublist (l : Log) : (l.made.map Prod.fst).Sublist (l.answers.map Prod.fst) := by
  unfold Log.made
  induction l.answers with
  | nil => exact .slnil
  | cons entry rest ih =>
    obtain ⟨c, answer⟩ := entry
    cases answer with
    | error e => exact ih.cons c
    | ok resource => exact ih.cons_cons c

/-! ## How many components are remembered -/

theorem Recorded.componentCount_eq {spaces : Namespaces} {l : Log} (h : Recorded spaces l) :
    l.memory.componentCount = (l.made.map fun (c, _) => (c.id spaces).text).dedup.length := by
  refine Shelf.length_eq_of_keys h.distinct fun key => ?_
  rw [h.held, Option.isSome_map, lastMade?_isSome]

/-- **Which successes are counted once.** When no two calls are made at one time, nothing but a pair
across the epoch makes the components fewer than the successes. -/
theorem Recorded.componentCount_eq_made_iff {spaces : Namespaces} {l : Log}
    (h : Recorded spaces l) (htimes : (l.made.map fun (c, _) => c.stamp.millis).Nodup) :
    l.memory.componentCount = l.made.length ↔
      ∀ x ∈ l.made, ∀ y ∈ l.made, ¬(x.1.id spaces).Mirrors (y.1.id spaces) := by
  have hdedup : l.memory.componentCount = l.made.length ↔
      (l.made.map fun (c, _) => (c.id spaces).text).Nodup := by
    have hsublist := List.dedup_sublist (l.made.map fun (c, _) => (c.id spaces).text)
    rw [h.componentCount_eq, ← List.dedup_eq_self, ← hsublist.length_eq, List.length_map]
  rw [hdedup]
  constructor
  · intro hnodup x hx y hy hmirrors
    have hcreated : (x.1.id spaces).created ≠ (y.1.id spaces).created := by
      obtain ⟨-, hneg, hopposite, -⟩ := hmirrors
      omega
    have htext := (ComponentId.text_eq_text_iff_mirrors hcreated).mpr (Or.inl hmirrors)
    have hxy : x = y := List.inj_on_of_nodup_map hnodup hx hy htext
    exact hcreated (by rw [hxy])
  · intro hnone
    refine List.Nodup.map_on (fun x hx y hy htext => ?_) (List.Nodup.of_map _ htimes)
    by_contra hxy
    have hcreated : (x.1.id spaces).created ≠ (y.1.id spaces).created := fun heq =>
      hxy (List.inj_on_of_nodup_map htimes hx hy heq)
    rcases (ComponentId.text_eq_text_iff_mirrors hcreated).mp htext with hmirrors | hmirrors
    · exact hnone x hx y hy hmirrors
    · exact hnone y hy x hx hmirrors

/-! ## The last success under an identity -/

/-- What is remembered about a component, asked of a registry in memory. -/
def remembered (key : String) (m : Memory) : Except GenerationError ComponentRecord × Memory :=
  Id.run ((info Memory.backend key).run m)

theorem remembered_of_get? {key : String} {m : Memory} {r : ComponentRecord}
    (h : m.components.get? key = some r) : remembered key m = (.ok r, m) := by
  show ((Memory.getComponent key m).mapError GenerationError.storage, m) = _
  rw [Memory.getComponent, h]
  rfl

theorem Recorded.last {spaces : Namespaces} {l : Log} (h : Recorded spaces l) {key : String}
    {c : Call} {resource : Resource} (hlast : l.lastMade? spaces key = some (c, resource)) :
    (c.id spaces).text = key ∧ ComponentId.lastSegment resource.address = key ∧
      remembered key l.memory = (.ok (c.record spaces), l.memory) := by
  have hmem := List.mem_of_getLast? hlast
  obtain ⟨hmade, htext⟩ := List.mem_filter.mp hmem
  have htext : (c.id spaces).text = key := of_decide_eq_true htext
  obtain ⟨⟨-, hslash, -⟩, hcompile⟩ := h.compiled _ hmade
  refine ⟨htext, ?_, ?_⟩
  · rw [Request.address_of_compile hcompile, ← htext]
    exact ComponentId.lastSegment_address hslash
  · refine remembered_of_get? ?_
    rw [h.held, hlast]
    rfl

/-- **Runs record exactly the successes.** Whatever the registry holds, a call succeeds exactly when
it is acceptable, never fails in the registry, and changes nothing when it fails. After a run from
an empty registry there stands, under each identity, the record of the last success with this
identity, and nothing else; the identity is the last segment of the address that was handed out, and
the record tells the kind and what the component was made from. The components are as many as the
identities. They are as many as the successes when no two calls were made at one time, unless one
call mirrors another across the epoch, which does not happen on clocks that start there. -/
theorem run_records_successes (spaces : Namespaces) :
    (∀ (c : Call) (m : Memory),
      ((∃ resource, (c.perform spaces m).1 = .ok resource) ↔ c.Acceptable) ∧
      (∀ fault, (c.perform spaces m).1 ≠ .error (.storage fault)) ∧
      (∀ e, (c.perform spaces m).1 = .error e → (c.perform spaces m).2 = m)) ∧
    ∀ calls : List Call,
      let l := run spaces calls
      (∀ key, l.memory.components.get? key =
        (l.lastMade? spaces key).map fun (c, _) => c.record spaces) ∧
      l.memory.components.keys.Nodup ∧ l.memory.users = [] ∧
      (∀ key c resource, l.lastMade? spaces key = some (c, resource) →
        (c.id spaces).text = key ∧ ComponentId.lastSegment resource.address = key ∧
        remembered key l.memory =
          (.ok { id := key, kind := c.request.kind.name, config := c.request.encode.kept,
                 createdAt := c.stamp.shown }, l.memory)) ∧
      l.memory.componentCount = (l.made.map fun (c, _) => (c.id spaces).text).dedup.length ∧
      ((calls.map fun c => c.stamp.millis).Nodup →
        (l.memory.componentCount = l.made.length ↔
          ∀ x ∈ l.made, ∀ y ∈ l.made, ¬(x.1.id spaces).Mirrors (y.1.id spaces)) ∧
        ((∀ c ∈ calls, 0 ≤ c.stamp.millis) → l.memory.componentCount = l.made.length)) := by
  refine ⟨fun c m => ?_, fun calls => ?_⟩
  · rcases perform_cases spaces c m with
      ⟨haccept, resource, -, hperform⟩ | ⟨hrefuse, e, hperform, hfault⟩
    · simp [hperform, haccept]
    · simp [hperform, hrefuse, hfault]
  · have hrecorded := recorded_run spaces calls
    have hsublist : ((run spaces calls).made.map Prod.fst).Sublist calls := by
      have hmade := made_sublist (run spaces calls)
      rwa [map_answers_run] at hmade
    refine ⟨hrecorded.held, hrecorded.distinct, hrecorded.users, ?_, hrecorded.componentCount_eq,
      fun htimes => ?_⟩
    · intro key c resource hlast
      obtain ⟨htext, hsegment, hremembered⟩ := hrecorded.last hlast
      rw [Call.record, htext] at hremembered
      exact ⟨htext, hsegment, hremembered⟩
    · have hmade : ((run spaces calls).made.map fun (c, _) => c.stamp.millis).Nodup := by
        have hnodup := (hsublist.map fun c => c.stamp.millis).nodup htimes
        rwa [List.map_map] at hnodup
      have hiff := hrecorded.componentCount_eq_made_iff hmade
      refine ⟨hiff, fun hepoch => hiff.mpr fun x hx y hy hmirrors => ?_⟩
      obtain ⟨-, hneg, -, -⟩ := hmirrors
      have hnonneg := hepoch x.1 (hsublist.subset (List.mem_map_of_mem hx))
      exact absurd hneg (Int.not_lt.mpr hnonneg)

/-- A call that is refused, for the slash. -/
def slashedCall : Call := ⟨"u/2", ⟨6, "12:01"⟩, .custom ⟨none, "<p></p>"⟩⟩

/-- The refused call between two that succeed. -/
def mixedCalls : List Call :=
  [⟨"u-1", ⟨5, "12:00"⟩, .described "a chart of sales"⟩, slashedCall,
    ⟨"u-1", ⟨7, "12:02"⟩, .dashboard ⟨"Overview", []⟩⟩]

theorem run_records_successes_mixedCalls :
    let l := run .standard mixedCalls
    (∃ e, (slashedCall.perform .standard .empty).1 = .error e ∧
      (slashedCall.perform .standard .empty).2 = .empty) ∧
    (∃ c resource, l.lastMade? .standard "dashboard-u-1-7" = some (c, resource) ∧
      ComponentId.lastSegment resource.address = "dashboard-u-1-7" ∧
      remembered "dashboard-u-1-7" l.memory =
        (.ok { id := "dashboard-u-1-7", kind := c.request.kind.name,
               config := c.request.encode.kept, createdAt := c.stamp.shown }, l.memory)) ∧
    (mixedCalls.map fun c => c.stamp.millis).Nodup ∧ (∀ c ∈ mixedCalls, 0 ≤ c.stamp.millis) ∧
    l.memory.componentCount = l.made.length ∧ l.made.length = 2 := by
  obtain ⟨hcall, hrun⟩ := run_records_successes .standard
  obtain ⟨-, -, -, hlast, -, hcount⟩ := hrun mixedCalls
  have hrefused : (slashedCall.perform .standard .empty).1 =
      .error (.request (.slashInUser "u/2")) := by decide +kernel
  have hsome : ((run .standard mixedCalls).lastMade? .standard "dashboard-u-1-7").isSome := by
    decide +kernel
  obtain ⟨⟨c, resource⟩, hmade⟩ := Option.isSome_iff_exists.mp hsome
  have htimes : (mixedCalls.map fun c => c.stamp.millis).Nodup := by decide
  have hepoch : ∀ c ∈ mixedCalls, 0 ≤ c.stamp.millis := by simp [mixedCalls, slashedCall]
  refine ⟨⟨_, hrefused, (hcall slashedCall .empty).2.2 _ hrefused⟩,
    ⟨c, resource, hmade, (hlast _ c resource hmade).2⟩, htimes, hepoch,
    (hcount htimes).2 hepoch, ?_⟩
  decide +kernel

/-- Five milliseconds before the epoch and five after it, for `u` and for `u-`. -/
def mirroredCalls : List Call :=
  [⟨"u", ⟨-5, "1969-12-31T23:59:59.995Z"⟩, .custom ⟨none, "<p></p>"⟩⟩,
    ⟨"u-", ⟨5, "1970-01-01T00:00:00.005Z"⟩, .custom ⟨none, "<p></p>"⟩⟩]

/-- The sign of the one time is the last hyphen of the other user, so the second success takes the
place of the first. -/
theorem mirrored_calls_counted_once :
    (mirroredCalls.map fun c => c.stamp.millis).Nodup ∧
      (run .standard mirroredCalls).made.length = 2 ∧
      (run .standard mirroredCalls).memory.componentCount = 1 := by
  refine ⟨by decide, ?_, ?_⟩
  · decide +kernel
  · decide +kernel

end EmbedUI.Generator
