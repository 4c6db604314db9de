import EmbedUI.Proofs.Host.RouterRun
import EmbedUI.Proofs.Host.WireFormat
import EmbedUI.Proofs.Json.Guarantee
import EmbedUI.Proofs.Message.Codec

/-!
# Settings stay valid

Embedded content may ask for any tool with any parameters. What it asks for is found in the
parameters as a whole before anything changes: a request sets all that it asks for, or it changes
nothing. So the theme is never blank and the font never without a size, whatever messages
come in.

## The architecture

* **`FontSize.Denotes`**, **`AnimationSpeed.Denotes`**, **`ToolCall.Asks`**: what a request asks
  for, in terms of what stands in its parameters.
* **`ToolCall.ofRequest_eq_ok_iff`**: that is what the host reads from it.
* **`Settings.Valid`**: the invariant. `ToolCall.valid_of_ofRequest` and `Settings.Valid.apply` keep
  it over one request, `Router.valid_run` over everything a host goes through.
* **`Router.Obeys`**, **`Router.receive_tool`**: what one request makes of a host.
-/

namespace EmbedUI.Host

open Json (lookup)
open Json.Record

/-! ## What a value denotes -/

/-- The value denotes a font size: it is a number, or a text that is read as one, but not zero. -/
def FontSize.Denotes (v : Json) (n : UInt32) : Prop :=
  n ≠ 0 ∧ (v = .num (.ofUInt32 n) ∨ ∃ s, v = .str s ∧ ofText? s = some n)

/-- The value denotes a speed: it is its name, or an object with nothing but `null` under it. -/
def AnimationSpeed.Denotes (v : Json) (s : AnimationSpeed) : Prop :=
  v = .str s.name ∨ v = .obj [(s.name, .null)]

theorem uint32_eq_ok {v : Json} {n : UInt32} : Json.uint32 v = .ok n ↔ v = .num (.ofUInt32 n) := by
  constructor
  · intro h
    obtain ⟨m, hm, rfl⟩ := map_eq_ok.mp h
    match v with
    | .num (.integer k exact) =>
      rw [Json.natural] at hm
      split at hm
      next hrange =>
        cases hm
        have hlt : k.toNat < UInt32.size := by omega
        have hback : (k.toNat.toUInt32.toNat : Int) = k := by
          rw [Nat.toUInt32_eq, UInt32.toNat_ofNat_of_lt' hlt, Int.toNat_of_nonneg hrange.1]
        simp only [Json.Number.ofUInt32, hback]
      next => cases hm
    | .num (.real ..) | .null | .bool _ | .str _ | .arr _ | .obj _ => cases hm
  · rintro rfl
    exact uint32_ofUInt32 n

theorem FontSize.pixels_number_eq_ok {m n : UInt32} :
    (number m).pixels = .ok n ↔ n ≠ 0 ∧ m = n := by
  rw [pixels]
  by_cases hm : m = 0
  · simp [hm, eq_comm]
  · rw [if_neg hm]
    constructor
    · rintro ⟨⟩
      exact ⟨hm, rfl⟩
    · rintro ⟨-, rfl⟩
      rfl

theorem FontSize.pixels_text_eq_ok {s : String} {n : UInt32} :
    (text s).pixels = .ok n ↔ n ≠ 0 ∧ ofText? s = some n := by
  rw [pixels]
  cases ofText? s with
  | none => simp
  | some m =>
    have hnumber := pixels_number_eq_ok (m := m) (n := n)
    rw [pixels] at hnumber
    simpa using hnumber

theorem FontSize.denotes_iff {v : Json} {n : UInt32} :
    (∃ size, decode v = .ok size ∧ size.pixels = .ok n) ↔ Denotes v n := by
  unfold decode Denotes
  rw [← uint32_eq_ok]
  cases hnumber : Json.uint32 v with
  | ok m =>
    -- a number is not a text as well
    have htext : ∀ s, v ≠ .str s := by
      rintro s rfl
      cases hnumber
    simp [pixels_number_eq_ok, htext]
  | error fault =>
    cases v with
    | str s => simp [pixels_text_eq_ok]
    | _ => simp

theorem AnimationSpeed.variant_eq_ok {name : String} {s : AnimationSpeed} :
    Json.variant (all.map fun s => (s.name, s)) name = .ok s ↔ name = s.name := by
  constructor
  · intro h
    unfold Json.variant at h
    split at h
    next key speed hfound =>
      cases h
      have hmem := List.mem_of_find?_eq_some hfound
      obtain ⟨_, -, heq⟩ := List.mem_map.mp hmem
      cases heq
      exact (of_decide_eq_true (List.find?_some hfound :)).symm
    next => cases h
  · rintro rfl
    cases s <;> rfl

theorem AnimationSpeed.decode_eq_ok {v : Json} {s : AnimationSpeed} :
    decode v = .ok s ↔ Denotes v s := by
  unfold decode Denotes
  rw [Json.oneOf_eq_ok]
  simp only [variant_eq_ok, exists_eq_left]

namespace ToolCall

/-- The parameters hold a theme and the value of a font size, under their names or in this order. -/
def HoldsAppearance : Json → String → Json → Prop
  | .obj entries, theme, size =>
    lookup "theme" entries = some (.str theme) ∧ lookup "fontSize" entries = some size
  | .arr items, theme, size => items = [.str theme, size]
  | _, _, _ => False

/-- The parameters hold the value of a speed, under its name or alone. -/
def HoldsSpeed : Json → Json → Prop
  | .obj entries, speed => lookup "speed" entries = some speed
  | .arr items, speed => items = [speed]
  | _, _ => False

/-- The request is for a tool that the host has, and its parameters hold what the tool needs. -/
def Asks (request : ToolRequest) : ToolCall → Prop
  | .applySettings theme n =>
    request.tool = "applySettings" ∧ Text.trim theme ≠ "" ∧
      ∃ v, HoldsAppearance request.parameters theme v ∧ FontSize.Denotes v n
  | .setAnimationSpeed s =>
    request.tool = "setAnimationSpeed" ∧
      ∃ v, HoldsSpeed request.parameters v ∧ AnimationSpeed.Denotes v s

theorem appearance_eq_ok {p : Json} (hp : p.Canonical) {name theme : String} {size : FontSize} :
    appearance.decode name p = .ok (theme, size) ↔
      ∃ v, HoldsAppearance p theme v ∧ FontSize.decode v = .ok size := by
  cases p with
  | obj entries =>
    show (Prod.mk <$> required "theme" Json.string <*>
      required "fontSize" FontSize.decode).ofEntries entries = _ ↔ _
    rw [ofEntries_seq ((owns_required "theme" Json.string).map Prod.mk)
      (owns_required "fontSize" FontSize.decode) (by decide)]
    simp only [ofEntries_map, ofEntries_required hp.nodup, Json.string_eq_ok, HoldsAppearance]
    constructor
    · rintro ⟨-, _, ⟨_, ⟨_, htheme, rfl⟩, rfl⟩, ⟨v, hv, hsize⟩, heq⟩
      cases heq
      exact ⟨v, ⟨htheme, hv⟩, hsize⟩
    · rintro ⟨v, ⟨htheme, hv⟩, hsize⟩
      exact ⟨_, size, ⟨theme, ⟨_, htheme, rfl⟩, rfl⟩, ⟨v, hv, hsize⟩, rfl⟩
  | arr items =>
    show (Prod.mk <$> required "theme" Json.string <*>
      required "fontSize" FontSize.decode).ofItems _ items = _ ↔ _
    rw [ofItems_eq_ok, take_seq]
    simp only [take_map, take_required, Json.string_eq_ok, HoldsAppearance]
    constructor
    · rintro ⟨-, _, _, ⟨_, ⟨_, rfl, rfl⟩, rfl⟩, ⟨v, rfl, hsize⟩, heq⟩
      cases heq
      exact ⟨v, rfl, hsize⟩
    · rintro ⟨v, rfl, hsize⟩
      exact ⟨_, size, [v], ⟨theme, ⟨_, rfl, rfl⟩, rfl⟩, ⟨v, rfl, hsize⟩, rfl⟩
  | _ => simp [Json.Record.decode, HoldsAppearance]

theorem speed_eq_ok {p : Json} (hp : p.Canonical) {name : String} {s : AnimationSpeed} :
    speed.decode name p = .ok s ↔ ∃ v, HoldsSpeed p v ∧ AnimationSpeed.decode v = .ok s := by
  cases p with
  | obj entries =>
    show (required "speed" AnimationSpeed.decode).ofEntries entries = _ ↔ _
    rw [ofEntries_required hp.nodup]
    rfl
  | arr items =>
    show (required "speed" AnimationSpeed.decode).ofItems _ items = _ ↔ _
    rw [ofItems_eq_ok, take_required]
    rfl
  | _ => simp [Json.Record.decode, HoldsSpeed]

theorem ofAppearance_eq_ok {p : Json} {call : ToolCall} :
    ofAppearance p = .ok call ↔
      ∃ theme size n, appearance.decode "ApplySettingsParams" p = .ok (theme, size) ∧
        Text.trim theme ≠ "" ∧ size.pixels = .ok n ∧ call = .applySettings theme n := by
  show ((appearance.decode "ApplySettingsParams" p).mapError ParameterFault.shape).bind _ = _ ↔ _
  simp only [Json.bind_eq_ok, Json.mapError_eq_ok, Prod.exists]
  refine exists_congr fun theme => exists_congr fun size => ?_
  by_cases hblank : Text.allBlank theme
  · have htrim : Text.trim theme = "" := Text.trim_eq_empty_iff.mpr hblank
    constructor
    · rintro ⟨-, h⟩
      rw [if_pos hblank] at h
      cases h
    · rintro ⟨n, -, h, -⟩
      exact absurd htrim h
  · have htrim : Text.trim theme ≠ "" := fun h => hblank (Text.trim_eq_empty_iff.mp h)
    cases size.pixels with
    | error fault => simp [hblank]
    | ok n => simp [hblank, htrim, eq_comm]

theorem ofSpeed_eq_ok {p : Json} {call : ToolCall} :
    ofSpeed p = .ok call ↔
      ∃ s, speed.decode "SetAnimationSpeedParams" p = .ok s ∧ call = .setAnimationSpeed s := by
  show ((speed.decode "SetAnimationSpeedParams" p).mapError ParameterFault.shape).bind _ = _ ↔ _
  simp only [Json.bind_eq_ok, Json.mapError_eq_ok]
  refine exists_congr fun s => and_congr_right fun _ => ?_
  show Except.ok (setAnimationSpeed s) = .ok call ↔ _
  rw [Except.ok.injEq, eq_comm]

theorem ofRequest_eq_ok {request : ToolRequest} {call : ToolCall} :
    ofRequest request = .ok call ↔
      (request.tool = "applySettings" ∧ ofAppearance request.parameters = .ok call) ∨
        (request.tool = "setAnimationSpeed" ∧ ofSpeed request.parameters = .ok call) := by
  unfold ofRequest tools
  by_cases happearance : request.tool = "applySettings"
  · simp [happearance, Json.mapError_eq_ok]
  by_cases hspeed : request.tool = "setAnimationSpeed"
  · simp [hspeed, Json.mapError_eq_ok]
  · simp [happearance, hspeed, eq_comm]

/-- **The reading of a request.** The host reads a call from it exactly when it asks for it. -/
theorem ofRequest_eq_ok_iff {request : ToolRequest} (h : request.parameters.Canonical)
    {call : ToolCall} : ofRequest request = .ok call ↔ Asks request call := by
  rw [ofRequest_eq_ok, ofAppearance_eq_ok, ofSpeed_eq_ok]
  simp only [appearance_eq_ok h, speed_eq_ok h, AnimationSpeed.decode_eq_ok]
  cases call with
  | applySettings theme n =>
    constructor
    · rintro (⟨htool, _, size, _, ⟨v, hholds, hdecode⟩, htheme, hsize, heq⟩ | ⟨-, s, -, heq⟩)
      · cases heq
        exact ⟨htool, htheme, v, hholds, FontSize.denotes_iff.mp ⟨size, hdecode, hsize⟩⟩
      · cases heq
    · rintro ⟨htool, htheme, v, hholds, hdenotes⟩
      obtain ⟨size, hdecode, hsize⟩ := FontSize.denotes_iff.mpr hdenotes
      exact .inl ⟨htool, theme, size, n, ⟨v, hholds, hdecode⟩, htheme, hsize, rfl⟩
  | setAnimationSpeed s => simp [Asks]

/-! ## Valid settings -/

/-- The call would leave settings with a theme and a font of some size. -/
def Valid : ToolCall → Prop
  | applySettings theme n => Text.trim theme ≠ "" ∧ 1 ≤ n.toNat
  | setAnimationSpeed _ => True

/-- Whatever is posted: no other call is read from it. -/
theorem valid_of_ofRequest {request : ToolRequest} {call : ToolCall}
    (h : ofRequest request = .ok call) : call.Valid := by
  rw [ofRequest_eq_ok, ofAppearance_eq_ok, ofSpeed_eq_ok] at h
  rcases h with ⟨-, theme, size, n, -, htheme, hsize, rfl⟩ | ⟨-, s, -, rfl⟩
  · refine ⟨htheme, ?_⟩
    have hn : n ≠ 0 := by
      cases size with
      | number m => exact (FontSize.pixels_number_eq_ok.mp hsize).1
      | text s => exact (FontSize.pixels_text_eq_ok.mp hsize).1
    exact Nat.one_le_iff_ne_zero.mpr fun hzero => hn (UInt32.toNat_inj.mp hzero)
  · exact trivial

end ToolCall

namespace Settings

/-- The theme is not blank, and the font has a size. -/
structure Valid (s : Settings) : Prop where
  theme : Text.trim s.theme ≠ ""
  fontSize : 1 ≤ s.fontSize.toNat

theorem valid_initial : initial.Valid where
  theme := by decide
  fontSize := by decide

theorem Valid.apply {s : Settings} (h : s.Valid) {call : ToolCall} (hcall : call.Valid) :
    (call.apply s).Valid := by
  cases call with
  | applySettings theme n => exact ⟨hcall.1, hcall.2⟩
  | setAnimationSpeed speed => exact ⟨h.theme, h.fontSize⟩

end Settings

namespace Router

/-- **The run.** Induction on the calls, the last one split off. -/
theorem valid_settingsAfter {calls : List ToolCall} (h : ∀ call ∈ calls, call.Valid) :
    (settingsAfter calls).Valid := by
  induction calls using List.reverseRecOn with
  | nil => exact Settings.valid_initial
  | append_singleton calls call ih =>
    rw [settingsAfter, List.foldl_append]
    have hbefore : (settingsAfter calls).Valid := ih fun c hc => h c (List.mem_append_left _ hc)
    exact hbefore.apply (h call (by simp))

theorem call?_of_ok {request : ToolRequest} {call : ToolCall}
    (h : ToolCall.ofRequest request = .ok call) : call? (.tool request) = some call := by
  rw [call?, h]
  rfl

theorem call?_of_error {request : ToolRequest} {fault : ToolError}
    (h : ToolCall.ofRequest request = .error fault) : call? (.tool request) = none := by
  rw [call?, h]
  rfl

theorem valid_of_call? {e : Envelope} {call : ToolCall} (h : call? e = some call) : call.Valid := by
  cases e with
  | tool request =>
    cases hread : ToolCall.ofRequest request with
    | error fault =>
      rw [call?_of_error hread] at h
      cases h
    | ok read =>
      rw [call?_of_ok hread] at h
      cases h
      exact ToolCall.valid_of_ofRequest hread
  | _ => cases h

/-- Whatever comes in, and whatever else happens to a host. -/
theorem valid_run {limits : Limits} {clock : Nat} {events : List Event} {s : Session}
    (hs : (Session.start limits clock).run events = some s) : s.router.settings.Valid := by
  rw [((follows_start limits clock).run hs).settings, List.nil_append]
  refine valid_settingsAfter fun call hcall => ?_
  obtain ⟨e, -, hcall⟩ := List.mem_filterMap.mp hcall
  exact valid_of_call? hcall

/-! ## One request -/

/-- What a request makes of a host. -/
structure Obeys (request : ToolRequest) (before after : Router) : Prop where
  /-- Notices and submissions are none of its business. -/
  others : after = { before with settings := after.settings }
  refused : ∀ fault, ToolCall.ofRequest request = .error fault → after.settings = before.settings
  appearance : ∀ theme n, ToolCall.ofRequest request = .ok (.applySettings theme n) →
    after.settings = { before.settings with theme := theme, fontSize := n }
  speed : ∀ speed, ToolCall.ofRequest request = .ok (.setAnimationSpeed speed) →
    after.settings = { before.settings with animationSpeed := speed }

/-- **The step.** A request is always carried out, as a whole or not at all. -/
theorem receive_tool {message : Json} {request : ToolRequest}
    (h : Envelope.ofMessage? message = some (.tool request)) (r : Router) (now : Moment) :
    ∃ r', r.receive now message = some (r', some .tool) ∧ Obeys request r r' := by
  rw [receive_accepted h, performAll_ofEnvelope]
  refine ⟨{ r with settings := adjust r.settings (call? (.tool request)) }, rfl, ?_⟩
  constructor
  case others => rfl
  case refused =>
    intro fault hfault
    show adjust r.settings (call? (.tool request)) = r.settings
    rw [call?_of_error hfault]
    rfl
  case appearance =>
    intro theme n hcall
    show adjust r.settings (call? (.tool request)) = _
    rw [call?_of_ok hcall]
    rfl
  case speed =>
    intro speed hcall
    show adjust r.settings (call? (.tool request)) = _
    rw [call?_of_ok hcall]
    rfl

/-- A message with a request in it, of whatever tool and with whatever parameters. -/
def Event.IsRequest : Event → Prop
  | .receive message _ => ∃ request, Envelope.ofMessage? message = some (.tool request)
  | _ => False

/-- Requests give rise to no notice, so no deadline stands in their way. -/
theorem isSome_run_requests {events : List Event} (h : ∀ e ∈ events, e.IsRequest) (s : Session) :
    (s.run events).isSome := by
  induction events generalizing s with
  | nil => rfl
  | cons e rest ih =>
    obtain ⟨hfirst, hrest⟩ := List.forall_mem_cons.mp h
    match e, hfirst with
    | .receive message shown, ⟨request, hmessage⟩ =>
      obtain ⟨r', hr', -⟩ := receive_tool hmessage s.router ⟨s.clock, shown⟩
      rw [Session.run, Session.step, hr']
      exact ih hrest _

/-! ## The main statement -/

/-- **Settings stay valid, and requests are atomic.** Every tool can be asked for with any
parameters, and hosts that receive requests alone never fail. Whatever a host has gone through, its
settings are valid; what it makes of one more request is all that was asked for, or nothing. -/
theorem settings_stay_valid (limits : Limits) (clock : Nat) (events : List Event) :
    (∀ tool parameters, parameters.Canonical → ∃ message : Json, message.Canonical ∧
      Envelope.ofMessage? message = some (.tool ⟨tool, parameters⟩)) ∧
    ((∀ e ∈ events, e.IsRequest) → ((Session.start limits clock).run events).isSome) ∧
    ∀ s, (Session.start limits clock).run events = some s →
      s.router.settings.Valid ∧
      ∀ message request now, Envelope.ofMessage? message = some (.tool request) →
        (message.Canonical →
          ∀ call, ToolCall.ofRequest request = .ok call ↔ ToolCall.Asks request call) ∧
        ∃ r', s.router.receive now message = some (r', some .tool) ∧
          Obeys request s.router r' := by
  refine ⟨fun tool parameters hparameters => ?_, fun h => isSome_run_requests h _,
    fun s hs => ⟨valid_run hs, fun message request now hmessage => ⟨fun hcanonical call => ?_, ?_⟩⟩⟩
  · exact ⟨_, Json.canonical_kept _,
      Envelope.ofMessage?_encode (e := .tool ⟨tool, parameters⟩) hparameters⟩
  · exact ToolCall.ofRequest_eq_ok_iff (Envelope.canonical_of_ofMessage? hcanonical hmessage)
  · exact receive_tool hmessage s.router now

/-- A request for a tool, as a message. -/
def requesting (tool : String) (parameters : Json) : Event :=
  .receive (.obj [("payload", .obj [("params", parameters), ("toolName", .str tool)]),
    ("type", .str "tool")]) ""

/-- Settings from a range control, settings with a blank theme, a tool that does not exist, a speed
in the form of an object, and no size at all. -/
def requests : List Event :=
  [requesting "applySettings" (.obj [("fontSize", .str " 20px "), ("theme", .str "dark")]),
    requesting "applySettings" (.obj [("fontSize", .str "8"), ("theme", .str " \t")]),
    requesting "launchRockets" .null,
    requesting "setAnimationSpeed" (.obj [("speed", .obj [("fast", .null)])]),
    requesting "applySettings" (.arr [.str "blue", .str "+0px"])]

theorem isRequest_requests : ∀ e ∈ requests, e.IsRequest := by
  simp only [requests, List.forall_mem_cons]
  exact ⟨⟨_, rfl⟩, ⟨_, rfl⟩, ⟨_, rfl⟩, ⟨_, rfl⟩, ⟨_, rfl⟩, fun e he => nomatch he⟩

theorem settings_stay_valid_requests :
    ((Session.start ⟨5, 1⟩ 0).run requests).isSome ∧
    ∃ s, (Session.start ⟨5, 1⟩ 0).run requests = some s ∧ s.router.settings.Valid ∧
      s.router.settings = ⟨"dark", 20, .fast⟩ :=
  ⟨(settings_stay_valid ⟨5, 1⟩ 0 requests).2.1 isRequest_requests,
    _, rfl, ((settings_stay_valid ⟨5, 1⟩ 0 requests).2.2 _ rfl).1, by decide⟩

end Router

end EmbedUI.Host
