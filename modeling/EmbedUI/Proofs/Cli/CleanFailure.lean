import EmbedUI.Proofs.Cli.Report
import EmbedUI.Proofs.Host.Confinement
import EmbedUI.Proofs.Json.Literal
import Mathlib

/-!
# Clean failures

Whoever calls the program from a script looks at the exit code and reads one of the two outputs.
Each command has steps that may fail and steps that print, and the ones that may fail come first:
before them nothing is written, and behind them nothing is reported. This is shown with triples, one
for each step, where the second postcondition is about runs that are ended by the step.

## The architecture

* **`Failed`**: how a failure leaves both outputs.
* **`orFail_spec`**, **`print_spec`**: steps that may fail, and steps that print.
* **`emit_spec`** to **`dispatch_spec`**: the commands; **`perform_spec`**: any of them;
  **`execute_spec`**: with the configuration in front.
* **`outcome_cases`**: a triple says what a run leaves behind.
* **`Clean`**, **`run_clean`**: the program.
-/

namespace EmbedUI.Cli

open Std.Do

set_option mvcgen.warning false

/-- The run is ended by a failure: nothing is printed, and the report is all that is said. -/
def Failed (m : Manner) (code : Nat) (s : Console) : Prop :=
  code = 1 ∧ ∃ cause : Failure, s = ⟨"", m.said cause.message⟩

/-! ## Steps -/

@[simp]
theorem Console.errors_empty : Console.empty.errors = "" := rfl

namespace Act

@[spec]
theorem print_spec (text : String) :
    ⦃fun s => ⌜s.errors = ""⌝⦄ print text ⦃⇓ _ s => ⌜s.errors = ""⌝⦄ := by
  mvcgen [print]

@[spec]
theorem printLine_spec (line : String) :
    ⦃fun s => ⌜s.errors = ""⌝⦄ printLine line ⦃⇓ _ s => ⌜s.errors = ""⌝⦄ := by
  mvcgen [printLine]

/-- Printing for one item after the other. -/
theorem forM_spec {α : Type} {act : α → Act Unit}
    (h : ∀ a, ⦃fun s => ⌜s.errors = ""⌝⦄ act a ⦃⇓ _ s => ⌜s.errors = ""⌝⦄) (items : List α) :
    ⦃fun s => ⌜s.errors = ""⌝⦄ items.forM act ⦃⇓ _ s => ⌜s.errors = ""⌝⦄ := by
  induction items with
  | nil => mvcgen [List.forM]
  | cons a rest ih => mvcgen [List.forM, h, ih]

end Act

namespace Manner

variable (m : Manner)

@[spec]
theorem printValue_spec (v : Json) :
    ⦃fun s => ⌜s.errors = ""⌝⦄ m.printValue v ⦃⇓ _ s => ⌜s.errors = ""⌝⦄ := by
  mvcgen [printValue]

@[spec]
theorem fail_spec {α : Type} (cause : Failure) :
    ⦃fun s => ⌜s = .empty⌝⦄
    (m.fail cause : Act α)
    ⦃post⟨fun _ _ => ⌜False⌝, fun code s => ⌜Failed m code s⌝⟩⦄ := by
  mvcgen [fail, report, Act.complain, Act.exit] with subst_vars
  -- quiet or not, nothing but `said` is written
  · next hquiet => exact ⟨rfl, cause, by rw [said, if_pos hquiet]; rfl⟩
  · next hquiet _ =>
    refine ⟨rfl, cause, ?_⟩
    show Console.mk "" ("" ++ (m.format.error cause.message ++ "\n")) = _
    rw [String.empty_append, said, if_neg hquiet]

@[spec]
theorem orFail_spec {α : Type} (result : Except Failure α) :
    ⦃fun s => ⌜s = .empty⌝⦄
    m.orFail result
    ⦃post⟨fun _ s => ⌜s = .empty⌝, fun code s => ⌜Failed m code s⌝⟩⦄ := by
  cases result with
  | ok found => mvcgen [orFail]
  | error cause =>
    mvcgen [orFail]
    exact False.elim

/-! ## Commands -/

@[spec]
theorem emit_spec (result : Except Failure Resource) (markupOnly : Bool) :
    ⦃fun s => ⌜s = .empty⌝⦄
    m.emit result markupOnly
    ⦃post⟨fun _ s => ⌜s.errors = ""⌝, fun code s => ⌜Failed m code s⌝⟩⦄ := by
  mvcgen [emit] with simp_all

@[spec]
theorem suggest_spec (description : String) :
    ⦃fun s => ⌜s.errors = ""⌝⦄ m.suggest description ⦃⇓ _ s => ⌜s.errors = ""⌝⦄ := by
  have hlines := Act.forM_spec Act.printLine_spec (Description.suggestions description)
  mvcgen [suggest, hlines]

@[spec]
theorem templates_spec :
    ⦃fun s => ⌜s.errors = ""⌝⦄ m.templates ⦃⇓ _ s => ⌜s.errors = ""⌝⦄ := by
  have hlines := Act.forM_spec (fun k => Act.printLine_spec (column 10 k.name ++ " " ++
    Description.summary k)) ComponentKind.all
  mvcgen [templates, hlines]

end Manner

namespace World

variable (w : World) (c : Configuration) (m : Manner)

@[spec]
theorem compile_spec (kind : ComponentKind) (path user : String) (markupOnly : Bool) :
    ⦃fun s => ⌜s = .empty⌝⦄
    w.compile c m kind path user markupOnly
    ⦃post⟨fun _ s => ⌜s.errors = ""⌝, fun code s => ⌜Failed m code s⌝⟩⦄ := by
  mvcgen [compile]

@[spec]
theorem frame_spec (path : String) (strict : Bool) :
    ⦃fun s => ⌜s = .empty⌝⦄
    w.frame m path strict
    ⦃post⟨fun _ s => ⌜s.errors = ""⌝, fun code s => ⌜Failed m code s⌝⟩⦄ := by
  mvcgen [frame] with simp_all

@[spec]
theorem dispatch_spec (path : String) :
    ⦃fun s => ⌜s = .empty⌝⦄
    w.dispatch c m path
    ⦃post⟨fun _ s => ⌜s.errors = ""⌝, fun code s => ⌜Failed m code s ∨ code = 101⌝⟩⦄ := by
  mvcgen [dispatch, Act.crash, Act.exit] with simp_all

/-- **Any command.** Only a dispatch can end with anything but success or failure. -/
@[spec]
theorem perform_spec (command : Command) :
    ⦃fun s => ⌜s = .empty⌝⦄
    w.perform c m command
    ⦃post⟨fun _ s => ⌜s.errors = ""⌝,
      fun code s => ⌜Failed m code s ∨ code = 101 ∧ ∃ path, command = .dispatch path⌝⟩⦄ := by
  -- each command has its triple; those that cannot fail, or only by a report, promise more
  cases command <;> mvcgen [perform] <;> simp_all

theorem execute_spec (i : Invocation) :
    ⦃fun s => ⌜s = .empty⌝⦄
    w.execute i
    ⦃post⟨fun _ s => ⌜s.errors = ""⌝,
      fun code s =>
        ⌜Failed i.manner code s ∨ code = 101 ∧ ∃ path, i.command = .dispatch path⌝⟩⦄ := by
  mvcgen [execute] with simp_all

end World

/-! ## Outcomes -/

/-- Where a run stands at its end: `P` if it gets there, and `E` if it is ended before. -/
def Ends (P : Console → Prop) (E : Nat → Console → Prop) : Except Nat Unit × Console → Prop
  | (.ok _, s) => P s
  | (.error code, s) => E code s

/-- **What a triple says of a run** that starts with nothing written. -/
theorem outcome_cases {act : Act Unit} {P : Console → Prop} {E : Nat → Console → Prop}
    (h : ⦃fun s => ⌜s = .empty⌝⦄ act ⦃post⟨fun _ s => ⌜P s⌝, fun code s => ⌜E code s⌝⟩⦄) :
    (act.outcome.exit = 0 ∧ P ⟨act.outcome.output, act.outcome.errors⟩) ∨
      E act.outcome.exit ⟨act.outcome.output, act.outcome.errors⟩ := by
  have hends : Ends P E (act.run.run .empty) := by
    -- the exit code is part of what the inner monad answers
    apply StateM.of_wp_run_eq rfl
    rw [WP.ExceptT_run]
    intro _
    exact h .empty rfl
  unfold Act.outcome
  rcases hrun : act.run.run .empty with ⟨_ | code, s⟩
  · rw [hrun] at hends
    exact Or.inr hends
  · rw [hrun] at hends
    exact Or.inl ⟨rfl, hends⟩

/-- A line with an error as a value: an object with the one key `error`. -/
def ErrorLine (line : String) : Prop :=
  '\n' ∉ line.toList ∧ ∃ message, Json.ofText line = .ok (.obj [("error", .str message)])

theorem errorLine_json (message : String) : ErrorLine (Format.json.error message) := by
  refine ⟨fun h => ?_, message, Json.ofText_compact_single "error" message⟩
  -- a literal has no controls, and around the two there is no line break
  have hmem : '\n' ∈ Json.literal "error".toList ∨ '\n' ∈ Json.literal message.toList := by
    simpa [Format.error, Json.compact, Json.compactChars, Json.compactEntries] using h
  rcases hmem with hmem | hmem
  · exact absurd (Json.le_toNat_of_mem_literal hmem) (by decide)
  · exact absurd (Json.le_toNat_of_mem_literal hmem) (by decide)

/-- What scripts rely on after a success (0) or a failure (1). -/
structure Clean (m : Manner) (o : Outcome) : Prop where
  unprinted : o.exit = 1 → o.output = ""
  unreported : o.exit = 0 → o.errors = ""
  silent : m.quiet = true → o.exit = 0 ∨ o.exit = 1 → o.errors = ""
  reported : m.format = .json → m.quiet = false → o.exit = 1 →
    ∃ line, o.errors = line ++ "\n" ∧ ErrorLine line

theorem clean_success {m : Manner} {o : Outcome} (hexit : o.exit = 0) (herrors : o.errors = "") :
    Clean m o where
  unprinted h := by omega
  unreported _ := herrors
  silent _ _ := herrors
  reported _ _ h := by omega

theorem clean_failure {m : Manner} {o : Outcome} (cause : Failure) (hexit : o.exit = 1)
    (houtput : o.output = "") (herrors : o.errors = m.said cause.message) : Clean m o where
  unprinted _ := houtput
  unreported h := by omega
  silent hquiet _ := herrors.trans (if_pos hquiet)
  reported hformat hquiet _ := by
    refine ⟨m.format.error cause.message, herrors.trans (if_neg (by simp [hquiet])), ?_⟩
    rw [hformat]
    exact errorLine_json cause.message

theorem clean_other {m : Manner} {o : Outcome} (h : o.exit = 101) : Clean m o where
  unprinted _ := by omega
  unreported _ := by omega
  silent _ _ := by omega
  reported _ _ _ := by omega

/-- **Every invocation ends cleanly.** -/
theorem clean_execute (w : World) (i : Invocation) : Clean i.manner (w.execute i).outcome ∧
    ((w.execute i).outcome.exit ≤ 1 ∨ ∃ path, i.command = .dispatch path) := by
  rcases outcome_cases (w.execute_spec i) with ⟨hexit, herrors⟩ | ⟨hcode, cause, hwritten⟩ |
    ⟨hcode, hdispatch⟩
  · exact ⟨clean_success hexit herrors, Or.inl (by omega)⟩
  · obtain ⟨houtput, herrors⟩ := Console.mk.inj hwritten
    exact ⟨clean_failure cause hcode houtput herrors, Or.inl hcode.le⟩
  · exact ⟨clean_other hcode, Or.inr hdispatch⟩

/-! ## The program -/

/-- The configuration at a path can be read, and it is one. -/
def Loadable (w : World) (path : String) : Prop :=
  ∃ text c, w.read path = .ok text ∧ Configuration.ofText text = .ok c

theorem exists_configuration_eq_error {w : World} {path : String} (h : ¬Loadable w path) :
    ∃ cause, w.configuration (some path) = .error cause := by
  dsimp only [World.configuration]
  cases hread : w.read path with
  | error cause => exact ⟨.unreadableConfig path cause, rfl⟩
  | ok text =>
    cases hconfig : Configuration.ofText text with
    | error cause =>
      refine ⟨.badConfig path cause, ?_⟩
      show (Configuration.ofText text).mapError _ = _
      rw [hconfig]
      rfl
    | ok c => exact absurd ⟨text, c, hread, hconfig⟩ h

/-- A frame is refused when it has to be strict and the resource is not markup. -/
theorem outcome_frame {w : World} {path : String} {r : Resource} (m : Manner) (strict : Bool)
    (hresource : w.resource path = .ok r) :
    (w.frame m path strict).outcome.exit = 1 ↔ strict = true ∧ r.mediaType ≠ "text/html" := by
  rw [World.frame, hresource, Manner.outcome_orFail_ok]
  cases strict with
  | false => simp [Act.printLine, Act.outcome_print]
  | true =>
    by_cases hmarkup : r.mediaType = "text/html"
    · have hframe : Host.frame r = .ok (Host.frameNode r).render :=
        if_pos (Host.isMarkup_iff.mpr hmarkup)
      simp [hframe, Except.mapError, Manner.outcome_orFail_ok, Act.printLine, Act.outcome_print,
        hmarkup]
    · have hframe : Host.frame r = .error ⟨r.mediaType⟩ :=
        if_neg fun h => hmarkup (Host.isMarkup_iff.mp h)
      simp [hframe, Except.mapError, Manner.outcome_orFail_error, hmarkup]

theorem resource_eq_ok {w : World} {path text : String} {r : Resource}
    (hread : w.read path = .ok text) (hdecode : Json.decodeText Resource.decode text = .ok r) :
    w.resource path = .ok r := by
  rw [World.resource, World.readFile, hread]
  show (Json.decodeText Resource.decode text).mapError _ = _
  rw [hdecode]
  rfl

/-- **Failures are clean.** Whatever the command line asks for and whatever can be read, a run that
fails has printed nothing, and a run that succeeds has reported nothing; a report is one line, in
JSON if this is the format, and none if the run is quiet. Nothing but messages can make a run end in
another way. No command prints anything without the configuration that it is pointed at, and with it
a resource that can be read is refused only if the frame is strict and it is no markup. -/
theorem run_clean {args : List String} {i : Invocation}
    (hargs : Invocation.ofArguments args = .ok i) (w : World) :
    Clean i.manner (run w args) ∧
    ((run w args).exit ≤ 1 ∨ ∃ path, i.command = .dispatch path) ∧
    (∀ path, i.config.or w.configPath = some path → ¬Loadable w path →
      (run w args).exit = 1 ∧ (run w args).output = "") ∧
    (∀ c path strict text r, w.configuration (i.config.or w.configPath) = .ok c →
      i.command = .frame path strict → w.read path = .ok text →
      Json.decodeText Resource.decode text = .ok r →
      ((run w args).exit = 1 ↔ strict = true ∧ r.mediaType ≠ "text/html")) := by
  obtain ⟨hclean, hexit⟩ := clean_execute w i
  rw [run_of_invocation hargs]
  refine ⟨hclean, hexit, fun path hpath hload => ?_, ?_⟩
  · obtain ⟨cause, hcause⟩ := exists_configuration_eq_error hload
    rw [← hpath] at hcause
    rw [outcome_execute_error hcause]
    exact ⟨rfl, rfl⟩
  · intro c path strict text r hconfig hcommand hread hresource
    rw [outcome_execute hconfig, hcommand]
    exact outcome_frame i.manner strict (resource_eq_ok hread hresource)

/-- A picture and a configuration with an unknown section. -/
def pictureWorld : World :=
  { configPath := none
    read := fun path =>
      if path = "r.json" then .ok picture
      else if path = "c.toml" then .ok "[colors]\n"
      else .error .missing
    input := .ok ""
    now := ⟨0, "12:00"⟩
    millis := 0
    foreign := ⟨fun _ => "", fun _ => "", ""⟩ }
where
  picture := "\x7b\"uri\":\"ui://p\",\"mimeType\":\"image/png\",\"text\":\"\"\x7d"

theorem exists_decode_picture : ∃ r,
    Json.decodeText Resource.decode pictureWorld.picture = .ok r ∧ r.mediaType ≠ "text/html" := by
  have hmediaType : (Json.decodeText Resource.decode pictureWorld.picture).toOption.map
      Resource.mediaType = some "image/png" := by decide +kernel
  cases hdecode : Json.decodeText Resource.decode pictureWorld.picture with
  | error fault =>
    rw [hdecode] at hmediaType
    cases hmediaType
  | ok r =>
    rw [hdecode] at hmediaType
    exact ⟨r, rfl, by rw [Option.some.inj hmediaType]; decide⟩

theorem not_loadable_colors : ¬Loadable pictureWorld "c.toml" := by
  have hrefused : (Configuration.ofText "[colors]\n").toOption = none := by decide +kernel
  rintro ⟨text, c, hread, hconfig⟩
  cases hread
  rw [hconfig] at hrefused
  cases hrefused

/-- The picture cannot be shown in a strict frame, which is said on one line or not at all; without
the flag it is replaced. The configuration keeps even templates from being listed. -/
theorem run_clean_picture :
    (∃ line, ErrorLine line ∧
      run pictureWorld ["--output", "json", "frame", "r.json", "--strict"] =
        ⟨1, "", line ++ "\n"⟩) ∧
    run pictureWorld ["--quiet", "frame", "r.json", "--strict"] = ⟨1, "", ""⟩ ∧
    (∃ text, run pictureWorld ["frame", "r.json"] = ⟨0, text, ""⟩) ∧
    ∃ text, run pictureWorld ["--config", "c.toml", "templates"] = ⟨1, "", text⟩ := by
  obtain ⟨r, hdecode, hmediaType⟩ := exists_decode_picture
  refine ⟨?_, ?_, ?_, ?_⟩
  · have hargs : Invocation.ofArguments ["--output", "json", "frame", "r.json", "--strict"] =
        .ok ⟨.json, false, none, .frame "r.json" true⟩ := by decide +kernel
    obtain ⟨hclean, -, -, hframe⟩ := run_clean hargs pictureWorld
    have hexit := (hframe .standard "r.json" true _ r rfl rfl rfl hdecode).mpr ⟨rfl, hmediaType⟩
    obtain ⟨line, hline, herror⟩ := hclean.reported rfl rfl hexit
    exact ⟨line, herror, Outcome.ext hexit (hclean.unprinted hexit) hline⟩
  · have hargs : Invocation.ofArguments ["--quiet", "frame", "r.json", "--strict"] =
        .ok ⟨.text, true, none, .frame "r.json" true⟩ := by decide +kernel
    obtain ⟨hclean, -, -, hframe⟩ := run_clean hargs pictureWorld
    have hexit := (hframe .standard "r.json" true _ r rfl rfl rfl hdecode).mpr ⟨rfl, hmediaType⟩
    exact Outcome.ext hexit (hclean.unprinted hexit) (hclean.silent rfl (Or.inr hexit))
  · have hargs : Invocation.ofArguments ["frame", "r.json"] =
        .ok ⟨.text, false, none, .frame "r.json" false⟩ := by decide +kernel
    obtain ⟨hclean, hends, -, hframe⟩ := run_clean hargs pictureWorld
    have hnoFailure : (run pictureWorld ["frame", "r.json"]).exit ≠ 1 := fun h =>
      absurd ((hframe .standard "r.json" false _ r rfl rfl rfl hdecode).mp h).1 (by decide)
    have hexit : (run pictureWorld ["frame", "r.json"]).exit = 0 := by
      rcases hends with hends | ⟨path, hpath⟩
      · omega
      · cases hpath
    exact ⟨_, Outcome.ext hexit rfl (hclean.unreported hexit)⟩
  · have hargs : Invocation.ofArguments ["--config", "c.toml", "templates"] =
        .ok ⟨.text, false, some "c.toml", .templates⟩ := by decide +kernel
    obtain ⟨-, -, hconfig, -⟩ := run_clean hargs pictureWorld
    obtain ⟨hexit, houtput⟩ := hconfig "c.toml" rfl not_loadable_colors
    exact ⟨_, Outcome.ext hexit houtput rfl⟩

end EmbedUI.Cli
