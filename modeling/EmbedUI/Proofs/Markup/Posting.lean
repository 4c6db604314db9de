import EmbedUI.Proofs.Markup.Behavior
import EmbedUI.Proofs.Markup.Lexeme

/-!
# What a component posts

A component posts a message when its inline handler runs: the handler calls a function of the script
with the identity of the component, the function calls `postAction` with an action and a payload,
and that posts an object of the two if it lists the action. All of this is read from the markup:
the code of the handler, the functions of the script, and the variables that link them.

Only the statements that have a part in this are read, in the form in which scripts are written
here. Reading anything else gives nothing, so a component of which a posting is read was found to
have all of these parts, each of them once.

## The architecture

* **`arguments`, `fields`, `blockFrom`, `function?`**: the parts of a script among its lexemes.
* **`Sender`**, **`sender?`**: what a script has to say about posting, for the function that a
  handler calls.
* **`Posting`**, **`posting?`**: the handler and the script of markup taken together.
* **`Posting.message`**: the message, for certain values of the named controls.
* **`Posting.ofIdentity`**, **`Posting.ofForm`**: the two postings that there are, and their
  messages.
* **`senders`**: the scripts of the three components.
* **`Form.posting`**, **`Dashboard.posting`**, **`Chart.posting`**: the postings of components.
-/

namespace EmbedUI

namespace Markup

namespace Script

/-! ## Parts of a script -/

/-- Names and strings with commas between them up to the closing bracket, and what follows it. -/
def arguments : List Lexeme → Option (List Lexeme × List Lexeme)
  | .mark ')' :: rest => some ([], rest)
  | l :: .mark ',' :: rest => (arguments rest).map fun (ls, tail) => (l :: ls, tail)
  | l :: .mark ')' :: rest => some ([l], rest)
  | _ => none

/-- Strings with commas between them up to the closing bracket. -/
def items : List Lexeme → Option (List (List Char))
  | .text s :: .mark ',' :: rest => (items rest).map (s :: ·)
  | .text s :: .mark ']' :: _ => some [s]
  | _ => none

/-- The fields of an object up to its closing brace, each with the variable whose value it has, and
what follows the brace. -/
def fields : List Lexeme → Option (List (List Char × List Char) × List Lexeme)
  | .word k :: .mark ':' :: .word v :: .mark ',' :: rest =>
    (fields rest).map fun (fs, tail) => ((k, v) :: fs, tail)
  | .word k :: .mark ':' :: .word v :: .mark '\x7d' :: rest => some ([(k, v)], rest)
  | _ => none

/-- The lexemes up to the brace that closes so many blocks and the one around them. -/
def blockFrom : Nat → List Lexeme → Option (List Lexeme)
  | _, [] => none
  | depth, .mark '\x7b' :: rest => (blockFrom (depth + 1) rest).map (.mark '\x7b' :: ·)
  | 0, .mark '\x7d' :: _ => some []
  | depth + 1, .mark '\x7d' :: rest => (blockFrom depth rest).map (.mark '\x7d' :: ·)
  | depth, l :: rest => (blockFrom depth rest).map (l :: ·)

/-- What stands behind each place where some lexemes stand. -/
def behind (lexemes : List Lexeme) : List Lexeme → List (List Lexeme)
  | [] => []
  | l :: rest =>
    (if lexemes.isPrefixOf (l :: rest) then [(l :: rest).drop lexemes.length] else []) ++
      behind lexemes rest

/-- The parameters and the body of the only function with a name. -/
def function? (name : List Char) (script : List Lexeme) :
    Option (List Lexeme × List Lexeme) :=
  match behind [.word "function".toList, .word name, .mark '('] script with
  | [rest] => do
    let (parameters, rest) ← arguments rest
    match rest with
    | .mark '\x7b' :: rest => return (parameters, ← blockFrom 0 rest)
    | _ => none
  | _ => none

/-! ## Senders -/

/-- What a script has to say about posting. -/
structure Sender where
  /-- The parameters of the function that the handler calls. -/
  parameters : List Lexeme
  /-- The variable that holds the values of the named controls. -/
  collected : Option (List Char)
  action : List Char
  /-- The fields of the payload. -/
  payload : List (List Char × List Char)
  /-- The actions that are posted; all others are dropped. -/
  listed : List (List Char)
  /-- The parameters of `postAction`: the action and the payload. -/
  posted : List Char × List Char
  /-- The fields of the message. -/
  envelope : List (List Char × List Char)
deriving DecidableEq

/-- The sender of a function that posts an action with its variables as the payload, through the
prologue of every script. -/
def Sender.ofAction (action : ActionType) (parameters : List String) (collected : Option String)
    (payload : List String) : Sender :=
  { parameters := parameters.map fun p => .word p.toList
    collected := collected.map String.toList
    action := action.name.toList
    payload := payload.map fun k => (k.toList, k.toList)
    listed := ActionType.all.map fun t => t.name.toList
    posted := ("type".toList, "payload".toList)
    envelope := [("type".toList, "type".toList), ("payload".toList, "payload".toList)] }

/-- How a function that handles an event puts the value of each named control under its name. -/
def collecting (event values : List Char) : List Lexeme :=
  lex (" = \x7b\x7d; new FormData(".toList ++ event ++
    ".target).forEach(function (value, key) \x7b ".toList ++ values ++
    "[key] = value; \x7d);".toList)

/-- The variable in which the body of a function collects the values of the named controls. -/
def collected? (event : List Char) (body : List Lexeme) : Option (List Char) :=
  (behind [.word "const".toList] body).findSome? fun
    | .word v :: rest => if (collecting event v).isPrefixOf rest then some v else none
    | _ => none

/-- The name of the list of actions. -/
def listName : List Char := "WIDGETRY_ACTIONS".toList

/-- How `postAction` begins: with the check that the action is listed. -/
def checking (action : List Char) : List Lexeme :=
  lex ("if (".toList ++ listName ++ ".indexOf(".toList ++ action ++
    ") === -1) \x7b return; \x7d".toList)

/-- The actions that the script lists. -/
def listed? (script : List Lexeme) : Option (List (List Char)) :=
  match behind [.word "const".toList, .word listName, .mark '=', .mark '['] script with
  | [rest] => items rest
  | _ => none

/-- The action and the payload of the only call of `postAction`. -/
def postCall? (body : List Lexeme) : Option (List Char × List (List Char × List Char)) :=
  match behind [.word "postAction".toList, .mark '('] body with
  | [.text action :: .mark ',' :: .mark '\x7b' :: rest] =>
    (fields rest).map fun (payload, _) => (action, payload)
  | _ => none

/-- The fields of the only message. -/
def envelope? (body : List Lexeme) : Option (List (List Char × List Char)) :=
  match behind [.word "postMessage".toList, .mark '('] body with
  | [.mark '\x7b' :: rest] => (fields rest).map Prod.fst
  | _ => none

/-- What a script has to say about posting by one of its functions. -/
def sender? (script : List Lexeme) (function : List Char) : Option Sender := do
  let (parameters, body) ← function? function script
  let (action, payload) ← postCall? body
  -- a function that collects values takes the event first
  let collected :=
    match parameters with
    | .word event :: _ => collected? event body
    | _ => none
  match ← function? "postAction".toList script with
  | ([.word a, .word p], rest) =>
    if (checking a).isPrefixOf rest then
      let listed ← listed? script
      let envelope ← envelope? rest
      return { parameters, collected, action, payload, listed, posted := (a, p), envelope }
    else none
  | _ => none

/-- The name and the arguments of a call, if there is nothing but a call. -/
def call? : List Lexeme → Option (List Char × List Lexeme)
  | .word f :: .mark '(' :: rest =>
    match arguments rest with
    | some (given, []) => some (f, given)
    | _ => none
  | _ => none

end Script

open Script

/-! ## Postings -/

/-- What a component posts: the arguments of its handler, and what its script makes of them. -/
structure Posting where
  given : List Lexeme
  sender : Sender
deriving DecidableEq

/-- What is posted by markup that has one handler. -/
def posting? (text : String) : Option Posting := do
  match handlers (behavior text) with
  | [code] =>
    let (function, given) ← call? (lex code)
    return { given, sender := ← sender? (lex (scriptOf (behavior text))) function }
  | _ => none

/-- Variables and their values. -/
abbrev Scope := List (List Char × Json)

/-- The object whose fields have the values of variables. -/
def Scope.object (scope : Scope) (fields : List (List Char × List Char)) : Option Json :=
  (fields.mapM fun (k, v) => (scope.lookup v).map fun x => (String.ofList k, x)).map .obj

namespace Posting

/-- The strings among the arguments, under the names of the parameters, and the values of the named
controls. -/
def scope (p : Posting) (controls : Json) : Scope :=
  (p.sender.parameters.zip p.given).filterMap (fun
    | (.word v, .text s) => some (v, .str (String.ofList s))
    | _ => none) ++ (p.sender.collected.map (·, controls)).toList

/-- Actions are compared as the lists of their characters. -/
local instance lawful_actions : LawfulBEq (List Char) := inferInstance

/-- The message that is posted when the named controls have certain values. -/
def message (p : Posting) (controls : Json) : Option Json := do
  let payload ← (p.scope controls).object p.sender.payload
  if p.sender.action ∈ p.sender.listed then
    Scope.object [(p.sender.posted.1, .str (String.ofList p.sender.action)),
      (p.sender.posted.2, payload)] p.sender.envelope
  else none

/-! ### Through the prologue -/

/-- The posting of a component that gives its identity alone, under the name of a parameter. -/
def ofIdentity (action : ActionType) (parameter id : String) : Posting :=
  { given := [.text id.toList]
    sender := .ofAction action [parameter] none [parameter] }

/-- The posting of a component that gives its identity along with the values of its controls. -/
def ofForm (id : String) : Posting :=
  { given := [.word "event".toList, .text id.toList]
    sender := .ofAction .formSubmit ["event", "formId"] (some "data") ["formId", "data"] }

section
variable {given : List Lexeme} {action : ActionType} {parameters : List String}
  {collected : Option String} {payload : List String}

theorem listed_ofAction :
    (Sender.ofAction action parameters collected payload).action ∈
      (Sender.ofAction action parameters collected payload).listed := by
  have hall : action ∈ ActionType.all := by cases action <;> decide
  exact List.mem_map_of_mem hall

/-- The message, once the payload is known. -/
theorem message_ofAction {controls value : Json}
    (h : (scope ⟨given, .ofAction action parameters collected payload⟩ controls).object
      (payload.map fun k => (k.toList, k.toList)) = some value) :
    message ⟨given, .ofAction action parameters collected payload⟩ controls =
      some (.obj [("type", .str action.name), ("payload", value)]) := by
  have hname : String.ofList action.name.toList = action.name := String.ofList_toList
  unfold message
  show Option.bind (Scope.object _ (payload.map fun k => (k.toList, k.toList))) _ = _
  rw [h, Option.bind_some, if_pos listed_ofAction]
  show (some (.obj [("type", .str (String.ofList action.name.toList)), ("payload", value)]) :
    Option Json) = _
  rw [hname]

end

theorem message_ofIdentity (action : ActionType) (parameter id : String) (controls : Json) :
    (ofIdentity action parameter id).message controls =
      some (.obj [("type", .str action.name), ("payload", .obj [(parameter, .str id)])]) := by
  refine message_ofAction ?_
  simp [scope, Scope.object, Sender.ofAction]

theorem message_ofForm (id : String) (controls : Json) :
    (ofForm id).message controls =
      some (.obj [("type", .str ActionType.formSubmit.name),
        ("payload", .obj [("formId", .str id), ("data", controls)])]) := by
  refine message_ofAction ?_
  have hid : String.ofList id.toList = id := String.ofList_toList
  show (some (.obj [("formId", .str (String.ofList id.toList)), ("data", controls)]) :
    Option Json) = _
  rw [hid]

end Posting

/-! ## Reading a component -/

/-- The posting of markup with one handler and one script. -/
theorem posting?_of_behavior {text : String} {event code script : List Char}
    (h : behavior text = .handler event code :: script.map .script) {function : List Char}
    {given : List Lexeme} (hcall : call? (lex code) = some (function, given)) {s : Sender}
    (hsender : sender? (lex script) function = some s) :
    posting? text = some { given, sender := s } := by
  have hhandlers : handlers (behavior text) = [code] := by
    rw [h]
    exact congrArg (code :: ·) (handlers_script script)
  have hscript : scriptOf (behavior text) = script := by
    rw [h]
    exact scriptOf_script script
  rw [posting?, hhandlers, hscript]
  dsimp only
  rw [hcall]
  show (sender? (lex script) function).bind _ = _
  rw [hsender]
  rfl

/-! ### The handlers

The identity is the last argument of a handler, where it is read as a string whatever it is. -/

theorem lex_call {before : String} {lexemes : List Lexeme}
    (h : Lexes .gap before.toList lexemes .gap) (id : String) :
    lex (before ++ stringLiteral id ++ ")").toList = lexemes ++ [.text id.toList, .mark ')'] := by
  have hclose : Lexes .gap ")".toList [.mark ')'] .gap := fun _ => rfl
  have hcall := (h.append (lexes_stringLiteral id)).append hclose
  rw [String.toList_append, String.toList_append, hcall.lex_eq, List.append_assoc]
  rfl

/-- A handler that gives the identity alone. -/
theorem call?_identity {function : String}
    (h : Lexes .gap (function ++ "(").toList [.word function.toList, .mark '('] .gap)
    (id : String) :
    call? (lex (call function [stringLiteral id]).toList) =
      some (function.toList, [.text id.toList]) := by
  have hcall : call function [stringLiteral id] = function ++ "(" ++ stringLiteral id ++ ")" := rfl
  rw [hcall, lex_call h]
  rfl

/-- The handler of forms gives the event first. -/
theorem call?_submit (id : String) :
    call? (lex (call "handleFormSubmit" ["event", stringLiteral id]).toList) =
      some ("handleFormSubmit".toList, [.word "event".toList, .text id.toList]) := by
  have hcall : call "handleFormSubmit" ["event", stringLiteral id] =
      "handleFormSubmit(event, " ++ stringLiteral id ++ ")" := by
    show "handleFormSubmit" ++ "(" ++ ("event" ++ ", " ++ stringLiteral id) ++ ")" = _
    rw [← String.append_assoc, ← String.append_assoc]
    rfl
  have hbefore : Lexes .gap "handleFormSubmit(event, ".toList
      [.word "handleFormSubmit".toList, .mark '(', .word "event".toList, .mark ','] .gap :=
    fun _ => rfl
  rw [hcall, lex_call hbefore]
  rfl

/-! ### The scripts -/

set_option maxRecDepth 4000 in
/-- **The scripts of the components.** The functions that the handlers call post one action each,
which is listed, and pass on what they were given. -/
theorem senders :
    sender? (lex (Script.text Form.submitHandler).toList) "handleFormSubmit".toList =
        some (.ofAction .formSubmit ["event", "formId"] (some "data") ["formId", "data"]) ∧
      sender? (lex (Script.text Dashboard.refreshHandler).toList) "refreshDashboard".toList =
        some (.ofAction .dashboardRefresh ["dashboardId"] none ["dashboardId"]) ∧
      sender? (lex (Script.text Chart.exportHandler).toList) "exportChart".toList =
        some (.ofAction .chartExport ["chartId"] none ["chartId"]) := by
  have hsubmit : Form.submitHandler.isEmpty = false := rfl
  have hrefresh : Dashboard.refreshHandler.isEmpty = false := rfl
  have hexport : Chart.exportHandler.isEmpty = false := rfl
  simp only [Script.text, hsubmit, hrefresh, hexport, Bool.false_eq_true, if_false]
  -- each script becomes one list of characters before anything is read, since what the characters
  -- of a string are is costly to find out for a string that is put together
  simp only [prologue, postFunction, hoverEffects, hover, post, call, stringLiteral,
    Form.submitHandler, Dashboard.refreshHandler, Chart.exportHandler,
    Block.content, Block.block, Block.braced, Block.emptyBraces, Block.indented,
    Decimal.integerText, protocolVersion, targetOrigin, ActionType.all, ActionType.name,
    Sender.ofAction, Option.map, List.map_cons, List.map_nil, List.cons_append, List.nil_append,
    List.flatMap_cons, List.flatMap_nil, String.toList_append, String.toList_join,
    String.toList_ofList, String.intercalate_cons_cons, String.intercalate_singleton]
  repeat rw [String.toList_ofList]
  decide +kernel

end Markup

/-! ## The postings of components -/

open Markup Script

/-- **Forms.** -/
theorem Form.posting {form : Form} {id : ComponentId} {r : Resource}
    (h : form.compile id = .ok r) :
    posting? r.text = some (.ofForm id.text) := by
  have hbehavior := behavior_render (tame_node form id.text)
  rw [behavior_node, ← compile_eq_ok h] at hbehavior
  exact posting?_of_behavior hbehavior (call?_submit id.text) senders.1

/-- **Dashboards.** -/
theorem Dashboard.posting {d : Dashboard} {id : ComponentId} {r : Resource}
    (h : d.compile id = .ok r) :
    posting? r.text = some (.ofIdentity .dashboardRefresh "dashboardId" id.text) := by
  have hbehavior := behavior_render (tame_node d id.text)
  rw [behavior_node, ← (compile_eq_ok h).2] at hbehavior
  exact posting?_of_behavior hbehavior (call?_identity (fun _ => rfl) id.text) senders.2.1

/-- **Charts.** -/
theorem Chart.posting {c : Chart} {id : ComponentId} {r : Resource} (h : c.compile id = .ok r) :
    posting? r.text = some (.ofIdentity .chartExport "chartId" id.text) := by
  have hbehavior := behavior_render (tame_node c id.text)
  rw [behavior_node, ← (compile_eq_ok h).2] at hbehavior
  exact posting?_of_behavior hbehavior (call?_identity (fun _ => rfl) id.text) senders.2.2

end EmbedUI
