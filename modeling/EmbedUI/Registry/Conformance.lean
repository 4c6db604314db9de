import EmbedUI.Registry.Backend

/-!
# The conformance suite

Nine checks that any backend can be put through, each starting from an empty state: what was put is
read back, the last put wins, unknown keys are not found, the empty component id is refused, and ten
writers that run side by side lose nothing. In what order the writers take effect is up to the
caller; every order is as good as any other.
-/

namespace EmbedUI.Registry.Conformance

/-- A check on a backend: it changes the state and may fail with a message. -/
abbrev Check (b : Backend) := ExceptT String (StateM b.State) Unit

variable {b : Backend}

/-- Runs an operation and goes on with its result, whatever it is. -/
def attempt {α : Type} (op : StateM b.State (Except StorageError α)) :
    ExceptT String (StateM b.State) (Except StorageError α) :=
  ExceptT.lift op

/-- Runs an operation that has to succeed. -/
def demand {α : Type} (context : String) (op : StateM b.State (Except StorageError α)) :
    ExceptT String (StateM b.State) α := do
  match ← attempt op with
  | .ok v => return v
  | .error e => throw (context ++ e.message)

/-- A result in a diagnostic. -/
def diagnosticResult {α : Type} (shown : α → String) : Except StorageError α → String
  | .ok v => "Ok(" ++ shown v ++ ")"
  | .error e => "Err(" ++ e.diagnostic ++ ")"

def component (id kind : String) (config : Json) : ComponentRecord :=
  { id := id, kind := kind, config := config, createdAt := "2026-01-01T00:00:00Z" }

/-! ### Components -/

def putThenGet : Check b := do
  let r := component "form-u1-1700000000000" "form"
    (.obj [("fields", .arr []), ("title", .str "Contact")])
  demand "put failed: " (b.putComponent r)
  let got ← demand "get failed: " (b.getComponent "form-u1-1700000000000")
  if !got.same r then throw ("expected " ++ r.diagnostic ++ ", got " ++ got.diagnostic)

def putOverwrites : Check b := do
  let second : Json := .obj [("kind", .str "pie")]
  demand "" (b.putComponent (component "chart-u1-1" "chart" (.obj [("kind", .str "bar")])))
  demand "" (b.putComponent (component "chart-u1-1" "chart" second))
  let got ← demand "" (b.getComponent "chart-u1-1")
  if !got.config.same second then
    throw ("expected last write to win, got " ++ got.config.diagnostic)

def unknownComponent : Check b := do
  let got ← attempt (b.getComponent "missing")
  match got with
  | .error (.componentNotFound "missing") => return ()
  | other =>
    throw ("expected ComponentNotFound, got " ++ diagnosticResult ComponentRecord.diagnostic other)

def emptyId : Check b := do
  let got ← attempt (b.putComponent (component "" "form" .null))
  match got with
  | .error (.invalidKey _ _) => return ()
  | other => throw ("expected InvalidKey, got " ++ diagnosticResult (fun () => "()") other)

/-! ### Users -/

/-- A payload with something of everything. -/
def samplePayload : Json :=
  .obj
    [("nested", .obj
      [("list", .arr [Json.ofCount 1, Json.ofFloat 2.5, .str "three", .null, .bool true])]),
      ("unicode", .str "héllo ✓")]

def payloadRoundTrips : Check b := do
  demand "" (b.putUser ⟨"user-1", samplePayload⟩)
  let got ← demand "" (b.getUser "user-1")
  if !got.data.same samplePayload then throw ("payload changed: " ++ got.data.diagnostic)

def putReplaces : Check b := do
  demand "" (b.putUser ⟨"user-1", Json.ofCount 1⟩)
  demand "" (b.putUser ⟨"user-1", Json.ofCount 2⟩)
  let got ← demand "" (b.getUser "user-1")
  if !got.data.same (Json.ofCount 2) then throw ("expected 2, got " ++ got.data.diagnostic)

def unknownUser : Check b := do
  let got ← attempt (b.getUser "nobody")
  match got with
  | .error (.userDataNotFound "nobody") => return ()
  | other =>
    throw ("expected UserDataNotFound, got " ++ diagnosticResult UserRecord.diagnostic other)

/-! ### Writers side by side -/

/-- How many writers there are. -/
def writerCount : Nat := 10

/-- Lets writers take effect in an order, and keeps the result of each. -/
def writeAll (record : Nat → ComponentRecord) :
    List Nat → StateM b.State (List (Nat × Except StorageError Unit))
  | [] => return []
  | i :: rest => do
    let result ← b.putComponent (record i)
    let results ← writeAll record rest
    return (i, result) :: results

/-- Runs the writers and asks each, in the order of their numbers, whether it succeeded. -/
def writersSucceed (order : List Nat) (record : Nat → ComponentRecord) : Check b := do
  let results ← ExceptT.lift (writeAll record order)
  (List.range writerCount).forM fun i =>
    match results.lookup i with
    | some (.error e) => throw ("put failed: " ++ e.message)
    | _ => return ()

def numberText (i : Nat) : String := Decimal.integerText i

def distinctConfig (i : Nat) : Json := .obj [("i", Json.ofCount i)]

def distinctId (i : Nat) : String := "form-u" ++ numberText i ++ "-1"

def distinctRecord (i : Nat) : ComponentRecord :=
  component (distinctId i) "form" (distinctConfig i)

def distinctWriters (order : List Nat) : Check b := do
  writersSucceed order distinctRecord
  (List.range writerCount).forM fun i => do
    let got ← demand ("get " ++ numberText i ++ " failed: ") (b.getComponent (distinctId i))
    if !got.config.same (distinctConfig i) then
      throw ("record " ++ numberText i ++ " has wrong config " ++ got.config.diagnostic)

def sharedConfig (i : Nat) : Json :=
  .obj [("title", .str ("t" ++ numberText i)), ("writer", Json.ofCount i)]

def sharedRecord (i : Nat) : ComponentRecord :=
  component "dashboard-shared-1" "dashboard" (sharedConfig i)

def sharedWriters (order : List Nat) : Check b := do
  writersSucceed order sharedRecord
  let got ← demand "" (b.getComponent "dashboard-shared-1")
  match (got.config.get? "writer").bind Json.nat? with
  | none => throw ("record lost its writer field: " ++ got.config.diagnostic)
  | some writer =>
    if (got.config.get? "title").bind Json.str? ≠ some ("t" ++ numberText writer) then
      throw ("torn record: " ++ got.config.diagnostic)

/-! ### The report -/

structure Outcome where
  category : String
  name : String
  /-- The message of a check that failed. -/
  failure : Option String
deriving DecidableEq, Repr

def Outcome.passed (o : Outcome) : Bool := o.failure.isNone

/-- Runs a check on an empty state. -/
def outcome (b : Backend) (category name : String) (check : Check b) : Outcome :=
  let failure :=
    match (check.run b.empty).1 with
    | .ok () => none
    | .error message => some message
  { category := category, name := name, failure := failure }

structure Report where
  outcomes : List Outcome
deriving DecidableEq, Repr

/-- Puts a backend through every check. The writers of the two last checks take effect in orders of
their own. -/
def runInOrders (b : Backend) (distinct shared : List Nat) : Report :=
  ⟨[outcome b "registry" "put_then_get_round_trips" putThenGet,
    outcome b "registry" "put_overwrites_previous_record" putOverwrites,
    outcome b "registry" "get_unknown_is_not_found" unknownComponent,
    outcome b "registry" "empty_id_is_rejected" emptyId,
    outcome b "user_store" "payload_round_trips_unchanged" payloadRoundTrips,
    outcome b "user_store" "put_replaces_payload" putReplaces,
    outcome b "user_store" "get_unknown_user_is_not_found" unknownUser,
    outcome b "concurrent" "parallel_puts_to_distinct_ids_all_visible" (distinctWriters distinct),
    outcome b "concurrent" "parallel_puts_to_same_id_leave_one_whole_record"
      (sharedWriters shared)]⟩

/-- The same, with one order for both. -/
def run (b : Backend) (order : List Nat) : Report := runInOrders b order order

namespace Report

def total (r : Report) : Nat := r.outcomes.length

def passed (r : Report) : Nat := r.outcomes.countP Outcome.passed

def failed (r : Report) : Nat := r.total - r.passed

/-- The report as text: a line of counts, and a line for each check that failed. -/
def text (r : Report) : String :=
  "Conformance: " ++ numberText r.passed ++ "/" ++ numberText r.total ++ " passed ("
    ++ numberText r.failed ++ " failed)\n"
    ++ String.join (r.outcomes.filterMap fun o => o.failure.map fun message =>
      "  FAIL [" ++ o.category ++ "/" ++ o.name ++ "]: " ++ message ++ "\n")

end Report

end EmbedUI.Registry.Conformance
