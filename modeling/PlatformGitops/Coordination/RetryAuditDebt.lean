import PlatformGitops.Coordination.KeyBlock
import PlatformGitops.Coordination.Readers

/-! The retry of queued audit debts: each denial that was queued is recorded in the ledger. -/

namespace PlatformGitops.Coordination.RetryAuditDebt

open Library Fallible

inductive RetryFailure where
  | retryError (message : String)
  | failed (failure : Failure)
deriving DecidableEq, Repr

def retryError {α : Type} (message : String) : Except RetryFailure α := .error (.retryError message)

def retryIf (bad : Prop) [Decidable bad] (message : String) : Except RetryFailure Unit :=
  rejectIf bad (.retryError message)

def raised {α : Type} (error : PyError) : Except RetryFailure α := .error (.failed (.raised error))

def debtSchema : String := "coordination-audit-debt/v1"

def maxDetailsJsonChars : Nat := 12000

variable (X : Externals) (eventUuidForIntent : String → String)

section Records

/-- The identifier of the intent of a record, and the intent. -/
def requireIntent (record : Json) : Except RetryFailure (Json × String) :=
  match record.get "intent" with
  | .obj fields => do
    let intent := Json.obj fields
    retryIf ((intent.get "allowed").asBool? ≠ some false) "audit debt intent must have allowed=false"
    let intentId ← expect ((intent.get "deny_event_intent_id").asStr?.filter fun s => decide (IsHash s))
      (.retryError "audit debt intent has invalid deny_event_intent_id")
    ["deny_code", "issue", "session", "operation"].forM fun field =>
      retryIf (nonEmptyStr? (intent.get field) = none) ("audit debt intent missing non-empty " ++ field)
    pure (intent, intentId)
  | _ => retryError "audit debt record missing intent object"

def isSlugChar (c : Char) : Bool := c.isAlphanum ∨ c ∈ ['_', '.', '-']

def isSlug (s : List Char) : Bool := s ≠ [] ∧ s.all isSlugChar

/-- The repository and the digits of the number that an issue is referred to by. -/
def issueRef? (issueRef : List Char) : Option (List Char × List Char) :=
  match cutAt ['#'] issueRef with
  | some (repository, _ :: number) =>
    match cutAt ['/'] repository with
    | some (owner, _ :: name) =>
      if isSlug owner ∧ isSlug name ∧ number ≠ [] ∧ number.all Char.isDigit ∧ number.head? ≠ some '0' then
        some (repository, number)
      else none
    | _ => none
  | _ => none

def parseIssueRef (issueRef : String) : Except RetryFailure (String × Nat) := do
  let (repository, number) ← expect (issueRef? issueRef.toList)
    (.retryError ("intent.issue must be owner/repo#number, got " ++ X.repr (.str issueRef)))
  if number.length ≤ Json.maxIntDigits then pure (String.ofList repository, Nat.ofDigitChars 10 number 0)
  else raised .valueError

def boundedDetails (value : Json) : Json :=
  if (Json.dumps Json.codePointLe value).length ≤ maxDetailsJsonChars then value
  else .list [.obj [("code", .str "details_truncated"),
    ("message", .str ("details exceeded " ++ toString maxDetailsJsonChars ++ " canonical JSON characters"))]]

/-- A debt with what its retry records in the ledger. -/
structure Debt where
  intentId : String
  repository : String
  issue : Nat
  payload : Json

def buildPayload (record : Json) : Except RetryFailure Debt := do
  let (intent, intentId) ← requireIntent record
  let (repository, issueNumber) ← parseIssueRef X ((intent.get "issue").asStr?.getD "")
  pure ⟨intentId, repository, issueNumber, .obj [("repository", .str repository), ("issue", .int issueNumber),
    ("issue_ref", intent.get "issue"), ("session", intent.get "session"), ("operation", intent.get "operation"),
    ("deny_code", intent.get "deny_code"), ("deny_event_intent_id", .str intentId),
    ("permission_source", intent.get "permission_source"),
    ("details", boundedDetails ((intent.item? "details").getD (.list []))), ("queued_at", record.get "queued_at"),
    ("retry_source", .str debtSchema)]⟩

/-- The object on a line; a line that is not JSON is skipped. -/
def readLine (rawLine : List Char) : Except RetryFailure (Option Json) :=
  if strip rawLine = [] then .ok none
  else
    match Json.loads X.float (strip rawLine) with
    | some (.obj fields) => .ok (some (.obj fields))
    | some _ => .ok none
    | none =>
      match X.unreadable (strip rawLine) with
      | .decodeError _ => .ok none
      | .other error => raised error

/-- The queue up to the bound; the lines after it are not read. -/
def loadLines : List (List Char) → Nat → Except RetryFailure (List Json)
  | [], _ => .ok []
  | _, 0 => .ok []
  | rawLine :: rest, limit + 1 => do
    match ← readLine X rawLine with
    | some item => do
      let records ← loadLines rest limit
      pure (item :: records)
    | none => loadLines rest (limit + 1)

/-- The lines of the queue; a file that is missing has none. -/
def queueLines (file : Option (List UInt8)) : Except RetryFailure (List (List Char)) :=
  match file with
  | none => .ok []
  | some bytes => (fileLines bytes).mapError .failed

def loadQueue (file : Option (List UInt8)) (limit : Nat) : Except RetryFailure (List Json) := do
  let rawLines ← queueLines file
  loadLines X rawLines limit

/-- Whether a status says that nothing is left to do; a list or an object cannot be looked up. -/
def isTerminalStatus : Json → Except RetryFailure Bool
  | .str status => .ok (status ∈ ["ledger_emitted", "already_in_ledger"])
  | .list _ => raised .typeError
  | .obj _ => raised .typeError
  | _ => .ok false

def terminalId? (item : Json) : Except RetryFailure (Option String) :=
  if (item.get "schemaVersion").asStr? = some debtSchema then do
    let terminal ← isTerminalStatus (item.get "status")
    pure (if terminal then (item.get "deny_event_intent_id").asStr? else none)
  else .ok none

def terminalIds (records : List Json) : Except RetryFailure (List String) := do
  let ids ← records.mapM terminalId?
  pure (ids.filterMap id)

/-- A debt that can be retried; one that is not well formed is skipped. -/
def debt? (item : Json) : Except RetryFailure (Option Debt) :=
  if (item.get "schemaVersion").asStr? = some debtSchema ∧ (item.get "status").asStr? = some "blocked_audit_debt" then
    match buildPayload X item with
    | .ok debt => .ok (some debt)
    | .error (.retryError _) => .ok none
    | .error failure => .error failure
  else .ok none

/-- The debts that are not marked, each at its first place. -/
def pendingFrom (terminal : List String) : List String → List Json → Except RetryFailure (List Debt)
  | _, [] => .ok []
  | seen, item :: rest => do
    match ← debt? X item with
    | none => pendingFrom terminal seen rest
    | some debt =>
      if debt.intentId ∈ seen ∨ debt.intentId ∈ terminal then pendingFrom terminal seen rest
      else do
        let pending ← pendingFrom terminal (debt.intentId :: seen) rest
        pure (debt :: pending)

def pendingRecords (records : List Json) (terminal : List String) : Except RetryFailure (List Debt) :=
  pendingFrom X terminal [] records

end Records

section Ledger

/-- The intent that an event of the ledger records. -/
def denyId? (event : Json) : Option String :=
  if (event.get "event_type").asStr? = some "DENY_RECORDED" then
    match event.get "payload" with
    | .obj fields => nonEmptyStr? ((Json.obj fields).get "deny_event_intent_id")
    | _ => none
  else none

def denyIds (events : List Json) : List String := events.filterMap denyId?

def expectedHash (result : ReplayResult) : String :=
  match result.validPrefixHash with
  | none => "GENESIS"
  | some hash => prefixed hash

/-- The hash of the ledger's last event and the intents that it records. -/
def checkoutLedger (authority : Authority) (path : String) (bytes : List UInt8) :
    Except RetryFailure (String × List String) := do
  let result ← (replay X authority path (some bytes)).mapError .failed
  retryIf (result.valid = false)
    ("existing_ledger_invalid line=" ++ (result.invalidLine.map toString).getD "None" ++ " reason=" ++
      result.reason.getD "None")
  let rawLines ← (fileLines bytes).mapError .failed
  let events ← rawLines.mapM (readLine X)
  pure (expectedHash result, denyIds (events.filterMap id))

end Ledger

section Runs

structure Args where
  queue : String
  remote : String
  branch : String
  ledgerPath : String
  limit : Nat
  planOnly : Bool

structure Planned where
  denyEventIntentId : String
  repository : String
  issue : Nat
  eventUuid : String
  eventType : String
  writerRole : String
  payloadHash : String
  payload : Json

def makePlan (debts : List Debt) : List Planned :=
  debts.map fun debt => ⟨debt.intentId, debt.repository, debt.issue, eventUuidForIntent debt.intentId, "DENY_RECORDED",
    "coordinator", prefixed (sha256Hex X debt.payload), debt.payload⟩

def given (key : String) (value : Json) : List (String × Json) := if truthy value then [(key, value)] else []

/-- The record that a run appends to the queue. -/
def terminalMarker (args : Args) (now status reason intentId : String) (eventUuid eventHash emittedAt : Json) : Json :=
  .obj ([("schemaVersion", .str debtSchema), ("recorded_at", .str now), ("status", .str status), ("reason", .str reason),
    ("source", .str "coordination-audit-debt-retry-v1"), ("queue_path", .str args.queue),
    ("deny_event_intent_id", .str intentId)] ++ given "event_uuid" eventUuid ++ given "event_hash" eventHash ++
    given "emitted_at" emittedAt ++ given "remote" (.str args.remote) ++ given "branch" (.str args.branch))

def alreadyMarker (args : Args) (now intentId : String) : Json :=
  terminalMarker args now "already_in_ledger" "deny_recorded_event_already_present" intentId .null .null .null

def emittedMarker (args : Args) (now : String) (item : Planned) (eventHash : Json) (result : Json) : Json :=
  terminalMarker args now "ledger_emitted" "cas_backed_deny_recorded" item.denyEventIntentId (.str item.eventUuid)
    eventHash (result.get "committed_at")

def field (value : Json) (key : String) : Except RetryFailure Json :=
  match value with
  | .obj fields => .ok ((fields.lookup key).getD (.obj []))
  | _ => raised .attributeError

/-- `result.get("branch_append", {}).get("append", {})`, which is read further as an object. -/
def appendResult (result : Json) : Except RetryFailure Json := do
  let branchAppend ← field result "branch_append"
  let append ← field branchAppend "append"
  match append with
  | .obj fields => pure (.obj fields)
  | _ => raised .attributeError

/-- The emitter: an event and the hash it is expected to follow, and its answer or the text of its error. -/
abbrev Emitter := Planned → Json → Except String Json

structure Emission where
  emitted : List (Planned × Json)
  markers : List Json
  failed : Option (String × String)

def emitFrom (emitOne : Emitter) (args : Args) (now : String) (expect : Json) : List Planned →
    Except RetryFailure Emission
  | [] => .ok ⟨[], [], none⟩
  | item :: rest =>
    match emitOne item expect with
    | .error message => .ok ⟨[], [], some (item.denyEventIntentId, message)⟩
    | .ok result => do
      let append ← appendResult result
      let eventHash := append.get "event_hash"
      let next := orElse (append.get "valid_prefix_hash") (orElse eventHash expect)
      let later ← emitFrom emitOne args now next rest
      pure ⟨(item, result) :: later.emitted, emittedMarker args now item eventHash result :: later.markers,
        later.failed⟩

structure Report where
  pendingTotal : Nat
  alreadyInLedger : Nat
  toEmit : List Planned
  emitted : List (Planned × Json)
  failed : Option (String × String)
  markers : List Json

def main (authority : Authority) (args : Args) (queue : Option (List UInt8)) (ledger : List UInt8) (emitOne : Emitter)
    (now : String) : Except RetryFailure Report := do
  let records ← loadQueue X queue args.limit
  let terminal ← terminalIds records
  let pending ← pendingRecords X records terminal
  let (expectPreviousHash, alreadyEmitted) ← checkoutLedger X authority args.ledgerPath ledger
  let skippedAlready := pending.filter fun debt => debt.intentId ∈ alreadyEmitted
  let actionable := pending.filter fun debt => debt.intentId ∉ alreadyEmitted
  let plan := makePlan X eventUuidForIntent actionable
  if args.planOnly then pure ⟨pending.length, skippedAlready.length, plan, [], none, []⟩
  else do
    let emission ← emitFrom emitOne args now (.str expectPreviousHash) plan
    pure ⟨pending.length, skippedAlready.length, plan, emission.emitted, emission.failed,
      skippedAlready.map (fun debt => alreadyMarker args now debt.intentId) ++ emission.markers⟩

end Runs

end PlatformGitops.Coordination.RetryAuditDebt
