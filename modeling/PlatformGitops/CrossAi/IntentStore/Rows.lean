import PlatformGitops.CrossAi.Evidence
import PlatformGitops.Library.Table

/-! The tables of the intent registry, with the constraints its schema puts on them. -/

namespace PlatformGitops.CrossAi.IntentStore

open Library

inductive IntentState where
  | registered | finalized | quarantined
deriving DecidableEq, Repr

def IntentState.text : IntentState → String
  | registered => "Registered"
  | finalized => "Finalized"
  | quarantined => "Quarantined"

inductive StageState where
  | available | reserved | approvedPendingOutcome | succeeded | failed | outcomeOverdue | callbackUnknown
  | rolledBack | rejected
deriving DecidableEq, Repr

namespace StageState

def text : StageState → String
  | available => "Available"
  | reserved => "Reserved"
  | approvedPendingOutcome => "ApprovedPendingOutcome"
  | succeeded => "Succeeded"
  | failed => "Failed"
  | outcomeOverdue => "OutcomeOverdue"
  | callbackUnknown => "CallbackUnknown"
  | rolledBack => "RolledBack"
  | rejected => "Rejected"

def all : List StageState :=
  [available, reserved, approvedPendingOutcome, succeeded, failed, outcomeOverdue, callbackUnknown,
    rolledBack, rejected]

def ofText? (s : String) : Option StageState := all.find? (fun state => state.text = s)

def Sealed (s : StageState) : Prop := s = succeeded ∨ s = failed ∨ s = rolledBack

instance (s : StageState) : Decidable s.Sealed := inferInstanceAs (Decidable (_ ∨ _ ∨ _))

end StageState

inductive DispatchState where
  | pending | sending | accepted | uncertain | rejected
deriving DecidableEq, Repr

namespace DispatchState

def text : DispatchState → String
  | pending => "Pending"
  | sending => "Sending"
  | accepted => "Accepted"
  | uncertain => "Uncertain"
  | rejected => "Rejected"

def all : List DispatchState := [pending, sending, accepted, uncertain, rejected]

def ofText? (s : String) : Option DispatchState := all.find? (fun state => state.text = s)

end DispatchState

structure IntentRecord where
  requestId : String
  bundleDigest : String
  subjectDigest : String
  grantDigest : String
  repositoryId : Int
  repository : String
  environment : String
  headSha : String
  intentRef : String
  sessionDigest : String
  artifactSetDigest : String
  rollbackPlanDigest : String
  postDeployVerifierDigest : String
  expiresAt : Stamp
  registrationPrincipal : String
  triggeringActorId : Int
  registeredAt : Stamp
  refObjectId : Option String
  finalizedAt : Option Stamp
  state : IntentState
deriving DecidableEq, Repr

structure StageRow where
  requestId : String
  repositoryId : Int
  environment : String
  stage : Stage
  stageOrder : Int
  nonceDigest : String
  workflowPath : String
  workflowBlobDigest : String
  state : StageState
  runId : Option Int
  runAttempt : Option Int
  appRuleId : Option Int
  reservationId : Option String
  reservationExpiresAt : Option Stamp
deriving DecidableEq, Repr

structure DispatchJob where
  requestId : String
  stage : Stage
  installationId : Int
  repositoryId : Int
  repository : String
  workflowPath : String
  intentRef : String
  headSha : String
  expectedActorId : Int
  correlationKey : String
  state : DispatchState
  queuedAt : Stamp
  claimedAt : Option Stamp
  snapshotAt : Option Stamp
  preDispatchRunIdWatermark : Option Int
  resolvedAt : Option Stamp
  httpStatus : Option Int
  reasonCode : Option String
  runId : Option Int
deriving DecidableEq, Repr

/-- What an event moves: the intent, one of its stages, or the dispatch of a stage. -/
inductive EventState where
  | intent (s : IntentState)
  | stage (s : StageState)
  | dispatch (s : DispatchState)
deriving DecidableEq, Repr

def EventState.text : EventState → String
  | intent s => s.text
  | stage s => s.text
  | dispatch s => "Dispatch" ++ s.text

structure IntentEvent where
  eventId : String
  requestId : String
  stage : Option Stage
  recordedAt : Stamp
  fromState : Option EventState
  toState : EventState
  reasonCode : String
  previousHash : Option String
  eventHash : String
deriving DecidableEq, Repr

structure StageOutcome where
  requestId : String
  stage : Stage
  runId : Int
  runAttempt : Int
  outcomeDigest : String
  sourceArchiveSha256 : String
  targetState : StageState
  recordedAt : Stamp
deriving DecidableEq, Repr

structure BootstrapConsumption where
  requestId : String
  stage : Stage
  runId : Int
  runAttempt : Int
  runnerId : Int
  responseDigest : String
  consumedAt : Stamp
deriving DecidableEq, Repr

abbrev StageKey := String × Stage

def StageRow.key (r : StageRow) : StageKey := (r.requestId, r.stage)
def DispatchJob.key (r : DispatchJob) : StageKey := (r.requestId, r.stage)
def StageOutcome.key (r : StageOutcome) : StageKey := (r.requestId, r.stage)
def BootstrapConsumption.key (r : BootstrapConsumption) : StageKey := (r.requestId, r.stage)

def IntentsValid (rows : List IntentRecord) : Prop :=
  UniqueOn (fun r => some r.bundleDigest) rows ∧ UniqueOn (fun r => some r.intentRef) rows ∧
    ∀ r ∈ rows, 1 ≤ r.triggeringActorId

def StageRow.runRule (r : StageRow) : Option (Int × String × Int × Option Int × Option Int) :=
  r.runId.map fun runId => (r.repositoryId, r.environment, runId, r.runAttempt, r.appRuleId)

def StagesValid (rows : List StageRow) : Prop :=
  UniqueOn StageRow.reservationId rows ∧ UniqueOn StageRow.runRule rows ∧
    ∀ r ∈ rows, r.stage.Known ∧ r.workflowPath ≠ ""

def DispatchJob.dispatchRun (r : DispatchJob) : Option (String × Int) :=
  r.runId.map fun runId => (r.repository, runId)

def DispatchJob.dispatchRepositoryRun (r : DispatchJob) : Option (Int × Int) :=
  r.runId.map fun runId => (r.repositoryId, runId)

def DispatchJob.activeCorrelation (r : DispatchJob) : Option String :=
  if r.state = .sending ∨ r.state = .uncertain then some r.correlationKey else none

def DispatchesValid (rows : List DispatchJob) : Prop :=
  UniqueOn DispatchJob.dispatchRun rows ∧ UniqueOn DispatchJob.dispatchRepositoryRun rows ∧
    UniqueOn DispatchJob.activeCorrelation rows

def EventsValid (rows : List IntentEvent) : Prop := UniqueOn (fun r => some r.eventHash) rows

def OutcomesValid (rows : List StageOutcome) : Prop :=
  UniqueOn (fun r => some r.outcomeDigest) rows ∧ ∀ r ∈ rows, r.targetState.Sealed

def ConsumptionsValid (rows : List BootstrapConsumption) : Prop :=
  UniqueOn (fun r => some r.responseDigest) rows

instance : DecidablePred IntentsValid := fun _ => inferInstanceAs (Decidable (_ ∧ _))
instance : DecidablePred StagesValid := fun _ => inferInstanceAs (Decidable (_ ∧ _))
instance : DecidablePred DispatchesValid := fun _ => inferInstanceAs (Decidable (_ ∧ _))
instance : DecidablePred EventsValid := fun _ => inferInstanceAs (Decidable (UniqueOn _ _))
instance : DecidablePred OutcomesValid := fun _ => inferInstanceAs (Decidable (_ ∧ _))
instance : DecidablePred ConsumptionsValid := fun _ => inferInstanceAs (Decidable (UniqueOn _ _))

structure Db where
  intents : Table IntentRecord.requestId IntentsValid
  stages : Table StageRow.key StagesValid
  dispatches : Table DispatchJob.key DispatchesValid
  events : Table IntentEvent.eventId EventsValid
  outcomes : Table StageOutcome.key OutcomesValid
  consumptions : Table BootstrapConsumption.key ConsumptionsValid

def Db.empty : Db where
  intents := ⟨[], by simp, by simp [IntentsValid, UniqueOn]⟩
  stages := ⟨[], by simp, by simp [StagesValid, UniqueOn]⟩
  dispatches := ⟨[], by simp, by simp [DispatchesValid, UniqueOn]⟩
  events := ⟨[], by simp, by simp [EventsValid, UniqueOn]⟩
  outcomes := ⟨[], by simp, by simp [OutcomesValid, UniqueOn]⟩
  consumptions := ⟨[], by simp, by simp [ConsumptionsValid, UniqueOn]⟩

end PlatformGitops.CrossAi.IntentStore

/-! The content-addressed object files beside the registry, and the registry's event writer. -/

namespace PlatformGitops.CrossAi.IntentStore

open Library

abbrev Cas := List (String × List UInt8)

def isSha256Digest (digest : String) : Prop :=
  "sha256:".toList <+: digest.toList ∧ digest.toList.length = 71 ∧
    ∀ c ∈ digest.toList.drop 7, c ∈ "0123456789abcdef".toList

-- Batteries decides a statement on all characters by going through them all, so the bounded instance is named.
instance (digest : String) : Decidable (isSha256Digest digest) :=
  @instDecidableAnd _ _ inferInstance (@instDecidableAnd _ _ inferInstance (List.decidableBAll _ _))

def hex (digest : String) : Except Failure Unit :=
  rejectIf (¬ isSha256Digest digest) "CAS_DIGEST_INVALID" "CAS digest must be lowercase SHA-256"

def putJson (X : Externals) (cas : Cas) (value : Json) (expectedDigest : String) : Except Failure Cas := do
  let raw ← canonicalBytes value
  let actual ← sha256Digest X value
  rejectIf (actual ≠ expectedDigest) "CAS_DIGEST_MISMATCH" "object digest differs from expected digest"
  hex expectedDigest
  match cas.lookup expectedDigest with
  | some existing =>
    rejectIf (existing ≠ raw) "CAS_OBJECT_COLLISION" "CAS object bytes differ for one digest"
    pure cas
  | none => pure ((expectedDigest, raw) :: cas)

def getJson (X : Externals) (cas : Cas) (digest : String) : Except Failure Json := do
  hex digest
  let raw ← expect (cas.lookup digest) "CAS_OBJECT_MISSING" "CAS object is unavailable"
  rejectIf (raw.length > 4 * 1024 * 1024) "CAS_OBJECT_INVALID" "CAS object exceeds size limit"
  let value ← expect (X.jsonLoads raw) "CAS_OBJECT_INVALID" "CAS object is not JSON"
  rejectIf (value.asObj?.isNone) "CAS_OBJECT_INVALID" "CAS object is not canonical JSON"
  let canonical ← canonicalBytes value
  rejectIf (canonical ≠ raw) "CAS_OBJECT_INVALID" "CAS object is not canonical JSON"
  let actual ← sha256Digest X value
  rejectIf (actual ≠ digest) "CAS_OBJECT_TAMPERED" "CAS object digest verification failed"
  pure value

structure Registry where
  db : Db
  cas : Cas

def Registry.empty : Registry := ⟨Db.empty, []⟩

/-- What a call reads from the process it runs in: the clock, and fresh random identifiers. -/
structure Ambient where
  now : Datetime
  uuid : Nat → String

def stored {α : Type} (x : Option α) : Except Failure α := Fallible.expect x .integrityError

@[simp] lemma stored_eq_ok {α : Type} {x : Option α} {a : α} : stored x = .ok a ↔ x = some a :=
  Fallible.expect_eq_ok

/-- A transaction: its writes are kept as a whole, or not at all when its body fails. -/
def transact {α : Type} (reg : Registry) (body : Db → Except Failure (Db × α)) :
    Registry × Except Failure α :=
  match body reg.db with
  | .ok (db, a) => (⟨db, reg.cas⟩, .ok a)
  | .error e => (reg, .error e)

lemma transact_eq_ok {α : Type} {reg : Registry} {body : Db → Except Failure (Db × α)} {a : α}
    (h : (transact reg body).2 = .ok a) :
    ∃ db, body reg.db = .ok (db, a) ∧ (transact reg body).1 = ⟨db, reg.cas⟩ := by
  unfold transact at h ⊢
  cases hb : body reg.db with
  | error e => simp [hb] at h
  | ok v =>
    obtain ⟨db, b⟩ := v
    obtain rfl : b = a := by simpa [hb] using h
    exact ⟨db, rfl, rfl⟩

def Db.event (X : Externals) (db : Db) (eventId requestId : String) (stage : Option Stage)
    (fromState : Option EventState) (toState : EventState) (reasonCode : String) (recordedAt : Stamp) :
    Except Failure Db := do
  let previousHash := db.events.rows.getLast?.map (·.eventHash)
  let eventHash ← sha256Digest X (.obj [("domain", .str "acik.cross-ai-intent-event.v1"),
    ("eventId", .str eventId), ("requestId", .str requestId),
    ("stage", Json.ofOption (fun s => .str s.text) stage), ("recordedAt", .str recordedAt.text),
    ("fromState", Json.ofOption (fun s => .str s.text) fromState), ("toState", .str toState.text),
    ("reasonCode", .str reasonCode), ("previousHash", Json.ofOption .str previousHash)])
  let events ← stored (db.events.insert?
    ⟨eventId, requestId, stage, recordedAt, fromState, toState, reasonCode, previousHash, eventHash⟩)
  pure { db with events }

abbrev EventTable := Table IntentEvent.eventId EventsValid

/-- The event rows are the old ones and one more, which is linked to the last of them. -/
def Records (events events' : EventTable) (requestId : String) (stage : Option Stage)
    (fromState : Option EventState) (toState : EventState) : Prop :=
  ∃ e : IntentEvent, events'.rows = events.rows ++ [e] ∧
    e.previousHash = events.rows.getLast?.map (·.eventHash) ∧ e.requestId = requestId ∧ e.stage = stage ∧
    e.fromState = fromState ∧ e.toState = toState

lemma event_eq_ok {X : Externals} {db db' : Db} {eventId requestId : String} {stage : Option Stage}
    {fromState : Option EventState} {toState : EventState} {reasonCode : String} {recordedAt : Stamp}
    (h : db.event X eventId requestId stage fromState toState reasonCode recordedAt = .ok db') :
    ∃ events, db' = { db with events } ∧ Records db.events events requestId stage fromState toState := by
  simp only [Db.event, Fallible.bind_eq_ok, stored_eq_ok, Fallible.pure_eq_ok] at h
  obtain ⟨hash, -, events, hi, rfl⟩ := h
  exact ⟨events, rfl, _, Table.rows_insert? hi, rfl, rfl, rfl, rfl, rfl⟩

end PlatformGitops.CrossAi.IntentStore
