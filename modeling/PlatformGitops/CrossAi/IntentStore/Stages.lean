import PlatformGitops.CrossAi.IntentStore.Dispatches

/-! Reservation, transition, expiry, outcome and bootstrap of the stages of an intent. -/

namespace PlatformGitops.CrossAi.IntentStore

open Library

structure StageReservation where
  requestId : String
  stage : Stage
  runId : Int
  runAttempt : Int
  appRuleId : Int
  reservationId : Option String
  reservationExpiresAt : Option Stamp
  state : StageState
  idempotent : Bool
deriving DecidableEq, Repr

def allowedStageTransitions : StageState → List StageState
  | .reserved => [.approvedPendingOutcome, .rejected, .outcomeOverdue]
  | .approvedPendingOutcome => [.succeeded, .failed, .rolledBack]
  | .outcomeOverdue => [.callbackUnknown]
  | .callbackUnknown => [.approvedPendingOutcome]
  | _ => []

def finalStageStates : List StageState := [.succeeded, .failed, .callbackUnknown, .rolledBack, .rejected]

def maxStageOutcomeWait : Int := 30 * minute
def rollbackDispatchHeadroom : Int := 15 * minute

section

variable (X : Externals) (amb : Ambient)

def getStage (requestId : String) (stage : Stage) (db : Db) : Except Failure StageReservation := do
  let row ← expect (db.stages.find? (requestId, stage)) "STAGE_NOT_FOUND" "stage is not part of the intent"
  rejectIf (row.state = .available) "STAGE_NOT_RESERVED" "stage has no bound run reservation"
  let bound {α : Type} (x : Option α) : Except Failure α :=
    expect x "STAGE_NOT_RESERVED" "stage has no bound run reservation"
  let runId ← bound row.runId
  let runAttempt ← bound row.runAttempt
  let appRuleId ← bound row.appRuleId
  let reservationId ← bound row.reservationId
  let reservationExpiresAt ← bound row.reservationExpiresAt
  pure ⟨requestId, stage, runId, runAttempt, appRuleId, some reservationId, some reservationExpiresAt,
    row.state, true⟩

def reserveStage (requestId : String) (stage : Stage) (runId runAttempt appRuleId : Int)
    (now : Option Datetime) (db : Db) : Except Failure (Db × StageReservation) := do
  rejectIf (min (min runId runAttempt) appRuleId < 1) "STAGE_RESERVATION_INVALID"
    "run, attempt and App rule IDs must be positive"
  let current := now.getD amb.now
  let timestamp := utcSeconds current
  let intent ← expect (db.intents.find? requestId) "INTENT_NOT_FINALIZED" "intent is not ready for reservation"
  rejectIf (intent.state ≠ .finalized) "INTENT_NOT_FINALIZED" "intent is not ready for reservation"
  rejectIf (intent.expiresAt.instant ≤ current) "INTENT_EXPIRED" "intent grant has expired"
  let row ← expect (db.stages.find? (requestId, stage)) "STAGE_NOT_FOUND" "stage is not part of the intent"
  if row.state ≠ .available then
    rejectIf (¬ (row.runId = some runId ∧ row.runAttempt = some runAttempt ∧ row.appRuleId = some appRuleId))
      "GRANT_REPLAY_OR_CONSUMED" "stage grant is already bound"
    pure (db, ⟨requestId, stage, runId, runAttempt, appRuleId, row.reservationId,
      row.reservationExpiresAt, row.state, true⟩)
  else
    rejectIf (prerequisiteSatisfied db requestId stage = false) "PRIOR_STAGE_NOT_VERIFIED"
      "stage prerequisite is not satisfied"
    let reservationId := amb.uuid 0
    let rollbackHeadroom := if stage = .apply then rollbackDispatchHeadroom else 0
    let reservationDeadline := min (current + maxStageOutcomeWait) (intent.expiresAt.instant - rollbackHeadroom)
    rejectIf (reservationDeadline ≤ current) "GRANT_ROLLBACK_HEADROOM_INVALID"
      "grant has no bounded outcome and rollback headroom"
    let reservationExpires := utcSeconds reservationDeadline
    let (stages, _) ← expect (db.stages.modifyWhere? (requestId, stage) (fun r => r.state = .available)
      (fun r => { r with state := .reserved, runId := some runId, runAttempt := some runAttempt,
                         appRuleId := some appRuleId, reservationId := some reservationId,
                         reservationExpiresAt := some reservationExpires }))
      "GRANT_REPLAY_OR_CONSUMED" "run/attempt/App rule is already reserved"
    let db ← ({ db with stages } : Db).event X (amb.uuid 1) requestId (some stage)
      (some (.stage .available)) (.stage .reserved) "STAGE_GRANT_RESERVED" timestamp
    pure (db, ⟨requestId, stage, runId, runAttempt, appRuleId, some reservationId,
      some reservationExpires, .reserved, false⟩)

/-- One row moved to another state, with the event that records it. -/
def moveStage (db : Db) (eventId requestId : String) (stage : Stage) (fromState toState : StageState)
    (reasonCode : String) (timestamp : Stamp) : Except Failure Db := do
  let stages ← stored (db.stages.modify? (requestId, stage) (fun r => { r with state := toState }))
  ({ db with stages } : Db).event X eventId requestId (some stage) (some (.stage fromState))
    (.stage toState) reasonCode timestamp

def transitionStage (requestId : String) (stage : Stage) (toState reasonCode : String)
    (recordedAt : Option Datetime) (db : Db) : Except Failure (Db × Unit) := do
  let target ← expect (StageState.ofText? toState) "STAGE_STATE_INVALID" "target stage state is invalid"
  rejectIf (target ∉ finalStageStates ++ [.approvedPendingOutcome, .outcomeOverdue])
    "STAGE_STATE_INVALID" "target stage state is invalid"
  rejectIf (target = .succeeded ∨ target = .failed ∨ target = .rolledBack) "STAGE_OUTCOME_REQUIRED"
    "terminal execution state requires an atomically recorded outcome"
  let timestamp := utcSeconds (recordedAt.getD amb.now)
  let row ← expect (db.stages.find? (requestId, stage)) "STAGE_NOT_FOUND" "stage is not part of the intent"
  if target = row.state then
    pure (db, ())
  else
    rejectIf (target ∉ allowedStageTransitions row.state) "STAGE_TRANSITION_INVALID"
      "stage transition is not allowed"
    let db ← moveStage X db (amb.uuid 0) requestId stage row.state target reasonCode timestamp
    pure (db, ())

def rowLe (r s : StageRow) : Bool :=
  r.requestId < s.requestId ∨ (r.requestId = s.requestId ∧ r.stageOrder ≤ s.stageOrder)

def overdueRows (timestamp : Stamp) (db : Db) : List StageRow :=
  (db.stages.rows.filter (fun r => (r.state = .reserved ∨ r.state = .approvedPendingOutcome) ∧
    ∃ e ∈ r.reservationExpiresAt, e.seconds ≤ timestamp.seconds)).insertionSort (rowLe · ·)

def expireRow (timestamp : Stamp) (acc : Db × Nat) (row : StageRow) : Except Failure (Db × Nat) := do
  let (stages, _) ← stored (acc.1.stages.modifyWhere? row.key (fun r => r.state = row.state)
    (fun r => { r with state := .outcomeOverdue }))
  let db ← ({ acc.1 with stages } : Db).event X (amb.uuid acc.2) row.requestId (some row.stage)
    (some (.stage row.state)) (.stage .outcomeOverdue) "OUTCOME_RECONCILIATION_DEADLINE_EXCEEDED" timestamp
  pure (db, acc.2 + 1)

def expirePendingStages (now : Option Datetime) (db : Db) : Except Failure (Db × Nat) :=
  let timestamp := utcSeconds (now.getD amb.now)
  (overdueRows timestamp db).foldlM (expireRow X amb timestamp) (db, 0)

def isPending (db : Db) (r : StageRow) : Bool :=
  (db.intents.find? r.requestId).map (·.state) = some .finalized ∧
    (r.state = .reserved ∨ r.state = .approvedPendingOutcome ∨ r.state = .outcomeOverdue ∨
      r.state = .callbackUnknown) ∧ r.runId ≠ none

def pendingStages (limit : Int) (db : Db) : Except Failure (List StageReservation) := do
  rejectIf (¬ (1 ≤ limit ∧ limit ≤ 1000)) "STAGE_QUERY_INVALID" "pending-stage query limit is invalid"
  let rows := ((db.stages.rows.filter (isPending db)).insertionSort (rowLe · ·)).take limit.toNat
  pure (rows.map fun r => ⟨r.requestId, r.stage, r.runId.getD 0, r.runAttempt.getD 0, r.appRuleId.getD 0,
    r.reservationId, r.reservationExpiresAt, r.state, true⟩)

def allowedTargets : Stage → List StageState
  | .apply => [.succeeded, .failed]
  | .browserEvidence => [.succeeded, .failed]
  | .compensatingRollback => [.rolledBack, .failed]
  | .other _ => []

def conclusionTarget (conclusion : Json) : Option StageState :=
  match conclusion.asStr? with
  | some "success" => some .succeeded
  | some "failure" => some .failed
  | some "rolled-back" => some .rolledBack
  | _ => none

def sourceArtifactName (requestId : String) (stage : Stage) (runId runAttempt : Int) : String :=
  "cross-ai-stage-outcome-" ++ requestId ++ "-" ++ stage.text ++ "-" ++ toString runId ++ "-" ++
    toString runAttempt

structure OutcomeCall where
  requestId : String
  stage : Stage
  runId : Int
  runAttempt : Int
  outcome : Json
  outcomeDigest : String
  targetState : String

/-- The checks made before the transaction: the target state and the archive digest they return. -/
def outcomeChecks (c : OutcomeCall) : Except Failure (StageState × String) := do
  let target ← expect (StageState.ofText? c.targetState) "STAGE_OUTCOME_STATE_INVALID"
    "outcome target is invalid for stage"
  rejectIf (target ∉ allowedTargets c.stage) "STAGE_OUTCOME_STATE_INVALID" "outcome target is invalid for stage"
  rejectIf ((c.outcome.get "schemaVersion").asStr? ≠ some "acik.cross-ai-deployment-stage-outcome.v1" ∨
    (c.outcome.get "requestId").asStr? ≠ some c.requestId ∨
    (c.outcome.get "stage").asStr? ≠ some c.stage.text ∨
    (c.outcome.get "runId").asInt? ≠ some c.runId ∨
    (c.outcome.get "runAttempt").asInt? ≠ some c.runAttempt ∨
    (c.outcome.get "sourceArtifactName").asStr? ≠
      some (sourceArtifactName c.requestId c.stage c.runId c.runAttempt) ∨
    conclusionTarget (c.outcome.get "conclusion") ≠ some target)
    "STAGE_OUTCOME_BINDING_MISMATCH" "outcome identity or conclusion differs from registry transition"
  let sourceArchiveSha256 ← expect (c.outcome.get "sourceArchiveSha256").asStr?
    "STAGE_OUTCOME_BINDING_MISMATCH" "outcome archive digest is missing"
  hex sourceArchiveSha256
  pure (target, sourceArchiveSha256)

def durableBindingDiffers (outcome : Json) (intent : IntentRecord) (row : StageRow) : Prop :=
  (outcome.get "repositoryId").asInt? ≠ some intent.repositoryId ∨
  (outcome.get "repository").asStr? ≠ some intent.repository ∨
  (outcome.get "environment").asStr? ≠ some intent.environment ∨
  (outcome.get "headSha").asStr? ≠ some intent.headSha ∨
  (outcome.get "intentRef").asStr? ≠ some intent.intentRef ∨
  (outcome.get "sessionSha256").asStr? ≠ some intent.sessionDigest ∨
  (outcome.get "workflowBlobSha256").asStr? ≠ some row.workflowBlobDigest ∨
  (outcome.get "artifactSetSha256").asStr? ≠ some intent.artifactSetDigest ∨
  (outcome.get "rollbackPlanSha256").asStr? ≠ some intent.rollbackPlanDigest ∨
  (outcome.get "postDeployVerifierSha256").asStr? ≠ some intent.postDeployVerifierDigest

instance (outcome : Json) (intent : IntentRecord) (row : StageRow) :
    Decidable (durableBindingDiffers outcome intent row) := by
  unfold durableBindingDiffers; infer_instance

def runStartedInLease (outcome : Json) (row : StageRow) : Except Failure Unit := do
  let reservationExpires ← expect row.reservationExpiresAt "STAGE_RESERVATION_EXPIRED"
    "stage reservation has no bounded expiry"
  rejectIf ((outcome.get "runStartedAt").asStr?.isNone) "STAGE_OUTCOME_BINDING_MISMATCH"
    "outcome has no live run start binding"
  let runStarted ← parseUtc X (outcome.get "runStartedAt") "stageOutcome.runStartedAt"
  rejectIf (runStarted > reservationExpires.instant) "STAGE_RESERVATION_EXPIRED"
    "run started after the callback reservation lease expired"

/-- What the transaction reads before its first write: nothing to do for an outcome already recorded,
else the state the stage is in. -/
def outcomeAdmission (c : OutcomeCall) (target : StageState) (sourceArchiveSha256 : String)
    (current : Datetime) (db : Db) : Except Failure (Option StageState) := do
  let row ← expect (db.stages.find? (c.requestId, c.stage)) "STAGE_NOT_FOUND" "stage is not part of the intent"
  let intent ← expect (db.intents.find? c.requestId) "STAGE_NOT_FOUND" "stage is not part of the intent"
  rejectIf (row.runId ≠ some c.runId ∨ row.runAttempt ≠ some c.runAttempt)
    "STAGE_OUTCOME_BINDING_MISMATCH" "outcome run differs from reservation"
  rejectIf (durableBindingDiffers c.outcome intent row) "STAGE_OUTCOME_BINDING_MISMATCH"
    "outcome differs from the durable signed-intent projection"
  rejectIf (current > intent.expiresAt.instant) "STAGE_OUTCOME_EXPIRED" "outcome arrived after intent expiry"
  match db.outcomes.find? (c.requestId, c.stage) with
  | some existing =>
    rejectIf (existing.outcomeDigest ≠ c.outcomeDigest ∨
      existing.sourceArchiveSha256 ≠ sourceArchiveSha256 ∨ existing.targetState ≠ target)
      "STAGE_OUTCOME_CONFLICT" "stage already has another outcome"
    pure none
  | none =>
    rejectIf (row.state ∉ [.reserved, .callbackUnknown, .approvedPendingOutcome])
      "STAGE_OUTCOME_STATE_INVALID" "stage is not awaiting a verified outcome"
    if c.stage = .apply ∧ target = .succeeded then
      rejectIf ((db.stages.find? (c.requestId, .compensatingRollback)).map (·.state) ≠ some .available)
        "STAGE_ROLLBACK_IN_PROGRESS" "late success cannot overtake an activated rollback"
    if row.state = .reserved ∨ row.state = .callbackUnknown then
      runStartedInLease X c.outcome row
    pure (some row.state)

def sealOutcome (c : OutcomeCall) (target : StageState) (sourceArchiveSha256 : String)
    (fromState : StageState) (timestamp : Stamp) (db : Db) : Except Failure (Db × Bool) := do
  let progressed : Bool := fromState = .reserved ∨ fromState = .callbackUnknown
  let db ← if progressed then
      moveStage X db (amb.uuid 0) c.requestId c.stage fromState .approvedPendingOutcome
        "RUN_PROGRESSION_PROVED_CALLBACK_ACCEPTANCE" timestamp
    else pure db
  let outcomes ← stored (db.outcomes.insert? ⟨c.requestId, c.stage, c.runId, c.runAttempt, c.outcomeDigest,
    sourceArchiveSha256, target, timestamp⟩)
  let db ← moveStage X { db with outcomes } (amb.uuid (if progressed then 1 else 0)) c.requestId c.stage
    .approvedPendingOutcome target "STAGE_OUTCOME_VERIFIED" timestamp
  pure (db, true)

def recordStageOutcome (c : OutcomeCall) (recordedAt : Option Datetime) (reg : Registry) :
    Registry × Except Failure Bool :=
  let current := recordedAt.getD amb.now
  match outcomeChecks c with
  | .error e => (reg, .error e)
  | .ok (target, sourceArchiveSha256) =>
    match outcomeAdmission X c target sourceArchiveSha256 current reg.db with
    | .error e => (reg, .error e)
    | .ok none => (reg, .ok false)
    | .ok (some fromState) =>
      match putJson X reg.cas c.outcome c.outcomeDigest with
      | .error e => (reg, .error e)
      | .ok cas => transact ⟨reg.db, cas⟩
          (sealOutcome X amb c target sourceArchiveSha256 fromState (utcSeconds current))

def consumeBootstrap (requestId : String) (stage : Stage) (runId runAttempt runnerId : Int)
    (responseDigest : String) (consumedAt : Option Datetime) (db : Db) :
    Except Failure (Db × BootstrapConsumption) := do
  rejectIf (min (min runId runAttempt) runnerId < 1) "BOOTSTRAP_BINDING_INVALID"
    "bootstrap run and runner IDs must be positive"
  hex responseDigest
  let timestamp := utcSeconds (consumedAt.getD amb.now)
  let row ← expect (db.stages.find? (requestId, stage)) "STAGE_NOT_FOUND" "stage is not part of the intent"
  rejectIf (row.state ≠ .approvedPendingOutcome ∨ row.runId ≠ some runId ∨ row.runAttempt ≠ some runAttempt)
    "BOOTSTRAP_STAGE_NOT_APPROVED" "bootstrap is not bound to the approved run attempt"
  rejectIf ((db.consumptions.find? (requestId, stage)).isSome) "BOOTSTRAP_ALREADY_CONSUMED"
    "bootstrap credential is single-use"
  let consumption : BootstrapConsumption :=
    ⟨requestId, stage, runId, runAttempt, runnerId, responseDigest, timestamp⟩
  let consumptions ← stored (db.consumptions.insert? consumption)
  let db ← ({ db with consumptions } : Db).event X (amb.uuid 0) requestId (some stage)
    (some (.stage .approvedPendingOutcome)) (.stage .approvedPendingOutcome) "RUNNER_BOOTSTRAP_CONSUMED" timestamp
  pure (db, consumption)

def get (requestId : String) (reg : Registry) : Except Failure (IntentRecord × Json) := do
  let record ← expect (reg.db.intents.find? requestId) "INTENT_NOT_FOUND" "intent does not exist"
  let envelope ← getJson X reg.cas record.bundleDigest
  pure (record, envelope)

def getFinalized (requestId : String) (reg : Registry) : Except Failure (IntentRecord × Json) := do
  let (record, envelope) ← get X requestId reg
  rejectIf (record.state ≠ .finalized) "INTENT_NOT_FINALIZED" "exactly one finalized intent is required"
  pure (record, envelope)

def getStageOutcome (requestId : String) (stage : Stage) (reg : Registry) : Except Failure (String × Json) := do
  let row ← expect (reg.db.outcomes.find? (requestId, stage)) "STAGE_OUTCOME_NOT_FOUND"
    "verified prior-stage outcome is unavailable"
  let payload ← getJson X reg.cas row.outcomeDigest
  pure (row.outcomeDigest, payload)

def stageApprovedAt (requestId : String) (stage : Stage) (db : Db) : Except Failure Stamp := do
  let event ← expect (db.events.rows.reverse.find? fun e => e.requestId = requestId ∧ e.stage = some stage ∧
    e.toState = .stage .approvedPendingOutcome ∧ e.reasonCode ≠ "RUNNER_BOOTSTRAP_CONSUMED")
    "BOOTSTRAP_STAGE_NOT_APPROVED" "stage approval event is unavailable"
  pure event.recordedAt

end

end PlatformGitops.CrossAi.IntentStore
