import PlatformGitops.CrossAi.IntentStore.Rows

/-! Registration, finalization and the dispatch outbox of the registry. -/

namespace PlatformGitops.CrossAi.IntentStore

open Library

section

variable (X : Externals) (amb : Ambient)

def registerChecks (envelope : Json) (verified : VerifiedBundle) (registrationPrincipal : String) :
    Except Failure Unit := do
  rejectIf (¬ "spiffe://".toList <+: registrationPrincipal.toList ∨ registrationPrincipal.toList.length > 200)
    "REGISTRATION_PRINCIPAL_INVALID" "registration principal must be SPIFFE"
  rejectIf (verified.payload.grant.registrationPrincipal ≠ registrationPrincipal)
    "REGISTRATION_PRINCIPAL_MISMATCH" "grant principal differs from caller"
  let digest ← sha256Digest X envelope
  rejectIf (digest ≠ verified.bundleDigest) "INTENT_BUNDLE_MISMATCH" "envelope differs from verified bundle"

def intentRow (verified : VerifiedBundle) (grantDigest registrationPrincipal : String) (timestamp : Stamp) :
    IntentRecord :=
  let subject := verified.payload.subject
  { requestId := verified.requestId, bundleDigest := verified.bundleDigest,
    subjectDigest := verified.subjectDigest, grantDigest, repositoryId := subject.repositoryId,
    repository := subject.repository, environment := subject.environment, headSha := subject.headSha,
    intentRef := subject.intentRef, sessionDigest := verified.sessionDigest,
    artifactSetDigest := subject.artifactSetSha256, rollbackPlanDigest := subject.rollbackPlanSha256,
    postDeployVerifierDigest := subject.postDeployVerifierSha256, expiresAt := utcSeconds verified.expiresAt,
    registrationPrincipal, triggeringActorId := verified.payload.grant.triggeringActorId,
    registeredAt := timestamp, refObjectId := none, finalizedAt := none, state := .registered }

/-- The row with its mutable columns as a registration writes them, to compare the other ones. -/
def IntentRecord.asRegistered (row : IntentRecord) (timestamp : Stamp) : IntentRecord :=
  { row with registeredAt := timestamp, refObjectId := none, finalizedAt := none, state := .registered }

def stageRow (verified : VerifiedBundle) (stage : WorkflowStage) (nonceDigest : String) : StageRow :=
  { requestId := verified.requestId, repositoryId := verified.payload.subject.repositoryId,
    environment := verified.payload.subject.environment, stage := Stage.ofText stage.stage,
    stageOrder := stage.order, nonceDigest, workflowPath := stage.workflowPath,
    workflowBlobDigest := stage.workflowBlobSha256, state := .available, runId := none,
    runAttempt := none, appRuleId := none, reservationId := none, reservationExpiresAt := none }

def insertStage (verified : VerifiedBundle) (db : Db) (stage : WorkflowStage) : Except Failure Db := do
  let nonceDigest ← Fallible.expect (verified.payload.grant.stageNonceSha256.lookup stage.stage)
    (.keyError stage.stage)
  let stages ← stored (db.stages.insert? (stageRow verified stage nonceDigest))
  pure { db with stages }

def registerRows (verified : VerifiedBundle) (registrationPrincipal : String) (timestamp : Stamp)
    (db : Db) : Except Failure (Db × Bool) := do
  let grantDigest ← sha256Digest X verified.payload.grant.json
  let row := intentRow verified grantDigest registrationPrincipal timestamp
  match db.intents.find? verified.requestId with
  | some existing =>
    rejectIf (existing.asRegistered timestamp ≠ row) "INTENT_REGISTRATION_COLLISION"
      "request ID already has another intent"
    pure (db, false)
  | none =>
    let intents ← stored (db.intents.insert? row)
    let db ← verified.payload.workflowStages.foldlM (insertStage verified) { db with intents }
    let db ← db.event X (amb.uuid 0) verified.requestId none none (.intent .registered)
      "SIGNED_INTENT_REGISTERED" timestamp
    pure (db, true)

def register (envelope : Json) (verified : VerifiedBundle) (registrationPrincipal : String)
    (registeredAt : Option Datetime) (reg : Registry) : Registry × Except Failure Bool :=
  match registerChecks X envelope verified registrationPrincipal with
  | .error e => (reg, .error e)
  | .ok () =>
    match putJson X reg.cas envelope verified.bundleDigest with
    | .error e => (reg, .error e)
    | .ok cas => transact ⟨reg.db, cas⟩
        (registerRows X amb verified registrationPrincipal (utcSeconds (registeredAt.getD amb.now)))

def finalizeRef (requestId refObjectId resolvedHeadSha : String) (finalizedAt : Option Datetime)
    (db : Db) : Except Failure (Db × Bool) := do
  rejectIf (refObjectId.toList.length ≠ 40 ∨ refObjectId.toList.any (· ∉ "0123456789abcdef".toList))
    "INTENT_REF_OBJECT_INVALID" "intent ref object ID must be a full SHA"
  let timestamp := utcSeconds (finalizedAt.getD amb.now)
  let row ← expect (db.intents.find? requestId) "INTENT_NOT_FOUND" "intent does not exist"
  rejectIf (resolvedHeadSha ≠ row.headSha) "INTENT_REF_MOVED" "intent ref does not resolve to reviewed head"
  if row.state = .finalized then
    rejectIf (row.refObjectId ≠ some refObjectId) "INTENT_REF_MOVED" "finalized intent ref object changed"
    pure (db, false)
  else
    rejectIf (row.state ≠ .registered) "INTENT_STATE_INVALID" "intent cannot be finalized from current state"
    let (intents, _) ← stored (db.intents.modifyWhere? requestId (fun r => r.state = .registered)
      (fun r => { r with refObjectId := some refObjectId, finalizedAt := some timestamp, state := .finalized }))
    let db ← ({ db with intents } : Db).event X (amb.uuid 0) requestId none (some (.intent .registered))
      (.intent .finalized) "IMMUTABLE_REF_VERIFIED" timestamp
    pure (db, true)

def prerequisiteSatisfied (db : Db) (requestId : String) (stage : Stage) : Bool :=
  if stage = .apply then true
  else
    match db.stages.find? (requestId, .apply) with
    | none => false
    | some apply =>
      let targetState := (db.outcomes.find? (requestId, .apply)).map (·.targetState)
      if stage = .browserEvidence then apply.state = .succeeded ∧ targetState = some .succeeded
      else apply.state = .callbackUnknown ∨ (apply.state = .failed ∧ targetState = some .failed)

def correlationKey (intent : IntentRecord) (installationId : Int) (workflowPath : String) :
    Except Failure String :=
  sha256Digest X (.obj [("domain", .str "acik.cross-ai-dispatch-correlation.v1"),
    ("installationId", .int installationId), ("repositoryId", .int intent.repositoryId),
    ("workflowPath", .str workflowPath), ("intentRef", .str intent.intentRef),
    ("headSha", .str intent.headSha), ("expectedActorId", .int intent.triggeringActorId)])

def pendingJob (intent : IntentRecord) (stage : Stage) (installationId : Int)
    (workflowPath correlationKey : String) (timestamp : Stamp) : DispatchJob :=
  { requestId := intent.requestId, stage, installationId, repositoryId := intent.repositoryId,
    repository := intent.repository, workflowPath, intentRef := intent.intentRef, headSha := intent.headSha,
    expectedActorId := intent.triggeringActorId, correlationKey, state := .pending, queuedAt := timestamp,
    claimedAt := none, snapshotAt := none, preDispatchRunIdWatermark := none, resolvedAt := none,
    httpStatus := none, reasonCode := none, runId := none }

structure DispatchTarget where
  installationId : Int
  repositoryId : Int
  repository : String
  workflowPath : String
  intentRef : String
  headSha : String
  expectedActorId : Int
  correlationKey : String
deriving DecidableEq

def DispatchJob.target (j : DispatchJob) : DispatchTarget :=
  ⟨j.installationId, j.repositoryId, j.repository, j.workflowPath, j.intentRef, j.headSha,
    j.expectedActorId, j.correlationKey⟩

def queueDispatch (requestId : String) (stage : Stage) (installationId : Int) (repository : String)
    (queuedAt : Option Datetime) (db : Db) : Except Failure (Db × DispatchJob) := do
  rejectIf (installationId < 1) "DISPATCH_TARGET_INVALID" "dispatch App installation ID must be positive"
  let current := queuedAt.getD amb.now
  let timestamp := utcSeconds current
  let intent ← expect (db.intents.find? requestId) "INTENT_NOT_FINALIZED" "intent is not ready for dispatch"
  rejectIf (intent.state ≠ .finalized) "INTENT_NOT_FINALIZED" "intent is not ready for dispatch"
  rejectIf (intent.repository ≠ repository) "DISPATCH_TARGET_MISMATCH" "dispatch repository differs from intent"
  rejectIf (intent.triggeringActorId < 1) "DISPATCH_ACTOR_UNAVAILABLE"
    "legacy intent has no signed triggering actor and cannot be dispatched"
  rejectIf (intent.expiresAt.instant ≤ current) "INTENT_EXPIRED" "intent grant has expired"
  let row ← expect (db.stages.find? (requestId, stage)) "STAGE_NOT_FOUND" "stage is not part of the intent"
  rejectIf (row.workflowPath = "") "STAGE_WORKFLOW_UNAVAILABLE"
    "legacy stage has no signed workflow path and cannot be dispatched"
  let key ← correlationKey X intent installationId row.workflowPath
  let job := pendingJob intent stage installationId row.workflowPath key timestamp
  match db.dispatches.find? (requestId, stage) with
  | some existing =>
    rejectIf (job.target ≠ existing.target) "DISPATCH_REGISTRATION_COLLISION"
      "stage already has another dispatch target"
    pure (db, existing)
  | none =>
    rejectIf (row.state ≠ .available) "GRANT_REPLAY_OR_CONSUMED" "stage grant is already bound"
    rejectIf (prerequisiteSatisfied db requestId stage = false) "PRIOR_STAGE_NOT_VERIFIED"
      "stage prerequisite is not satisfied"
    let dispatches ← stored (db.dispatches.insert? job)
    let db ← ({ db with dispatches } : Db).event X (amb.uuid 0) requestId (some stage) none
      (.dispatch .pending) "SIGNED_STAGE_DISPATCH_QUEUED" timestamp
    pure (db, job)

def getDispatch (requestId : String) (stage : Stage) (db : Db) : Except Failure DispatchJob :=
  expect (db.dispatches.find? (requestId, stage)) "DISPATCH_NOT_FOUND" "stage dispatch does not exist"

/-- An UPDATE of one dispatch row and the row it leaves. -/
def updateDispatch (db : Db) (k : StageKey) (p : DispatchJob → Prop) [DecidablePred p]
    (f : DispatchJob → DispatchJob) (hf : ∀ r, (f r).key = r.key) (code message : String) :
    Except Failure (Db × DispatchJob) := do
  let (dispatches, rowcount) ← stored (db.dispatches.modifyWhere? k p f hf)
  rejectIf (rowcount ≠ 1) code message
  let updated ← Fallible.expect (dispatches.find? k) .unavailable
  pure ({ db with dispatches }, updated)

def claimDispatch (requestId : String) (stage : Stage) (claimedAt : Option Datetime) (db : Db) :
    Except Failure (Db × DispatchJob) := do
  let timestamp := utcSeconds (claimedAt.getD amb.now)
  let row ← getDispatch requestId stage db
  rejectIf (row.state ≠ .pending) "DISPATCH_ALREADY_CLAIMED"
    "automatic dispatch is limited to one durable claim"
  let (db, updated) ← updateDispatch db (requestId, stage) (fun r => r.state = .pending)
    (fun r => { r with state := .sending, claimedAt := some timestamp }) (fun _ => rfl)
    "DISPATCH_ALREADY_CLAIMED" "durable dispatch claim lost its compare-and-swap"
  let db ← db.event X (amb.uuid 0) requestId (some stage) (some (.dispatch .pending)) (.dispatch .sending)
    "DISPATCH_DURABLY_CLAIMED" timestamp
  pure (db, updated)

def resolveDispatch (requestId : String) (stage : Stage) (state reasonCode : String)
    (httpStatus : Option Int) (resolvedAt : Option Datetime) (db : Db) :
    Except Failure (Db × DispatchJob) := do
  let target ← expect (DispatchState.ofText? state) "DISPATCH_STATE_INVALID" "dispatch result state is invalid"
  rejectIf (target ≠ .uncertain ∧ target ≠ .rejected) "DISPATCH_STATE_INVALID"
    "dispatch result state is invalid"
  rejectIf (reasonCode = "" ∨ reasonCode.toList.length > 100) "DISPATCH_REASON_INVALID"
    "dispatch reason code is invalid"
  rejectIf (∃ status ∈ httpStatus, ¬ (100 ≤ status ∧ status ≤ 599)) "DISPATCH_STATUS_INVALID"
    "dispatch HTTP status is invalid"
  let timestamp := utcSeconds (resolvedAt.getD amb.now)
  let row ← getDispatch requestId stage db
  if row.state ≠ .sending then
    rejectIf (¬ (row.state = target ∧ row.reasonCode = some reasonCode ∧ row.httpStatus = httpStatus))
      "DISPATCH_STATE_INVALID" "dispatch result cannot be rewritten"
    pure (db, row)
  else
    let (db, updated) ← updateDispatch db (requestId, stage) (fun r => r.state = .sending)
      (fun r => { r with state := target, resolvedAt := some timestamp, httpStatus,
                         reasonCode := some reasonCode }) (fun _ => rfl)
      "DISPATCH_STATE_INVALID" "dispatch result lost its compare-and-swap"
    let db ← db.event X (amb.uuid 0) requestId (some stage) (some (.dispatch .sending)) (.dispatch target)
      reasonCode timestamp
    pure (db, updated)

def recordDispatchWatermark (requestId : String) (stage : Stage) (watermark : Int)
    (snapshotAt : Option Datetime) (db : Db) : Except Failure (Db × DispatchJob) := do
  rejectIf (watermark < 0) "DISPATCH_WATERMARK_INVALID" "dispatch watermark cannot be negative"
  let timestamp := utcSeconds (snapshotAt.getD amb.now)
  let row ← getDispatch requestId stage db
  rejectIf (row.state ≠ .sending) "DISPATCH_STATE_INVALID" "dispatch is not in Sending state"
  match row.preDispatchRunIdWatermark with
  | some existing =>
    rejectIf (existing ≠ watermark ∨ row.snapshotAt ≠ some timestamp) "DISPATCH_WATERMARK_IMMUTABLE"
      "dispatch watermark cannot change"
    pure (db, row)
  | none =>
    updateDispatch db (requestId, stage)
      (fun r => r.state = .sending ∧ r.preDispatchRunIdWatermark = none)
      (fun r => { r with snapshotAt := some timestamp, preDispatchRunIdWatermark := some watermark })
      (fun _ => rfl) "DISPATCH_WATERMARK_INVALID" "dispatch watermark CAS failed"

def markDispatchPosted (requestId : String) (stage : Stage) (reasonCode : String) (httpStatus : Int)
    (recordedAt : Option Datetime) (db : Db) : Except Failure (Db × DispatchJob) := do
  rejectIf (reasonCode = "" ∨ reasonCode.toList.length > 100 ∨ ¬ (100 ≤ httpStatus ∧ httpStatus ≤ 599))
    "DISPATCH_RESULT_INVALID" "dispatch POST result is invalid"
  let timestamp := utcSeconds (recordedAt.getD amb.now)
  let row ← expect (db.dispatches.find? (requestId, stage)) "DISPATCH_STATE_INVALID"
    "dispatch POST result cannot rewrite the current state"
  if row.state = .accepted then
    pure (db, row)
  else
    rejectIf (row.state ≠ .sending) "DISPATCH_STATE_INVALID"
      "dispatch POST result cannot rewrite the current state"
    rejectIf (row.preDispatchRunIdWatermark = none ∨ row.snapshotAt = none) "DISPATCH_WATERMARK_MISSING"
      "dispatch POST requires a durable pre-dispatch watermark"
    if row.httpStatus ≠ none ∨ row.reasonCode ≠ none then
      rejectIf (¬ (row.httpStatus = some httpStatus ∧ row.reasonCode = some reasonCode))
        "DISPATCH_RESULT_IMMUTABLE" "dispatch POST result cannot be rewritten"
      pure (db, row)
    else
      let (dispatches, _) ← stored (db.dispatches.modifyWhere? (requestId, stage)
        (fun r => r.state = .sending) (fun r => { r with httpStatus := some httpStatus,
                                                         reasonCode := some reasonCode,
                                                         resolvedAt := some timestamp }))
      let updated ← Fallible.expect (dispatches.find? (requestId, stage)) .unavailable
      pure ({ db with dispatches }, updated)

def reconcileDispatchRow (requestId : String) (stage : Stage) (runId : Int) (reconciledAt : Option Datetime)
    (db : Db) : Except Failure (Db × DispatchJob) := do
  rejectIf (runId < 1) "DISPATCH_RUN_INVALID" "reconciled workflow run ID must be positive"
  let timestamp := utcSeconds (reconciledAt.getD amb.now)
  let row ← getDispatch requestId stage db
  if row.state = .accepted ∧ row.runId = some runId then
    pure (db, row)
  else
    rejectIf (row.state ≠ .sending ∧ row.state ≠ .uncertain) "DISPATCH_STATE_INVALID"
      "dispatch cannot be live-reconciled"
    rejectIf (row.snapshotAt = none ∨ ∀ watermark ∈ row.preDispatchRunIdWatermark, runId ≤ watermark)
      "DISPATCH_CORRELATION_INVALID" "dispatch lacks a valid pre-dispatch correlation snapshot"
    let (db, updated) ← updateDispatch db (requestId, stage)
      (fun r => r.state = .sending ∨ r.state = .uncertain)
      (fun r => { r with state := .accepted, resolvedAt := some timestamp,
                         reasonCode := some "DISPATCH_RECONCILED_LIVE_RUN", runId := some runId })
      (fun _ => rfl) "DISPATCH_STATE_INVALID" "dispatch reconciliation lost its compare-and-swap"
    let db ← db.event X (amb.uuid 0) requestId (some stage) (some (.dispatch row.state))
      (.dispatch .accepted) "DISPATCH_RECONCILED_LIVE_RUN" timestamp
    pure (db, updated)

/-- A constraint that fails inside the reconciliation is reported as a reused run. -/
def reconcileDispatch (requestId : String) (stage : Stage) (runId : Int) (reconciledAt : Option Datetime)
    (db : Db) : Except Failure (Db × DispatchJob) :=
  match reconcileDispatchRow X amb requestId stage runId reconciledAt db with
  | .error .integrityError =>
    reject "DISPATCH_RUN_REUSED" "one GitHub workflow run cannot correlate to two dispatches"
  | result => result

end

end PlatformGitops.CrossAi.IntentStore
