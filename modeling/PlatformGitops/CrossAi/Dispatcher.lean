import PlatformGitops.CrossAi.Effects

/-! At-most-once dispatch of signed deployment intents. -/

namespace PlatformGitops.CrossAi.Dispatcher

open Library IntentStore

def maxDispatchDelay : Int := 10 * minute

structure IntentDispatchOrchestrator where
  installationId : Int
  registrationPrincipal : String
  positive : 1 ≤ installationId
  spiffe : "spiffe://".toList <+: registrationPrincipal.toList

def recordMatches (record : IntentRecord) (verified : VerifiedBundle) : Prop :=
  verified.requestId = record.requestId ∧ verified.bundleDigest = record.bundleDigest ∧
  verified.subjectDigest = record.subjectDigest ∧ verified.sessionDigest = record.sessionDigest ∧
  verified.payload.subject.repositoryId = record.repositoryId ∧
  verified.payload.subject.repository = record.repository ∧
  verified.payload.subject.headSha = record.headSha ∧
  verified.payload.subject.intentRef = record.intentRef ∧
  verified.payload.grant.triggeringActorId = record.triggeringActorId

instance (record : IntentRecord) (verified : VerifiedBundle) : Decidable (recordMatches record verified) := by
  unfold recordMatches; infer_instance

def verifiedRecord (requestId : String) : Action IntentRecord := do
  let (record, envelope) ← Action.registry (.getFinalized requestId)
  let verified ← Prog.perform (Effect.verifyEnvelope envelope)
  Action.rejectIf (¬ recordMatches record verified) "INTENT_BUNDLE_MISMATCH"
    "registry projection differs from currently verified evidence"
  pure record

def positiveInt? (value : Json) : Option Int := value.asStrictInt?.filter (1 ≤ ·)

/-- The greatest run identifier of a snapshot, with zero for none. -/
def watermarkOf (runs : List Json) : Option Int :=
  (runs.mapM fun run => positiveInt? (run.get "id")).map fun ids => ids.max?.getD 0

section

variable (O : IntentDispatchOrchestrator)

def dispatchStage (requestId : String) (stage : Stage) : Action DispatchJob := do
  let current ← Action.now
  let record ← verifiedRecord requestId
  let job ← Action.registry (.queueDispatch requestId stage O.installationId record.repository (some current))
  if job.state ≠ .pending then
    return job
  let claimed ← Action.registry (.claimDispatch requestId stage (some current))
  let snapshotAt ← Action.now
  let preexisting ← Action.github (.workflowRunsForDispatch claimed.installationId claimed.repository
    claimed.workflowPath (branchOf record.intentRef) (record.finalizedAt.getD record.registeredAt)
    (utcSeconds snapshotAt))
  let watermark ← Action.expect (watermarkOf preexisting) "DISPATCH_WATERMARK_INVALID"
    "pre-dispatch run snapshot is invalid"
  let _ ← Action.registry (.recordDispatchWatermark requestId stage watermark (some snapshotAt))
  let result ← Prog.perform (Effect.dispatchWorkflow stage claimed.installationId claimed.repository
    claimed.workflowPath claimed.requestId)
  if result.accepted then
    let status ← Action.expect result.status "DISPATCH_STATUS_INVALID" "accepted dispatch lacks HTTP status"
    let recordedAt ← Action.now
    Action.registry (.markDispatchPosted requestId stage result.reasonCode status (some recordedAt))
  else
    let resolvedAt ← Action.now
    Action.registry (.resolveDispatch requestId stage (if result.ambiguous then "Uncertain" else "Rejected")
      result.reasonCode result.status (some resolvedAt))

def registerAndDispatchApply (envelope : Json) : Action DispatchJob := do
  let current ← Action.now
  let verified ← Prog.perform (Effect.verifyEnvelope envelope)
  let _ ← Action.registry (.register envelope verified O.registrationPrincipal (some current))
  let liveRef ← Action.github (.createIntentRef O.installationId verified.payload.subject.repository
    verified.requestId verified.payload.subject.headSha)
  let _ ← Action.registry (.finalizeRef verified.requestId liveRef.refObjectId liveRef.headSha (some current))
  dispatchStage O verified.requestId .apply

end

def runMatches (run : Json) (job : DispatchJob) (record : IntentRecord) (watermark : Int) : Prop :=
  (run.get "repository").asObj?.isSome ∧ (run.get "head_repository").asObj?.isSome ∧
  (run.get "triggering_actor").asObj?.isSome ∧
  (∃ id ∈ positiveInt? (run.get "id"), watermark < id) ∧ (positiveInt? (run.get "run_attempt")).isSome ∧
  (run.get "event").asStr? = some "workflow_dispatch" ∧
  (run.get "head_branch").asStr? = some (branchOf record.intentRef) ∧
  (run.get "head_sha").asStr? = some record.headSha ∧
  (run.get "path").asStr? = some job.workflowPath ∧
  ((run.get "triggering_actor").get "id").asInt? = some job.expectedActorId ∧
  ((run.get "repository").get "id").asInt? = some record.repositoryId ∧
  ((run.get "repository").get "full_name").asStr? = some record.repository ∧
  ((run.get "head_repository").get "id").asInt? = some record.repositoryId ∧
  ((run.get "head_repository").get "full_name").asStr? = some record.repository

instance (run : Json) (job : DispatchJob) (record : IntentRecord) (watermark : Int) :
    Decidable (runMatches run job record watermark) := by
  unfold runMatches; infer_instance

def matchingRun (X : Externals) (run : Json) (job : DispatchJob) (record : IntentRecord)
    (windowStart windowEnd now : Datetime) (watermark : Int) : Bool :=
  if runMatches run job record watermark then
    match parseUtc X (run.get "created_at") "run.created_at" with
    | .ok createdAt => windowStart ≤ createdAt ∧ createdAt ≤ windowEnd ∧ createdAt ≤ now + 60 * second
    | .error _ => false
  else false

def windowEnd (windowStart : Datetime) (expiresAt : Stamp) : Datetime :=
  min (windowStart + maxDispatchDelay) expiresAt.instant

def reconcileDispatch (X : Externals) (requestId : String) (stage : Stage) : Action DispatchJob := do
  let current ← Action.now
  let job ← Action.registry (.getDispatch requestId stage)
  Action.rejectIf (¬ (job.state = .sending ∨ job.state = .uncertain)) "DISPATCH_STATE_INVALID"
    "dispatch is not eligible for reconciliation"
  let claimedAt ← Action.expect job.claimedAt "DISPATCH_STATE_INVALID"
    "dispatch is not eligible for reconciliation"
  Action.rejectIf (job.snapshotAt = none) "DISPATCH_CORRELATION_INVALID"
    "dispatch has no durable pre-dispatch watermark"
  let watermark ← Action.expect job.preDispatchRunIdWatermark "DISPATCH_CORRELATION_INVALID"
    "dispatch has no durable pre-dispatch watermark"
  let record ← verifiedRecord requestId
  let windowStart := claimedAt.instant
  let windowEnd := windowEnd windowStart record.expiresAt
  Action.rejectIf (windowEnd ≤ windowStart) "DISPATCH_WINDOW_INVALID" "dispatch has no reconciliation window"
  let runs ← Action.github (.workflowRunsForDispatch job.installationId job.repository job.workflowPath
    (branchOf record.intentRef) (utcSeconds windowStart) (utcSeconds windowEnd))
  match runs.filter (matchingRun X · job record windowStart windowEnd current watermark) with
  | [] =>
    if job.state = .sending ∧ windowEnd < current then
      Action.registry (.resolveDispatch requestId stage "Uncertain" "DISPATCH_RECONCILIATION_EMPTY"
        job.httpStatus (some current))
    else pure job
  | [run] => do
    let liveRef ← Action.github (.intentRef job.installationId job.repository requestId)
    Action.rejectIf (liveRef.headSha ≠ record.headSha ∨ some liveRef.refObjectId ≠ record.refObjectId)
      "INTENT_REF_MOVED" "live intent ref changed before reconciliation"
    Action.registry (.reconcileDispatch requestId stage ((run.get "id").asInt?.getD 0) (some current))
  | _ => do
    if job.state = .sending then
      let _ ← Action.registry (.resolveDispatch requestId stage "Uncertain" "DISPATCH_RECONCILIATION_AMBIGUOUS"
        job.httpStatus (some current))
    Action.reject "DISPATCH_RECONCILIATION_AMBIGUOUS" "more than one live workflow run matches one dispatch"

end PlatformGitops.CrossAi.Dispatcher
