import PlatformGitops.CrossAi.Evaluator
import PlatformGitops.CrossAi.Outcome

/-! The bootstrap of a runner: one credential for each approved run. -/

namespace PlatformGitops.CrossAi.Bootstrap

open Library IntentStore Evaluator Outcome

def maxBootstrapDelay : Int := 2 * minute

structure RunnerBootstrapRequest where
  requestId : String
  stage : Stage
  runId : Int
  runAttempt : Int
  intentRef : String
  headSha : String
  workflowPath : String
  runnerName : String
deriving DecidableEq, Repr

/-- An authorizer, with what its constructor has checked. -/
structure RunnerBootstrapAuthorizer where
  evaluator : DeploymentEvaluator
  installationId : Int
  installation : installationId ∈ evaluator.policy.allowedInstallationIds

structure BootstrapResponse where
  request : RunnerBootstrapRequest
  runnerId : Int
  bundleSha256 : String
  bundleEnvelope : Json
  priorStage : Option Stage
  priorStageState : Option StageState
  priorStageOutcome : Option (String × Json)
  issuedAt : Stamp
  expiresAt : Option Stamp
  responseSha256 : String

def intentDiffers (policy : DeploymentPolicy) (record : IntentRecord) (verified : VerifiedBundle)
    (request : RunnerBootstrapRequest) : Prop :=
  let subject := verified.payload.subject
  verified.bundleDigest ≠ record.bundleDigest ∨ verified.subjectDigest ≠ record.subjectDigest ∨
    record.repositoryId ≠ subject.repositoryId ∨ record.repository ≠ subject.repository ∨
    record.environment ≠ subject.environment ∨ record.headSha ≠ request.headSha ∨
    record.intentRef ≠ request.intentRef ∨ subject.headSha ≠ request.headSha ∨
    subject.intentRef ≠ request.intentRef ∨ subject.repositoryId ≠ policy.repositoryId ∨
    subject.repository ≠ policy.repository ∨ subject.environment ≠ policy.environment

instance (policy : DeploymentPolicy) (record : IntentRecord) (verified : VerifiedBundle)
    (request : RunnerBootstrapRequest) : Decidable (intentDiffers policy record verified request) :=
  inferInstanceAs (Decidable (_ ∨ _))

/-- The states of a run whose runner may ask for its bootstrap. -/
def bootstrapStatuses : List String := ["queued", "pending", "in_progress"]

def bootstrapRunDiffers (request : RunnerBootstrapRequest) (record : IntentRecord) (run : Json) : Prop :=
  (run.get "id").asInt? ≠ some request.runId ∨ (run.get "run_attempt").asInt? ≠ some request.runAttempt ∨
    (run.get "event").asStr? ≠ some "workflow_dispatch" ∨ (run.get "head_sha").asStr? ≠ some request.headSha ∨
    (run.get "head_branch").asStr? ≠ some (branchOf request.intentRef) ∨
    (run.get "path").asStr? ≠ some request.workflowPath ∨
    (¬ ∃ status ∈ (run.get "status").asStr?, status ∈ bootstrapStatuses) ∨
    ((run.get "repository").get "id").asInt? ≠ some record.repositoryId ∨
    ((run.get "repository").get "full_name").asStr? ≠ some record.repository ∨
    ((run.get "head_repository").get "id").asInt? ≠ some record.repositoryId ∨
    ((run.get "head_repository").get "full_name").asStr? ≠ some record.repository

instance (request : RunnerBootstrapRequest) (record : IntentRecord) (run : Json) :
    Decidable (bootstrapRunDiffers request record run) :=
  inferInstanceAs (Decidable (_ ∨ _))

/-- The runner of a job in progress, when it is the one that asks. -/
def assignedRunner? (runnerName : String) (job : Json) : Option Int := do
  let name ← (job.get "runner_name").asStr?
  let status ← (job.get "status").asStr?
  let id ← (job.get "runner_id").asStrictInt?
  if name = runnerName ∧ status = "in_progress" ∧ 0 < id then some id else none

def priorStage : Stage → Option Stage
  | .browserEvidence => some .apply
  | .compensatingRollback => some .apply
  | _ => none

section

variable (X : Externals)

def credentialDigest (credential : List UInt8) : Except Failure String := do
  rejectIf (¬ (64 ≤ credential.length ∧ credential.length ≤ 512) ∨ 0 ∈ credential) "BOOTSTRAP_CREDENTIAL_INVALID"
    "bootstrap credential is invalid"
  pure ("sha256:" ++ X.sha256 credential)

def admittedRunner (request : RunnerBootstrapRequest) (eligibleRunners : List EligibleRunner) (jobs : List Json) :
    Except Failure Int :=
  match jobs.filterMap (assignedRunner? request.runnerName) with
  | [runnerId] => do
    rejectIf ((eligibleRunners.filter fun entry => entry.runnerId = runnerId ∧
      entry.runnerNameSha256 = runnerNameDigest X request.runnerName).length ≠ 1)
      "BOOTSTRAP_RUNNER_NOT_ADMITTED" "assigned runner is not in the signed admission lease"
    pure runnerId
  | _ => reject "BOOTSTRAP_RUNNER_ASSIGNMENT_INVALID"
    "exactly one live in-progress job must bind the requesting runner"

def BootstrapResponse.json (r : BootstrapResponse) : Json :=
  .obj [("schemaVersion", .str "acik.cross-ai-runner-bootstrap-response.v1"), ("requestId", .str r.request.requestId),
    ("stage", .str r.request.stage.text), ("runId", .int r.request.runId), ("runAttempt", .int r.request.runAttempt),
    ("runnerId", .int r.runnerId), ("headSha", .str r.request.headSha), ("intentRef", .str r.request.intentRef),
    ("workflowPath", .str r.request.workflowPath), ("bundleSha256", .str r.bundleSha256),
    ("bundleEnvelope", r.bundleEnvelope), ("priorStage", Json.ofOption (fun s => .str s.text) r.priorStage),
    ("priorStageState", Json.ofOption (fun s => .str s.text) r.priorStageState),
    ("priorStageOutcomeSha256", Json.ofOption (fun o => .str o.1) r.priorStageOutcome),
    ("priorStageOutcome", Json.ofOption (fun o => o.2) r.priorStageOutcome), ("issuedAt", .str r.issuedAt.text),
    ("expiresAt", Json.ofOption (fun s => .str s.text) r.expiresAt)]

namespace RunnerBootstrapAuthorizer

variable (B : RunnerBootstrapAuthorizer)

def verifyLiveRunAndRunner (request : RunnerBootstrapRequest) (record : IntentRecord)
    (eligibleRunners : List EligibleRunner) : Action Int := do
  let run ← Action.github (.workflowRunAttempt B.installationId record.repository request.runId request.runAttempt)
  Action.rejectIf (bootstrapRunDiffers request record run) "BOOTSTRAP_RUN_MISMATCH"
    "live workflow run differs from bootstrap request"
  let jobs ← Action.github (.workflowJobs B.installationId record.repository request.runId request.runAttempt)
  Prog.ofExcept (admittedRunner X request eligibleRunners jobs)

/-- The state of the stage before, and its outcome; only a rollback may do without the outcome. -/
def priorOutcome (request : RunnerBootstrapRequest) (prior : Stage) :
    Action (StageState × Option (String × Json)) := do
  let reservation ← Action.registry (.getStage request.requestId prior)
  match ← (Action.registry (.getStageOutcome request.requestId prior)).attempt with
  | .ok outcome => pure (reservation.state, some outcome)
  | .error (.policy exc) =>
    if request.stage ≠ .compensatingRollback ∨ reservation.state ≠ .callbackUnknown ∨
        exc.code ≠ "STAGE_OUTCOME_NOT_FOUND" then .fail (.policy exc)
    else pure (reservation.state, none)
  | .error e => .fail e

def priorOf (request : RunnerBootstrapRequest) : Action (Option StageState × Option (String × Json)) :=
  match priorStage request.stage with
  | none => pure (none, none)
  | some prior => do
    let (state, outcome) ← priorOutcome request prior
    pure (some state, outcome)

/-- The checks made before live GitHub truth is read: what the intent, the token and the credential must be. -/
def admission (request : RunnerBootstrapRequest) (credential : List UInt8) (oidcToken : String) (current : Datetime) :
    Action (IntentRecord × Json × VerifiedBundle × StagePolicy × StageReservation) := do
  let (record, envelope) ← Action.registry (.getFinalized request.requestId)
  let revocations ← Prog.perform Effect.revocations
  let verified ← Prog.ofExcept (B.evaluator.verifiedBundle X current revocations envelope)
  Action.rejectIf (intentDiffers B.evaluator.policy record verified request) "BOOTSTRAP_INTENT_MISMATCH"
    "bootstrap differs from signed intent"
  Prog.perform (Effect.verifyOidc oidcToken ⟨record.repositoryId, record.repository, record.environment,
    request.intentRef, request.headSha, request.workflowPath, request.runId, request.runAttempt,
    verified.payload.grant.triggeringActorId⟩)
  let digest ← Prog.ofExcept (credentialDigest X credential)
  Action.rejectIf (digest ≠ verified.payload.subject.bootstrapCredentialSha256) "BOOTSTRAP_CREDENTIAL_MISMATCH"
    "bootstrap credential is not subject-bound"
  let signed ← Prog.ofExcept (Outcome.signedStage verified request.stage "BOOTSTRAP_STAGE_MISMATCH"
    "bootstrap stage is not signed")
  let stagePolicy ← Action.expect (B.evaluator.policy.stages.find? (·.stage = request.stage.text))
    "BOOTSTRAP_STAGE_MISMATCH" "bootstrap workflow differs from policy"
  Action.rejectIf (signed.workflowPath ≠ request.workflowPath ∨ stagePolicy.workflowPath ≠ request.workflowPath)
    "BOOTSTRAP_STAGE_MISMATCH" "bootstrap workflow differs from policy"
  let reservation ← Action.registry (.getStage request.requestId request.stage)
  Action.rejectIf (reservation.state ≠ .approvedPendingOutcome ∨ reservation.runId ≠ request.runId ∨
    reservation.runAttempt ≠ request.runAttempt) "BOOTSTRAP_STAGE_NOT_APPROVED" "bootstrap run is not approved"
  let approved ← Action.registry (.stageApprovedAt request.requestId request.stage)
  let approvedAt ← Prog.ofExcept (parseUtc X (.str approved.text) "bootstrap.approvedAt")
  Action.rejectIf (current < approvedAt ∨ current > approvedAt + maxBootstrapDelay) "BOOTSTRAP_WINDOW_EXPIRED"
    "bootstrap did not start in the bounded window"
  pure (record, envelope, verified, stagePolicy, reservation)

def authorize (request : RunnerBootstrapRequest) (credential : List UInt8) (oidcToken : String) :
    Action BootstrapResponse := do
  let current ← Action.now
  let (record, envelope, verified, stagePolicy, reservation) ← B.admission X request credential oidcToken current
  let liveRef ← Action.github (.intentRef B.installationId record.repository request.requestId)
  Action.rejectIf (liveRef.headSha ≠ request.headSha ∨ some liveRef.refObjectId ≠ record.refObjectId)
    "INTENT_REF_MOVED" "live intent ref changed before bootstrap"
  DeploymentEvaluator.verifyLiveRunnerInventory X B.installationId record.repository
    stagePolicy.requiredRunsOnLabels verified.runnerAdmissionLease.payload
  let runnerId ← B.verifyLiveRunAndRunner X request record verified.runnerAdmissionLease.payload.eligibleRunners
  let (priorState, priorOutcome) ← priorOf request
  let response : BootstrapResponse := ⟨request, runnerId, verified.bundleDigest, envelope, priorStage request.stage,
    priorState, priorOutcome, utcSeconds current, reservation.reservationExpiresAt, ""⟩
  let digest ← Prog.ofExcept (sha256Digest X response.json)
  let _ ← Action.registry (.consumeBootstrap request.requestId request.stage request.runId request.runAttempt runnerId
    digest (some current))
  pure { response with responseSha256 := digest }

end RunnerBootstrapAuthorizer

end

end PlatformGitops.CrossAi.Bootstrap
