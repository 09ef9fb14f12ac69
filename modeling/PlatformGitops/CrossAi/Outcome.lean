import PlatformGitops.CrossAi.IntentStore.Stages

/-! Verification of the outcome of a stage against the signed intent. -/

namespace PlatformGitops.CrossAi.Outcome

open Library IntentStore

def maxClockSkew : Int := 60 * second

structure VerifiedStageOutcome where
  requestId : String
  stage : Stage
  runId : Int
  runAttempt : Int
  outcomeDigest : String
  targetState : String
  payload : Json

/-- What the run and its artifacts say about the outcome. -/
structure Expectation where
  stage : Stage
  runId : Int
  runAttempt : Int
  runStartedAt : String
  criticalJobsSha256 : String
  sourceArtifactName : String
  sourceArchiveSha256 : String

/-- Equality of a decoded value with a text or a number. -/
def sameScalar (value expected : Json) : Prop :=
  value.asInt? = expected.asInt? ∧ value.asStr? = expected.asStr?

instance (value expected : Json) : Decidable (sameScalar value expected) := inferInstanceAs (Decidable (_ ∧ _))

def signedStage (bundle : VerifiedBundle) (stage : Stage) (code message : String) : Except Failure WorkflowStage :=
  match bundle.payload.workflowStages.filter (·.stage = stage.text) with
  | [signed] => pure signed
  | _ => reject code message

def exactFields (bundle : VerifiedBundle) (stage : WorkflowStage) (expected : Expectation) : List (String × Json) :=
  let subject := bundle.payload.subject
  [("requestId", .str bundle.requestId), ("stage", .str expected.stage.text), ("runId", .int expected.runId),
    ("runAttempt", .int expected.runAttempt), ("runStartedAt", .str expected.runStartedAt),
    ("repositoryId", .int subject.repositoryId), ("repository", .str subject.repository),
    ("environment", .str subject.environment), ("headSha", .str subject.headSha),
    ("intentRef", .str subject.intentRef), ("sessionSha256", .str subject.sessionSha256),
    ("workflowBlobSha256", .str stage.workflowBlobSha256), ("criticalJobsSha256", .str expected.criticalJobsSha256),
    ("sourceArtifactName", .str expected.sourceArtifactName),
    ("sourceArchiveSha256", .str expected.sourceArchiveSha256),
    ("artifactSetSha256", .str subject.artifactSetSha256), ("rollbackPlanSha256", .str subject.rollbackPlanSha256),
    ("postDeployVerifierSha256", .str subject.postDeployVerifierSha256)]

section

variable (X : Externals)

/-- The times of the outcome lie in the signed grant; its creation and the end of the grant are returned. -/
def outcomeTimes (payload : Json) (grant : Grant) (now : Datetime) : Except Failure (Datetime × Datetime) := do
  let createdAt ← parseUtc X (payload.get "createdAt") "stageOutcome.createdAt"
  let runStartedAt ← parseUtc X (payload.get "runStartedAt") "stageOutcome.runStartedAt"
  let grantStart ← parseUtc X grant.notBefore "grant.notBefore"
  let grantEnd ← parseUtc X grant.expiresAt "grant.expiresAt"
  rejectIf (createdAt < grantStart - maxClockSkew ∨ createdAt > grantEnd + maxClockSkew)
    "STAGE_OUTCOME_TIME_INVALID" "stage outcome is outside the signed grant"
  rejectIf (createdAt > now + maxClockSkew) "STAGE_OUTCOME_TIME_INVALID"
    "stage outcome creation time is in the future"
  rejectIf (runStartedAt < grantStart - maxClockSkew ∨ runStartedAt > createdAt ∨ runStartedAt > now + maxClockSkew)
    "STAGE_OUTCOME_TIME_INVALID" "run start time is outside the signed outcome"
  pure (createdAt, grantEnd)

def applyConclusion (payload : Json) (createdAt grantEnd : Datetime) : Except Failure Unit := do
  let conclusion := (payload.get "conclusion").asStr?
  let watchdog := payload.get "watchdogExpiresAt"
  rejectIf (conclusion ≠ some "success" ∧ conclusion ≠ some "failure") "STAGE_OUTCOME_STATE_INVALID"
    "apply outcome has an invalid conclusion"
  rejectIf (conclusion = some "success" ∧ watchdog.isNull) "STAGE_OUTCOME_STATE_INVALID"
    "successful apply outcome requires a watchdog expiry"
  if watchdog.isNull then pure ()
  else do
    let watchdogEnd ← parseUtc X watchdog "stageOutcome.watchdogExpiresAt"
    rejectIf (watchdogEnd ≤ createdAt ∨ watchdogEnd > grantEnd) "STAGE_OUTCOME_WATCHDOG_INVALID"
      "apply watchdog expiry is not bounded by the signed grant"

def noProductArtifact (payload : Json) : Prop :=
  (payload.get "productArtifactId").isNull ∧ (payload.get "productArtifactName").isNull ∧
    (payload.get "productArtifactDigest").isNull

instance (payload : Json) : Decidable (noProductArtifact payload) := inferInstanceAs (Decidable (_ ∧ _))

def browserConclusion (payload : Json) (runId : Int) : Except Failure Unit := do
  let conclusion := (payload.get "conclusion").asStr?
  rejectIf ((conclusion ≠ some "success" ∧ conclusion ≠ some "failure") ∨
    (payload.get "watchdogExpiresAt").isNull = false) "STAGE_OUTCOME_STATE_INVALID"
    "browser outcome has an invalid conclusion or watchdog field"
  rejectIf (conclusion = some "success" ∧ ((¬ ∃ id ∈ (payload.get "productArtifactId").asStrictInt?, 1 ≤ id) ∨
    (payload.get "productArtifactName").asStr? ≠
      some ("faz22-6-view-only-viewer-browser-evidence-" ++ toString runId) ∨
    (payload.get "productArtifactDigest").asStr?.isNone)) "STAGE_OUTCOME_PRODUCT_ARTIFACT_INVALID"
    "successful browser outcome lacks the uploaded product artifact binding"
  rejectIf (conclusion = some "failure" ∧ ¬ noProductArtifact payload) "STAGE_OUTCOME_PRODUCT_ARTIFACT_INVALID"
    "failed browser outcome must not assert a product artifact"

def rollbackConclusion (payload : Json) : Except Failure Unit :=
  let conclusion := (payload.get "conclusion").asStr?
  rejectIf ((conclusion ≠ some "rolled-back" ∧ conclusion ≠ some "failure") ∨
    (payload.get "watchdogExpiresAt").isNull = false) "STAGE_OUTCOME_STATE_INVALID"
    "rollback outcome has an invalid conclusion or watchdog field"

def stageConclusion (payload : Json) (expected : Expectation) (createdAt grantEnd : Datetime) : Except Failure Unit :=
  match expected.stage with
  | .apply => applyConclusion X payload createdAt grantEnd
  | .browserEvidence => browserConclusion payload expected.runId
  | _ => rollbackConclusion payload

def targetState (conclusion : Json) : Except Failure String :=
  match conclusion.asStr? with
  | some "success" => pure "Succeeded"
  | some "failure" => pure "Failed"
  | some "rolled-back" => pure "RolledBack"
  | _ => .error (.keyError "conclusion")

def verifyStageOutcome (payload : Json) (bundle : VerifiedBundle) (expected : Expectation) (now : Datetime) :
    Except Failure VerifiedStageOutcome := do
  rejectIf (X.schemaValid .stageOutcome payload = false) "STAGE_OUTCOME_SCHEMA_INVALID" "stage outcome invalid"
  let stage ← signedStage bundle expected.stage "STAGE_OUTCOME_BINDING_MISMATCH"
    "signed stage is missing or ambiguous"
  rejectIf (expected.sourceArtifactName ≠
    sourceArtifactName bundle.requestId expected.stage expected.runId expected.runAttempt)
    "STAGE_OUTCOME_BINDING_MISMATCH" "source artifact name is not canonical for the signed run"
  (exactFields bundle stage expected).forM fun p => rejectIf (¬ sameScalar (payload.get p.1) p.2)
    "STAGE_OUTCOME_BINDING_MISMATCH" ("stage outcome field " ++ p.1 ++ " differs from signed/live authority")
  let (createdAt, grantEnd) ← outcomeTimes X payload bundle.payload.grant now
  stageConclusion X payload expected createdAt grantEnd
  rejectIf (expected.stage ≠ .browserEvidence ∧ ¬ noProductArtifact payload)
    "STAGE_OUTCOME_PRODUCT_ARTIFACT_INVALID" "non-browser outcome must not assert a product artifact"
  let target ← targetState (payload.get "conclusion")
  let outcomeDigest ← sha256Digest X payload
  pure ⟨bundle.requestId, expected.stage, expected.runId, expected.runAttempt, outcomeDigest, target, payload⟩

end

end PlatformGitops.CrossAi.Outcome
