import PlatformGitops.CrossAi.Consensus
import PlatformGitops.CrossAi.Effects
import PlatformGitops.CrossAi.Outcome

/-! Reconciliation of live runs, jobs and artifacts into the outcomes of stages, and the sweeper that drives it. -/

namespace PlatformGitops.CrossAi.Reconciler

open Library IntentStore Contract Outcome

def stageEvidenceFile : String := "cross-ai-stage-evidence.json"
def maxStageEvidenceBytes : Int := 1024 * 1024
def maxZipCompressionRatio : Int := 100

def terminalConclusions : List String :=
  ["success", "failure", "cancelled", "timed_out", "action_required", "startup_failure", "stale"]

structure CriticalStep where
  number : Int
  name : String
  conclusion : String
deriving DecidableEq, Repr

structure CriticalJob where
  name : String
  conclusion : String
  steps : List CriticalStep
deriving DecidableEq, Repr

section

variable (X : Externals)

def criticalStep (requireSuccess : Bool) (steps : List CriticalStep) (step : Json) :
    Except Failure (List CriticalStep) := do
  rejectIf (step.asObj?.isNone) "GITHUB_JOBS_INVALID" "critical step is invalid"
  let invalid {α : Type} (x : Option α) : Except Failure α :=
    expect x "GITHUB_JOBS_INVALID" "critical step state is invalid"
  let number ← invalid (step.get "number").asStrictInt?
  let name ← invalid (step.get "name").asStr?
  let conclusion ← invalid (step.get "conclusion").asStr?
  rejectIf (number < 1 ∨ number ∈ steps.map (·.number) ∨ name = "" ∨
    (step.get "status").asStr? ≠ some "completed" ∨ conclusion ∉ terminalConclusions ++ ["skipped"])
    "GITHUB_JOBS_INVALID" "critical step state is invalid"
  rejectIf (requireSuccess ∧ conclusion ≠ "success") "GITHUB_CRITICAL_JOB_FAILED" "a critical step did not succeed"
  pure (steps ++ [⟨number, name, conclusion⟩])

def criticalJob (runAttempt : Int) (requireSuccess : Bool) (jobs : List CriticalJob) (job : Json) :
    Except Failure (List CriticalJob) := do
  let invalid {α : Type} (x : Option α) : Except Failure α :=
    expect x "GITHUB_JOBS_INVALID" "critical job identity or conclusion is invalid"
  let name ← invalid (job.get "name").asStr?
  let conclusion ← invalid (job.get "conclusion").asStr?
  rejectIf (name = "" ∨ name ∈ jobs.map (·.name) ∨ (job.get "run_attempt").asInt? ≠ some runAttempt ∨
    (job.get "status").asStr? ≠ some "completed" ∨ conclusion ∉ terminalConclusions)
    "GITHUB_JOBS_INVALID" "critical job identity or conclusion is invalid"
  rejectIf (requireSuccess ∧ conclusion ≠ "success") "GITHUB_CRITICAL_JOB_FAILED" "a critical job did not succeed"
  let stepsValue ← expect (job.get "steps").asList? "GITHUB_JOBS_INVALID" "critical job steps are missing"
  rejectIf (stepsValue.isEmpty) "GITHUB_JOBS_INVALID" "critical job steps are missing"
  let steps ← stepsValue.foldlM (criticalStep requireSuccess) []
  pure (jobs ++ [⟨name, conclusion, steps.insertionSort fun s t => s.number ≤ t.number⟩])

def CriticalStep.json (s : CriticalStep) : Json :=
  .obj [("number", .int s.number), ("name", .str s.name), ("conclusion", .str s.conclusion)]

def CriticalJob.json (j : CriticalJob) : Json :=
  .obj [("name", .str j.name), ("conclusion", .str j.conclusion), ("steps", .list (j.steps.map CriticalStep.json))]

def criticalJobsDigest (jobs : List Json) (runAttempt : Int) (requireSuccess : Bool) : Except Failure String := do
  let projection ← jobs.foldlM (criticalJob runAttempt requireSuccess) []
  sha256Digest X (.obj [("domain", .str "acik.cross-ai-critical-jobs.v1"),
    ("jobs", .list ((projection.insertionSort fun j k => j.name ≤ k.name).map CriticalJob.json))])

def unsafeEntry (info : ZipInfo) : Prop :=
  info.isDir ∨ info.encrypted ∨ info.symlink ∨ ¬ (1 ≤ info.fileSize ∧ info.fileSize ≤ maxStageEvidenceBytes) ∨
    info.compressSize < 1 ∨ info.fileSize > info.compressSize * maxZipCompressionRatio

instance (info : ZipInfo) : Decidable (unsafeEntry info) := inferInstanceAs (Decidable (_ ∨ _))

def evidenceEntry (infos : List ZipInfo) : Except Failure ZipInfo :=
  match infos with
  | [info] => do
    rejectIf (info.filename ≠ stageEvidenceFile) "STAGE_ARTIFACT_INVALID"
      "stage artifact must contain exactly one canonical evidence file"
    rejectIf (unsafeEntry info) "STAGE_ARTIFACT_INVALID" "stage evidence ZIP entry is unsafe"
    pure info
  | _ => reject "STAGE_ARTIFACT_INVALID" "stage artifact must contain exactly one canonical evidence file"

def decodeEvidence (raw : List UInt8) : Except Failure Json := do
  let value ← expect (X.jsonLoads raw) "JSON_FILE_INVALID" "stage evidence is not valid JSON"
  rejectIf (value.asObj?.isNone) "JSON_FILE_INVALID" "stage evidence must be an object"
  let canonical ← canonicalBytes value
  rejectIf (canonical ≠ raw) "STAGE_ARTIFACT_NON_CANONICAL" "stage evidence JSON is not canonical"
  rejectIf (X.schemaValid .stageEvidence value = false) "STAGE_EVIDENCE_SCHEMA_INVALID"
    "stage evidence schema validation failed"
  pure value

def stageEvidenceFromArchive (archive : List UInt8) : Action Json := do
  Action.rejectIf (archive.isEmpty) "STAGE_ARTIFACT_INVALID" "stage artifact archive is empty"
  let infos ← Prog.perform (Effect.zipInfos archive)
  let infos ← Action.expect infos "STAGE_ARTIFACT_INVALID" "stage artifact is not a safe ZIP archive"
  let info ← Prog.ofExcept (evidenceEntry infos)
  let raw ← Prog.perform (Effect.zipRead archive)
  let raw ← Action.expect raw "STAGE_ARTIFACT_INVALID" "stage artifact is not a safe ZIP archive"
  Action.rejectIf ((raw.length : Int) ≠ info.fileSize) "STAGE_ARTIFACT_INVALID"
    "stage evidence size differs from ZIP metadata"
  Prog.ofExcept (decodeEvidence X raw)

end

/-- A reconciler, with what its constructor has checked. -/
structure GitHubOutcomeReconciler where
  installationId : Int
  trustRoot : Json
  expectedTrustRootSha256 : String
  installation : 1 ≤ installationId

def runDiffers (record : IntentRecord) (reservation : StageReservation) (signedStage : WorkflowStage)
    (run : Json) : Prop :=
  (run.get "id").asInt? ≠ some reservation.runId ∨ (run.get "run_attempt").asInt? ≠ some reservation.runAttempt ∨
    (run.get "event").asStr? ≠ some "workflow_dispatch" ∨ (run.get "head_sha").asStr? ≠ some record.headSha ∨
    (run.get "head_branch").asStr? ≠ some (branchOf record.intentRef) ∨
    (run.get "path").asStr? ≠ some signedStage.workflowPath ∨
    ((run.get "repository").get "id").asInt? ≠ some record.repositoryId ∨
    ((run.get "repository").get "full_name").asStr? ≠ some record.repository ∨
    ((run.get "head_repository").get "id").asInt? ≠ some record.repositoryId ∨
    ((run.get "head_repository").get "full_name").asStr? ≠ some record.repository

instance (record : IntentRecord) (reservation : StageReservation) (signedStage : WorkflowStage) (run : Json) :
    Decidable (runDiffers record reservation signedStage run) :=
  inferInstanceAs (Decidable (_ ∨ _))

/-- The run is the reserved one and has ended. -/
def terminalRun (record : IntentRecord) (reservation : StageReservation) (signedStage : WorkflowStage) (run : Json) :
    Except Failure Unit := do
  rejectIf (runDiffers record reservation signedStage run) "STAGE_OUTCOME_RUN_MISMATCH"
    "workflow run differs from signed reservation"
  rejectIf ((run.get "status").asStr? ≠ some "completed" ∨
    ¬ ∃ conclusion ∈ (run.get "conclusion").asStr?, conclusion ∈ terminalConclusions)
    "STAGE_OUTCOME_RUN_NOT_TERMINAL" "workflow run attempt is not terminal"

def expectedConclusion (stage : Stage) (conclusion : Json) : String :=
  match conclusion.asStr? with
  | some "success" => if stage = .compensatingRollback then "rolled-back" else "success"
  | some "rolled-back" => "rolled-back"
  | _ => "failure"

def withField (outcome : List (String × Json)) (key : String) (value : Json) : List (String × Json) :=
  (outcome.filter (·.1 ≠ key)) ++ [(key, value)]

def composeOutcome (evidence : Json) (runStartedAt criticalJobs artifactName archiveDigest : String) : Json :=
  .obj ([("schemaVersion", .str "acik.cross-ai-deployment-stage-outcome.v1"), ("runStartedAt", .str runStartedAt),
    ("criticalJobsSha256", .str criticalJobs), ("sourceArtifactName", .str artifactName),
    ("sourceArchiveSha256", .str archiveDigest)].foldl (fun outcome p => withField outcome p.1 p.2)
      (evidence.asObj?.getD []))

namespace GitHubOutcomeReconciler

variable (X : Externals) (R : GitHubOutcomeReconciler)

def verifiedBundle (now : Datetime) (revocations envelope : Json) : Except Failure VerifiedBundle := do
  let verifier ← EvidenceVerifier.init X R.trustRoot revocations now none (some R.expectedTrustRootSha256) .active none
  verifier.verifyBundle X envelope

/-- The product artifact of a successful browser stage is downloaded and compared. -/
def checkProductArtifact (record : IntentRecord) (reservation : StageReservation) (evidence : Json) : Action Unit := do
  let missing {α : Type} (x : Option α) : Action α :=
    Action.expect x "STAGE_PRODUCT_ARTIFACT_MISMATCH" "successful browser evidence lacks product artifact binding"
  let id ← missing (evidence.get "productArtifactId").asStrictInt?
  let name ← missing (evidence.get "productArtifactName").asStr?
  let digest ← missing (evidence.get "productArtifactDigest").asStr?
  Action.rejectIf (id < 1 ∨ name = "") "STAGE_PRODUCT_ARTIFACT_MISMATCH"
    "successful browser evidence lacks product artifact binding"
  let archive ← Action.github (.fetchArtifact R.installationId record.repository reservation.runId name (some id))
  Action.rejectIf ("sha256:" ++ X.sha256 archive ≠ digest) "STAGE_PRODUCT_ARTIFACT_MISMATCH"
    "downloaded product artifact digest differs from stage evidence"

/-- The outcome of an ended run, from its jobs and its artifact. -/
def sealedOutcome (requestId : String) (stage : Stage) (record : IntentRecord) (verified : VerifiedBundle)
    (reservation : StageReservation) (run : Json) (current : Datetime) : Action VerifiedStageOutcome := do
  let runStartedAt ← Action.expect (run.get "run_started_at").asStr? "STAGE_OUTCOME_RUN_MISMATCH"
    "run start time is missing"
  let _ ← Prog.ofExcept (parseUtc X (.str runStartedAt) "workflowRun.run_started_at")
  let jobs ← Action.github (.workflowJobs R.installationId record.repository reservation.runId reservation.runAttempt)
  let criticalJobs ← Prog.ofExcept (criticalJobsDigest X jobs reservation.runAttempt
    ((run.get "conclusion").asStr? = some "success"))
  let artifactName := sourceArtifactName requestId stage reservation.runId reservation.runAttempt
  let archive ← Action.github (.fetchArtifact R.installationId record.repository reservation.runId artifactName none)
  let archiveDigest := "sha256:" ++ X.sha256 archive
  let evidence ← stageEvidenceFromArchive X archive
  if stage = .browserEvidence ∧ (evidence.get "conclusion").asStr? = some "success" then
    checkProductArtifact X R record reservation evidence
  let outcome := composeOutcome evidence runStartedAt criticalJobs artifactName archiveDigest
  Action.rejectIf ((outcome.get "conclusion").asStr? ≠ some (expectedConclusion stage (run.get "conclusion")))
    "STAGE_OUTCOME_RUN_MISMATCH" "artifact conclusion differs from live run"
  Prog.ofExcept (verifyStageOutcome X outcome verified ⟨stage, reservation.runId, reservation.runAttempt, runStartedAt,
    criticalJobs, artifactName, archiveDigest⟩ current)

/-- An overdue stage whose run has ended. -/
def markUnknown (requestId : String) (stage : Stage) (reservation : StageReservation) (current : Datetime) :
    Action Unit :=
  if reservation.state = .outcomeOverdue then
    Action.registry (.transitionStage requestId stage "CallbackUnknown" "TERMINAL_RUN_WITH_UNSEALED_OUTCOME"
      (some current))
  else pure ()

def reconcile (requestId : String) (stage : Stage) : Action VerifiedStageOutcome := do
  let current ← Action.now
  let (record, envelope) ← Action.registry (.getFinalized requestId)
  let revocations ← Prog.perform Effect.revocations
  let verified ← Prog.ofExcept (R.verifiedBundle X current revocations envelope)
  let reservation ← Action.registry (.getStage requestId stage)
  let signed ← Prog.ofExcept (signedStage verified stage "STAGE_OUTCOME_BINDING_MISMATCH" "signed stage is ambiguous")
  let run ← Action.github (.workflowRunAttempt R.installationId record.repository reservation.runId
    reservation.runAttempt)
  Prog.ofExcept (terminalRun record reservation signed run)
  markUnknown requestId stage reservation current
  let outcome ← sealedOutcome X R requestId stage record verified reservation run current
  let _ ← Action.registry (.recordStageOutcome ⟨outcome.requestId, outcome.stage, outcome.runId, outcome.runAttempt,
    outcome.payload, outcome.outcomeDigest, outcome.targetState⟩ (some current))
  pure outcome

/-- The reservations one after the other, with the numbers of those attempted and completed. -/
def reconcileEach : List StageReservation → Nat × Nat → Action (Nat × Nat)
  | [], counts => pure counts
  | reservation :: rest, (attempted, completed) => do
    match ← (R.reconcile X reservation.requestId reservation.stage).attempt with
    | .ok _ => reconcileEach rest (attempted + 1, completed + 1)
    | .error _ => reconcileEach rest (attempted + 1, completed)

def runOnce : Action (Nat × Nat) := do
  let _ ← Action.registry (.expirePendingStages none)
  let pending ← Action.registry (.pendingStages 100)
  R.reconcileEach X pending (0, 0)

end GitHubOutcomeReconciler

end PlatformGitops.CrossAi.Reconciler
