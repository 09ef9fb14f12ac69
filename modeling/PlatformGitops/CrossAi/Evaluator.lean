import PlatformGitops.CrossAi.Consensus
import PlatformGitops.CrossAi.Dispatcher

/-! Evaluation of a deployment request against the registry, the signed evidence and live GitHub truth. -/

namespace PlatformGitops.CrossAi.Evaluator

open Library IntentStore Contract

inductive Phase where
  | observe | dualGate | machineOnlyNonprod
deriving DecidableEq, Repr

inductive Mode where
  | observe | enforce
deriving DecidableEq, Repr

structure DeploymentPolicy where
  digest : String
  phase : Phase
  machineOnlyEnabled : Bool
  repositoryId : Int
  repository : String
  environment : String
  runnerBootstrapUrl : String
  allowedInstallationIds : List Int
  allowedDispatcherInstallationIds : List Int
  allowedDispatcherActorIds : List Int
  allowedDeploymentClasses : List String
  maxGrantTtlMinutes : Int
  requiredCustomRuleAppIds : List Int
  stages : List StagePolicy
deriving DecidableEq, Repr

def DeploymentPolicy.authorityIds (policy : DeploymentPolicy) : List Int :=
  policy.allowedInstallationIds ++ policy.allowedDispatcherInstallationIds ++
    policy.allowedDispatcherActorIds ++ policy.requiredCustomRuleAppIds

def zeroTrustRootSha256 : String := "sha256:" ++ String.ofList (List.replicate 64 '0')

def inertPolicyIds : List Int := [900000001, 900000002, 900000003, 900000004]

/-- An evaluator, with what its constructor has checked. -/
structure DeploymentEvaluator where
  policy : DeploymentPolicy
  trustRoot : Json
  expectedTrustRootSha256 : String
  mode : Mode
  enforcePhase : mode = .enforce → policy.phase ≠ .observe
  trustRootPin : mode = .enforce → expectedTrustRootSha256 ≠ zeroTrustRootSha256
  policyAuthority : mode = .enforce → ∀ id ∈ policy.authorityIds, id ∉ inertPolicyIds
  machineOnly : policy.phase = .machineOnlyNonprod → policy.machineOnlyEnabled = true

def object (value : Json) (field : String) : Except Failure Json := do
  rejectIf (value.asObj?.isNone) "GITHUB_TRUTH_INVALID" (field ++ " is not an object")
  pure value

def positiveInt (value : Json) (field : String) : Except Failure Int :=
  expect (Dispatcher.positiveInt? value) "GITHUB_TRUTH_INVALID" (field ++ " is not a positive integer")

section

variable (X : Externals) (policy : DeploymentPolicy) (mode : Mode)

def policyBinding (request : DeploymentProtectionRequest) : Except Failure Unit := do
  rejectIf (request.repositoryId ≠ policy.repositoryId ∨ request.repository ≠ policy.repository)
    "POLICY_REPOSITORY_MISMATCH" "webhook repository is not allowlisted"
  rejectIf (request.environment ≠ policy.environment) "POLICY_ENVIRONMENT_MISMATCH"
    "webhook Environment is not allowlisted"
  rejectIf (request.installationId ∉ policy.allowedInstallationIds) "POLICY_INSTALLATION_MISMATCH"
    "GitHub App installation is not allowlisted"

/-- The custom rule Apps seen so far, and whether a human reviewer is required. -/
def protectionRule (acc : List Int × Bool) (rule : Json) : Except Failure (List Int × Bool) := do
  let rule ← object rule "environment.protection_rules[]"
  match (rule.get "type").asStr? with
  | some "required_reviewers" => pure (acc.1, true)
  | some "custom" =>
    let app ← object (rule.get "app") "environment.protection_rules[].app"
    let id ← positiveInt (app.get "id") "custom App ID"
    pure (acc.1 ++ [id], acc.2)
  | _ => pure acc

def environmentBinding (value : Json) : Except Failure Int := do
  rejectIf ((value.get "name").asStr? ≠ some policy.environment) "ENVIRONMENT_SNAPSHOT_MISMATCH"
    "Environment name differs"
  let rules ← expect (value.get "protection_rules").asList? "ENVIRONMENT_SNAPSHOT_INVALID"
    "Environment protection rules are missing"
  let (customApps, requiredReviewer) ← rules.foldlM protectionRule ([], false)
  rejectIf (¬ sameSet customApps policy.requiredCustomRuleAppIds) "ENVIRONMENT_CUSTOM_RULE_DRIFT"
    "enabled custom deployment rule App IDs differ from policy"
  rejectIf (customApps.dedup.length ≠ 1) "ENVIRONMENT_CUSTOM_RULE_DRIFT" "v1 requires exactly one custom rule App"
  rejectIf (mode = .enforce ∧ (value.get "can_admins_bypass").asBool? ≠ some false)
    "ENVIRONMENT_ADMIN_BYPASS_UNVERIFIED"
    "enforcement requires live proof that administrators cannot bypass rules"
  rejectIf (policy.phase = .dualGate ∧ requiredReviewer = false) "ENVIRONMENT_REVIEWER_DRIFT"
    "dual-gate phase requires a human reviewer"
  rejectIf (policy.phase = .machineOnlyNonprod ∧ requiredReviewer = true) "ENVIRONMENT_REVIEWER_DRIFT"
    "machine-only phase must not retain the repeated reviewer rule"
  let branch ← object (value.get "deployment_branch_policy") "deployment_branch_policy"
  rejectIf ((branch.get "protected_branches").asBool? ≠ some false ∨
    (branch.get "custom_branch_policies").asBool? ≠ some true) "ENVIRONMENT_BRANCH_POLICY_DRIFT"
    "Environment must use custom deployment branch policy for intent refs"
  expect customApps.head? "ENVIRONMENT_CUSTOM_RULE_DRIFT" "v1 requires exactly one custom rule App"

/-- The states of a run that has not ended. -/
def liveStatuses : List String := ["queued", "waiting", "pending", "in_progress"]

/-- The part of the run binding before its window: what the run must be, and its path and attempt. -/
def runIdentity (request : DeploymentProtectionRequest) (run : Json) : Except Failure (String × Int) := do
  let id ← positiveInt (run.get "id") "run.id"
  rejectIf (id ≠ request.runId) "RUN_ID_MISMATCH" "workflow run ID differs from callback route"
  rejectIf ((run.get "event").asStr? ≠ some "workflow_dispatch") "RUN_EVENT_MISMATCH"
    "workflow run is not workflow_dispatch"
  rejectIf ((run.get "head_sha").asStr? ≠ some request.headSha) "HEAD_OR_WORKFLOW_MISMATCH"
    "workflow run head differs"
  rejectIf ((run.get "head_branch").asStr? ≠ some (branchOf request.intentRef)) "INTENT_REF_MISMATCH"
    "workflow run did not use the immutable intent ref"
  let repository ← object (run.get "repository") "run.repository"
  let headRepository ← object (run.get "head_repository") "run.head_repository"
  rejectIf ((repository.get "id").asInt? ≠ some policy.repositoryId ∨
    (repository.get "full_name").asStr? ≠ some policy.repository ∨
    (headRepository.get "id").asInt? ≠ some policy.repositoryId ∨
    (headRepository.get "full_name").asStr? ≠ some policy.repository) "RUN_REPOSITORY_MISMATCH"
    "run repository or head repository differs"
  let actor ← object (run.get "triggering_actor") "run.triggering_actor"
  let actorId ← positiveInt (actor.get "id") "run.triggering_actor.id"
  rejectIf (actorId ∉ policy.allowedDispatcherActorIds) "RUN_ACTOR_MISMATCH"
    "triggering actor is not the trusted dispatcher"
  let runAttempt ← positiveInt (run.get "run_attempt") "run.run_attempt"
  rejectIf (¬ ∃ status ∈ (run.get "status").asStr?, status ∈ liveStatuses) "RUN_STATE_INVALID"
    "workflow run is not awaiting or entering execution"
  let workflowPath ← expect (run.get "path").asStr? "GITHUB_TRUTH_INVALID" "run.path is missing"
  pure (workflowPath, runAttempt)

def maxDispatchDelay : Int := 10 * minute

def runBinding (request : DeploymentProtectionRequest) (run : Json) (registeredAt : Stamp)
    (finalizedAt : Option Stamp) (now : Datetime) : Except Failure (String × Int) := do
  let identity ← runIdentity policy request run
  let createdAt ← parseUtc X (run.get "created_at") "run.created_at"
  let finalizedAt := (finalizedAt.getD registeredAt).instant
  rejectIf (createdAt < finalizedAt ∨ createdAt > finalizedAt + maxDispatchDelay) "RUN_DISPATCH_WINDOW_INVALID"
    "workflow run is outside dispatch window"
  rejectIf (createdAt > now + 60 * second) "RUN_DISPATCH_WINDOW_INVALID"
    "workflow run creation time is in the future"
  pure identity

def runnerNameDigest (name : String) : String := "sha256:" ++ X.sha256 (utf8 name)

def invalidRunner (runner : Json) : Prop :=
  (Dispatcher.positiveInt? (runner.get "id")).isNone ∨ (runner.get "name").asStr?.getD "" = "" ∨
    (runner.get "status").asStr? ≠ some "online" ∨ (runner.get "busy").asBool?.isNone ∨
    (runner.get "labels").asList?.isNone

instance (runner : Json) : Decidable (invalidRunner runner) := inferInstanceAs (Decidable (_ ∨ _))

/-- A live runner, or none when it lacks a required label. -/
def eligibleRunner (requiredLabels : List String) (runner : Json) : Except Failure (Option EligibleRunner) := do
  rejectIf (invalidRunner runner) "GITHUB_RUNNER_INVENTORY_INVALID"
    "repository runner inventory contains an invalid runner"
  let labels ← expect (((runner.get "labels").asList?.getD []).mapM fun label => (label.get "name").asStr?)
    "GITHUB_RUNNER_INVENTORY_INVALID" "repository runner inventory contains an invalid label"
  rejectIf (¬ labels.Nodup) "GITHUB_RUNNER_INVENTORY_INVALID"
    "repository runner inventory contains duplicate labels"
  if ∀ label ∈ requiredLabels, label ∈ labels then
    pure (some ⟨(runner.get "id").asInt?.getD 0, runnerNameDigest X ((runner.get "name").asStr?.getD ""),
      labels.insertionSort (· ≤ ·)⟩)
  else pure none

def runnerProjection (runners : List EligibleRunner) : List EligibleRunner :=
  (runners.map fun r => { r with labels := r.labels.insertionSort (· ≤ ·) }).insertionSort
    fun r s => r.runnerId ≤ s.runnerId

def runnerJson (runner : EligibleRunner) : Json :=
  .obj [("runnerId", .int runner.runnerId), ("runnerNameSha256", .str runner.runnerNameSha256),
    ("labels", .list (runner.labels.map .str))]

def checkRunnerInventory (live : List Json) (requiredLabels : List String) (lease : LeasePayload) :
    Except Failure Unit := do
  let eligible ← live.mapM (eligibleRunner X requiredLabels)
  let liveProjection := runnerProjection (eligible.filterMap id)
  let generation ← sha256Digest X (.obj [("domain", .str "acik.cross-ai-runner-inventory-generation.v1"),
    ("runners", .list (liveProjection.map runnerJson))])
  rejectIf (liveProjection = [] ∨ liveProjection ≠ runnerProjection lease.eligibleRunners ∨
    generation ≠ lease.inventoryGenerationSha256) "RUNNER_ADMISSION_LEASE_DRIFT"
    "live eligible runner inventory differs from the signed lease"

def dispatchDiffers (dispatch : DispatchJob) (request : DeploymentProtectionRequest) (workflowPath : String)
    (actorId : Int) : Prop :=
  dispatch.state ≠ .accepted ∨ dispatch.runId ≠ some request.runId ∨
    dispatch.installationId ∉ policy.allowedDispatcherInstallationIds ∨
    dispatch.repositoryId ≠ policy.repositoryId ∨ dispatch.repository ≠ policy.repository ∨
    dispatch.workflowPath ≠ workflowPath ∨ dispatch.intentRef ≠ request.intentRef ∨
    dispatch.headSha ≠ request.headSha ∨ dispatch.expectedActorId ≠ actorId ∨
    ¬ ∃ watermark ∈ dispatch.preDispatchRunIdWatermark, watermark < request.runId

instance (dispatch : DispatchJob) (request : DeploymentProtectionRequest) (workflowPath : String) (actorId : Int) :
    Decidable (dispatchDiffers policy dispatch request workflowPath actorId) :=
  inferInstanceAs (Decidable (_ ∨ _))

def recordDiffers (record : IntentRecord) (request : DeploymentProtectionRequest) : Prop :=
  record.repositoryId ≠ request.repositoryId ∨ record.repository ≠ request.repository ∨
    record.environment ≠ request.environment ∨ record.headSha ≠ request.headSha ∨
    record.intentRef ≠ request.intentRef

instance (record : IntentRecord) (request : DeploymentProtectionRequest) : Decidable (recordDiffers record request) :=
  inferInstanceAs (Decidable (_ ∨ _))

/-- The checks of the signed evidence against the registered intent and the policy. -/
def evidenceBinding (record : IntentRecord) (verified : VerifiedBundle) : Except Failure Unit := do
  rejectIf (policy.phase = .machineOnlyNonprod ∧
    ∃ identity ∈ verified.providerIdentityClasses, identity.2 ≠ "provider-reported")
    "MACHINE_ONLY_IDENTITY_UNTRUSTED" "machine-only mode rejects launch-attested provider leaves"
  rejectIf (verified.bundleDigest ≠ record.bundleDigest ∨ verified.subjectDigest ≠ record.subjectDigest ∨
    verified.sessionDigest ≠ record.sessionDigest) "INTENT_BUNDLE_MISMATCH" "registry and signed evidence differ"
  rejectIf (verified.payload.subject.deploymentClass ∉ policy.allowedDeploymentClasses) "HUMAN_REQUIRED_CLASS"
    "deployment class is outside reversible non-prod"
  let grant := verified.payload.grant
  rejectIf (grant.triggeringActorId ∉ policy.allowedDispatcherActorIds) "RUN_ACTOR_MISMATCH"
    "signed triggering actor is not allowlisted"
  let grantStart ← parseUtc X grant.notBefore "grant.notBefore"
  let grantEnd ← parseUtc X grant.expiresAt "grant.expiresAt"
  rejectIf (grantEnd - grantStart > policy.maxGrantTtlMinutes * minute) "GRANT_TTL_EXCEEDED"
    "grant exceeds deployment policy TTL"

def repositoryBinding (repository : Json) : Except Failure Unit := do
  rejectIf ((repository.get "id").asInt? ≠ some policy.repositoryId ∨
    (repository.get "full_name").asStr? ≠ some policy.repository) "GITHUB_REPOSITORY_MISMATCH"
    "live repository identity differs"
  rejectIf ((repository.get "fork").asBool? ≠ some false) "GITHUB_REPOSITORY_MISMATCH"
    "fork repositories are not authorized"

/-- The one signed stage of a workflow path, with the policy of that stage. -/
def signedStage (verified : VerifiedBundle) (workflowPath : String) :
    Except Failure (WorkflowStage × StagePolicy) := do
  match verified.payload.workflowStages.filter (·.workflowPath = workflowPath) with
  | [stage] =>
    let stagePolicy ← expect (policy.stages.find? (·.stage = stage.stage)) "HEAD_OR_WORKFLOW_MISMATCH"
      "workflow path differs from policy"
    rejectIf (stagePolicy.workflowPath ≠ workflowPath) "HEAD_OR_WORKFLOW_MISMATCH"
      "workflow path differs from policy"
    pure (stage, stagePolicy)
  | _ => reject "HEAD_OR_WORKFLOW_MISMATCH" "workflow path is not one signed stage"

end

namespace DeploymentEvaluator

variable (X : Externals) (E : DeploymentEvaluator)

def verifiedBundle (now : Datetime) (revocations envelope : Json) : Except Failure VerifiedBundle := do
  let verifier ← EvidenceVerifier.init X E.trustRoot revocations now (some E.policy.digest)
    (some E.expectedTrustRootSha256) .active none
  verifier.verifyBundle X envelope

def verifyLiveRunnerInventory (installationId : Int) (repository : String) (requiredLabels : List String)
    (lease : LeasePayload) : Action Unit := do
  if "self-hosted" ∈ requiredLabels then
    let live ← Action.github (.repositoryRunners installationId repository)
    Prog.ofExcept (checkRunnerInventory X live requiredLabels lease)

/-- The part of an evaluation after the run binding. -/
def evaluateStage (request : DeploymentProtectionRequest) (record : IntentRecord) (verified : VerifiedBundle)
    (run : Json) (identity : String × Int) (appRuleId : Int) : Action EvaluationResult := do
  let liveRef ← Action.github (.intentRef request.installationId request.repository request.requestId)
  Action.rejectIf (liveRef.headSha ≠ request.headSha ∨ some liveRef.refObjectId ≠ record.refObjectId)
    "INTENT_REF_MOVED" "live intent ref no longer resolves to reviewed head"
  let (workflowPath, runAttempt) := identity
  let (stage, stagePolicy) ← Prog.ofExcept (signedStage E.policy verified workflowPath)
  let dispatch ← Action.registry (.getDispatch request.requestId (Stage.ofText stage.stage))
  let actorId := verified.payload.grant.triggeringActorId
  Action.rejectIf (dispatchDiffers E.policy dispatch request workflowPath actorId) "DISPATCH_CORRELATION_MISMATCH"
    "callback is not bound to one accepted dispatcher run"
  Action.rejectIf (stage.runsOnLabels ≠ stagePolicy.requiredRunsOnLabels)
    "RUNNER_POLICY_OR_INPUT_AUTHORITY_MISMATCH" "signed runner labels differ"
  Action.rejectIf (stagePolicy.requireRunnerGroup ≠ stage.hasRunnerGroup)
    "RUNNER_POLICY_OR_INPUT_AUTHORITY_MISMATCH" "signed runner group differs"
  verifyLiveRunnerInventory X request.installationId request.repository stagePolicy.requiredRunsOnLabels
    verified.runnerAdmissionLease.payload
  let workflowRaw ← Action.github (.workflowBytes request.installationId request.repository workflowPath
    request.headSha)
  let inspection ← Prog.perform (Effect.inspectWorkflow workflowRaw stagePolicy request.environment
    E.policy.runnerBootstrapUrl)
  Action.rejectIf (inspection.workflowSha256 ≠ stage.workflowBlobSha256 ∨
    inspection.dependencyLockSha256 ≠ stage.dependencyLockSha256 ∨
    inspection.concurrencyGroupSha256 ≠ stage.concurrencyGroupSha256) "INTENT_REF_OR_DEPENDENCY_LOCK_MISMATCH"
    "workflow or dependency projection differs from signed evidence"
  Action.rejectIf (((run.get "triggering_actor").get "id").asInt? ≠ some actorId) "RUN_ACTOR_MISMATCH"
    "run actor differs from signed grant"
  pure ⟨true, "SIGNED_EVIDENCE_AND_GITHUB_TRUTH_VALID", request.requestId, Stage.ofText stage.stage, request.runId,
    runAttempt, appRuleId, verified.bundleDigest, E.policy.digest, verified.providerFamilies⟩

def evaluate (request : DeploymentProtectionRequest) : Action EvaluationResult := do
  let now ← Action.now
  Prog.ofExcept (policyBinding E.policy request)
  let (record, envelope) ← Action.registry (.getFinalized request.requestId)
  Action.rejectIf (recordDiffers record request) "INTENT_WEBHOOK_BINDING_MISMATCH"
    "registered intent differs from webhook"
  let revocations ← Prog.perform Effect.revocations
  let verified ← Prog.ofExcept (E.verifiedBundle X now revocations envelope)
  Prog.ofExcept (evidenceBinding X E.policy record verified)
  let repository ← Action.github (.repository request.installationId request.repository)
  Prog.ofExcept (repositoryBinding E.policy repository)
  let environment ← Action.github (.environment request.installationId request.repository request.environment)
  let appRuleId ← Prog.ofExcept (environmentBinding E.policy E.mode environment)
  let run ← Action.github (.workflowRun request.installationId request.repository request.runId)
  let observed ← Action.now
  let identity ← Prog.ofExcept (runBinding X E.policy request run record.registeredAt record.finalizedAt observed)
  evaluateStage X E request record verified run identity appRuleId

end DeploymentEvaluator

end PlatformGitops.CrossAi.Evaluator
