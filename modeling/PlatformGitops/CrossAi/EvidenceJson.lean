import PlatformGitops.CrossAi.Evidence

/-! Reading the evidence from its JSON, as its schemas shape it. -/

namespace PlatformGitops.CrossAi.Contract

open Library

section

variable (j : Json)

def str? (key : String) : Option String := (j.item? key).bind Json.asStr?
def int? (key : String) : Option Int := (j.item? key).bind Json.asStrictInt?
def strs? (key : String) : Option (List String) := (j.item? key).bind Json.asStrList?
def list? {α : Type} (key : String) (f : Json → Option α) : Option (List α) :=
  ((j.item? key).bind Json.asList?).bind (·.mapM f)

def strOrNull? (key : String) : Option (Option String) :=
  match j.item? key with
  | some .null => some none
  | some (.str s) => some (some s)
  | _ => none

end

inductive Verdict where
  | agree | revise | red | partial_
deriving DecidableEq, Repr

def Verdict.ofText? : String → Option Verdict
  | "AGREE" => some .agree
  | "REVISE" => some .revise
  | "RED" => some .red
  | "PARTIAL" => some .partial_
  | _ => none

structure Review where
  reviewId : String
  reviewChainId : String
  providerFamily : String
  channel : String
  directProviderCli : Bool
  modelId : String
  modelIdentityClass : String
  subjectSha256 : String
  round : Int
  verdict : Verdict
  previousRoundSha256 : Option String
  findingIds : List String
  resolvedFindingIds : List String
  acknowledgedFindingIds : List String
  closureRootSha256 : String
  issuedAt : Json
  expiresAt : Json
  issuer : String
  keyId : String

def Review.ofJson? (j : Json) : Option Review := do
  pure {
    reviewId := ← str? j "reviewId"
    reviewChainId := ← str? j "reviewChainId"
    providerFamily := ← str? j "providerFamily"
    channel := ← str? j "channel"
    directProviderCli := ← (j.get "directProviderCli").asBool?
    modelId := ← str? j "modelId"
    modelIdentityClass := ← str? j "modelIdentityClass"
    subjectSha256 := ← str? j "subjectSha256"
    round := ← int? j "round"
    verdict := ← (str? j "verdict").bind Verdict.ofText?
    previousRoundSha256 := ← strOrNull? j "previousRoundSha256"
    findingIds := ← strs? j "findingIds"
    resolvedFindingIds := ← strs? j "resolvedFindingIds"
    acknowledgedFindingIds := ← strs? j "acknowledgedFindingIds"
    closureRootSha256 := ← str? j "closureRootSha256"
    issuedAt := ← j.item? "issuedAt"
    expiresAt := ← j.item? "expiresAt"
    issuer := ← str? j "issuer"
    keyId := ← str? j "keyId" }

def subjectOfJson? (j : Json) : Option Subject := do
  pure {
    json := j
    repositoryId := ← int? j "repositoryId"
    repository := ← str? j "repository"
    headSha := ← str? j "headSha"
    intentRef := ← str? j "intentRef"
    environment := ← str? j "environment"
    deploymentClass := ← str? j "deploymentClass"
    policySha256 := ← str? j "policySha256"
    artifactSetSha256 := ← str? j "artifactSetSha256"
    rollbackPlanSha256 := ← str? j "rollbackPlanSha256"
    postDeployVerifierSha256 := ← str? j "postDeployVerifierSha256"
    runnerPolicySha256 := ← str? j "runnerPolicySha256"
    runnerAdmissionLeaseSha256 := ← str? j "runnerAdmissionLeaseSha256"
    bootstrapCredentialSha256 := ← str? j "bootstrapCredentialSha256"
    sessionSha256 := ← str? j "sessionSha256"
    endpointIdSha256 := ← str? j "endpointIdSha256"
    operatorIdSha256 := ← str? j "operatorIdSha256" }

def grantOfJson? (j : Json) : Option Grant := do
  let nonces ← ((j.item? "stageNonceSha256").bind Json.asObj?).bind
    (·.mapM fun f => f.2.asStr?.map fun s => (f.1, s))
  pure {
    json := j
    requestId := ← str? j "requestId"
    deploymentSessionId := ← str? j "deploymentSessionId"
    notBefore := ← j.item? "notBefore"
    expiresAt := ← j.item? "expiresAt"
    registrationPrincipal := ← str? j "registrationPrincipal"
    triggeringActorId := ← int? j "triggeringActorId"
    stageNonceSha256 := nonces }

def workflowStageOfJson? (j : Json) : Option WorkflowStage := do
  pure {
    stage := ← str? j "stage"
    order := ← int? j "order"
    workflowPath := ← str? j "workflowPath"
    workflowBlobSha256 := ← str? j "workflowBlobSha256"
    dependencyLockSha256 := ← str? j "dependencyLockSha256"
    concurrencyGroupSha256 := ← str? j "concurrencyGroupSha256"
    runsOnLabels := ← strs? j "runsOnLabels"
    hasRunnerGroup := (j.item? "runnerGroupId").isSome
    dependsOn := (j.item? "dependsOn").bind Json.asStrList?
    dependsOnFailure := (j.item? "dependsOnFailure").bind Json.asStrList? }

def closureEntryOfJson? (j : Json) : Option ClosureEntry := do
  pure {
    findingId := ← str? j "findingId"
    raisedByReviewSha256 := ← str? j "raisedByReviewSha256"
    fixSha256 := ← str? j "fixSha256"
    acknowledgedByReviewSha256 := ← str? j "acknowledgedByReviewSha256" }

def bundleOfJson? (j : Json) : Option Bundle := do
  let closure ← j.item? "closure"
  let consensus ← j.item? "consensus"
  pure {
    bundleId := ← str? j "bundleId"
    subject := ← (j.item? "subject").bind subjectOfJson?
    workflowStages := ← list? j "workflowStages" workflowStageOfJson?
    workflowStagesJson := ← j.item? "workflowStages"
    runnerAdmissionLeaseEnvelope := ← j.item? "runnerAdmissionLeaseEnvelope"
    reviewEnvelopes := ← list? j "reviewEnvelopes" some
    closureEntries := ← list? closure "entries" closureEntryOfJson?
    closureRootSha256 := ← str? closure "closureRootSha256"
    consensusProviderFamilies := ← strs? consensus "providerFamilies"
    consensusFinalAgreeReviewSha256 := ← strs? consensus "finalAgreeReviewSha256"
    consensusClosureRootSha256 := ← str? consensus "closureRootSha256"
    grant := ← (j.item? "grant").bind grantOfJson? }

def runnerOfJson? (j : Json) : Option EligibleRunner := do
  pure {
    runnerId := ← int? j "runnerId"
    runnerNameSha256 := ← str? j "runnerNameSha256"
    labels := ← strs? j "labels" }

def leaseOfJson? (j : Json) : Option LeasePayload := do
  pure {
    leaseId := ← str? j "leaseId"
    inventoryGenerationSha256 := ← str? j "inventoryGenerationSha256"
    issuedAt := ← j.item? "issuedAt"
    expiresAt := ← j.item? "expiresAt"
    eligibleRunners := ← list? j "eligibleRunners" runnerOfJson? }

structure RevocationEntry where
  type : String
  id : String
  effectiveAt : Json

def revocationEntryOfJson? (j : Json) : Option RevocationEntry := do
  pure { type := ← str? j "type", id := ← str? j "id", effectiveAt := ← j.item? "effectiveAt" }

structure Revocations where
  issuedAt : Json
  nextUpdate : Json
  entries : List RevocationEntry

def revocationsOfJson? (j : Json) : Option Revocations := do
  pure {
    issuedAt := ← j.item? "issuedAt"
    nextUpdate := ← j.item? "nextUpdate"
    entries := ← list? j "entries" revocationEntryOfJson? }

def keyRoleOfText? : String → Option KeyRole
  | "provider-review" => some .providerReview
  | "coordinator" => some .coordinator
  | "revocation" => some .revocation
  | "runner-management" => some .runnerManagement
  | _ => none

structure TrustKeyEntry where
  keyId : String
  role : KeyRole
  publicKeyBase64 : Json
  notBefore : Json
  notAfter : Json
  providerFamily : Option String
  allowedChannels : List String
  allowedModelIds : List String
  allowedModelIdentityClasses : List String
  directProviderCli : Option Bool

def trustKeyEntryOfJson? (j : Json) : Option TrustKeyEntry := do
  pure {
    keyId := ← str? j "keyId"
    role := ← (str? j "role").bind keyRoleOfText?
    publicKeyBase64 := ← j.item? "publicKeyBase64"
    notBefore := ← j.item? "notBefore"
    notAfter := ← j.item? "notAfter"
    providerFamily := ← strOrNull? j "providerFamily"
    allowedChannels := ← strs? j "allowedChannels"
    allowedModelIds := ← strs? j "allowedModelIds"
    allowedModelIdentityClasses := ← strs? j "allowedModelIdentityClasses"
    directProviderCli := (j.get "directProviderCli").asBool? }

structure TrustRoot where
  issuedAt : Json
  expiresAt : Json
  maxClockSkewSeconds : Int
  requiredProviderFamilies : List String
  keys : List TrustKeyEntry

def trustRootOfJson? (j : Json) : Option TrustRoot := do
  pure {
    issuedAt := ← j.item? "issuedAt"
    expiresAt := ← j.item? "expiresAt"
    maxClockSkewSeconds := ← int? j "maxClockSkewSeconds"
    requiredProviderFamilies := ← strs? j "requiredProviderFamilies"
    keys := ← list? j "keys" trustKeyEntryOfJson? }

end PlatformGitops.CrossAi.Contract
