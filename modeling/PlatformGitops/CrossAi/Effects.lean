import PlatformGitops.CrossAi.IntentStore.Calls
import PlatformGitops.CrossAi.Ledger
import PlatformGitops.Library.Program

/-! Everything the components of the service call outside of themselves. -/

namespace PlatformGitops.CrossAi

open Library

structure GitHubIntentRef where
  refObjectId : String
  headSha : String
  annotated : Bool
deriving DecidableEq, Repr

structure CallbackResult where
  accepted : Bool
  ambiguous : Bool
  status : Option Int
  reasonCode : String
deriving DecidableEq, Repr

structure DispatchResult where
  accepted : Bool
  ambiguous : Bool
  status : Option Int
  reasonCode : String
deriving DecidableEq, Repr

structure EvaluationResult where
  approvalCandidate : Bool
  reasonCode : String
  requestId : String
  stage : Stage
  runId : Int
  runAttempt : Int
  appRuleId : Int
  evidenceDigest : String
  policyDigest : String
  providerFamilies : List String
deriving DecidableEq, Repr

structure StagePolicy where
  stage : String
  workflowPath : String
  requiredRunsOnLabels : List String
  requireRunnerGroup : Bool
deriving DecidableEq, Repr

structure WorkflowInspection where
  workflowSha256 : String
  dependencyLockSha256 : String
  concurrencyGroupSha256 : String
deriving DecidableEq, Repr

/-- What a token of the run must say. -/
structure OidcExpectation where
  repositoryId : Int
  repository : String
  environment : String
  intentRef : String
  headSha : String
  workflowPath : String
  runId : Int
  runAttempt : Int
  actorId : Int
deriving DecidableEq, Repr

/-- An entry of a ZIP archive. -/
structure ZipInfo where
  filename : String
  isDir : Bool
  encrypted : Bool
  symlink : Bool
  fileSize : Int
  compressSize : Int
deriving DecidableEq, Repr

inductive GitHub : Type → Type
  | repository (installationId : Int) (repository : String) : GitHub Json
  | workflowRun (installationId : Int) (repository : String) (runId : Int) : GitHub Json
  | workflowRunAttempt (installationId : Int) (repository : String) (runId runAttempt : Int) : GitHub Json
  | workflowJobs (installationId : Int) (repository : String) (runId runAttempt : Int) : GitHub (List Json)
  | workflowRunsForDispatch (installationId : Int) (repository workflowPath intentBranch : String)
      (createdFrom createdTo : Stamp) : GitHub (List Json)
  | intentRef (installationId : Int) (repository requestId : String) : GitHub GitHubIntentRef
  | createIntentRef (installationId : Int) (repository requestId headSha : String) : GitHub GitHubIntentRef
  | workflowBytes (installationId : Int) (repository workflowPath headSha : String) : GitHub (List UInt8)
  | environment (installationId : Int) (repository environment : String) : GitHub Json
  | repositoryRunners (installationId : Int) (repository : String) : GitHub (List Json)
  | fetchArtifact (installationId : Int) (repository : String) (runId : Int) (artifactName : String)
      (expectedArtifactId : Option Int) : GitHub (List UInt8)

/-- The decision a callback carries to the run it is about. -/
structure Decision where
  repositoryId : Int
  installationId : Int
  repository : String
  runId : Int
  environment : String
  state : Ledger.DecisionState
  comment : String
deriving DecidableEq, Repr

def Decision.key (d : Decision) : Ledger.DecisionKey := (d.repositoryId, d.environment, d.runId)

inductive Effect : Type → Type 1
  | now : Effect Datetime
  | registry {α : Type} (c : IntentStore.Call α) : Effect α
  | ledger {α : Type} (c : Ledger.Call α) : Effect α
  | github {α : Type} (query : GitHub α) : Effect α
  | verifyEnvelope (envelope : Json) : Effect VerifiedBundle
  | revocations : Effect Json
  | inspectWorkflow (raw : List UInt8) (stagePolicy : StagePolicy) (environment bootstrapUrl : String) :
      Effect WorkflowInspection
  | verifyOidc (token : String) (expected : OidcExpectation) : Effect Unit
  | zipInfos (archive : List UInt8) : Effect (Option (List ZipInfo))
  | zipRead (archive : List UInt8) : Effect (Option (List UInt8))
  | evaluate (request : DeploymentProtectionRequest) : Effect EvaluationResult
  | postDecision (decision : Decision) : Effect CallbackResult
  | dispatchWorkflow (stage : Stage) (installationId : Int) (repository workflowPath requestId : String) :
      Effect DispatchResult
  | acquire : Effect Unit
  | release : Effect Unit

abbrev Action := Prog Failure Effect

namespace Action

def now : Action Datetime := .perform .now

def registry {α : Type} (c : IntentStore.Call α) : Action α := .perform (.registry c)

def ledger {α : Type} (c : Ledger.Call α) : Action α := .perform (.ledger c)

def github {α : Type} (query : GitHub α) : Action α := .perform (.github query)

def reject {α : Type} (code message : String) : Action α := .fail (policyError code message)

def rejectIf (bad : Prop) [Decidable bad] (code message : String) : Action Unit :=
  if bad then reject code message else pure ()

def expect {α : Type} (x : Option α) (code message : String) : Action α :=
  .ofExcept (CrossAi.expect x code message)

lemma only_bind_rejectIf {P : {γ : Type} → Effect γ → Prop} {bad : Prop} [Decidable bad] {code message : String}
    {α : Type} {f : Unit → Action α} (hf : ¬ bad → (f ()).Only P) :
    (rejectIf bad code message >>= f).Only P := by
  by_cases h : bad
  · simp only [rejectIf, if_pos h]
    trivial
  · simp only [rejectIf, if_neg h]
    exact hf h

lemma triple_rejectIf {σ τ α : Type} {M : Machine Failure Effect σ τ} {t : τ} {s : σ} {bad : Prop} [Decidable bad]
    {code message : String} {f : Unit → Action α} {Q : Except Failure α → σ → Prop}
    (hbad : bad → Q (.error (policyError code message)) s) (hf : ¬ bad → Triple M t (f ()) Q s) :
    Triple M t (rejectIf bad code message >>= f) Q s := by
  by_cases h : bad
  · simp only [rejectIf, if_pos h]
    exact triple_fail (hbad h)
  · simp only [rejectIf, if_neg h]
    exact hf h

end Action

def removeprefix (s head : String) : String :=
  if head.toList <+: s.toList then String.ofList (s.toList.drop head.toList.length) else s

def branchOf (intentRef : String) : String := removeprefix intentRef "refs/tags/"

end PlatformGitops.CrossAi
