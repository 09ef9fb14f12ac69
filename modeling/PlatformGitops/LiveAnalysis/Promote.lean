import PlatformGitops.LiveAnalysis.Steps

/-! The promotion of the target source on the GPU host, with its compensation and its fence. -/

namespace PlatformGitops.LiveAnalysis

open Library

structure Failure where
  errorClass : String
  reason : Option String
  failedCheckNames : Option (List String)
  deriving DecidableEq

def safeError (fault : Fault) : Failure where
  errorClass := fault.errorClass
  reason := if isReason fault.message then some fault.message else none
  failedCheckNames :=
    match fault with
    | .ceremonyRejected names => some names
    | _ => none

structure Report where
  schemaVersion : String := "faz24.testLiveAnalysisPromotion.v1"
  target : String := target
  original : String := base
  runtimeAccepted : Bool := false
  phoneAccepted : Bool := false
  secretMaterialIncluded : Bool := false
  gitopsCommit : Option String := none
  status : Option String := none
  activation : Option Json := none
  consumer : Option Json := none
  rollback : Option Json := none
  failure : Option Failure := none
  containment : Option Json := none

def subscript (value : Json) (key : String) : Except Fault Json :=
  match value with
  | .obj fields => (fields.lookup key).elim (.error (.keyError key)) .ok
  | _ => .error (.typeError "object is not subscriptable")

def items (value : Json) : Except Fault (List Json) :=
  match value with
  | .list items => .ok items
  | _ => .error (.typeError "object is not iterable")

def text (value : Json) : Except Fault String :=
  match value with
  | .str s => .ok s
  | _ => .error (.typeError "argument should be a string")

def require (condition : Prop) [Decidable condition] (fault : Fault) : Except Fault Unit :=
  if condition then .ok () else .error fault

def header (source : Json) : Except Fault String :=
  match source with
  | .str source =>
    if source = base ∨ source = target then .ok source else .error (.valueError "unapproved-source")
  | _ => .error (.valueError "unapproved-source")

def remote (X : Externals) (script : Script) (timeout : Nat) : Action Json := do
  let result ← .perform (.ssh script timeout)
  .ofExcept (remoteRecord X result)

def issuePermit : Action Unit := do
  match ← .perform .issuePermit with
  | none => pure ()
  | some names => .fail (.ceremonyRejected names)

/-- What a promotion works with once its preflight has passed. -/
structure Job where
  commit : String
  policyBytes : List UInt8
  rootRaw : List UInt8
  policy : Json

def activate (X : Externals) (source : String) (job : Job) (producer : String) : Action Json := do
  let _ ← remote X (.startDisabled source) 150
  issuePermit
  let data ← .perform .readPermit
  .ofExcept (require (data.length ≤ 1048576) (.valueError "permit-too-large"))
  let rootBytes ← .perform .readRoot
  remote X (.activate source ⟨X.b64encode data, X.b64encode rootBytes, job.commit, X.sha256 job.policyBytes, producer,
    rootSha⟩) 150

def runRollout (X : Externals) (source : String) (recoverFencedRuntime : Bool) (timeout : Nat) :
    Action (Int × Json) := do
  match ← (Prog.perform (.runRollout source recoverFencedRuntime timeout) : Action Completed).attempt with
  | .error (.timeoutExpired _) => .fail (.runtimeError "remote rollout timed out")
  | .error fault => .fail fault
  | .ok result =>
    match parseEvidence X result with
    | .error _ => .fail (.raised .valueError "RemoteEvidenceUnavailable" "remote evidence is unavailable")
    | .ok evidence => pure (result.returnCode, evidence)

def failureEvidence (targetCommit failureClass : String) : Json :=
  .obj [("status", .str "no-go"), ("targetCommit", .str targetCommit), ("failureClass", .str failureClass)]

/-- The clauses in which `main` of the rollout catches what the run of the host raised. -/
def rolloutFailure (targetCommit : String) (fault : Fault) : Except Fault (Int × Json) :=
  if fault.isRuntimeError then .ok (1, failureEvidence targetCommit "remote-rollout-timeout")
  else match fault with
    | .raised .valueError _ _ => .ok (1, failureEvidence targetCommit "remote-evidence-unavailable")
    | .raised .osError _ _ => .ok (1, failureEvidence targetCommit "remote-evidence-unavailable")
    | _ => .error fault

def rolloutMain (X : Externals) (source sshConfig knownHosts : String) : Action Int := do
  let config ← .perform (.isFile sshConfig)
  .ofExcept (require (config = true) (.raised .systemExit "SystemExit" "governed SSH config is not configured"))
  let hosts ← .perform (.isFile knownHosts)
  .ofExcept (require (hosts = true) (.raised .systemExit "SystemExit" "pinned known_hosts is not configured"))
  let ended ← (runRollout X source true 4200).attempt
  let (exitCode, evidence) ← .ofExcept (ended.tryCatch (rolloutFailure source))
  .perform (.writeEvidence evidence)
  pure (if exitCode = 0 ∧ (evidence.get "status").asStr? = some "go" then 0 else 1)

def isTrue : Json → Bool
  | .bool b => b
  | _ => false

def accept (X : Externals) (source : String) : Action Json := do
  let (config, hosts) ← .perform .governedSshPaths
  let result ← rolloutMain X source config hosts
  .ofExcept (require (result = 0) (.runtimeError "full-runtime-rejected"))
  let evidence ← .perform .readEvidence
  .ofExcept (X.verify evidence source)
  let ready ← remote X (.ready source) 150
  .ofExcept (require (["consumerEnabled", "workerRunning", "redisGroupReady"].all fun k => isTrue (ready.get k))
    (.runtimeError "enabled-consumer-not-ready"))
  pure ready

def guardAllows (source : String) (guard : Json) : Except Fault Bool := do
  let commit ← subscript guard "platformAiCommit"
  if commit.asStr? ≠ some source then .ok false
  else
    let sha ← subscript guard "startupScriptSha256"
    if sha.asStr? ≠ some (startupSha source) then .ok false
    else (subscript guard "permitRequired").map isTrue

def checkSource (policy : Json) (source : String) : Except Fault Unit := do
  let guards ← items (← subscript policy "hostStartupGuards")
  let allowed ← guards.anyM (guardAllows source)
  require (allowed = true) (.valueError "source-not-allowlisted")

def decodeRoot (X : Externals) (preflight : Json) : Except Fault (List UInt8) := do
  let encoded ← text (← subscript preflight "trustRootBase64")
  (X.b64decode encoded).elim (.error (.raised .valueError "Error" "Invalid base64-encoded string")) .ok

def isCommit (s : String) : Bool :=
  s.length = 40 && s.toList.all fun c => c.isDigit || ('a' ≤ c && c ≤ 'f')

def prepare (X : Externals) : Action Job := do
  let commit ← .perform .gitHead
  .ofExcept (require (isCommit commit = true) (.valueError "gitops-commit-invalid"))
  let (policyBytes, policy) ← .perform .loadPolicy
  .ofExcept (checkSource policy base)
  .ofExcept (checkSource policy target)
  let preflight ← remote X .preflight 150
  let rootRaw ← .ofExcept (decodeRoot X preflight)
  .ofExcept (require (X.sha256 rootRaw = rootSha) (.valueError "independent-root-pin-mismatch"))
  pure ⟨commit, policyBytes, rootRaw, policy⟩

def producerOf (policy : Json) : Except Fault String := do
  match ← items (← subscript policy "producerCapabilities") with
  | [] => .error (.raised .other "IndexError" "list index out of range")
  | capability :: _ => text (← subscript capability "transcriptImageDigest")

def stage (X : Externals) (job : Job) (producer : String) : Action Json := do
  let _ ← remote X (.stopAndStage base) 150
  let _ ← remote X (.pin target) 300
  activate X target job producer

/-- The steps towards the target, and what the report holds of them when one fails. -/
def candidate (X : Externals) (job : Job) (producer : String) (report : Report) : Action (Report × Option Fault) := do
  match ← (stage X job producer).attempt with
  | .error fault => pure (report, some fault)
  | .ok activation =>
    match ← (accept X target).attempt with
    | .error fault => pure ({ report with activation := some activation }, some fault)
    | .ok ready =>
      pure ({ report with
        activation := some activation
        consumer := some ready
        runtimeAccepted := true
        status := some "runtime-accepted-live-latency-required" }, none)

def restage (X : Externals) (job : Job) (producer source : String) : Action Json := do
  let _ ← remote X (.stopAndStage source) 150
  let _ ← remote X (.pin base) 300
  activate X base job producer

def compensate (X : Externals) (job : Job) (producer : String) : Action Json := do
  let record ← remote X .readHead 150
  let source ← .ofExcept (do header (← subscript record "source"))
  let _ ← restage X job producer source
  accept X base

structure Progress where
  report : Report
  mutated : Bool
  fault : Option Fault

def handle (X : Externals) (job : Job) (producer : String) (report : Report) (fault : Fault) : Action Progress :=
  match fault with
  | .timeoutExpired _ => pure ⟨report, true, some (.runtimeError "host-mutation-completion-unknown")⟩
  | _ => do
    match ← (compensate X job producer).attempt with
    | .error fault => pure ⟨report, true, some fault⟩
    | .ok ready =>
      pure ⟨{ report with rollback := some ready, status := some "candidate-rejected-baseline-reaccepted" }, false, none⟩

def promote (X : Externals) (job : Job) (producer : String) (report : Report) : Action Progress := do
  match ← candidate X job producer report with
  | (report, none) => pure ⟨report, false, none⟩
  | (report, some fault) =>
    if fault.isException then
      handle X job producer { report with status := some "candidate-rejected", failure := some (safeError fault) } fault
    else pure ⟨report, true, some fault⟩

/-- The work inside of the temporary directory. -/
def inTemp (X : Externals) (job : Job) (report : Report) : Action Progress := do
  match ← (do Prog.perform (.writeRoot job.rootRaw); Prog.ofExcept (producerOf job.policy) : Action String).attempt with
  | .error fault => pure ⟨report, false, some fault⟩
  | .ok producer => promote X job producer report

def applyJob (X : Externals) (job : Job) (report : Report) : Action Progress := do
  match ← (Prog.perform .openTemp : Action Unit).attempt with
  | .error fault => pure ⟨report, false, some fault⟩
  | .ok _ =>
    let progress ← inTemp X job report
    match ← (Prog.perform .closeTemp : Action Unit).attempt with
    | .error fault => pure { progress with fault := some fault }
    | .ok _ => pure progress

def contain (X : Externals) (report : Report) : Action Report := do
  match ← (remote X .fence 150).attempt with
  | .ok record => pure { report with containment := some record }
  | .error fault =>
    if fault.isException then
      pure { report with containment := some (.obj [("phase", .str "fence-unverified")]) }
    else .fail fault

/-- The report after the last `except` clause. -/
def failed (progress : Progress) : Report :=
  match progress.fault with
  | none => progress.report
  | some fault =>
    if fault.isException then { progress.report with status := some "failed", failure := some (safeError fault) }
    else progress.report

/-- What was not caught goes on once the `finally` clause is done. -/
def ended (fault? : Option Fault) (report : Report) : Action Report :=
  match fault? with
  | none => pure report
  | some fault => if fault.isException then pure report else .fail fault

def conclude (X : Externals) (progress : Progress) : Action Report := do
  let report ← match progress.mutated with
    | true => contain X (failed progress)
    | false => pure (failed progress)
  ended progress.fault report

def perform (X : Externals) (apply : Bool) : Action Report := do
  match ← (prepare X).attempt with
  | .error fault => conclude X ⟨{}, false, some fault⟩
  | .ok job =>
    match apply with
    | false => pure { gitopsCommit := some job.commit, status := some "preflight-only" }
    | true =>
      let progress ← applyJob X job { gitopsCommit := some job.commit }
      conclude X progress

def exitCode (report : Report) : Int :=
  if report.status = some "preflight-only" ∨ report.status = some "runtime-accepted-live-latency-required" then 0 else 1

end PlatformGitops.LiveAnalysis
