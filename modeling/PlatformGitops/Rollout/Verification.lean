import Mathlib.Data.List.Sort
import PlatformGitops.Library.Fallible

/-! One run of the workflow that verifies the backend rollout of a revision of main. -/

namespace PlatformGitops.Rollout

open Library Fallible

def requiredServices : List String :=
  ["auth-service", "permission-service", "user-service", "variant-service", "core-data-service", "report-service",
    "schema-service", "endpoint-admin-service", "audio-gateway-service", "meeting-service", "transcript-service",
    "audit-event-consumer-service", "api-gateway"]

/-- The digest of each required service. -/
structure DigestMap where
  digests : List (String × String)
  services : digests.map (·.1) = requiredServices
deriving DecidableEq

/-- What a run reads of a revision: the map that `inspect` prints, if it does, the files of the verifier contract, and
those of the ATS acceptance, which only the convergence compares. -/
structure Tree (C : Type) where
  kustomization : Option DigestMap
  contract : C
  atsAcceptance : C

structure RuntimeReport where
  schemaVersion : String
  verdict : String
  expectedDigests : List (String × String)
deriving DecidableEq, Repr

structure ReconcileReport where
  verdict : String
  effectiveRevision : String
deriving DecidableEq, Repr

/-- An artifact of a run. An archive that cannot be read, or lacks a report, has no reports. -/
structure Artifact where
  name : String
  expired : Bool
  reports : Option (RuntimeReport × ReconcileReport)
deriving DecidableEq, Repr

section LastVerified

def artifactPrefix : String := "testai-backend-acceptance-"

def isSha (s : String) : Bool := s.length = 40 ∧ s.toList.all fun c => c.isDigit ∨ ('a' ≤ c ∧ c ≤ 'f')

def startsWith (s t : String) : Bool := t.toList.isPrefixOf s.toList

/-- The services that owe a window. None stands for all of them. -/
def changedServices (current : DigestMap) (verified : Option (List (String × String))) (contractChanged : Bool) :
    List String :=
  match contractChanged, verified with
  | true, _ => []
  | false, none => []
  | false, some verified =>
    ((current.digests.filter fun p => verified.lookup p.1 ≠ some p.2).map (·.1)).insertionSort fun a b => a ≤ b

def verifiedMapFromReport (report : RuntimeReport) : Option (List (String × String)) :=
  if report.schemaVersion ≠ "testai-backend-runtime-verification-v1" then none
  else if report.verdict ≠ "PASS" then none
  else if report.expectedDigests = [] then none
  else if report.expectedDigests.all fun p => startsWith p.2 "sha256:" then some report.expectedDigests
  else none

def verifiedRevisionFromReport (report : ReconcileReport) : Option String :=
  if report.verdict ≠ "PASS" then none
  else if isSha report.effectiveRevision then some report.effectiveRevision
  else none

def verifiedFromArtifact (artifact : Artifact) : Option (List (String × String) × String) :=
  if ¬ startsWith artifact.name artifactPrefix ∨ artifact.expired then none
  else artifact.reports.bind fun (runtime, reconcile) =>
    (verifiedMapFromReport runtime).bind fun verified =>
      (verifiedRevisionFromReport reconcile).map fun revision => (verified, revision)

/-- The first evidence, over the successful runs from the newest on. -/
def latestVerified (runs : List (List Artifact)) : Option (List (String × String) × String) :=
  runs.flatten.findSome? verifiedFromArtifact

end LastVerified

inductive Event
  | push (before : String)
  | dispatch
deriving DecidableEq, Repr

/-- How a poll of the convergence ends: with a fence against main, with a fence at the end of a stable phase, or in
failure. -/
inductive Poll
  | fence (latestMain : String)
  | stable (latestMain : String)
  | failed
deriving DecidableEq, Repr

/-- What a run is told and what happens to it, with each tip of main that it sees. -/
structure Env where
  checkedOut : Bool
  event : Event
  currentRevision : String
  latestRevision : String
  beforeShown : Bool
  reachable : String → Bool
  diffFails : String → String → Bool
  successfulRuns : Option (List (List Artifact))
  polls : List Poll
  mainBefore : String
  podsReady : Bool
  windows : List (String × Bool)
  authFlow : Bool
  mainAfter : String
  evidenceHolds : Bool
  uploaded : Bool

inductive DiffStatus
  | same
  | differs
  | error
deriving DecidableEq, Repr

/-- The services with a window: every one, none, or those listed. -/
inductive Scope
  | all
  | none
  | only (services : List String)
deriving DecidableEq, Repr

def Scope.covers (service : String) : Scope → Bool
  | .all => true
  | .none => false
  | .only services => service ∈ services

inductive Stop
  | failed
  | superseded
deriving DecidableEq, Repr

structure Pin where
  shouldVerify : Bool
  reconcileRevision : String
  digestMap : DigestMap
  changedServices : Scope

section

variable {C : Type} [DecidableEq C] (tree : String → Tree C) (env : Env)

def diffStatus (fails same : Bool) : DiffStatus := if fails then .error else if same then .same else .differs

def gitDiff (a b : String) : DiffStatus := diffStatus (env.diffFails a b) ((tree a).contract = (tree b).contract)

/-- The convergence compares more files than the other fences. -/
def gitDiffConvergence (a b : String) : DiffStatus :=
  diffStatus (env.diffFails a b)
    ((tree a).contract = (tree b).contract ∧ (tree a).atsAcceptance = (tree b).atsAcceptance)

/-- Only an equal contract of a known base has not changed. -/
def contractChangedSince (base : String) : Bool :=
  ¬ (isSha base ∧ env.reachable base ∧ gitDiff tree env base env.currentRevision = .same)

section Pinning

/-- Whether a newer main leaves the run to verify, and the revision that it then reconciles. -/
def pinLatest (current : DigestMap) : Except Stop (Bool × String) :=
  if env.latestRevision = env.currentRevision then .ok (true, env.currentRevision)
  else
    match (tree env.latestRevision).kustomization with
    | none => .error .failed
    | some latest =>
      if latest = current then
        match gitDiff tree env env.currentRevision env.latestRevision with
        | .same => .ok (true, env.latestRevision)
        | .differs | .error => .ok (false, env.currentRevision)
      else .ok (false, env.currentRevision)

/-- Whether the push changed the contract, and whether it changed neither the contract nor the map. -/
def pinBefore (current : DigestMap) : Except Stop (Bool × Bool) :=
  match env.event with
  | .dispatch => .ok (false, false)
  | .push before =>
    if isSha before ∧ env.beforeShown then
      match (tree before).kustomization with
      | none => .error .failed
      | some beforeMap =>
        .ok (contractChangedSince tree env before, beforeMap = current ∧ ¬ contractChangedSince tree env before)
    else .ok (false, false)

/-- The windows of the run. They are inherited only from evidence under the same contract. -/
def windowScope (current : DigestMap) (contractChanged : Bool) : Scope :=
  if contractChanged then .all
  else
    match env.successfulRuns.bind latestVerified with
    | none => .all
    | some (verified, revision) =>
      if contractChangedSince tree env revision then .all
      else
        match changedServices current (some verified) contractChanged with
        | [] => .none
        | services => .only services

def pin : Except Stop Pin := do
  let current ← expect (tree env.currentRevision).kustomization .failed
  let latest ← pinLatest tree env current
  let before ← pinBefore tree env current
  pure ⟨latest.1 && !before.2, latest.2, current, windowScope tree env current before.1⟩

end Pinning

section Gates

/-- A fence against a newer main: only the map of the run under unchanged files passes it. -/
def mainFence (diff : DiffStatus) (digestMap : DigestMap) (latestMain : String) : Except Stop Unit :=
  match (tree latestMain).kustomization with
  | none => .error .failed
  | some latest =>
    if latest ≠ digestMap then .error .superseded
    else
      match diff with
      | .same => .ok ()
      | .differs => .error .superseded
      | .error => .error .failed

def assertCurrentBackendMap (revision : String) (digestMap : DigestMap) (latestMain : String) : Except Stop Unit :=
  mainFence tree (gitDiff tree env revision latestMain) digestMap latestMain

/-- The revision that the convergence goes on with. -/
def refreshSemanticMainFence (revision : String) (digestMap : DigestMap) (latestMain : String) : Except Stop String :=
  if latestMain = revision then .ok revision
  else do
    mainFence tree (gitDiffConvergence tree env revision latestMain) digestMap latestMain
    pure latestMain

def reconcile (digestMap : DigestMap) : List Poll → String → Except Stop String
  | [], _ => .error .failed
  | .failed :: _, _ => .error .failed
  | .fence latestMain :: polls, revision => do
    let next ← refreshSemanticMainFence tree env revision digestMap latestMain
    reconcile digestMap polls next
  | .stable latestMain :: polls, revision => do
    let next ← refreshSemanticMainFence tree env revision digestMap latestMain
    match decide (next = revision) with
    | true => pure revision
    | false => reconcile digestMap polls next

/-- The windows of the services in the scope, each after a fence. -/
def stabilityWindows (revision : String) (digestMap : DigestMap) (scope : Scope) :
    List (String × String) → List (String × Bool) → Except Stop (List (String × String))
  | [], _ => .ok []
  | (service, digest) :: rest, answers =>
    match scope.covers service with
    | false => stabilityWindows revision digestMap scope rest answers
    | true =>
      match answers with
      | (latestMain, true) :: answers => do
        assertCurrentBackendMap tree env revision digestMap latestMain
        let completed ← stabilityWindows revision digestMap scope rest answers
        pure ((service, digest) :: completed)
      | (latestMain, false) :: _ => do
        assertCurrentBackendMap tree env revision digestMap latestMain
        .error .failed
      | [] => .error .failed

/-- The runtime gates: the windows that were completed. -/
def verifyRuntime (revision : String) (digestMap : DigestMap) (scope : Scope) : Except Stop (List (String × String)) := do
  assertCurrentBackendMap tree env revision digestMap env.mainBefore
  rejectIf (env.podsReady = false) .failed
  let completed ← stabilityWindows tree env revision digestMap scope digestMap.digests env.windows
  rejectIf (env.authFlow = false) .failed
  assertCurrentBackendMap tree env revision digestMap env.mainAfter
  pure completed

end Gates

/-- The evidence that a run publishes, and the windows that it has completed. -/
structure Acceptance where
  runtime : RuntimeReport
  reconcile : ReconcileReport
  windows : List (String × String)
deriving DecidableEq, Repr

inductive Outcome
  | skipped
  | superseded
  | failed
  | passed (acceptance : Acceptance)
deriving DecidableEq, Repr

def accept (p : Pin) : Except Stop Acceptance := do
  let effectiveRevision ← reconcile tree env p.digestMap env.polls p.reconcileRevision
  let completed ← verifyRuntime tree env p.reconcileRevision p.digestMap p.changedServices
  rejectIf (env.evidenceHolds = false) .failed
  pure ⟨⟨"testai-backend-runtime-verification-v1", "PASS", p.digestMap.digests⟩, ⟨"PASS", effectiveRevision⟩, completed⟩

def verifyRollout : Outcome :=
  match env.checkedOut, pin tree env with
  | false, _ => .failed
  | true, .error _ => .failed
  | true, .ok p =>
    match p.shouldVerify, env.uploaded with
    | false, _ => .skipped
    | true, false => .failed
    | true, true =>
      match accept tree env p with
      | .error .superseded => .superseded
      | .error .failed => .failed
      | .ok acceptance => .passed acceptance

end

end PlatformGitops.Rollout
