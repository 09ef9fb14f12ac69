import Mathlib.Logic.Relation
import PlatformGitops.Rollout.Verification

/-! Main, and the concurrency group whose runs verify it one at a time. -/

namespace PlatformGitops.Rollout

def Poll.tip? : Poll → Option String
  | .fence latestMain | .stable latestMain => some latestMain
  | .failed => none

def Env.pollTips (env : Env) : List String := env.polls.filterMap Poll.tip?

/-- Each tip of main that a run sees. -/
def Env.tips (env : Env) : List String :=
  env.latestRevision :: env.mainBefore :: env.mainAfter :: (env.windows.map (·.1) ++ env.pollTips)

/-- A run of the workflow, whether it is about what was the tip of main then, and whether it cancelled a run that owed the
verification of a change. -/
structure Verification where
  event : Event
  revision : String
  onMain : Bool
  heir : Bool

/-- The runs of the group. A promotion shares it and verifies nothing. -/
inductive Job
  | verify (run : Verification)
  | promote

/-- The tip of main and the group, the active run with each tip since its start. An artifact has the map and the contract
that it certifies. A push has failed when its run did so after the last of them. -/
structure Main (C : Type) where
  tip : String
  queued : Option Job
  active : Option (Job × List String)
  artifacts : List (List (String × String) × C)
  pushFailed : Bool

inductive Act
  | push (revision : String) (triggers : Bool)
  | dispatch (revision : String)
  | promote
  | start
  | finish (env : Env)
  | finishPromotion

section

variable {C : Type} [DecidableEq C] (tree : String → Tree C)

/-- The backend map of a revision, with the contract to verify it under. -/
def backend (revision : String) : Option DigestMap × C := ((tree revision).kustomization, (tree revision).contract)

/-- Whether a change of main waits for the run: that of its own push, or one that it inherits. -/
def Verification.owes (run : Verification) : Bool :=
  run.onMain &&
    match run.event with
    | .push before => decide (backend tree before ≠ backend tree run.revision)
    | .dispatch => run.heir

namespace Main

variable (s : Main C)

def owing : Bool :=
  match s.queued with
  | some (.verify run) => run.owes tree
  | _ => false

def enqueue (job : Job) : Main C := { s with queued := some job }

def push (revision : String) (triggers : Bool) : Main C where
  tip := revision
  queued := if triggers then some (.verify ⟨.push s.tip, revision, true, false⟩) else s.queued
  active := s.active.map fun (job, tips) => (job, revision :: tips)
  artifacts := s.artifacts
  pushFailed := s.pushFailed

def finish (run : Verification) : Outcome → Main C
  | .passed acceptance =>
    { s with
      active := none
      artifacts := (acceptance.runtime.expectedDigests, (tree acceptance.reconcile.effectiveRevision).contract) :: s.artifacts
      pushFailed := false }
  | .failed => { s with active := none, pushFailed := s.pushFailed || run.event ≠ .dispatch }
  | .skipped | .superseded => { s with active := none }

def Quiet : Prop := s.queued = none ∧ s.active = none

/-- The map at the tip is that of an artifact under the contract at the tip. -/
def Verified : Prop :=
  ∃ map, (tree s.tip).kustomization = some map ∧ (map.digests, (tree s.tip).contract) ∈ s.artifacts

end Main

/-- The steps of main and of the group. The path filter lets through each push that changes the map or the contract, and
a run that is queued cancels the one before it. -/
inductive Step : Main C → Act → Main C → Prop
  | push {s : Main C} {revision : String} {triggers : Bool} :
      (backend tree s.tip ≠ backend tree revision → triggers = true) →
      Step s (.push revision triggers) (s.push revision triggers)
  | dispatch {s : Main C} {revision : String} :
      Step s (.dispatch revision) (s.enqueue (.verify ⟨.dispatch, revision, revision = s.tip, s.owing tree⟩))
  | promote {s : Main C} : Step s .promote (s.enqueue .promote)
  | start {s : Main C} {job : Job} : s.active = none → s.queued = some job →
      Step s .start { s with queued := none, active := some (job, [s.tip]) }
  | finish {s : Main C} {run : Verification} {tips : List String} {env : Env} : s.active = some (.verify run, tips) →
      env.event = run.event → env.currentRevision = run.revision → env.tips ⊆ tips →
      Step s (.finish env) (s.finish tree run (verifyRollout tree env))
  | finishPromotion {s : Main C} {tips : List String} : s.active = some (.promote, tips) →
      Step s .finishPromotion { s with active := none }

/-- The run ends green because a newer push is to verify main. -/
def LeftToNewer (env : Env) : Prop :=
  verifyRollout tree env = .superseded ∨
    verifyRollout tree env = .skipped ∧ ∃ current revision, (tree env.currentRevision).kustomization = some current ∧
      pinLatest tree env current = .ok (false, revision)

/-- The comparisons of the run tell main to be newer only by the map and the contract: no git error in the first of
them, no change in the ATS files alone. -/
structure Comparable (env : Env) : Prop where
  pin : env.latestRevision ≠ env.currentRevision → backend tree env.latestRevision = backend tree env.currentRevision →
    env.diffFails env.currentRevision env.latestRevision = false
  convergence : ∀ tip ∈ env.pollTips, backend tree tip = backend tree env.currentRevision →
    (tree tip).atsAcceptance = (tree env.latestRevision).atsAcceptance

/-- A queued run that owes a verification is cancelled only for one that owes it too, and what is owed does not pass to a
dispatched run that fails. -/
def Kept (s : Main C) : Act → Prop
  | .push revision triggers => triggers = true → s.owing tree = true → backend tree s.tip ≠ backend tree revision
  | .dispatch revision => s.owing tree = true → revision = s.tip
  | .promote => s.owing tree = false
  | .start | .finishPromotion => True
  | .finish env => Comparable tree env ∧ ∀ run tips, s.active = some (.verify run, tips) → run.event = .dispatch →
      run.owes tree = true → verifyRollout tree env ≠ .failed

/-- Any number of steps. -/
def Reaches : Main C → Main C → Prop := Relation.ReflTransGen fun s s' => ∃ act, Step tree s act s'

/-- Any number of steps that meet the condition. -/
def ReachesKept : Main C → Main C → Prop := Relation.ReflTransGen fun s s' => ∃ act, Step tree s act s' ∧ Kept tree s act

end

end PlatformGitops.Rollout
