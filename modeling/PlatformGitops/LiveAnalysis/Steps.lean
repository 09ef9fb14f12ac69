import PlatformGitops.Library.Guarded
import PlatformGitops.Library.Json

/-! The steps of a promotion on the GPU host, and how each of them may end. -/

namespace PlatformGitops.LiveAnalysis

open Library

def base : String := "13aa7b8303d7e0f85bef94a56b1e5d164d1884ed"
def target : String := "732da87e627a6767eab3d28f014b016f7bcea509"
def rootSha : String := "44ac2425ded67086cfc20871e7b777b04a9fb98999f46a66220e8cf11f0a7cb7"

def startupSha (source : String) : String :=
  if source = base then "d6974b9b6c5d8c034bec6d81ffe9176d96d7b0c1770344c49164024ebb39d17e"
  else "3d4aa09d44dabba870e5fa44515d2e5f7a5d0b49e0530c136a3f5600ac6ac1f7"

/-- The classes of exceptions that an `except` clause of the scripts names. -/
inductive Kind
  | runtimeError
  | valueError
  | osError
  | systemExit
  | other
  deriving DecidableEq

inductive Fault
  | timeoutExpired (message : String)
  | ceremonyRejected (names : List String)
  | raised (kind : Kind) (errorClass message : String)
  deriving DecidableEq

namespace Fault

def runtimeError (message : String) : Fault := raised .runtimeError "RuntimeError" message
def valueError (message : String) : Fault := raised .valueError "ValueError" message
def keyError (key : String) : Fault := raised .other "KeyError" key
def typeError (message : String) : Fault := raised .other "TypeError" message

def errorClass : Fault → String
  | timeoutExpired _ => "TimeoutExpired"
  | ceremonyRejected _ => "CeremonyRejected"
  | raised _ errorClass _ => errorClass

def message : Fault → String
  | timeoutExpired message => message
  | ceremonyRejected _ => "pre-enable-evidence-rejected"
  | raised _ _ message => message

/-- Whether `except Exception` catches it. -/
def isException : Fault → Bool
  | raised kind _ _ => kind ≠ .systemExit
  | _ => true

def isRuntimeError : Fault → Bool
  | raised kind _ _ => kind = .runtimeError
  | ceremonyRejected _ => true
  | timeoutExpired _ => false

end Fault

structure Substitutions where
  permit : String
  root : String
  gitops : String
  policy : String
  producer : String
  rootSha : String
  deriving DecidableEq

/-- The scripts that are sent to the host, with what is filled in. -/
inductive Script
  | preflight
  | stopAndStage (source : String)
  | pin (commit : String)
  | startDisabled (source : String)
  | activate (source : String) (substitutions : Substitutions)
  | ready (source : String)
  | readHead
  | fence
  deriving DecidableEq

inductive Step
  | remote (script : Script)
  | rollout (source : String)
  deriving DecidableEq

/-- The steps that change the host, the fence apart. -/
def Step.mutates : Step → Bool
  | remote (.stopAndStage _) => true
  | remote (.pin _) => true
  | remote (.startDisabled _) => true
  | remote (.activate _ _) => true
  | rollout _ => true
  | _ => false

/-- A process that ended: its exit code, and its marked lines of output without their marker. -/
structure Completed where
  returnCode : Int
  records : List String

structure Externals where
  loads : String → Option Json
  b64decode : String → Option (List UInt8)
  b64encode : List UInt8 → String
  decodeUtf8 : List UInt8 → Option String
  sha256 : List UInt8 → String
  /-- The verification of the evidence of a rollout of the source. -/
  verify : Json → String → Except Fault Unit

inductive Effect : Type → Type 1
  | gitHead : Effect String
  | loadPolicy : Effect (List UInt8 × Json)
  | ssh (script : Script) (timeout : Nat) : Effect Completed
  | openTemp : Effect Unit
  | writeRoot (raw : List UInt8) : Effect Unit
  | closeTemp : Effect Unit
  | issuePermit : Effect (Option (List String))
  | readPermit : Effect (List UInt8)
  | readRoot : Effect (List UInt8)
  | governedSshPaths : Effect (String × String)
  | isFile (path : String) : Effect Bool
  | runRollout (source : String) (recoverFencedRuntime : Bool) (timeout : Nat) : Effect Completed
  | writeEvidence (evidence : Json) : Effect Unit
  | readEvidence : Effect Json

abbrev Action (α : Type) := Prog Fault Effect α

def isReason (s : String) : Bool :=
  decide (1 ≤ s.length ∧ s.length ≤ 100) && s.toList.all fun c => c.isLower || c.isDigit || c = '-'

def remoteRecord (X : Externals) (result : Completed) : Except Fault Json :=
  match result.records with
  | [line] =>
    match X.loads line with
    | none => .error (.raised .valueError "JSONDecodeError" line)
    | some (.obj fields) =>
      let record := Json.obj fields
      if result.returnCode ≠ 0 ∨ (record.get "status").asStr? = some "failed" then
        match (record.item? "reason").getD (.str "remote-operation-failed") with
        | .str reason => .error (.runtimeError (if isReason reason then reason else "remote-operation-failed"))
        | _ => .error (.typeError "expected string or bytes-like object")
      else .ok record
    | some _ => .error (.raised .other "AttributeError" "get")
  | _ => .error (.runtimeError "remote-metadata-unavailable")

def parseEvidence (X : Externals) (result : Completed) : Except Fault Json :=
  match result.records with
  | [line] =>
    match ((X.b64decode line).bind X.decodeUtf8).bind X.loads with
    | some (.obj fields) => .ok (.obj fields)
    | some _ => .error (.valueError "remote evidence must be a JSON object")
    | none => .error (.valueError "remote evidence marker is invalid")
  | _ => .error (.valueError "remote output did not contain exactly one evidence marker")

inductive Outcome
  | success (record : Json)
  | rejection
  | timeout

structure Attempt where
  step : Step
  outcome : Outcome

/-- How a step ended whose process ended so, and of whose output this is read. -/
def outcomeOf (read : Completed → Except Fault Json) : Except Fault Completed → Outcome
  | .ok result =>
    match read result with
    | .ok record => .success record
    | .error _ => .rejection
  | .error (.timeoutExpired _) => .timeout
  | .error _ => .rejection

def goEvidence (X : Externals) (result : Completed) : Except Fault Json :=
  (parseEvidence X result).bind fun evidence =>
    if result.returnCode = 0 ∧ (evidence.get "status").asStr? = some "go" then .ok evidence
    else .error (.runtimeError "full-runtime-rejected")

/-- The world answers as it likes. It keeps the steps that were attempted. -/
def outside (X : Externals) : Machine Fault Effect (List Attempt) Unit where
  answer _ e w w' r :=
    match e, r with
    | .ssh script _, r => w' = w ++ [⟨.remote script, outcomeOf (remoteRecord X) r⟩]
    | .runRollout source _ _, r => w' = w ++ [⟨.rollout source, outcomeOf (goEvidence X) r⟩]
    | _, _ => w' = w

end PlatformGitops.LiveAnalysis
