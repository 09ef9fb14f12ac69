import PlatformGitops.DriftDetection.ProbeContract
import Mathlib.Data.Rat.Floor

/-! The deployment contract gate, when a change is proposed and against a running cluster. -/

namespace PlatformGitops.DriftDetection

open Library
open Coordination (truthy orElse)

section Catalog

structure Service where
  name : String
  workloadKind : String
  probeContract : String
  environments : Dict String String

def Service.isEnabledIn (env : String) (s : Service) : Bool := s.environments.get? env = some "enabled"

/-- Services under their own names. -/
structure ServicesCatalog where
  services : Dict String Service
  distinct : services.Unique
  keyed : ∀ p ∈ services, p.2.name = p.1

def ServicesCatalog.empty : ServicesCatalog := ⟨[], List.nodup_nil, by simp⟩

/-- A later service of a name replaces the earlier one. -/
def ServicesCatalog.add (catalog : ServicesCatalog) (s : Service) : ServicesCatalog where
  services := catalog.services.set s.name s
  distinct := catalog.distinct.set
  keyed := Dict.forall_set catalog.keyed rfl

def ServicesCatalog.ofServices (services : List Service) : ServicesCatalog := services.foldl ServicesCatalog.add .empty

def ServicesCatalog.allNames (catalog : ServicesCatalog) : List String := catalog.services.map (·.1)

def ServicesCatalog.get (catalog : ServicesCatalog) (name : String) : Option Service := catalog.services.get? name

def ServicesCatalog.enabledIn (catalog : ServicesCatalog) (env : String) : List Service :=
  (catalog.services.map (·.2)).filter (·.isEnabledIn env)

end Catalog

section Scope

def scopeLabel : String := "app.kubernetes.io/part-of"

def scopeValue : String := "platform"

def templateWorkloadKinds : List String := ["Deployment", "StatefulSet"]

variable (X : Externals)

/-- A list or a mapping cannot be looked up. -/
def dictKey (v : Json) : Except NormalizeError DictKey := Fallible.expect (DictKey.ofJson X.floatValue v) .typeError

def isPlatformScoped (deploy : Json) : Except NormalizeError Bool := do
  let labels ← field (orElse (← field deploy "metadata") (.obj [])) "labels"
  pure (isText scopeValue (← field (orElse labels (.obj [])) scopeLabel))

def deployName (deploy : Json) : Except NormalizeError Json := do
  pure (orElse (← field (orElse (← field deploy "metadata") (.obj [])) "name") (.str ""))

/-- The name as a key. -/
def deployKey (deploy : Json) : Except NormalizeError DictKey := do dictKey X (← deployName deploy)

def isContractScoped (catalogNames : List String) (workload : Json) : Except NormalizeError Bool := do
  if ← isPlatformScoped workload then pure true
  else do
    let name ← deployKey X workload
    pure (decide (name ∈ catalogNames.map DictKey.text))

def isTemplateWorkload (d : Json) : Except NormalizeError Bool := do
  let kind ← dictKey X (← field d "kind")
  pure (decide (kind ∈ templateWorkloadKinds.map DictKey.text))

def inTemplateScope (catalogNames : List String) (d : Json) : Except NormalizeError Bool := do
  if ← isTemplateWorkload X d then isContractScoped X catalogNames d else pure false

/-- The elements that a fallible test keeps. -/
def filterTest (test : Json → Except NormalizeError Bool) : List Json → Except NormalizeError (List Json)
  | [] => .ok []
  | d :: docs => do
    let keep ← test d
    let rest ← filterTest test docs
    pure (if keep then d :: rest else rest)

def filterTemplateWorkloads (docs : List Json) (catalogNames : List String) : Except NormalizeError (List Json) :=
  filterTest (inTemplateScope X catalogNames) docs

/-- Of the workloads of one name the last. -/
def byName (workloads : List Json) : Except NormalizeError (Dict DictKey Json) := do
  pure (Dict.ofPairs (← workloads.mapM fun d => do pure (← deployKey X d, d)))

end Scope

inductive CommandError where
  | runtimeError (text : String)
  | otherError
deriving DecidableEq, Repr

/-- The documents of a rendered overlay, of those the parser yields. -/
def kustomizeRender (rendered : Except CommandError (List Json)) : Except CommandError (List Json) := do
  pure ((← rendered).filter truthy)

inductive GateError where
  | normalize (error : NormalizeError)
  | command
deriving DecidableEq, Repr

def normalizing {α : Type} : Except NormalizeError α → Except GateError α
  | .ok a => .ok a
  | .error error => .error (.normalize error)

section PrTime

variable (X : Externals) (T : Texts) (overlayDir env : String) (catalog : ServicesCatalog)

def renderFailed (text : String) : Finding where
  severity := .p1
  kind := "render_failed"
  service := .text "(overlay)"
  message := overlayDir ++ ": " ++ text
  diffPath := none
  details := []

def missingRender (svc : Service) : Finding where
  severity := .p1
  kind := "missing_render"
  service := .text svc.name
  message := "catalog enabled in " ++ env ++ " but no " ++ svc.workloadKind ++ " rendered by " ++ overlayDir
  diffPath := none
  details := []

def unknownService (name : DictKey) : Finding where
  severity := .p1
  kind := "unknown_service"
  service := name
  message := "rendered in " ++ overlayDir ++ " but absent from services.yaml — add catalog entry"
  diffPath := none
  details := []

def uncategorizedProbeContract (svc : Service) : Finding where
  severity := .p1
  kind := "uncategorized_probe_contract"
  service := .text svc.name
  message := "probe_contract=" ++ T.repr (.str svc.probeContract) ++ " unrecognized"
  diffPath := none
  details := []

def lookupService : DictKey → Option Service
  | .text name => catalog.get name
  | _ => none

def templateServices : List Service := (catalog.enabledIn env).filter (·.workloadKind ∈ templateWorkloadKinds)

def missingRenders (renderedByName : Dict DictKey Json) : List Finding :=
  ((templateServices env catalog).filter fun svc => (renderedByName.get? (.text svc.name)).isNone).map
    (missingRender overlayDir env)

def classify (name : DictKey) : List Finding :=
  match lookupService catalog name with
  | none => [unknownService overlayDir name]
  | some svc => if svc.probeContract ∈ knownContracts then [] else [uncategorizedProbeContract T svc]

def assertService (renderedByName : Dict DictKey Json) (svc : Service) : Except NormalizeError (List Finding) :=
  if svc.probeContract = exemptContract ∨ svc.workloadKind ∉ templateWorkloadKinds then .ok []
  else
    match renderedByName.get? (.text svc.name) with
    | none => .ok []
    | some workload => assertProbeContract X T workload svc.probeContract svc.name

def checkRendered (docs : List Json) : Except NormalizeError (List Finding) := do
  let rendered ← filterTemplateWorkloads X docs catalog.allNames
  let renderedByName ← byName X rendered
  let asserted ← (catalog.enabledIn env).mapM (assertService X T renderedByName)
  pure (missingRenders overlayDir env catalog renderedByName ++
    (renderedByName.map (·.1)).flatMap (classify T overlayDir catalog) ++ asserted.flatten)

def runPrTime (rendered : Except CommandError (List Json)) : Except GateError (List Finding) :=
  match kustomizeRender rendered with
  | .error (.runtimeError text) => .ok [renderFailed overlayDir text]
  | .error .otherError => .error .command
  | .ok docs => normalizing (checkRendered X T overlayDir env catalog docs)

end PrTime

section Runtime

variable (X : Externals) (T : Texts) (env : String) (catalog : ServicesCatalog)

def short (limit : Nat) (value : Json) : String :=
  let text := T.dumps value
  if limit < text.length then String.ofList (text.toList.take limit) ++ "…" else text

def missingDesired (svc : Service) : Finding where
  severity := .p1
  kind := "missing_render"
  service := .text svc.name
  message := "catalog enabled but no Deployment rendered for " ++ svc.name
  diffPath := none
  details := []

def serviceMissingLive (svc : Service) : Finding where
  severity := .p2
  kind := "service_missing_live"
  service := .text svc.name
  message := "catalog enabled but no live Deployment in cluster"
  diffPath := none
  details := []

def deploySpecDrift (svc : Service) (d : Difference) : Finding where
  severity := .p1
  kind := "deploy_spec_drift"
  service := .text svc.name
  message := d.path ++ ": desired=" ++ short T 80 d.desired ++ ", live=" ++ short T 80 d.live
  diffPath := some d.path
  details := [("desired", .str (short T 500 d.desired)), ("live", .str (short T 500 d.live))]

def serviceDrift (renderedByName liveByName : Dict DictKey Json) (svc : Service) : Except NormalizeError (List Finding) :=
  match renderedByName.get? (.text svc.name), liveByName.get? (.text svc.name) with
  | none, _ => .ok [missingDesired svc]
  | some _, none => .ok [serviceMissingLive svc]
  | some desired, some live => do pure ((← semanticDiff X desired live).map (deploySpecDrift T svc))

section ReplicaSets

def metadataField (d : Json) (key : String) : Except NormalizeError Json := do
  field (orElse (← field d "metadata") (.obj [])) key

/-- The names of the scoped workloads under their uids. -/
def addUid (names : List String) (uidToName : Dict DictKey Json) (d : Json) : Except NormalizeError (Dict DictKey Json) := do
  if ← isContractScoped X names d then do
    let uid ← metadataField d "uid"
    let name ← deployName d
    if truthy uid ∧ truthy name then pure (uidToName.set (← dictKey X uid) name) else pure uidToName
  else pure uidToName

def addOwner (uidToName : Dict DictKey Json) (rs : Json) (groups : Dict DictKey (List Json)) (owner : Json) :
    Except NormalizeError (Dict DictKey (List Json)) := do
  if isText "Deployment" (← field owner "kind") then do
    let uid ← dictKey X (← field owner "uid")
    pure (if (uidToName.get? uid).isSome then groups.set uid ((groups.get? uid).getD [] ++ [rs]) else groups)
  else pure groups

def addReplicaSet (uidToName : Dict DictKey Json) (groups : Dict DictKey (List Json)) (rs : Json) :
    Except NormalizeError (Dict DictKey (List Json)) := do
  (← entries (← metadataField rs "ownerReferences")).foldlM (addOwner X uidToName rs) groups

def isActive (rs : Json) : Except NormalizeError Bool := do
  let replicas ← field (orElse (← field rs "spec") (.obj [])) "replicas"
  match number? X (orElse replicas (.int 0)) with
  | some n => pure (decide (0 < n))
  | none => .error .typeError

def creationTimestamp (rs : Json) : Except NormalizeError String := do
  textKey "creationTimestamp" (orElse (← field rs "metadata") (.obj []))

/-- The first of the latest. -/
def newestOf : String × Json → List (String × Json) → String × Json
  | best, [] => best
  | best, p :: rest => newestOf (if best.1 < p.1 then p else best) rest

def rsName (rs : Json) : String :=
  match (orElse (rs.get "metadata") (.obj [])).item? "name" with
  | none => "<unnamed>"
  | some (.str s) => s
  | some v => X.str v

def replicasetSplitStalled (name : Json) (active : Nat) (newest : String) (age : ℤ) (grace : ℤ) : Finding where
  severity := .p1
  kind := "replicaset_split_stalled"
  service := (match name with
    | .str s => .text s
    | _ => .none)
  message := toString active ++ " active ReplicaSets; newest " ++ newest ++ " ready=0 age=" ++ toString age ++
    "s (> " ++ toString grace ++ "s grace)"
  diffPath := none
  details := [("active_rs_count", .int active), ("newest_rs", .str newest), ("age_seconds", .int age)]

/-- `int` of a number of seconds. -/
def truncate (age : ℚ) : ℤ := if 0 ≤ age then ⌊age⌋ else ⌈age⌉

def stalledSplit (now : ℚ) (grace : ℤ) (uidToName : Dict DictKey Json) (group : DictKey × List Json) :
    Except NormalizeError (List Finding) := do
  let active ← filterTest (isActive X) group.2
  if active.length ≤ 1 then pure []
  else do
    let stamped ← active.mapM fun rs => do pure (← creationTimestamp rs, rs)
    match stamped with
    | [] => pure []
    | first :: rest => do
      let newest := newestOf first rest
      let ready ← field (orElse (← field newest.2 "status") (.obj [])) "readyReplicas"
      let age := now - (T.strptime newest.1).getD now
      pure (if ¬truthy ready ∧ (grace : ℚ) < age then
        [replicasetSplitStalled ((uidToName.get? group.1).getD (.str "<unknown>")) active.length (rsName X newest.2) (truncate age) grace]
        else [])

def checkRsSplit (live replicasets : List Json) (now : ℚ) (grace : ℤ) (names : List String) :
    Except NormalizeError (List Finding) := do
  let uidToName ← live.foldlM (addUid X names) []
  let groups ← replicasets.foldlM (addReplicaSet X uidToName) []
  pure (← groups.mapM (stalledSplit X T now grace uidToName)).flatten

end ReplicaSets

def liveScoped (live : List Json) : Except NormalizeError (List Json) := filterTest (isContractScoped X catalog.allNames) live

def compareRuntime (docs live replicasets : List Json) (now : ℚ) (grace : ℤ) : Except NormalizeError (List Finding) := do
  let renderedByName ← byName X (← filterTemplateWorkloads X docs catalog.allNames)
  let liveByName ← byName X (← liveScoped X catalog live)
  let drift ← (templateServices env catalog).mapM (serviceDrift X T renderedByName liveByName)
  let split ← checkRsSplit X T live replicasets now grace catalog.allNames
  pure (drift.flatten ++ split)

/-- The answers of the three commands, of which the first failing one is what fails. -/
structure ClusterAnswers where
  rendered : Except CommandError (List Json)
  live : Except CommandError (List Json)
  replicasets : Except CommandError (List Json)

/-- The findings, or the text of the command that could not be run. -/
def runRuntime (answers : ClusterAnswers) (now : ℚ) (grace : ℤ) : Except GateError (List Finding × Option String) :=
  let answered := do
    let docs ← kustomizeRender answers.rendered
    let live ← answers.live
    let replicasets ← answers.replicasets
    pure (docs, live, replicasets)
  match answered with
  | .error (.runtimeError text) => .ok ([], some text)
  | .error .otherError => .error .command
  | .ok (docs, live, replicasets) => do
    let findings ← normalizing (compareRuntime X T env catalog docs live replicasets now grace)
    pure (findings, none)

end Runtime

section Main

/-- The code that the gate exits with, and the findings that it prints. -/
structure GateExit where
  code : Nat
  findings : List Finding

def execErrorExit : Nat := 3

def emit (findings : List Finding) : GateExit where
  code := if findings.any (·.severity = .p1) then 1 else if findings.any (·.severity = .p2) then 2 else 0
  findings := findings

inductive CatalogError where
  | refused
  | otherError
deriving DecidableEq, Repr

variable (X : Externals) (T : Texts) (env : String)

/-- `main` in its runtime mode, with the context and the namespace of a cluster or without. -/
def mainRuntime (loaded : Except CatalogError ServicesCatalog) (liveGiven : Bool) (answers : ClusterAnswers) (now : ℚ)
    (grace : ℤ) : Except GateError GateExit :=
  match loaded with
  | .error .refused => .ok ⟨execErrorExit, []⟩
  | .error .otherError => .error .command
  | .ok catalog =>
    if liveGiven then do
      let (findings, execError) ← runRuntime X T env catalog answers now grace
      match execError with
      | some text => pure (if text ≠ "" then ⟨execErrorExit, []⟩ else emit findings)
      | none => pure (emit findings)
    else .ok ⟨execErrorExit, []⟩

/-- The status of the process: an exception that nothing catches ends it with 1. -/
def exitStatus : Except GateError GateExit → Nat
  | .ok gate => gate.code
  | .error _ => 1

def emitted : Except GateError GateExit → List Finding
  | .ok gate => gate.findings
  | .error _ => []

end Main

end PlatformGitops.DriftDetection
