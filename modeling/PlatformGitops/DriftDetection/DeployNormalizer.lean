import PlatformGitops.Coordination.Replay
import PlatformGitops.Library.Dict
import PlatformGitops.Library.SortedForm
import Mathlib.Data.Prod.Lex
import Mathlib.Data.Rat.Defs
import Mathlib.Data.String.Basic

/-! The contract surface of a workload's pod template, and the semantic diff of two workloads. -/

namespace PlatformGitops.DriftDetection

open Library
open Coordination (truthy orElse)

inductive NormalizeError where
  | duplicateEnvNames (names : List (Option String))
  | valueError
  | overflowError
  | typeError
  | attributeError
deriving DecidableEq, Repr

/-- The readers of quantities compute with floats; `floatValue` is the number that a float's text stands for. -/
structure Externals where
  parseCpuToMillicores : Json → Except NormalizeError Json
  parseMemoryToBytes : Json → Except NormalizeError Json
  floatValue : String → ℚ
  str : Json → String

abbrev Fields := List (String × Json)

section Fields

/-- `setdefault` of one key after the other. -/
def setDefaults (defaults fields : Fields) : Fields :=
  defaults.foldl (fun fields p => if p.1 ∈ fields.map (·.1) then fields else fields ++ [p]) fields

def updateField (key : String) (f : Json → Json) (fields : Fields) : Fields :=
  fields.map fun p => if p.1 = key then (p.1, f p.2) else p

def withDefaults (defaults : Fields) : Json → Json
  | .obj fields => .obj (setDefaults defaults fields)
  | v => v

/-- What a loop over the value goes through. -/
def entries (value : Json) : Except NormalizeError (List Json) :=
  if truthy value then
    match value with
    | .list items => .ok items
    | _ => .error .typeError
  else .ok []

def textKey (field : String) : Json → Except NormalizeError String
  | .obj fields =>
    match fields.lookup field with
    | none => .ok ""
    | some (.str s) => .ok s
    | some _ => .error .typeError
  | _ => .error .attributeError

def numberKey (field : String) : Json → Except NormalizeError Int
  | .obj fields =>
    match fields.lookup field with
    | none => .ok 0
    | some (.int n) => .ok n
    | some _ => .error .typeError
  | _ => .error .attributeError

variable {κ : Type} [LinearOrder κ]

/-- `sorted` by a key that is computed of each entry first. -/
def sortedEntries (key : Json → Except NormalizeError κ) (items : List Json) : Except NormalizeError (List Json) := do
  let keyed ← items.mapM fun entry => do pure (← key entry, entry)
  pure ((SortedForm.sortBy Prod.fst keyed).map Prod.snd)

end Fields

section Normalization

def probeDefaults : Fields :=
  [("periodSeconds", .int 10), ("timeoutSeconds", .int 1), ("successThreshold", .int 1), ("failureThreshold", .int 3),
    ("initialDelaySeconds", .int 0)]

def httpGetDefaults : Fields := [("scheme", .str "HTTP")]

def normalizeProbe : Json → Except NormalizeError Json
  | .null => .ok .null
  | .obj fields => .ok (.obj (updateField "httpGet" (withDefaults httpGetDefaults) (setDefaults probeDefaults fields)))
  | _ => .error .attributeError

def envName (entry : Json) : Except NormalizeError (Option String) :=
  match entry with
  | .obj _ =>
    match entry.get "name" with
    | .null => .ok none
    | .str s => .ok (some s)
    | _ => .error .typeError
  | _ => .error .attributeError

/-- The names that were seen before, each time they come again. -/
def repeated (seen : List (Option String)) : List (Option String) → List (Option String)
  | [] => []
  | name :: names => if name ∈ seen then name :: repeated seen names else repeated (name :: seen) names

def normalizeEnvList (env : Json) : Except NormalizeError (List Json) := do
  let items ← entries env
  let names ← items.mapM envName
  Fallible.rejectIf (repeated [] names ≠ []) (.duplicateEnvNames (repeated [] names).dedup)
  sortedEntries (textKey "name") items

variable (X : Externals)

def refName (fields : Fields) : String :=
  match fields.lookup "name" with
  | none => ""
  | some (.str s) => s
  | some v => X.str v

def envFromKey (entry : Json) : Except NormalizeError String :=
  match entry with
  | .obj fields =>
    match fields.lookup "configMapRef", fields.lookup "secretRef" with
    | some (.obj ref), _ => .ok ("configMapRef:" ++ refName X ref)
    | _, some (.obj ref) => .ok ("secretRef:" ++ refName X ref)
    | _, _ => .ok ""
  | _ => .error .attributeError

def normalizeEnvFromList (envFrom : Json) : Except NormalizeError (List Json) := do
  sortedEntries (envFromKey X) (← entries envFrom)

def portKey (entry : Json) : Except NormalizeError (String ×ₗ Int) := do
  pure (toLex (← textKey "name" entry, ← numberKey "containerPort" entry))

def normalizePorts (ports : Json) : Except NormalizeError (List Json) := do
  sortedEntries portKey (← entries ports)

def mountKey (entry : Json) : Except NormalizeError (String ×ₗ String) := do
  pure (toLex (← textKey "name" entry, ← textKey "mountPath" entry))

def normalizeVolumeMounts (mounts : Json) : Except NormalizeError (List Json) := do
  sortedEntries mountKey (← entries mounts)

def modeDefaults : Fields := [("defaultMode", .int 420)]

def volumeSources : List String := ["configMap", "secret", "projected"]

def normalizeVolume : Json → Except NormalizeError Json
  | .obj fields => .ok (.obj (volumeSources.foldl (fun fields key => updateField key (withDefaults modeDefaults) fields) fields))
  | _ => .error .attributeError

def normalizeVolumes (volumes : Json) : Except NormalizeError (List Json) := do
  let normalized ← (← entries volumes).mapM normalizeVolume
  sortedEntries (textKey "name") normalized

def normalizeImagePullSecrets (secrets : Json) : Except NormalizeError (List Json) := do
  sortedEntries (textKey "name") (← entries secrets)

def normalizeQuantity (p : String × Json) : Except NormalizeError (String × Json) := do
  if p.1 = "cpu" then pure (p.1, ← X.parseCpuToMillicores p.2)
  else if p.1 = "memory" then pure (p.1, ← X.parseMemoryToBytes p.2)
  else pure p

def normalizeSection (resources : Json) (key : String) : Except NormalizeError Fields :=
  if truthy (resources.get key) then
    match resources.get key with
    | .obj quantities => do pure [(key, .obj (← quantities.mapM (normalizeQuantity X)))]
    | _ => .error .attributeError
  else .ok []

def normalizeResources (resources : Json) : Except NormalizeError Json :=
  if truthy resources then
    match resources with
    | .obj _ => do
      pure (.obj ((← normalizeSection X resources "requests") ++ (← normalizeSection X resources "limits")))
    | _ => .error .attributeError
  else .ok (.obj [])

end Normalization

section View

variable (X : Externals)

def containerContractView (container : Json) : Except NormalizeError Json := do
  let ports ← normalizePorts (container.get "ports")
  let startupProbe ← normalizeProbe (container.get "startupProbe")
  let livenessProbe ← normalizeProbe (container.get "livenessProbe")
  let readinessProbe ← normalizeProbe (container.get "readinessProbe")
  let resources ← normalizeResources X (container.get "resources")
  let env ← normalizeEnvList (container.get "env")
  let envFrom ← normalizeEnvFromList X (container.get "envFrom")
  let volumeMounts ← normalizeVolumeMounts (container.get "volumeMounts")
  pure (.obj [("ports", .list ports), ("startupProbe", startupProbe), ("livenessProbe", livenessProbe),
    ("readinessProbe", readinessProbe), ("resources", resources), ("env", .list env), ("envFrom", .list envFrom),
    ("command", orElse (container.get "command") (.list [])), ("args", orElse (container.get "args") (.list [])),
    ("securityContext", orElse (container.get "securityContext") (.obj [])), ("volumeMounts", .list volumeMounts)])

/-- A container without a name is passed over, and a later one of a name replaces an earlier one. -/
def addContainerView (views : Fields) (container : Json) : Except NormalizeError Fields :=
  match container with
  | .obj _ =>
    if truthy (container.get "name") then
      match container.get "name" with
      | .str name => do pure (Dict.set views name (← containerContractView X container))
      | _ => .error .typeError
    else .ok views
  | _ => .error .attributeError

def podTemplate (deploy : Json) : Json := orElse ((orElse (deploy.get "spec") (.obj [])).get "template") (.obj [])

def podSpec (deploy : Json) : Json := orElse ((podTemplate deploy).get "spec") (.obj [])

def gracePeriod (spec : Json) : Json :=
  match spec.get "terminationGracePeriodSeconds" with
  | .null => .int 30
  | v => v

def templateContractView (deploy : Json) : Except NormalizeError Json := do
  let spec := podSpec deploy
  let containers ← (← entries (spec.get "containers")).foldlM (addContainerView X) []
  let imagePullSecrets ← normalizeImagePullSecrets (spec.get "imagePullSecrets")
  let volumes ← normalizeVolumes (spec.get "volumes")
  pure (.obj [("labels", orElse ((orElse ((podTemplate deploy).get "metadata") (.obj [])).get "labels") (.obj [])),
    ("serviceAccountName", spec.get "serviceAccountName"),
    ("automountServiceAccountToken", spec.get "automountServiceAccountToken"),
    ("terminationGracePeriodSeconds", gracePeriod spec),
    ("podSecurityContext", orElse (spec.get "securityContext") (.obj [])),
    ("imagePullSecrets", .list imagePullSecrets), ("volumes", .list volumes), ("containers", .obj containers)])

end View

section Diff

structure Difference where
  path : String
  desired : Json
  live : Json

def isEmpty : Json → Bool
  | .null => true
  | .str s => s = ""
  | .list items => items.isEmpty
  | .obj fields => fields.isEmpty
  | _ => false

variable (X : Externals)

def number? : Json → Option ℚ
  | .int n => some n
  | .bool b => some (if b then 1 else 0)
  | .float text => some (X.floatValue text)
  | _ => none

/-- `==` of values that are not both mappings or both lists. -/
def equalScalars (a b : Json) : Bool :=
  match a, b with
  | .str s, .str t => s = t
  | a, b => (number? X a).isSome ∧ number? X a = number? X b

def diffScalars (path : String) (desired live : Json) : List Difference :=
  if (isEmpty desired ∧ isEmpty live) ∨ equalScalars X desired live then [] else [⟨path, desired, live⟩]

def subPath (path key : String) : String := if path = "" then key else path ++ "." ++ key

def itemPath (path : String) (i : Nat) : String := path ++ "[" ++ toString i ++ "]"

/-- The differences of the keys that only the live side has. -/
def liveOnly (path : String) (desiredFields : Fields) (seen : List String) : Fields → List (String × List Difference)
  | [] => []
  | (key, value) :: fields =>
    if key ∈ seen ∨ key ∈ desiredFields.map (·.1) then liveOnly path desiredFields seen fields
    else (key, diffScalars X (subPath path key) .null value) :: liveOnly path desiredFields (key :: seen) fields

def inKeyOrder (diffs : List (String × List Difference)) : List Difference :=
  (SortedForm.sortBy Prod.fst diffs).flatMap Prod.snd

mutual

def diffRecursive (path : String) : Json → Json → List Difference
  | .obj fields, .obj liveFields =>
    inKeyOrder (diffFields path liveFields [] fields ++ liveOnly X path fields [] liveFields)
  | .list items, .list liveItems =>
    if items.length ≠ liveItems.length then [⟨path, .list items, .list liveItems⟩] else diffItems path 0 items liveItems
  | desired, live => diffScalars X path desired live

def diffItems (path : String) : Nat → List Json → List Json → List Difference
  | i, desired :: items, live :: liveItems =>
    diffRecursive (itemPath path i) desired live ++ diffItems path (i + 1) items liveItems
  | _, _, _ => []

def diffFields (path : String) (liveFields : Fields) : List String → Fields → List (String × List Difference)
  | _, [] => []
  | seen, (key, value) :: fields =>
    if key ∈ seen then diffFields path liveFields seen fields
    else (key, diffRecursive (subPath path key) value ((Json.obj liveFields).get key)) ::
      diffFields path liveFields (key :: seen) fields

end

def semanticDiff (desiredDeploy liveDeploy : Json) : Except NormalizeError (List Difference) := do
  let desired ← templateContractView X desiredDeploy
  let live ← templateContractView X liveDeploy
  pure (diffRecursive X "" desired live)

end Diff

end PlatformGitops.DriftDetection
