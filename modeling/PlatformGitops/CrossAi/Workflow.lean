import PlatformGitops.Coordination.Replay
import PlatformGitops.CrossAi.Canonical
import PlatformGitops.CrossAi.Effects
import PlatformGitops.Library.Dict
import Mathlib

/-! The inspection of a governed workflow file before its deployment is decided. -/

namespace PlatformGitops.CrossAi.Workflow

open Library
open Coordination (isBlank)

def maxWorkflowBytes : Nat := 1024 * 1024

section Patterns

/-- What a pattern leaves of a text after its match at the front. -/
abbrev Pattern := List Char → Option (List Char)

/-- Whether a lower-case letter of a pattern stands for a character, in any case of it. -/
def folds (p c : Char) : Bool :=
  c.toLower = p ∨ (p = 'i' ∧ c ∈ ['\u0130', '\u0131']) ∨ (p = 's' ∧ c = '\u017f') ∨ (p = 'k' ∧ c = '\u212a')

def word : List Char → Pattern
  | [], s => some s
  | _ :: _, [] => none
  | p :: ps, c :: s => if folds p c then word ps s else none

def spaces : Pattern := fun s => some (s.dropWhile isBlank)

def oneOf (p : Char → Bool) : Pattern
  | [] => none
  | c :: s => if p c then some s else none

def search (pattern : Pattern) : List Char → Bool
  | [] => (pattern []).isSome
  | c :: s => (pattern (c :: s)).isSome || search pattern s

/-- The number of matches, none of which overlaps another. The pattern also sees the character before; `skip` counts
the characters that the last match has yet to cover. -/
def findall (pattern : Option Char → Pattern) : Option Char → Nat → List Char → Nat
  | _, _, [] => 0
  | _, skip + 1, c :: s => findall pattern (some c) skip s
  | before, 0, c :: s =>
    match pattern before (c :: s) with
    | some rest => 1 + findall pattern (some c) (s.length - rest.length) s
    | none => findall pattern (some c) 0 s

def forbiddenAuthority : Pattern := fun s => do
  let s ← word "$\x7b\x7b".toList s
  let s ← spaces s
  word "inputs.".toList s <|> word "vars.".toList s <|>
    (word "github.event.inputs".toList s).bind (oneOf fun c => c = '.' ∨ isBlank c ∨ c = '\x7d')

/-- The start of a property of the secrets, at the start of a word. -/
def secretContext (isWordChar : Char → Bool) (before : Option Char) : Pattern := fun s =>
  if before.any isWordChar then none
  else do
    let s ← word "secrets".toList s
    let s ← spaces s
    oneOf (fun c => c = '.' ∨ c = '[') s

def quote : Pattern := oneOf fun c => c = '\'' ∨ c = '"'

def protectedSecretReference (secretName : String) : Pattern := fun s => do
  let name := secretName.toList.map Char.toLower
  let s ← word "$\x7b\x7b".toList s
  let s ← spaces s
  let s ← word "secrets".toList s
  let s ← spaces s
  let s ← ((oneOf (· = '.') s).bind fun s => (spaces s).bind (word name)) <|>
    ((oneOf (· = '[') s).bind fun s => do
      let s ← spaces s
      let s ← quote s
      let s ← word name s
      let s ← quote s
      let s ← spaces s
      oneOf (· = ']') s)
  let s ← spaces s
  word "\x7d\x7d".toList s

def protectedSecretReferenceCount (rawText : List Char) (secretName : String) : Nat :=
  findall (fun _ => protectedSecretReference secretName) none 0 rawText

def isLowerHex (c : Char) : Bool := c.isDigit ∨ ('a' ≤ c ∧ c ≤ 'f')

def isCommitSha (s : List Char) : Bool := s.length = 40 ∧ s.all isLowerHex

def isSha256Digest (s : List Char) : Bool :=
  "sha256:".toList.isPrefixOf s ∧ (s.drop 7).length = 64 ∧ (s.drop 7).all isLowerHex

def isSlugChar (c : Char) : Bool := c.isAlphanum ∨ c ∈ ['_', '.', '-']

def isSlug (s : List Char) : Bool := s ≠ [] ∧ s.all isSlugChar

/-- The parts of a text between the occurrences of a character. -/
def splitOn (mark : Char) : List Char → List (List Char)
  | [] => [[]]
  | c :: s =>
    match splitOn mark s with
    | part :: parts => if c = mark then [] :: part :: parts else (c :: part) :: parts
    | [] => [[c]]

def isLocalUse (s : List Char) : Bool := "./".toList.isPrefixOf s ∧ (splitOn '/' (s.drop 2)).all isSlug

def isDockerDigest (s : List Char) : Bool :=
  "docker://".toList.isPrefixOf s ∧
    let image := (s.drop 9).takeWhile (· ≠ '@')
    image ≠ [] ∧ image.all (fun c => ¬ isBlank c) ∧ ((s.drop 9).dropWhile (· ≠ '@')).head? = some '@' ∧
      isSha256Digest ((s.drop 9).dropWhile (· ≠ '@')).tail

/-- An action of another repository: its repository, the path in it and its revision. -/
structure RemoteAction where
  repository : List Char
  path : Option (List Char)
  revision : List Char

def remoteAction? (s : List Char) : Option RemoteAction :=
  let name := s.takeWhile (· ≠ '@')
  let owner := name.takeWhile (· ≠ '/')
  let rest := (name.dropWhile (· ≠ '/')).tail
  let project := rest.takeWhile (· ≠ '/')
  let path := rest.dropWhile (· ≠ '/')
  match s.dropWhile (· ≠ '@') with
  | _ :: revision =>
    if isSlug owner ∧ isSlug project ∧ path.all (fun c => ¬ isBlank c) ∧ path.length ≠ 1 ∧ revision ≠ [] ∧
        revision.all fun c => c ≠ '@' ∧ ¬ isBlank c then
      some ⟨owner ++ '/' :: project, if path = [] then none else some path, revision⟩
    else none
  | [] => none

end Patterns

section Constants

def bootstrapOutputValue : String := "$\x7b\x7b runner.temp \x7d\x7d/cross-ai-bootstrap.json"

def bootstrapActionRepository : String := "halildeu/platform-k8s-gitops"

def bootstrapActionPath : String := "/.github/actions/protected-bootstrap"

def protectedSecretNames : List String :=
  ["CROSS_AI_BOOTSTRAP_TOKEN", "CROSS_AI_ENDPOINT_ID", "CROSS_AI_OPERATOR_ID"]

def bootstrapEnv : List (String × String) :=
  [("CROSS_AI_BOOTSTRAP_TOKEN", "$\x7b\x7b secrets.CROSS_AI_BOOTSTRAP_TOKEN \x7d\x7d"),
    ("CROSS_AI_ENDPOINT_ID", "$\x7b\x7b secrets.CROSS_AI_ENDPOINT_ID \x7d\x7d"),
    ("CROSS_AI_OPERATOR_ID", "$\x7b\x7b secrets.CROSS_AI_OPERATOR_ID \x7d\x7d"),
    ("CROSS_AI_BOOTSTRAP_OUTPUT", bootstrapOutputValue)]

def postBootstrapEnv : List (String × String) := [("CROSS_AI_BOOTSTRAP_FILE", bootstrapOutputValue)]

end Constants

section Yaml

/-- A node of a document, before it is constructed. A mapping with a tag of its own is constructed by the library's
own constructor. -/
inductive YamlNode where
  | scalar (value : String)
  | sequence (items : List YamlNode)
  | mapping (tagged : Bool) (pairs : List (YamlNode × YamlNode))

/-- The YAML library: whether a text has an anchor or an alias, and the node of its document; `none` is an error. -/
structure Yaml where
  scan : List Char → Option Bool
  compose : List Char → Option (Option YamlNode)

def yamlInvalid {α : Type} : Except Failure α := reject "WORKFLOW_YAML_INVALID" "workflow is not valid YAML"

mutual

def constructObject : YamlNode → Except Failure Json
  | .scalar value => .ok (.str value)
  | .sequence items => do
    let values ← constructItems items
    pure (.list values)
  | .mapping tagged pairs => do
    let fields ← constructMapping tagged [] pairs
    pure (.obj fields)

def constructItems : List YamlNode → Except Failure (List Json)
  | [] => .ok []
  | item :: items => do
    let value ← constructObject item
    let values ← constructItems items
    pure (value :: values)

def constructMapping (tagged : Bool) (result : List (String × Json)) :
    List (YamlNode × YamlNode) → Except Failure (List (String × Json))
  | [] => .ok result
  | (keyNode, valueNode) :: rest => do
    match ← constructObject keyNode with
    | .str key =>
      rejectIf (tagged = false ∧ key ∈ result.map (·.1)) "WORKFLOW_YAML_DUPLICATE_KEY" ("duplicate YAML key " ++ key)
      let value ← constructObject valueNode
      constructMapping tagged (Dict.set result key value) rest
    | _ =>
      if tagged then yamlInvalid else reject "WORKFLOW_YAML_INVALID" "workflow mapping keys must be strings"

end

def mapping (value : Json) (label : String) : Except Failure (List (String × Json)) :=
  expect value.asObj? "WORKFLOW_SHAPE_INVALID" (label ++ " must be a mapping")

def sequence (value : Json) (label : String) : Except Failure (List Json) :=
  expect value.asList? "WORKFLOW_SHAPE_INVALID" (label ++ " must be a sequence")

def decodeText (raw : List UInt8) : Except Failure (List Char) :=
  expect (Text.decode? raw) "WORKFLOW_YAML_INVALID" "workflow is not UTF-8"

def loadYaml (yaml : Yaml) (text : List Char) : Except Failure Json := do
  match yaml.scan text with
  | none => yamlInvalid
  | some anchored =>
    rejectIf (anchored = true) "WORKFLOW_YAML_ALIAS_FORBIDDEN" "governed workflows must not use YAML anchors or aliases"
    match yaml.compose text with
    | none => yamlInvalid
    | some none => pure .null
    | some (some node) => constructObject node

def parseYaml (yaml : Yaml) (raw : List UInt8) : Except Failure (List (String × Json)) := do
  rejectIf (raw = [] ∨ maxWorkflowBytes < raw.length) "WORKFLOW_SIZE_INVALID" "workflow must contain 1..1048576 bytes"
  rejectIf (0 ∈ raw) "WORKFLOW_YAML_INVALID" "workflow contains a NUL byte"
  let text ← decodeText raw
  let value ← loadYaml yaml text
  mapping value "workflow"

end Yaml

section Shape

def get (fields : List (String × Json)) (key : String) : Json := (fields.lookup key).getD .null

def hasUnknown (fields : List (String × Json)) (keys : List String) : Bool := fields.any fun p => p.1 ∉ keys

def hasKeys (fields : List (String × Json)) (keys : List String) : Bool :=
  ¬ hasUnknown fields keys ∧ keys.all fun key => (fields.lookup key).isSome

def isExactly (fields : List (String × Json)) (expected : List (String × String)) : Bool :=
  hasKeys fields (expected.map (·.1)) ∧ expected.all fun p => (get fields p.1).asStr? = some p.2

def isEmptyDict : Json → Bool
  | .obj fields => fields.isEmpty
  | _ => false

def isAbsent (value : Json) : Bool := value.isNull ∨ value.asStr? = some ""

def validateTrigger (workflow : List (String × Json)) : Except Failure Unit :=
  let trigger := get workflow "on"
  if trigger.asStr? = some "workflow_dispatch" then .ok ()
  else
    match trigger.asObj?.filter fun fields => hasKeys fields ["workflow_dispatch"] with
    | none => reject "WORKFLOW_TRIGGER_INVALID" "machine-gated workflow must use only workflow_dispatch"
    | some fields =>
      let dispatch := get fields "workflow_dispatch"
      if isAbsent dispatch then .ok ()
      else do
        let dispatchMapping ← mapping dispatch "on.workflow_dispatch"
        let inputs := get dispatchMapping "inputs"
        rejectIf (¬ (isAbsent inputs ∨ isEmptyDict inputs)) "WORKFLOW_INPUTS_FORBIDDEN"
          "machine-gated workflow must not declare dispatch inputs"
        rejectIf (hasUnknown dispatchMapping ["inputs"]) "WORKFLOW_TRIGGER_INVALID"
          "workflow_dispatch contains unsupported control fields"

def validatePermissions (workflow : List (String × Json)) : Except Failure Unit := do
  let permissions ← mapping (get workflow "permissions") "permissions"
  rejectIf (¬ isExactly permissions [("contents", "read"), ("id-token", "write")]) "WORKFLOW_OIDC_PERMISSION_INVALID"
    "machine-gated workflow permissions must be exact least privilege"

/-- Whether a text may hold a template expression. -/
def hasOpening : List Char → Bool
  | [] => false
  | c :: s => ['$', '\x7b', '\x7b'].isPrefixOf (c :: s) || hasOpening s

def concurrencyGroup (X : Externals) (workflow : List (String × Json)) : Except Failure (String × String) := do
  let concurrency ← mapping (get workflow "concurrency") "concurrency"
  rejectIf (¬ hasKeys concurrency ["group", "cancel-in-progress"]) "WORKFLOW_CONCURRENCY_INVALID"
    "workflow concurrency must contain only group and cancellation policy"
  let group ← expect ((get concurrency "group").asStr?.filter fun group =>
      decide (1 ≤ group.length ∧ group.length ≤ 100 ∧ hasOpening group.toList = false ∧
        (get concurrency "cancel-in-progress").asStr? = some "false"))
    "WORKFLOW_CONCURRENCY_INVALID" "workflow concurrency must be one literal non-cancelling group"
  let digest ← sha256Digest X (.obj [("domain", .str "acik.cross-ai-workflow-concurrency-group.v1"),
    ("group", .str group)])
  pure (group, digest)

def labelsOf (value : Json) : Except Failure (List String) :=
  match value with
  | .str label => .ok [label]
  | .list items =>
    expect ((items.mapM Json.asStr?).filter fun labels =>
        decide (labels ≠ [] ∧ ∀ label ∈ labels, 1 ≤ label.length ∧ label.length ≤ 100))
      "WORKFLOW_RUNNER_INVALID" "runs-on labels are invalid"
  | _ => reject "WORKFLOW_RUNNER_INVALID" "runs-on must be literal labels"

def literalLabels (value : Json) : Except Failure (List String) := do
  let labels ← labelsOf value
  rejectIf (¬ labels.Nodup ∨ ∃ label ∈ labels, hasOpening label.toList = true) "WORKFLOW_RUNNER_INVALID"
    "runs-on labels must be unique literals"
  pure labels

/-- The labels and the group of the runners. -/
def runsOn (value : Json) : Except Failure (List String × Option String) :=
  match value with
  | .obj fields => do
    rejectIf (hasUnknown fields ["group", "labels"]) "WORKFLOW_RUNNER_INVALID" "runs-on contains unknown fields"
    let group ← expect ((get fields "group").asStr?.filter fun group => decide (group ≠ ""))
      "WORKFLOW_RUNNER_INVALID" "runs-on group must be a literal string"
    let labels ← literalLabels (get fields "labels")
    pure (labels, some group)
  | value => do
    let labels ← literalLabels value
    pure (labels, none)

def environmentName (value : Json) : Except Failure (Option String) :=
  match value with
  | .str name => .ok (some name)
  | .obj fields => do
    rejectIf (hasUnknown fields ["name", "url"]) "WORKFLOW_ENVIRONMENT_INVALID" "environment contains unknown fields"
    let name ← expect (get fields "name").asStr? "WORKFLOW_ENVIRONMENT_INVALID" "environment name must be literal"
    pure (some name)
  | .null => .ok none
  | _ => reject "WORKFLOW_ENVIRONMENT_INVALID" "environment has invalid shape"

end Shape

section Steps

inductive Dependency where
  | localUse (path : String)
  | externalUse (reference : String)

def unpinned {α : Type} (message : String) : Except Failure α := reject "WORKFLOW_DEPENDENCY_UNPINNED" message

local instance instLawfulBEqPart : LawfulBEq (List Char) := inferInstance

def inspectUse (value : Json) : Except Failure Dependency := do
  let value ← expect (value.asStr?.filter fun value => decide (value ≠ "" ∧ hasOpening value.toList = false))
    "WORKFLOW_DEPENDENCY_UNPINNED" "uses must be a literal pinned reference"
  if "./".toList.isPrefixOf value.toList then
    if isLocalUse value.toList ∧ "..".toList ∉ splitOn '/' value.toList then pure (.localUse value)
    else reject "WORKFLOW_LOCAL_DEPENDENCY_INVALID" "local uses path is invalid"
  else if "docker://".toList.isPrefixOf value.toList then
    if isDockerDigest value.toList then pure (.externalUse value)
    else unpinned "container uses must pin a SHA-256 digest"
  else
    match remoteAction? value.toList with
    | some action =>
      if isCommitSha action.revision then pure (.externalUse value)
      else unpinned "external actions must pin a full commit SHA"
    | none => unpinned "external actions must pin a full commit SHA"

def useOf (value : Json) : Option RemoteAction := value.asStr?.bind fun s => remoteAction? s.toList

/-- Whether an action is the checkout, and whether it is the one at the root of its repository. -/
def checkoutAction (value : Json) : Bool × Bool :=
  match useOf value with
  | some action =>
    if action.repository.map Char.toLower = "actions/checkout".toList then (true, action.path.isNone)
    else (false, false)
  | none => (false, false)

/-- The revision of a step that runs the bootstrap action. -/
def bootstrapAction (value : Json) : Option (List Char) :=
  ((useOf value).filter fun action => decide (
    action.repository.map Char.toLower = bootstrapActionRepository.toList ∧
      action.path = some bootstrapActionPath.toList ∧ isCommitSha action.revision)).map (·.revision)

def stepsLabel (jobName : String) : String := "jobs." ++ jobName ++ ".steps"

def stepsOf (job : List (String × Json)) (jobName : String) : Except Failure (List Json) :=
  sequence ((job.lookup "steps").getD (.list [])) (stepsLabel jobName)

def stepOf (value : Json) (jobName : String) : Except Failure (List (String × Json)) :=
  mapping value (stepsLabel jobName ++ "[]")

def checkPrior (prior : List (String × Json)) : Except Failure Unit :=
  rejectIf (hasUnknown prior ["name", "uses"] ∨ checkoutAction (get prior "uses") ≠ (true, true))
    "WORKFLOW_BOOTSTRAP_ORDER_INVALID" "only pinned checkout may run before runner bootstrap"

def postInvalid {α : Type} : Except Failure α :=
  reject "WORKFLOW_POST_BOOTSTRAP_INVALID"
    "post-bootstrap execution must use only pinned actions with the verified file"

def checkPost (bootstrapRevision : List Char) (step : List (String × Json)) : Except Failure Unit :=
  let use := get step "uses"
  match use.asStr?.filter fun s => decide (¬ "./".toList.isPrefixOf s.toList) with
  | none => postInvalid
  | some _ =>
    match (useOf use).filter fun action => decide (action.revision = bootstrapRevision) with
    | none => postInvalid
    | some _ =>
      if hasUnknown step ["name", "uses", "env"] ∨ (checkoutAction use).1 then postInvalid
      else do
        let env ← mapping (get step "env") "post-bootstrap action env"
        if isExactly env postBootstrapEnv then pure () else postInvalid

def checkArguments (stagePolicy : StagePolicy) (bootstrap : List (String × Json)) : Except Failure Unit := do
  let arguments ← mapping (get bootstrap "with") "runner bootstrap inputs"
  rejectIf (¬ hasKeys arguments ["stage", "workflow-path", "expected-trust-root-sha256"] ∨
      (get arguments "stage").asStr? ≠ some stagePolicy.stage ∨
      (get arguments "workflow-path").asStr? ≠ some stagePolicy.workflowPath ∨
      ¬ ((get arguments "expected-trust-root-sha256").asStr?).any fun s => isSha256Digest s.toList)
    "WORKFLOW_BOOTSTRAP_INVALID" "bootstrap action inputs differ from the signed stage profile"

def checkEnvironment (expectedBootstrapUrl : String) (bootstrap : List (String × Json)) : Except Failure Unit := do
  let environment ← mapping (get bootstrap "env") "runner bootstrap env"
  rejectIf (¬ hasKeys environment (bootstrapEnv.map (·.1) ++ ["CROSS_AI_BOOTSTRAP_URL"]))
    "WORKFLOW_BOOTSTRAP_CREDENTIAL_INVALID" "runner bootstrap environment contains an unsupported value"
  bootstrapEnv.forM fun p =>
    rejectIf ((get environment p.1).asStr? ≠ some p.2) "WORKFLOW_BOOTSTRAP_CREDENTIAL_INVALID"
      ("runner bootstrap must receive " ++ p.1 ++ " only through protected env")
  rejectIf ((get environment "CROSS_AI_BOOTSTRAP_URL").asStr? ≠ some expectedBootstrapUrl)
    "WORKFLOW_BOOTSTRAP_ENDPOINT_INVALID" "runner bootstrap endpoint differs from the signed policy"

def validateBootstrapStep (stagePolicy : StagePolicy) (expectedBootstrapUrl : String) (job : List (String × Json))
    (jobName : String) : Except Failure Unit := do
  let values ← stepsOf job jobName
  let steps ← values.mapM fun value => stepOf value jobName
  let found := steps.zipIdx.filter fun p => (bootstrapAction (get p.1 "uses")).isSome
  match found with
  | [(bootstrap, bootstrapIndex)] =>
    rejectIf (bootstrapIndex ≠ 1) "WORKFLOW_BOOTSTRAP_ORDER_INVALID"
      "runner bootstrap must immediately follow one pinned checkout step"
    (steps.take bootstrapIndex).forM checkPrior
    rejectIf (hasUnknown bootstrap ["name", "env", "uses", "with"]) "WORKFLOW_BOOTSTRAP_INVALID"
      "bootstrap step contains an unsupported control field"
    let bootstrapRevision ← expect (bootstrapAction (get bootstrap "uses")) "WORKFLOW_BOOTSTRAP_INVALID"
      "bootstrap action pin is invalid"
    checkArguments stagePolicy bootstrap
    checkEnvironment expectedBootstrapUrl bootstrap
    let postBootstrap := steps.drop (bootstrapIndex + 1)
    rejectIf (¬ (1 ≤ postBootstrap.length ∧ postBootstrap.length ≤ 8)) "WORKFLOW_POST_BOOTSTRAP_INVALID"
      "governed job must have a bounded pinned execution action"
    postBootstrap.forM (checkPost bootstrapRevision)
  | _ =>
    reject "WORKFLOW_BOOTSTRAP_INVALID" "governed job must call the immutable runner bootstrap action exactly once"

end Steps

section Inspection

variable (X : Externals) (isWordChar : Char → Bool) (yaml : Yaml)

structure Inspection where
  workflowSha256 : String
  dependencyLockSha256 : String
  concurrencyGroupSha256 : String
  governedJob : String
  runsOnLabels : List String
  runnerGroup : Option String
  localUses : List String
  externalUses : List String

def checkRawText (rawText : List Char) : Except Failure Unit := do
  rejectIf (search forbiddenAuthority rawText) "WORKFLOW_INPUT_AUTHORITY_FORBIDDEN"
    "workflow reads an unavailable input or mutable vars authority"
  protectedSecretNames.forM fun secretName =>
    rejectIf (protectedSecretReferenceCount rawText secretName ≠ 1) "WORKFLOW_BOOTSTRAP_CREDENTIAL_INVALID"
      "protected bootstrap values must appear only in the bootstrap step"
  rejectIf (findall (secretContext isWordChar) none 0 rawText ≠ protectedSecretNames.length)
    "WORKFLOW_BOOTSTRAP_CREDENTIAL_INVALID" "governed workflow may reference only the three pinned bootstrap secrets"

def inspectStep (jobName : String) (value : Json) : Except Failure (Option Dependency) := do
  let step ← stepOf value jobName
  rejectIf (step.lookup "continue-on-error").isSome "WORKFLOW_CONTINUE_ON_ERROR_FORBIDDEN"
    "step continue-on-error is forbidden"
  match step.lookup "uses" with
  | some use => do
    let dependency ← inspectUse use
    pure (some dependency)
  | none => pure none

def jobFields : List String := ["name", "environment", "runs-on", "steps", "timeout-minutes"]

/-- The labels and the group of a job that binds the environment. -/
def governedRunner (environment : String) (job : List (String × Json)) (jobEnvironment : Option String) :
    Except Failure (Option (List String × Option String)) :=
  if jobEnvironment = some environment then (runsOn (get job "runs-on")).map some else .ok none

/-- What the inspection of the job finds: its labels and group when it binds the environment, and its uses. -/
def inspectJob (environment jobName : String) (job : List (String × Json)) :
    Except Failure (Option (List String × Option String) × List Dependency) := do
  rejectIf (hasUnknown job jobFields) "WORKFLOW_JOB_CONTROL_INVALID"
    "governed job contains an unsupported control field"
  rejectIf (job.lookup "continue-on-error").isSome "WORKFLOW_CONTINUE_ON_ERROR_FORBIDDEN"
    "job continue-on-error is forbidden"
  let jobEnvironment ← environmentName (get job "environment")
  let governed ← governedRunner environment job jobEnvironment
  let values ← stepsOf job jobName
  let uses ← values.mapM (inspectStep jobName)
  pure (governed, uses.filterMap id)

def sortedUses (uses : List String) : List String := uses.dedup.insertionSort (· ≤ ·)

def localUses (uses : List Dependency) : List String :=
  sortedUses (uses.filterMap fun | .localUse path => some path | .externalUse _ => none)

def externalUses (uses : List Dependency) : List String :=
  sortedUses (uses.filterMap fun | .externalUse reference => some reference | .localUse _ => none)

def dependencyProjection (uses : List Dependency) : Json :=
  .obj [("domain", .str "acik.cross-ai-workflow-dependency-lock.v1"),
    ("localUses", .list ((localUses uses).map .str)), ("externalUses", .list ((externalUses uses).map .str))]

def inspectWorkflow (stagePolicy : StagePolicy) (environment expectedBootstrapUrl : String) (raw : List UInt8) :
    Except Failure Inspection := do
  let workflow ← parseYaml yaml raw
  rejectIf (hasUnknown workflow ["name", "on", "permissions", "concurrency", "jobs"]) "WORKFLOW_ROOT_CONTROL_INVALID"
    "workflow contains an unsupported root control field"
  let rawText ← decodeText raw
  checkRawText isWordChar rawText
  validateTrigger workflow
  validatePermissions workflow
  let (_, concurrencyGroupSha256) ← concurrencyGroup X workflow
  let jobs ← mapping (get workflow "jobs") "jobs"
  match jobs with
  | [(jobName, jobValue)] =>
    let job ← mapping jobValue ("jobs." ++ jobName)
    let (governed, uses) ← inspectJob environment jobName job
    let (governedLabels, governedGroup) ← expect governed "WORKFLOW_ENVIRONMENT_BINDING_INVALID"
      "exactly one job must bind the governed Environment"
    validateBootstrapStep stagePolicy expectedBootstrapUrl job jobName
    rejectIf (governedLabels ≠ stagePolicy.requiredRunsOnLabels) "WORKFLOW_RUNNER_MISMATCH"
      "governed job runs-on labels do not match policy"
    rejectIf (stagePolicy.requireRunnerGroup ≠ governedGroup.isSome) "WORKFLOW_RUNNER_MISMATCH"
      "runner-group requirement does not match policy"
    let dependencyLockSha256 ← sha256Digest X (dependencyProjection uses)
    pure ⟨"sha256:" ++ X.sha256 raw, dependencyLockSha256, concurrencyGroupSha256, jobName, governedLabels,
      governedGroup, localUses uses, externalUses uses⟩
  | _ => reject "WORKFLOW_JOBS_INVALID" "workflow must contain exactly one governed job"

end Inspection

end PlatformGitops.CrossAi.Workflow
