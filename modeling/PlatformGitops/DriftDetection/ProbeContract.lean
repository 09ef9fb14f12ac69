import PlatformGitops.DriftDetection.DeployNormalizer
import PlatformGitops.Library.DictKey

/-! The probes that a service's contract asks of its primary container, and the findings where they are not there. -/

namespace PlatformGitops.DriftDetection

open Library
open Coordination (truthy orElse)

section Findings

inductive Severity where
  | p1
  | p2
deriving DecidableEq, Repr

structure Finding where
  severity : Severity
  kind : String
  service : DictKey
  message : String
  diffPath : Option String
  details : Fields

/-- How values are printed, and the reader of time stamps. -/
structure Texts where
  repr : Json → String
  dumps : Json → String
  strptime : String → Option ℚ

/-- `get` of a value that has to be a mapping. -/
def field (v : Json) (key : String) : Except NormalizeError Json :=
  match v with
  | .obj _ => .ok (v.get key)
  | _ => .error .attributeError

def isText (s : String) (v : Json) : Bool := v.asStr? = some s

end Findings

structure ProbeContractRule where
  name : String
  startupRequired : Bool
  livenessPaths : List String
  readinessPaths : List String
  portValues : List Json

def springActuator : ProbeContractRule where
  name := "spring-actuator"
  startupRequired := true
  livenessPaths := ["/actuator/health/liveness"]
  readinessPaths := ["/actuator/health/readiness"]
  portValues := [.str "management", .int 8081, .str "8081"]

def httpHealthz : ProbeContractRule where
  name := "http-healthz"
  startupRequired := false
  livenessPaths := ["/healthz", "/healthz/live"]
  readinessPaths := ["/healthz", "/healthz/ready"]
  portValues := []

def probeContracts : Dict String ProbeContractRule := [("spring-actuator", springActuator), ("http-healthz", httpHealthz)]

def exemptContract : String := "exempt"

def knownContracts : List String := probeContracts.map (·.1) ++ [exemptContract]

def getRule (contract : String) : Option ProbeContractRule := probeContracts.get? contract

section Assertion

variable (X : Externals) (T : Texts)

def namedContainer (serviceName : String) : List Json → Except NormalizeError (Option Json)
  | [] => .ok none
  | c :: cs => do if isText serviceName (← field c "name") then pure (some c) else namedContainer serviceName cs

def pickPrimaryContainer (containers : List Json) (serviceName : String) : Except NormalizeError (Option Json) := do
  match ← namedContainer serviceName containers with
  | some c => pure (some c)
  | none =>
    match containers with
    | [c] => pure (some c)
    | _ => pure none

def containerField (fieldName : String) : String := "spec.template.spec.containers[]." ++ fieldName

def strings (texts : List String) : Json := .list (texts.map .str)

def missingProbe (rule : ProbeContractRule) (fieldName serviceName : String) : Finding where
  severity := .p1
  kind := "missing_" ++ fieldName.toLower
  service := .text serviceName
  message := "contract " ++ rule.name ++ " requires " ++ fieldName
  diffPath := some (containerField fieldName)
  details := []

def probePathViolation (rule : ProbeContractRule) (fieldName serviceName : String) (validPaths : List String)
    (path : Json) : Finding where
  severity := .p1
  kind := "probe_path_violation"
  service := .text serviceName
  message := "contract " ++ rule.name ++ " " ++ fieldName ++ ".path expected one of " ++ T.repr (strings validPaths) ++
    ", got " ++ T.repr path
  diffPath := some (containerField (fieldName ++ ".httpGet.path"))
  details := [("expected_one_of", strings validPaths), ("actual", path)]

def probePortViolation (rule : ProbeContractRule) (fieldName serviceName : String) (port : Json) : Finding where
  severity := .p1
  kind := "probe_port_violation"
  service := .text serviceName
  message := "contract " ++ rule.name ++ " " ++ fieldName ++ ".port expected one of " ++ T.repr (.list rule.portValues) ++
    ", got " ++ T.repr port
  diffPath := some (containerField (fieldName ++ ".httpGet.port"))
  details := [("expected_one_of", .list rule.portValues), ("actual", port)]

def allowedPath (validPaths : List String) (path : Json) : Bool := validPaths.any (isText · path)

def allowedPort (rule : ProbeContractRule) (port : Json) : Bool :=
  rule.portValues.isEmpty ∨ rule.portValues.any (equalScalars X port)

def assertProbeShape (probe : Json) (rule : ProbeContractRule) (fieldName : String) (validPaths : List String)
    (serviceName : String) : Except NormalizeError (List Finding) :=
  match probe with
  | .null => .ok [missingProbe rule fieldName serviceName]
  | probe => do
    let httpGet := orElse (← field probe "httpGet") (.obj [])
    let path ← field httpGet "path"
    let port ← field httpGet "port"
    pure ((if allowedPath validPaths path then []
        else [probePathViolation T rule fieldName serviceName validPaths path]) ++
      if allowedPort X rule port then [] else [probePortViolation T rule fieldName serviceName port])

def unknownProbeContract (contract serviceName : String) : Finding where
  severity := .p1
  kind := "unknown_probe_contract"
  service := .text serviceName
  message := "probe_contract=" ++ T.repr (.str contract) ++ " not in known set"
  diffPath := none
  details := []

def missingPrimaryContainer (serviceName : String) : Finding where
  severity := .p1
  kind := "missing_primary_container"
  service := .text serviceName
  message := "no container named '" ++ serviceName ++ "' or single-container fallback"
  diffPath := none
  details := []

def missingStartupProbe (rule : ProbeContractRule) (serviceName : String) : Finding where
  severity := .p1
  kind := "missing_startup_probe"
  service := .text serviceName
  message := "contract " ++ rule.name ++ " requires startupProbe; none defined"
  diffPath := some (containerField "startupProbe")
  details := []

def assertProbes (primary : Json) (rule : ProbeContractRule) (serviceName : String) :
    Except NormalizeError (List Finding) := do
  let startup := if rule.startupRequired ∧ ¬truthy (primary.get "startupProbe") then
    [missingStartupProbe rule serviceName] else []
  let liveness ← assertProbeShape X T (primary.get "livenessProbe") rule "livenessProbe" rule.livenessPaths serviceName
  let readiness ← assertProbeShape X T (primary.get "readinessProbe") rule "readinessProbe" rule.readinessPaths serviceName
  pure (startup ++ liveness ++ readiness)

/-- The pod's containers, read through mappings that may be missing. -/
def deployContainers (deploy : Json) : Except NormalizeError (List Json) := do
  let spec := orElse (← field deploy "spec") (.obj [])
  let template := orElse (← field spec "template") (.obj [])
  let podSpec := orElse (← field template "spec") (.obj [])
  entries (← field podSpec "containers")

def assertProbeContract (deploy : Json) (contract serviceName : String) : Except NormalizeError (List Finding) :=
  if contract = exemptContract then .ok []
  else
    match getRule contract with
    | none => .ok [unknownProbeContract T contract serviceName]
    | some rule => do
      match ← pickPrimaryContainer (← deployContainers deploy) serviceName with
      | none => pure [missingPrimaryContainer serviceName]
      | some primary => assertProbes X T primary rule serviceName

end Assertion

section Compliance

variable (X : Externals)

/-- The probe asks the contract's path, on one of the contract's ports. -/
def ProbeMeets (rule : ProbeContractRule) (validPaths : List String) (probe : Json) : Prop :=
  (∃ path ∈ validPaths, (orElse (probe.get "httpGet") (.obj [])).get "path" = .str path) ∧
    (rule.portValues = [] ∨
      ∃ port ∈ rule.portValues, equalScalars X ((orElse (probe.get "httpGet") (.obj [])).get "port") port)

/-- The service's own container, or the only one that there is. -/
def IsPrimary (serviceName : String) (containers : List Json) (c : Json) : Prop :=
  (∃ before after, containers = before ++ c :: after ∧ c.get "name" = .str serviceName ∧
      ∀ b ∈ before, b.get "name" ≠ .str serviceName) ∨
    (containers = [c] ∧ c.get "name" ≠ .str serviceName)

structure ContainerMeets (rule : ProbeContractRule) (primary : Json) : Prop where
  startup : rule.startupRequired → truthy (primary.get "startupProbe")
  liveness : ProbeMeets X rule rule.livenessPaths (primary.get "livenessProbe")
  readiness : ProbeMeets X rule rule.readinessPaths (primary.get "readinessProbe")

/-- The workload has the probes of the contract, where the contract asks for any. -/
def MeetsContract (contract serviceName : String) (deploy : Json) : Prop :=
  contract = exemptContract ∨
    ∃ rule containers primary, getRule contract = some rule ∧ deployContainers deploy = .ok containers ∧
      IsPrimary serviceName containers primary ∧ ContainerMeets X rule primary

variable {X} {T : Texts} {deploy probe primary c : Json} {contract serviceName fieldName : String}
  {rule : ProbeContractRule} {validPaths : List String} {containers : List Json}

lemma isText_iff {s : String} {v : Json} : isText s v ↔ v = .str s := by
  cases v <;> simp [isText, Json.asStr?]

lemma field_eq_ok {v w : Json} {key : String} : field v key = .ok w ↔ (∃ fields, v = .obj fields) ∧ v.get key = w := by
  cases v <;> simp [field]

lemma allowedPath_iff {path : Json} : allowedPath validPaths path ↔ ∃ p ∈ validPaths, path = .str p := by
  simp [allowedPath, isText_iff]

lemma allowedPort_iff {port : Json} :
    allowedPort X rule port ↔ rule.portValues = [] ∨ ∃ p ∈ rule.portValues, equalScalars X port p := by
  simp [allowedPort]

lemma ite_nil {P : Prop} [Decidable P] {f : Finding} : (if P then [] else [f]) = [] ↔ P := by
  split_ifs with h
  · simp [h]
  · simp [h]

lemma assertProbeShape_nil (h : assertProbeShape X T probe rule fieldName validPaths serviceName = .ok []) :
    ProbeMeets X rule validPaths probe := by
  unfold assertProbeShape at h
  split at h
  · cases h
  · obtain ⟨httpGet, hhttpGet, h⟩ := Fallible.bind_eq_ok.mp h
    obtain ⟨path, hpath, h⟩ := Fallible.bind_eq_ok.mp h
    obtain ⟨port, hport, h⟩ := Fallible.bind_eq_ok.mp h
    obtain ⟨-, rfl⟩ := field_eq_ok.mp hhttpGet
    obtain ⟨-, rfl⟩ := field_eq_ok.mp hpath
    obtain ⟨-, rfl⟩ := field_eq_ok.mp hport
    obtain ⟨hpath, hport⟩ := List.append_eq_nil_iff.mp (Fallible.pure_eq_ok.mp h)
    exact ⟨allowedPath_iff.mp (ite_nil.mp hpath), allowedPort_iff.mp (ite_nil.mp hport)⟩

lemma assertProbes_nil (h : assertProbes X T primary rule serviceName = .ok []) : ContainerMeets X rule primary := by
  obtain ⟨liveness, hliveness, h⟩ := Fallible.bind_eq_ok.mp h
  obtain ⟨readiness, hreadiness, h⟩ := Fallible.bind_eq_ok.mp h
  obtain ⟨hleft, rfl⟩ := List.append_eq_nil_iff.mp (Fallible.pure_eq_ok.mp h)
  obtain ⟨hstartup, rfl⟩ := List.append_eq_nil_iff.mp hleft
  refine ⟨fun hrequired => ?_, assertProbeShape_nil hliveness, assertProbeShape_nil hreadiness⟩
  by_contra hmissing
  rw [if_pos ⟨hrequired, hmissing⟩] at hstartup
  cases hstartup

lemma namedContainer_some (h : namedContainer serviceName containers = .ok (some c)) :
    ∃ before after, containers = before ++ c :: after ∧ c.get "name" = .str serviceName ∧
      ∀ b ∈ before, b.get "name" ≠ .str serviceName := by
  induction containers with
  | nil => cases h
  | cons b containers ih =>
    obtain ⟨name, hname, h⟩ := Fallible.bind_eq_ok.mp h
    obtain ⟨-, rfl⟩ := field_eq_ok.mp hname
    split at h
    · rename_i hnamed
      cases h
      exact ⟨[], containers, rfl, isText_iff.mp hnamed, by simp⟩
    · rename_i hother
      obtain ⟨before, after, rfl, hc, hbefore⟩ := ih h
      refine ⟨b :: before, after, rfl, hc, List.forall_mem_cons.mpr ⟨fun hb => hother (isText_iff.mpr hb), hbefore⟩⟩

lemma namedContainer_none (h : namedContainer serviceName containers = .ok none) :
    ∀ b ∈ containers, b.get "name" ≠ .str serviceName := by
  induction containers with
  | nil => simp
  | cons b containers ih =>
    obtain ⟨name, hname, h⟩ := Fallible.bind_eq_ok.mp h
    obtain ⟨-, rfl⟩ := field_eq_ok.mp hname
    split at h
    · cases h
    · rename_i hother
      exact List.forall_mem_cons.mpr ⟨fun hb => hother (isText_iff.mpr hb), ih h⟩

lemma pickPrimaryContainer_some (h : pickPrimaryContainer containers serviceName = .ok (some c)) :
    IsPrimary serviceName containers c := by
  obtain ⟨named, hnamed, h⟩ := Fallible.bind_eq_ok.mp h
  cases named with
  | some b =>
    cases h
    exact Or.inl (namedContainer_some hnamed)
  | none =>
    dsimp only at h
    split at h
    · cases h
      exact Or.inr ⟨rfl, namedContainer_none hnamed c (by simp)⟩
    · cases h

/-- A workload without findings has the probes of its contract. -/
lemma meetsContract_of_nil (h : assertProbeContract X T deploy contract serviceName = .ok []) :
    MeetsContract X contract serviceName deploy := by
  unfold assertProbeContract at h
  split at h
  · rename_i hexempt
    exact Or.inl hexempt
  · split at h
    · cases h
    · rename_i rule hrule
      obtain ⟨containers, hcontainers, h⟩ := Fallible.bind_eq_ok.mp h
      obtain ⟨primary, hprimary, h⟩ := Fallible.bind_eq_ok.mp h
      cases primary with
      | none => cases h
      | some primary =>
        exact Or.inr ⟨rule, containers, primary, hrule, hcontainers, pickPrimaryContainer_some hprimary, assertProbes_nil h⟩

end Compliance

end PlatformGitops.DriftDetection
