import Mathlib.Data.Int.Log
import Mathlib.Data.Rat.Floor
import Mathlib.Tactic.Common
import PlatformGitops.Library.Json

/-! The check that a quota has room for the surge of a rollout. -/

namespace PlatformGitops.Deploy

open Library

inductive Resource
  | requestsCpu
  | requestsMemory
  | limitsCpu
  | limitsMemory
  deriving DecidableEq

inductive Metric
  | resource (r : Resource)
  | pods
  deriving DecidableEq

def resourceFields : List Resource := [.requestsCpu, .requestsMemory, .limitsCpu, .limitsMemory]

def quotaMetrics : List Metric := resourceFields.map .resource ++ [.pods]

def Resource.section : Resource → String
  | requestsCpu | requestsMemory => "requests"
  | limitsCpu | limitsMemory => "limits"

def Resource.resourceName : Resource → String
  | requestsCpu | limitsCpu => "cpu"
  | requestsMemory | limitsMemory => "memory"

def Metric.name : Metric → String
  | resource r => r.section ++ "." ++ r.resourceName
  | pods => "pods"

/-- The readers of the standard library that take a value or a text as a number or as a text. -/
structure Externals where
  str : Json → String
  toInt : Json → Except String Int
  intOfText : String → Option Int
  decimalOfText : String → Option ℚ

def decimalSuffixes : List (String × ℚ) :=
  [("", 1), ("n", 1 / 10 ^ 9), ("u", 1 / 10 ^ 6), ("m", 1 / 10 ^ 3), ("k", 1000), ("K", 1000), ("M", 1000 ^ 2),
    ("G", 1000 ^ 3), ("T", 1000 ^ 4), ("P", 1000 ^ 5), ("E", 1000 ^ 6)]

def binarySuffixes : List (String × ℚ) :=
  [("Ki", 1024), ("Mi", 1024 ^ 2), ("Gi", 1024 ^ 3), ("Ti", 1024 ^ 4), ("Pi", 1024 ^ 5), ("Ei", 1024 ^ 6)]

def halfEven (q : ℚ) : ℤ :=
  let floor := ⌊q⌋
  if q - floor < 1 / 2 then floor
  else if 1 / 2 < q - floor then floor + 1
  else if floor % 2 = 0 then floor else floor + 1

/-- The result of an operation on decimals, which keeps 28 digits. -/
def decimal28 (q : ℚ) : ℚ :=
  if q = 0 then 0
  else
    let unit : ℚ := 10 ^ (Int.log 10 |q| - 27)
    halfEven (q / unit) * unit

def natOfDigits (digits : List Char) : Nat := digits.foldl (fun n c => 10 * n + (c.toNat - '0'.toNat)) 0

def isLetter (c : Char) : Bool := c.isLower || c.isUpper

/-- The number at the start of a quantity, without its sign, and what follows it. -/
def splitNumber (s : List Char) : Option (ℚ × List Char) :=
  let whole := s.takeWhile Char.isDigit
  match s.dropWhile Char.isDigit with
  | '.' :: rest =>
    let fraction := rest.takeWhile Char.isDigit
    if whole = [] ∧ fraction = [] then none
    else some (natOfDigits (whole ++ fraction) / 10 ^ fraction.length, rest.dropWhile Char.isDigit)
  | rest => if whole = [] then none else some (natOfDigits whole, rest)

def splitQuantity (s : List Char) : Option (ℚ × String) :=
  let (negative, unsigned) :=
    match s with
    | '+' :: rest => (false, rest)
    | '-' :: rest => (true, rest)
    | rest => (false, rest)
  (splitNumber unsigned).bind fun (number, suffix) =>
    if suffix.all isLetter then some (if negative then -number else number, String.ofList suffix) else none

def isBlank (c : Char) : Bool := c = ' ' || (9 ≤ c.toNat && c.toNat ≤ 13)

def strip (s : String) : List Char := ((s.toList.dropWhile isBlank).reverse.dropWhile isBlank).reverse

section

variable (round : ℚ → ℚ) (X : Externals)

def parseQuantity (value : Json) (metric : String) : Except String ℚ :=
  match value with
  | .null => .error (metric ++ ": quantity is missing")
  | value =>
    match splitQuantity (strip (X.str value)) with
    | none => .error (metric ++ ": unsupported Kubernetes quantity")
    | some (number, suffix) =>
      match (binarySuffixes.lookup suffix).orElse fun _ => decimalSuffixes.lookup suffix with
      | none => .error (metric ++ ": unsupported Kubernetes quantity suffix")
      | some multiplier =>
        let parsed := round (number * multiplier)
        if parsed < 0 then .error (metric ++ ": negative quantities are not supported") else .ok parsed

def resolved (n : Int) (field : String) : Except String Nat :=
  if n < 0 then .error (field ++ ": value must be non-negative") else .ok n.toNat

def resolveIntOrPercent (value : Json) (replicas : Nat) (roundUp : Bool) (field : String) : Except String Nat :=
  match value with
  | .bool _ => .error (field ++ ": boolean is not a valid IntOrString")
  | .int n => resolved n field
  | value =>
    let text := strip (X.str value)
    if text.getLast? = some '%' then
      match X.decimalOfText (String.ofList text.dropLast) with
      | none => .error (field ++ ": invalid percentage")
      | some percentage =>
        let raw := round (round (replicas * percentage) / 100)
        resolved (if roundUp then ⌈raw⌉ else ⌊raw⌋) field
    else
      match X.intOfText (String.ofList text) with
      | none => .error (field ++ ": invalid IntOrString")
      | some n => resolved n field

def fieldsOf : Json → Except String (List (String × Json))
  | .obj fields => .ok fields
  | _ => .error "AttributeError"

def truthy : Json → Bool
  | .null => false
  | .bool b => b
  | .int n => n ≠ 0
  | .float text => text ∉ ["0.0", "-0.0"]
  | .str s => s ≠ ""
  | .list items => !items.isEmpty
  | .obj fields => !fields.isEmpty

/-- `value or {}`, of which a key is read then. -/
def orEmpty (value : Json) : Except String (List (String × Json)) :=
  if truthy value then fieldsOf value else .ok []

def orNoItems (value : Json) : Except String (List Json) :=
  match truthy value, value with
  | false, _ => .ok []
  | true, .list items => .ok items
  | true, _ => .error "AttributeError"

def get (fields : List (String × Json)) (key : String) : Json := (fields.lookup key).getD .null

def getOrEmpty (fields : List (String × Json)) (key : String) : Except String (List (String × Json)) :=
  fieldsOf ((fields.lookup key).getD (.obj []))

abbrev Resources := Resource → ℚ

def containerField (container : List (String × Json)) (role : String) (r : Resource) : Except String ℚ := do
  let name := X.str ((container.lookup "name").getD (.str "<unnamed>"))
  let resources ← orEmpty (get container "resources")
  let limits ← orEmpty (get resources r.section)
  match get limits r.resourceName with
  | .null => .error (role ++ " container " ++ name ++ ": explicit " ++ r.section ++ "." ++ r.resourceName ++
      " is required; LimitRange defaulting cannot be used by this preflight")
  | raw => parseQuantity round X raw (role ++ "." ++ name ++ "." ++ Metric.name (.resource r))

def ofFields (field : Resource → Except String ℚ) : Except String Resources := do
  let requestsCpu ← field .requestsCpu
  let requestsMemory ← field .requestsMemory
  let limitsCpu ← field .limitsCpu
  let limitsMemory ← field .limitsMemory
  pure fun
    | .requestsCpu => requestsCpu
    | .requestsMemory => requestsMemory
    | .limitsCpu => limitsCpu
    | .limitsMemory => limitsMemory

def containerResources (container : Json) (role : String) : Except String Resources := do
  let fields ← fieldsOf container
  ofFields (containerField round X fields role)

def addResources (values : List Resources) : Resources := fun r => values.foldl (fun sum value => round (sum + value r)) 0

def maxResources (a b : Resources) : Resources := fun r => max (a r) (b r)

/-- The restartable init containers so far, and the peak of the init phase. -/
structure InitTotals where
  restartable : Resources
  peak : Resources

def addInit (totals : InitTotals) (container : Json) : Except String InitTotals := do
  let current ← containerResources round X container "init"
  let stepTotal := addResources round [totals.restartable, current]
  let fields ← fieldsOf container
  pure {
    restartable := if (get fields "restartPolicy").asStr? = some "Always" then stepTotal else totals.restartable
    peak := maxResources totals.peak stepTotal }

def addOverhead (overhead : List (String × Json)) (effective : Resources) : Except String Resources :=
  ofFields fun r =>
    match get overhead r.resourceName with
    | .null => .ok (effective r)
    | raw => do
      let quantity ← parseQuantity round X raw ("pod.overhead." ++ r.resourceName)
      pure (round (effective r + quantity))

def effectivePodResources (deployment : Json) : Except String Resources := do
  let spec ← getOrEmpty (← fieldsOf deployment) "spec"
  let template ← getOrEmpty spec "template"
  let podSpec ← getOrEmpty template "spec"
  let containers ← orNoItems (get podSpec "containers")
  if containers = [] then .error "deployment pod template has no containers"
  else
    let apps ← containers.mapM fun container => containerResources round X container "app"
    let inits ← orNoItems (get podSpec "initContainers")
    let totals ← inits.foldlM (addInit round X) ⟨fun _ => 0, fun _ => 0⟩
    let steadyState := addResources round [addResources round apps, totals.restartable]
    let overhead ← orEmpty (get podSpec "overhead")
    addOverhead round X overhead (maxResources steadyState totals.peak)

structure QuotaReading where
  desired : ℚ
  hard : ℚ
  used : ℚ

/-- What the check has read of the deployment and of the quota, desired and live. -/
structure Reading where
  replicas : Nat
  maxSurge : Nat
  perPod : Resources
  quota : Metric → QuotaReading

def checkThat (condition : Prop) [Decidable condition] (message : String) : Except String Unit :=
  if condition then .ok () else .error message

def metricOf (source : String) (values : List (String × Json)) (m : Metric) : Except String Json :=
  (values.lookup m.name).elim (.error (m.name ++ ": missing from " ++ source ++ " ResourceQuota")) .ok

def readMetric (desiredHard liveHard liveUsed : List (String × Json)) (m : Metric) : Except String QuotaReading := do
  let desired ← metricOf "desired hard" desiredHard m
  let hard ← metricOf "live hard" liveHard m
  let used ← metricOf "live used" liveUsed m
  pure {
    desired := ← parseQuantity round X desired m.name
    hard := ← parseQuantity round X hard m.name
    used := ← parseQuantity round X used m.name }

def readQuota (desiredHard liveHard liveUsed : List (String × Json)) : Except String (Metric → QuotaReading) := do
  let read := readMetric round X desiredHard liveHard liveUsed
  let requestsCpu ← read (.resource .requestsCpu)
  let requestsMemory ← read (.resource .requestsMemory)
  let limitsCpu ← read (.resource .limitsCpu)
  let limitsMemory ← read (.resource .limitsMemory)
  let pods ← read .pods
  pure fun
    | .resource .requestsCpu => requestsCpu
    | .resource .requestsMemory => requestsMemory
    | .resource .limitsCpu => limitsCpu
    | .resource .limitsMemory => limitsMemory
    | .pods => pods

def readReplicas (spec : List (String × Json)) : Except String Nat := do
  let replicas ← X.toInt ((spec.lookup "replicas").getD (.int 1))
  checkThat (1 ≤ replicas) "frontend replicas must be at least 1"
  pure replicas.toNat

def readSurge (spec : List (String × Json)) (replicas : Nat) : Except String Nat := do
  let strategy ← orEmpty (get spec "strategy")
  checkThat (((strategy.lookup "type").getD (.str "RollingUpdate")).asStr? = some "RollingUpdate")
    "frontend rollout strategy must be RollingUpdate"
  let rolling ← orEmpty (get strategy "rollingUpdate")
  let maxSurge ← resolveIntOrPercent round X ((rolling.lookup "maxSurge").getD (.str "25%")) replicas true
    "strategy.maxSurge"
  let maxUnavailable ← resolveIntOrPercent round X ((rolling.lookup "maxUnavailable").getD (.str "25%")) replicas false
    "strategy.maxUnavailable"
  checkThat (1 ≤ maxSurge) "zero-downtime rollout requires resolved maxSurge >= 1"
  checkThat (maxUnavailable = 0) "zero-downtime rollout requires resolved maxUnavailable == 0"
  checkThat (∃ deadline ∈ (get spec "progressDeadlineSeconds").asInt?, 0 < deadline)
    "positive progressDeadlineSeconds is required"
  pure maxSurge

def read (deployment desiredQuota liveQuota : Json) : Except String Reading := do
  let spec ← orEmpty (get (← fieldsOf deployment) "spec")
  let replicas ← readReplicas X spec
  let maxSurge ← readSurge round X spec replicas
  let perPod ← effectivePodResources round X deployment
  let desiredHard ← orEmpty (get (← getOrEmpty (← fieldsOf desiredQuota) "spec") "hard")
  let liveStatus ← orEmpty (get (← fieldsOf liveQuota) "status")
  let liveHard ← orEmpty (get liveStatus "hard")
  let liveUsed ← orEmpty (get liveStatus "used")
  let quota ← readQuota round X desiredHard liveHard liveUsed
  pure ⟨replicas, maxSurge, perPod, quota⟩

namespace Reading

variable (R : Reading)

/-- What one new pod adds to the metric. -/
def newPod : Metric → ℚ
  | .resource r => R.perPod r
  | .pods => 1

def effectiveHard (m : Metric) : ℚ := min (R.quota m).desired (R.quota m).hard

def required (m : Metric) : ℚ :=
  match m with
  | .resource r => round (R.perPod r * R.maxSurge)
  | .pods => R.maxSurge

end Reading

structure Diagnostic where
  metric : Metric
  quota : QuotaReading
  effectiveHard : ℚ
  required : ℚ
  margin : ℚ
  pass : Bool

def diagnose (R : Reading) (m : Metric) : Diagnostic :=
  let margin := round (R.effectiveHard m - (R.quota m).used)
  { metric := m
    quota := R.quota m
    effectiveHard := R.effectiveHard m
    required := R.required round m
    margin
    pass := decide (R.required round m ≤ margin ∧ (R.quota m).used ≤ R.effectiveHard m) }

structure Report where
  reading : Reading
  diagnostics : List Diagnostic
  failures : List Metric

def Report.pass (report : Report) : Bool := report.failures.isEmpty

def evaluateWith (deployment desiredQuota liveQuota : Json) : Except String Report := do
  let reading ← read round X deployment desiredQuota liveQuota
  let diagnostics := quotaMetrics.map (diagnose round reading)
  pure ⟨reading, diagnostics, (diagnostics.filter fun d => !d.pass).map (·.metric)⟩

end

def evaluate (X : Externals) (deployment desiredQuota liveQuota : Json) : Except String Report :=
  evaluateWith decimal28 X deployment desiredQuota liveQuota

end PlatformGitops.Deploy
