import Mathlib.Data.Rat.Floor
import PlatformGitops.Deploy.RolloutHeadroom
import PlatformGitops.Library.Dict
import PlatformGitops.Library.Fallible

/-! The check that the quota of an overlay has room for one more pod of each deployment. -/

namespace PlatformGitops.DriftDetection.QuotaHeadroom

open Library Fallible Deploy

/-- `str` of a value and the numbers that `int` and `float` read, the arithmetic on floats taken as exact. -/
structure Readers where
  str : Json → String
  int : Json → Except String Int
  intOfText : List Char → Except String Int
  floatOfText : List Char → Except String ℚ

/-- `int` of a number. -/
def truncate (q : ℚ) : Int := if 0 ≤ q then ⌊q⌋ else ⌈q⌉

def withoutSuffix (suffix : String) (s : List Char) : Option (List Char) :=
  if suffix.toList.isSuffixOf s then some (s.take (s.length - suffix.length)) else none

section Reading

variable (X : Readers)

def cpuToMillicores : Json → Except String Int
  | .null => .ok 0
  | v =>
    let s := strip (X.str v)
    match withoutSuffix "m" s with
    | some number => X.intOfText number
    | none => do pure (truncate ((← X.floatOfText s) * 1000))

def memToMi : Json → Except String Int
  | .null => .ok 0
  | v =>
    let s := strip (X.str v)
    match withoutSuffix "Gi" s, withoutSuffix "Mi" s, withoutSuffix "Ki" s with
    | some number, _, _ => do pure (truncate ((← X.floatOfText number) * 1024))
    | none, some number, _ => X.intOfText number
    | none, none, some number => do pure ((← X.intOfText number) / 1024)
    | none, none, none => do pure ((← X.intOfText s) / (1024 * 1024))

def wholeUnits : Resource → Json → Except String Int
  | .requestsCpu | .limitsCpu => cpuToMillicores X
  | .requestsMemory | .limitsMemory => memToMi X

/-- The number of millicores, not rounded. -/
def cpuAmount : Json → Except String ℚ
  | .null => .ok 0
  | v =>
    let s := strip (X.str v)
    match withoutSuffix "m" s with
    | some number => do pure (← X.intOfText number)
    | none => do pure ((← X.floatOfText s) * 1000)

/-- The number of mebibytes, not rounded. -/
def memoryAmount : Json → Except String ℚ
  | .null => .ok 0
  | v =>
    let s := strip (X.str v)
    match withoutSuffix "Gi" s, withoutSuffix "Mi" s, withoutSuffix "Ki" s with
    | some number, _, _ => do pure ((← X.floatOfText number) * 1024)
    | none, some number, _ => do pure (← X.intOfText number)
    | none, none, some number => do pure ((← X.intOfText number) / 1024)
    | none, none, none => do pure ((← X.intOfText s) / (1024 * 1024))

def amount : Resource → Json → Except String ℚ
  | .requestsCpu | .limitsCpu => cpuAmount X
  | .requestsMemory | .limitsMemory => memoryAmount X

variable {α β : Type}

def forResources (field : Resource → Except String α) : Except String (Resource → α) := do
  let requestsCpu ← field .requestsCpu
  let requestsMemory ← field .requestsMemory
  let limitsCpu ← field .limitsCpu
  let limitsMemory ← field .limitsMemory
  pure fun
    | .requestsCpu => requestsCpu
    | .requestsMemory => requestsMemory
    | .limitsCpu => limitsCpu
    | .limitsMemory => limitsMemory

def containerAmounts (read : Resource → Json → Except String α) (container : Json) : Except String (Resource → α) := do
  let resources ← getOrEmpty (← fieldsOf container) "resources"
  let requests ← getOrEmpty resources "requests"
  let limits ← getOrEmpty resources "limits"
  forResources fun r =>
    match r with
    | .requestsCpu | .requestsMemory => read r (get requests r.resourceName)
    | .limitsCpu | .limitsMemory => read r (get limits r.resourceName)

def firstContainer : List Json → Except String (Resource → Int)
  | [] => .error "IndexError"
  | container :: _ => containerAmounts (wholeUnits X) container

def allContainers (containers : List Json) : Except String (Resource → ℚ) := do
  let amounts ← containers.mapM (containerAmounts (amount X))
  pure fun r => (amounts.map (· r)).sum

/-- What the documents declare. The amounts of a pod and the limits of the quota are read in one way or another. -/
structure Scan (α β : Type) where
  hard : Option (Resource → β)
  deployments : List (Json × (Resource → α))

def isQuota (fields : List (String × Json)) : Except String Bool := do
  let metadata ← getOrEmpty fields "metadata"
  pure ((get metadata "name").asStr? = some "platform-quota")

def hardOf (fields : List (String × Json)) : Except String (List (String × Json)) := do
  let spec ← getOrEmpty fields "spec"
  getOrEmpty spec "hard"

def scanQuota (limit : Resource → Option Json → Except String β) (scan : Scan α β) (fields : List (String × Json)) :
    Except String (Scan α β) := do
  if ← isQuota fields then
    let hard ← hardOf fields
    let limits ← forResources fun r => limit r (hard.lookup (Metric.name (.resource r)))
    let _pods ← X.int ((hard.lookup "pods").getD (.int 0))
    pure { scan with hard := some limits }
  else pure scan

def scanDeployment (perPod : List Json → Except String (Resource → α)) (scan : Scan α β) (fields : List (String × Json)) :
    Except String (Scan α β) := do
  let _metadata ← getOrEmpty fields "metadata"
  let spec ← getOrEmpty fields "spec"
  let podSpec ← getOrEmpty (← getOrEmpty spec "template") "spec"
  let containers ← orNoItems (get podSpec "containers")
  if containers = [] then pure scan
  else
    let amounts ← perPod containers
    pure { scan with deployments := scan.deployments ++ [((spec.lookup "replicas").getD (.int 1), amounts)] }

def scanDocument (perPod : List Json → Except String (Resource → α)) (limit : Resource → Option Json → Except String β)
    (scan : Scan α β) : Json → Except String (Scan α β)
  | .obj fields =>
    if (get fields "kind").asStr? = some "ResourceQuota" then scanQuota X limit scan fields
    else if (get fields "kind").asStr? = some "Deployment" then scanDeployment perPod scan fields
    else pure scan
  | _ => pure scan

end Reading

section Counts

variable (X : Readers)

def countKeys : List String := ["services", "secrets", "configmaps", "persistentvolumeclaims", "pods"]

def kindToQuotaKey : Dict String String :=
  [("Service", "services"), ("Secret", "secrets"), ("ConfigMap", "configmaps"),
    ("PersistentVolumeClaim", "persistentvolumeclaims")]

def hardCount (hard : List (String × Json)) (counts : Dict String Int) (key : String) : Except String (Dict String Int) :=
  match hard.lookup key with
  | none => pure counts
  | some value => do pure (counts.set key (← X.int value))

def hardCountsOf (counts : Dict String Int) : Json → Except String (Dict String Int)
  | .obj fields => do
    if (get fields "kind").asStr? = some "ResourceQuota" then
      if ← isQuota fields then countKeys.foldlM (hardCount X (← hardOf fields)) counts else pure counts
    else pure counts
  | _ => pure counts

def quotaKey : Json → Except String (Option String)
  | .str kind => .ok (kindToQuotaKey.lookup kind)
  | .list _ | .obj _ => .error "TypeError"
  | _ => .ok none

def documentKey : Json → Except String (Option String)
  | .obj fields => quotaKey (get fields "kind")
  | _ => .ok none

/-- A hard count of the quota and the number of such objects in the documents. -/
structure Count where
  hard : Int
  used : Int

def objectCounts (docs : List Json) (totalPods : Int) : Except String (List Count) := do
  let hardCounts ← docs.foldlM (hardCountsOf X) []
  let keys ← docs.mapM documentKey
  pure (hardCounts.map fun (key, hard) => ⟨hard, if key = "pods" then totalPods else keys.count (some key)⟩)

end Counts

section Check

structure Deployment (α : Type) where
  replicas : Int
  perPod : Resource → α

/-- What a run compares. -/
structure Declared (α β : Type) where
  hard : Resource → β
  deployments : List (Deployment α)
  counts : List Count

variable {α β : Type}

def withReplicas (deployment : Json × (Resource → α)) : Except String (Deployment α) :=
  match deployment.1.asInt? with
  | some replicas => .ok ⟨replicas, deployment.2⟩
  | none => .error "TypeError"

def declared (X : Readers) (perPod : List Json → Except String (Resource → α))
    (limit : Resource → Option Json → Except String β) (docs : List Json) : Except String (Option (Declared α β)) := do
  let scan ← docs.foldlM (scanDocument X perPod limit) ⟨none, []⟩
  match scan.hard with
  | none => pure none
  | some hard =>
    let deployments ← scan.deployments.mapM withReplicas
    let counts ← objectCounts X docs (deployments.map (·.replicas)).sum
    pure (some ⟨hard, deployments, counts⟩)

namespace Declared

def running (D : Declared α β) : List (Deployment α) := D.deployments.filter fun d => 0 < d.replicas

def used [AddMonoid α] [IntCast α] [Mul α] (D : Declared α β) (r : Resource) : α :=
  (D.deployments.map fun d => (d.replicas : α) * d.perPod r).sum

end Declared

def check (used hard surge : Int) : Nat :=
  let margin := hard - used
  if margin < surge then 1 else if margin < surge + hard / 4 then 2 else 0

def checkCount (count : Count) : Nat :=
  let margin := count.hard - count.used
  if margin ≤ 0 then 1 else if margin ≤ 2 then 2 else 0

def largestPod (D : Declared Int Int) (r : Resource) : Int := ((D.running.map (·.perPod r)).max?).getD 0

def checks (D : Declared Int Int) : List Nat :=
  resourceFields.map (fun r => check (D.used r) (D.hard r) (largestPod D r)) ++ D.counts.map checkCount

variable (X : Readers) (docs : List Json)

/-- The first containers, in whole units; what the quota does not limit counts as zero. -/
def firstDeclared : Except String (Option (Declared Int Int)) :=
  declared X (firstContainer X) (fun r limit => wholeUnits X r (limit.getD (.int 0))) docs

/-- The exit code. An exception ends the run with 1. -/
def exitCode : Nat :=
  match firstDeclared X docs with
  | .error _ => 1
  | .ok none => 0
  | .ok (some D) => (checks D).foldl max 0

/-- All containers, in exact amounts; the quota limits only what it names. -/
def exactDeclared : Except String (Option (Declared ℚ (Option ℚ))) :=
  declared X (allContainers X)
    (fun r limit =>
      match limit with
      | none | some .null => .ok none
      | some value => some <$> amount X r value) docs

/-- One more pod of a running deployment does not fit beside all declared ones. -/
def Shortage : Prop := ∃ D, exactDeclared X docs = .ok (some D) ∧ ∃ d ∈ D.running, ∃ r, ∃ hard, D.hard r = some hard ∧
  hard < D.used r + d.perPod r

namespace Declared

variable (D : Declared Int Int)

/-- One more pod of a running deployment does not fit, or an object count is used up. -/
def Exceeded : Prop :=
  (∃ r, ∃ d ∈ D.running, D.hard r < D.used r + d.perPod r) ∨ ∃ count ∈ D.counts, count.hard ≤ count.used

/-- One more pod of each running deployment fits, but for one of them less than a quarter of the quota is left then; or
one or two objects of some kind are left. -/
def Tight : Prop :=
  (∃ r, (∀ d ∈ D.running, D.used r + d.perPod r ≤ D.hard r) ∧
      ∃ d ∈ D.running, D.hard r < D.used r + d.perPod r + D.hard r / 4) ∨
    ∃ count ∈ D.counts, count.used < count.hard ∧ count.hard ≤ count.used + 2

end Declared

end Check

section Codes

variable {D : Declared Int Int} {r : Resource} {codes : List Nat} {used hard surge : Int} {count : Count}

lemma foldl_max_eq {start : Nat} (h : ∀ code ∈ codes, code ≤ 2) (hstart : start ≤ 2) :
    codes.foldl max start = 1 ↔ (start = 1 ∨ 1 ∈ codes) ∧ start ≠ 2 ∧ 2 ∉ codes := by
  induction codes generalizing start with
  | nil =>
    simp only [List.foldl_nil, List.not_mem_nil, or_false, not_false_eq_true, and_true]
    omega
  | cons code codes ih =>
    obtain ⟨hcode, hcodes⟩ := List.forall_mem_cons.mp h
    rw [List.foldl_cons, ih hcodes (max_le hstart hcode), List.mem_cons, List.mem_cons]
    have hstart' : start = 0 ∨ start = 1 ∨ start = 2 := by omega
    have hcode' : code = 0 ∨ code = 1 ∨ code = 2 := by omega
    rcases hstart' with rfl | rfl | rfl <;> rcases hcode' with rfl | rfl | rfl <;> simp

lemma check_eq_one : check used hard surge = 1 ↔ hard < used + surge := by
  dsimp only [check]
  split_ifs <;> simp <;> omega

lemma check_eq_two : check used hard surge = 2 ↔ used + surge ≤ hard ∧ hard < used + surge + hard / 4 := by
  dsimp only [check]
  split_ifs <;> simp <;> omega

lemma check_le : check used hard surge ≤ 2 := by
  dsimp only [check]
  split_ifs <;> simp

lemma checkCount_eq_one : checkCount count = 1 ↔ count.hard ≤ count.used := by
  dsimp only [checkCount]
  split_ifs <;> simp <;> omega

lemma checkCount_eq_two : checkCount count = 2 ↔ count.used < count.hard ∧ count.hard ≤ count.used + 2 := by
  dsimp only [checkCount]
  split_ifs <;> simp <;> omega

lemma checkCount_le : checkCount count ≤ 2 := by
  dsimp only [checkCount]
  split_ifs <;> simp

/-- The largest pod is one of the running ones, and none is larger. -/
lemma lt_largestPod {n : Int} (hrunning : D.running ≠ []) : n < largestPod D r ↔ ∃ d ∈ D.running, n < d.perPod r := by
  have hmax : ((D.running.map (·.perPod r)).max?).isSome :=
    List.isSome_max?_of_ne_nil fun hnil => hrunning (List.map_eq_nil_iff.mp hnil)
  obtain ⟨largest, hlargest⟩ := Option.isSome_iff_exists.mp hmax
  rw [largestPod, hlargest, Option.getD_some]
  obtain ⟨hmem, hbound⟩ := List.max?_eq_some_iff.mp hlargest
  constructor
  · intro hlt
    obtain ⟨d, hd, rfl⟩ := List.mem_map.mp hmem
    exact ⟨d, hd, hlt⟩
  · rintro ⟨d, hd, hlt⟩
    exact hlt.trans_le (hbound _ (List.mem_map_of_mem hd))

lemma mem_resourceFields : r ∈ resourceFields := by
  cases r <;> simp [resourceFields]

lemma mem_checks {code : Nat} : code ∈ checks D ↔
    (∃ r, check (D.used r) (D.hard r) (largestPod D r) = code) ∨ ∃ count ∈ D.counts, checkCount count = code := by
  simp only [checks, List.mem_append, List.mem_map, mem_resourceFields, true_and]

lemma checks_le : ∀ code ∈ checks D, code ≤ 2 := by
  intro code hcode
  rcases mem_checks.mp hcode with ⟨r, rfl⟩ | ⟨count, -, rfl⟩
  · exact check_le
  · exact checkCount_le

lemma exceeded_iff (hrunning : D.running ≠ []) : 1 ∈ checks D ↔ D.Exceeded := by
  rw [mem_checks, Declared.Exceeded]
  refine or_congr (exists_congr fun r => ?_) ?_
  · rw [check_eq_one]
    have hlarge := lt_largestPod (r := r) (n := D.hard r - D.used r) hrunning
    simp only [sub_lt_iff_lt_add'] at hlarge
    exact hlarge
  · simp only [checkCount_eq_one]

lemma tight_iff (hrunning : D.running ≠ []) : 2 ∈ checks D ↔ D.Tight := by
  rw [mem_checks, Declared.Tight]
  refine or_congr (exists_congr fun r => ?_) ?_
  · rw [check_eq_two]
    have hlarge := lt_largestPod (r := r) (n := D.hard r - D.used r) hrunning
    have htight := lt_largestPod (r := r) (n := D.hard r - (D.used r + D.hard r / 4)) hrunning
    simp only [sub_lt_iff_lt_add', add_right_comm _ (D.hard r / 4)] at hlarge htight
    have hfits : D.used r + largestPod D r ≤ D.hard r ↔ ∀ d ∈ D.running, D.used r + d.perPod r ≤ D.hard r := by
      rw [← not_lt, hlarge]
      push Not
      rfl
    exact and_congr hfits htight
  · simp only [checkCount_eq_two]

end Codes

section TwoReadings

variable {X : Readers} {α β α' β' : Type} {perPod : List Json → Except String (Resource → α)}
  {limit : Resource → Option Json → Except String β} {perPod' : List Json → Except String (Resource → α')}
  {limit' : Resource → Option Json → Except String β'} {scan next : Scan α β} {scan' next' : Scan α' β'}
  {fields : List (String × Json)} {doc : Json} {docs : List Json}

/-- Two readings have come to a quota alike and to deployments with the same replicas. -/
structure Matches (scan : Scan α β) (scan' : Scan α' β') : Prop where
  hard : scan.hard.isSome = scan'.hard.isSome
  replicas : scan.deployments.map (·.1) = scan'.deployments.map (·.1)

lemma scanQuota_matches (hmatches : Matches scan scan') (h : scanQuota X limit scan fields = .ok next)
    (h' : scanQuota X limit' scan' fields = .ok next') : Matches next next' := by
  obtain ⟨named, hnamed, h⟩ := bind_eq_ok.mp h
  obtain ⟨named', hnamed', h'⟩ := bind_eq_ok.mp h'
  obtain rfl : named = named' := Except.ok.inj (hnamed.symm.trans hnamed')
  cases named with
  | false =>
    obtain rfl := pure_eq_ok.mp h
    obtain rfl := pure_eq_ok.mp h'
    exact hmatches
  | true =>
    simp only [if_true, bind_eq_ok, pure_eq_ok] at h h'
    obtain ⟨_, -, _, -, _, -, rfl⟩ := h
    obtain ⟨_, -, _, -, _, -, rfl⟩ := h'
    exact ⟨rfl, hmatches.replicas⟩

lemma scanDeployment_matches (hmatches : Matches scan scan') (h : scanDeployment perPod scan fields = .ok next)
    (h' : scanDeployment perPod' scan' fields = .ok next') : Matches next next' := by
  simp only [scanDeployment, bind_eq_ok] at h h'
  obtain ⟨_, -, spec, hspec, template, htemplate, podSpec, hpodSpec, containers, hcontainers, h⟩ := h
  obtain ⟨_, -, spec', hspec', template', htemplate', podSpec', hpodSpec', containers', hcontainers', h'⟩ := h'
  obtain rfl : spec = spec' := Except.ok.inj (hspec.symm.trans hspec')
  obtain rfl : template = template' := Except.ok.inj (htemplate.symm.trans htemplate')
  obtain rfl : podSpec = podSpec' := Except.ok.inj (hpodSpec.symm.trans hpodSpec')
  obtain rfl : containers = containers' := Except.ok.inj (hcontainers.symm.trans hcontainers')
  split_ifs at h h'
  · obtain rfl := pure_eq_ok.mp h
    obtain rfl := pure_eq_ok.mp h'
    exact hmatches
  · simp only [bind_eq_ok, pure_eq_ok] at h h'
    obtain ⟨_, -, rfl⟩ := h
    obtain ⟨_, -, rfl⟩ := h'
    exact ⟨hmatches.hard, by simp only [List.map_append, hmatches.replicas, List.map_cons, List.map_nil]⟩

lemma scanDocument_matches (hmatches : Matches scan scan') (h : scanDocument X perPod limit scan doc = .ok next)
    (h' : scanDocument X perPod' limit' scan' doc = .ok next') : Matches next next' := by
  cases doc with
  | obj fields =>
    simp only [scanDocument] at h h'
    split_ifs at h h'
    · exact scanQuota_matches hmatches h h'
    · exact scanDeployment_matches hmatches h h'
    · obtain rfl := pure_eq_ok.mp h
      obtain rfl := pure_eq_ok.mp h'
      exact hmatches
  | null | bool | int | float | str | list =>
    obtain rfl := pure_eq_ok.mp h
    obtain rfl := pure_eq_ok.mp h'
    exact hmatches

lemma scan_matches (hmatches : Matches scan scan') (h : docs.foldlM (scanDocument X perPod limit) scan = .ok next)
    (h' : docs.foldlM (scanDocument X perPod' limit') scan' = .ok next') : Matches next next' := by
  induction docs generalizing scan scan' with
  | nil =>
    obtain rfl := pure_eq_ok.mp h
    obtain rfl := pure_eq_ok.mp h'
    exact hmatches
  | cons doc docs ih =>
    obtain ⟨mid, hmid, h⟩ := bind_eq_ok.mp h
    obtain ⟨mid', hmid', h'⟩ := bind_eq_ok.mp h'
    exact ih (scanDocument_matches hmatches hmid hmid') h h'

lemma withReplicas_replicas {entries : List (Json × (Resource → α))} {deployments : List (Deployment α)}
    (h : entries.mapM withReplicas = .ok deployments) :
    (entries.map (·.1)).mapM Json.asInt? = some (deployments.map (·.replicas)) := by
  induction entries generalizing deployments with
  | nil =>
    obtain rfl := pure_eq_ok.mp h
    rfl
  | cons entry entries ih =>
    simp only [List.mapM_cons, bind_eq_ok, pure_eq_ok] at h
    obtain ⟨deployment, hentry, rest, hrest, rfl⟩ := h
    unfold withReplicas at hentry
    split at hentry
    · rename_i replicas hreplicas
      obtain rfl := Except.ok.inj hentry
      simp [hreplicas, ih hrest]
    · cases hentry

/-- Two readings of the same documents have the same replicas. -/
lemma declared_replicas {D : Declared α β} {D' : Option (Declared α' β')} (h : declared X perPod limit docs = .ok (some D))
    (h' : declared X perPod' limit' docs = .ok D') :
    ∃ E, D' = some E ∧ E.deployments.map (·.replicas) = D.deployments.map (·.replicas) := by
  obtain ⟨scan, hscan, h⟩ := bind_eq_ok.mp h
  obtain ⟨scan', hscan', h'⟩ := bind_eq_ok.mp h'
  have hstart : Matches (⟨none, []⟩ : Scan α β) (⟨none, []⟩ : Scan α' β') := ⟨rfl, rfl⟩
  obtain ⟨hhard, hreplicas⟩ := scan_matches hstart hscan hscan'
  split at h
  · cases h
  · rename_i hard hsome
    split at h'
    · rename_i hnone
      simp [hsome, hnone] at hhard
    · simp only [bind_eq_ok, pure_eq_ok, Option.some.injEq] at h h'
      obtain ⟨deployments, hdeployments, counts, -, rfl⟩ := h
      obtain ⟨deployments', hdeployments', counts', -, rfl⟩ := h'
      refine ⟨_, rfl, Option.some.inj ?_⟩
      rw [← withReplicas_replicas hdeployments', ← hreplicas, withReplicas_replicas hdeployments]

lemma running_ne_nil {D : Declared α β} {E : Declared α' β'}
    (hsame : E.deployments.map (·.replicas) = D.deployments.map (·.replicas)) (h : ∃ d, d ∈ D.running) : E.running ≠ [] := by
  obtain ⟨d, hd⟩ := h
  obtain ⟨hmem, hpos⟩ := List.mem_filter.mp hd
  have hreplicas : d.replicas ∈ E.deployments.map (·.replicas) := hsame ▸ List.mem_map_of_mem hmem
  obtain ⟨e, he, hed⟩ := List.mem_map.mp hreplicas
  exact List.ne_nil_of_mem (List.mem_filter.mpr ⟨he, hed ▸ hpos⟩)

end TwoReadings

theorem shortage_blocks_iff (X : Readers) (docs : List Json) :
    (Shortage X docs → exitCode X docs = 1) ↔
      (Shortage X docs → ∀ D, firstDeclared X docs = .ok (some D) → D.Exceeded ∧ ¬ D.Tight) := by
  refine forall_congr' fun ⟨E, hexact, d, hd, _⟩ => ?_
  unfold exitCode
  cases hfirst : firstDeclared X docs with
  | error message => simp
  | ok found =>
    obtain ⟨D, rfl, hsame⟩ := declared_replicas hexact hfirst
    have hrunning := running_ne_nil hsame ⟨d, hd⟩
    have hcode : (checks D).foldl max 0 = 1 ↔ D.Exceeded ∧ ¬ D.Tight := by
      rw [foldl_max_eq checks_le (by omega), exceeded_iff hrunning, tight_iff hrunning]
      simp
    simp [hcode]

namespace Sample

def readNat (digits : List Char) : Except String Int :=
  if digits ≠ [] ∧ digits.all Char.isDigit then .ok (natOfDigits digits) else .error "ValueError"

/-- Texts, and numbers without a sign, a point or an exponent. -/
def readers : Readers where
  str
    | .str s => s
    | .int n => toString n
    | _ => ""
  int
    | .str s => readNat s.toList
    | .int n => .ok n
    | _ => .error "TypeError"
  intOfText := readNat
  floatOfText digits := do pure (← readNat digits)

def amounts (cpu memory : String) : Json := .obj [("cpu", .str cpu), ("memory", .str memory)]

def quota : Json :=
  .obj [("kind", .str "ResourceQuota"), ("metadata", .obj [("name", .str "platform-quota")]),
    ("spec", .obj [("hard", .obj [("requests.cpu", .str "1"), ("requests.memory", .str "1Gi"), ("limits.cpu", .str "8"),
      ("limits.memory", .str "8Gi")])])]

/-- Two pods take 800m of the CPU and 600Mi of the memory. -/
def gateway : Json :=
  .obj [("kind", .str "Deployment"), ("metadata", .obj [("name", .str "api-gateway")]),
    ("spec", .obj [("replicas", .int 2), ("template", .obj [("spec", .obj [("containers", .list [.obj [
      ("resources", .obj [("requests", amounts "400m" "300Mi"), ("limits", amounts "500m" "512Mi")])]])])])])]

end Sample

open Sample in
/-- The CPU does not suffice for a third pod, but the memory is only tight, and the run ends with 2. -/
theorem shortage_reported_as_tight : ¬ (Shortage readers [quota, gateway] → exitCode readers [quota, gateway] = 1) := by
  intro hblocks
  have hcode : exitCode readers [quota, gateway] = 2 := by
    decide +kernel
  have hexact : (exactDeclared readers [quota, gateway]).toOption.any (fun found => found.any fun D =>
      D.running.any fun d => (D.hard .requestsCpu).any fun hard =>
        decide (hard < D.used .requestsCpu + d.perPod .requestsCpu)) = true := by
    decide +kernel
  obtain ⟨found, hfound, hany⟩ := (Option.any_eq_true ..).mp hexact
  obtain ⟨D, rfl, hany⟩ := (Option.any_eq_true ..).mp hany
  obtain ⟨d, hd, hany⟩ := List.any_eq_true.mp hany
  obtain ⟨hard, hhard, hlt⟩ := (Option.any_eq_true ..).mp hany
  have hone := hblocks ⟨D, toOption_eq_some hfound, d, hd, .requestsCpu, hard, hhard, of_decide_eq_true hlt⟩
  rw [hcode] at hone
  omega

end PlatformGitops.DriftDetection.QuotaHeadroom
