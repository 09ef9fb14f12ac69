import Mathlib.Algebra.BigOperators.Group.Multiset.Basic
import Mathlib.Algebra.Order.BigOperators.Group.Multiset
import Mathlib.Algebra.Order.Field.Power
import Mathlib.Order.Bounds.Basic
import PlatformGitops.Deploy.QuotaSafety
import PlatformGitops.Deploy.RolloutHeadroom
import PlatformGitops.Library.Fallible

/-! What a pod takes at most while its init containers run one after the other. -/

namespace PlatformGitops.Deploy

open Library Fallible

/-- The amounts of a pod's containers; an init container is restartable or not. -/
structure Pod where
  apps : List Resources
  inits : List (Bool × Resources)
  overhead : Resources

section Phases

def restartables (inits : List (Bool × Resources)) : List Resources := (inits.filter (·.1)).map (·.2)

def runningUse (running : List Resources) (r : Resource) : ℚ := (running.map (· r)).sum

/-- The containers that run together: an init container with the restartable ones before it, or the app containers with
all restartable ones. -/
def Pod.Phase (pod : Pod) (running : List Resources) : Prop :=
  (∃ before restartable amounts after, pod.inits = before ++ (restartable, amounts) :: after ∧
    running = amounts :: restartables before) ∨ running = pod.apps ++ restartables pod.inits

def Pod.IsPeak (pod : Pod) (r : Resource) (peak : ℚ) : Prop :=
  IsGreatest {q | ∃ running, pod.Phase running ∧ q = runningUse running r} peak

/-- All amounts of one resource. -/
def Pod.amounts (pod : Pod) (r : Resource) : Multiset ℚ :=
  (pod.apps.map (· r) : Multiset ℚ) + (pod.inits.map (·.2 r) : Multiset ℚ) + {pod.overhead r}

/-- Every amount is a multiple of one power of ten of which there are fewer than 10²⁸ in all. -/
def Pod.Within28Digits (pod : Pod) : Prop :=
  ∀ r, ∃ k : ℤ, (∀ q ∈ pod.amounts r, ∃ n : ℕ, q = n * (10 : ℚ) ^ k) ∧ (pod.amounts r).sum < 10 ^ 28 * (10 : ℚ) ^ k

end Phases

section Readers

variable (X : Externals)

def readInit (container : Json) : Except String (Bool × Resources) := do
  let amounts ← containerResources id X container "init"
  let fields ← fieldsOf container
  pure (decide ((get fields "restartPolicy").asStr? = some "Always"), amounts)

def readOverhead (overhead : List (String × Json)) : Except String Resources :=
  ofFields fun r =>
    match get overhead r.resourceName with
    | .null => .ok 0
    | raw => parseQuantity id X raw ("pod.overhead." ++ r.resourceName)

/-- The pod of a deployment whose containers all have explicit requests and limits, in exact amounts. -/
def readPod (deployment : Json) : Except String Pod := do
  let spec ← getOrEmpty (← fieldsOf deployment) "spec"
  let template ← getOrEmpty spec "template"
  let podSpec ← getOrEmpty template "spec"
  let containers ← orNoItems (get podSpec "containers")
  if containers = [] then .error "deployment pod template has no containers"
  else
    let apps ← containers.mapM fun container => containerResources id X container "app"
    let inits ← (← orNoItems (get podSpec "initContainers")).mapM (readInit X)
    let overhead ← readOverhead X (← orEmpty (get podSpec "overhead"))
    pure ⟨apps, inits, overhead⟩

end Readers

section Digits

variable {q : ℚ} {k : ℤ} {n : ℕ}

lemma halfEven_intCast (z : ℤ) : halfEven z = z := by
  simp [halfEven]

/-- A number of no more than 28 digits is kept. -/
lemma decimal28_eq_self (hq : q = n * (10 : ℚ) ^ k) (hlt : q < 10 ^ 28 * (10 : ℚ) ^ k) : decimal28 q = q := by
  unfold decimal28
  split_ifs with hzero
  · exact hzero.symm
  · have hpow : (0 : ℚ) < 10 ^ k := by positivity
    have hpos : 0 < q := by
      rw [hq] at hzero ⊢
      have hn : n ≠ 0 := by
        rintro rfl
        simp at hzero
      positivity
    have hlog : Int.log 10 |q| ≤ k + 27 := by
      rw [abs_of_pos hpos]
      have hbound : q < (10 : ℕ) ^ (k + 27 + 1) := by
        refine hlt.trans_eq ?_
        rw [show k + 27 + 1 = 28 + k by ring, zpow_add₀ (by norm_num)]
        norm_num
      have hlt := (Int.lt_zpow_iff_log_lt (by norm_num) hpos).mp hbound
      omega
    obtain ⟨j, hj⟩ : ∃ j : ℕ, k - (Int.log 10 |q| - 27) = j := ⟨_, (Int.toNat_of_nonneg (by omega)).symm⟩
    have hunit : (10 : ℚ) ^ (Int.log 10 |q| - 27) ≠ 0 := by positivity
    have hquot : q / 10 ^ (Int.log 10 |q| - 27) = ((n * 10 ^ j : ℕ) : ℤ) := by
      rw [hq, mul_div_assoc, ← zpow_sub₀ (by norm_num), ← hq, hj]
      push_cast
      rfl
    dsimp only
    rw [hquot, halfEven_intCast, ← hquot, div_mul_cancel₀ _ hunit]

/-- Every sum of some of the amounts is kept. -/
lemma decimal28_sum {amounts some : Multiset ℚ} (hgrid : ∀ q ∈ amounts, ∃ n : ℕ, q = n * (10 : ℚ) ^ k)
    (hlt : amounts.sum < 10 ^ 28 * (10 : ℚ) ^ k) (hsome : some ≤ amounts) : decimal28 some.sum = some.sum := by
  have hsum {part : Multiset ℚ} (hpart : ∀ q ∈ part, ∃ n : ℕ, q = n * (10 : ℚ) ^ k) :
      ∃ n : ℕ, part.sum = n * (10 : ℚ) ^ k := by
    induction part using Multiset.induction with
    | empty => exact ⟨0, by simp⟩
    | cons a part ih =>
      obtain ⟨n, hn⟩ := hpart a (Multiset.mem_cons_self a part)
      obtain ⟨m, hm⟩ := ih fun q hq => hpart q (Multiset.mem_cons_of_mem hq)
      exact ⟨n + m, by rw [Multiset.sum_cons, hn, hm]; push_cast; ring⟩
  obtain ⟨rest, rfl⟩ := Multiset.le_iff_exists_add.mp hsome
  obtain ⟨n, hn⟩ := hsum fun q hq => hgrid q (Multiset.mem_add.mpr (.inl hq))
  obtain ⟨m, hm⟩ := hsum fun q hq => hgrid q (Multiset.mem_add.mpr (.inr hq))
  have hle : some.sum ≤ (some + rest).sum := by
    rw [Multiset.sum_add, hm]
    exact le_add_of_nonneg_right (by positivity)
  exact decimal28_eq_self hn (hle.trans_lt hlt)

end Digits

section Reading

variable {X : Externals} {round : ℚ → ℚ} {value container deployment : Json} {metric role : String} {q : ℚ}
  {amounts : Resources} {values : List Resources} {inits : List (Bool × Resources)} {r : Resource}

lemma ofFields_eq_ok {field : Resource → Except String ℚ} :
    ofFields field = .ok amounts ↔ ∀ r, field r = .ok (amounts r) := by
  unfold ofFields
  constructor
  · intro h
    simp only [bind_eq_ok, pure_eq_ok] at h
    obtain ⟨a, ha, b, hb, c, hc, d, hd, rfl⟩ := h
    intro r
    cases r <;> assumption
  · intro h
    rw [h .requestsCpu, h .requestsMemory, h .limitsCpu, h .limitsMemory]
    exact congrArg Except.ok (funext fun r => by cases r <;> rfl)

lemma parse_nonneg (h : parseQuantity round X value metric = .ok q) : 0 ≤ q := by
  unfold parseQuantity at h
  split at h
  · cases h
  · split at h
    · cases h
    · split at h
      · cases h
      · dsimp only at h
        split_ifs at h with hneg
        rw [← Except.ok.inj h]
        exact not_lt.mp hneg

/-- A quantity that is kept is read as it stands. -/
lemma parse_of_exact (h : parseQuantity id X value metric = .ok q) (hround : round q = q) :
    parseQuantity round X value metric = .ok q := by
  unfold parseQuantity at h ⊢
  split at h
  · cases h
  · split at h
    · cases h
    · rename_i number suffix hsplit
      split at h
      · cases h
      · rename_i multiplier hmultiplier
        dsimp only [id_eq] at h
        split_ifs at h with hneg
        obtain rfl := Except.ok.inj h
        simp only [hround, if_neg hneg]

lemma container_of_exact (h : containerResources id X container role = .ok amounts)
    (hround : ∀ r, round (amounts r) = amounts r) :
    containerResources round X container role = .ok amounts := by
  unfold containerResources at h ⊢
  obtain ⟨fields, hfields, hread⟩ := bind_eq_ok.mp h
  refine bind_eq_ok.mpr ⟨fields, hfields, ofFields_eq_ok.mpr fun r => ?_⟩
  have hfield := ofFields_eq_ok.mp hread r
  unfold containerField at hfield ⊢
  obtain ⟨resources, hresources, hfield⟩ := bind_eq_ok.mp hfield
  obtain ⟨limits, hlimits, hfield⟩ := bind_eq_ok.mp hfield
  refine bind_eq_ok.mpr ⟨resources, hresources, bind_eq_ok.mpr ⟨limits, hlimits, ?_⟩⟩
  split at hfield
  · cases hfield
  · exact parse_of_exact hfield (hround r)

lemma container_nonneg (h : containerResources id X container role = .ok amounts) (r : Resource) : 0 ≤ amounts r := by
  obtain ⟨fields, -, hread⟩ := bind_eq_ok.mp h
  have hfield := ofFields_eq_ok.mp hread r
  obtain ⟨_, -, hfield⟩ := bind_eq_ok.mp hfield
  obtain ⟨_, -, hfield⟩ := bind_eq_ok.mp hfield
  split at hfield
  · cases hfield
  · exact parse_nonneg hfield

/-- A sum whose parts are kept is the exact sum. -/
lemma foldl_exact {quantities : List ℚ} (h : ∀ part, part <+: quantities → round part.sum = part.sum) :
    quantities.foldl (fun sum q => round (sum + q)) 0 = quantities.sum := by
  induction quantities using List.reverseRecOn with
  | nil => rfl
  | append_singleton quantities q ih =>
    have hpart := h (quantities ++ [q]) (List.prefix_refl _)
    rw [List.sum_append, List.sum_singleton] at hpart
    have hinit := ih fun part hle => h part (List.IsPrefix.trans hle (List.prefix_append _ _))
    rw [List.foldl_append, List.foldl_cons, List.foldl_nil, hinit, List.sum_append, List.sum_singleton, hpart]

lemma addResources_exact (h : ∀ r, ∀ part, part <+: values → round (runningUse part r) = runningUse part r) :
    addResources round values = runningUse values := by
  funext r
  have hparts (part : List ℚ) (hpart : part <+: values.map (· r)) : round part.sum = part.sum := by
    obtain ⟨rest, hrest⟩ := hpart
    obtain ⟨some, rest', rfl, rfl, -⟩ := List.map_eq_append_iff.mp hrest.symm
    exact h r some (List.prefix_append _ _)
  have hfold := foldl_exact hparts
  rw [List.foldl_map] at hfold
  exact hfold

end Reading

section Starting

variable {X : Externals} {round : ℚ → ℚ} {container : Json} {containers : List Json} {done inits : List (Bool × Resources)}
  {restartable : Bool} {amounts a b : Resources} {values : List Resources} {totals : InitTotals} {pod : Pod} {r : Resource}

/-- The use of the phases in which the init containers run, and no use at all. -/
def initUses (inits : List (Bool × Resources)) (r : Resource) : Set ℚ :=
  {q | q = 0 ∨ ∃ before restartable amounts after, inits = before ++ (restartable, amounts) :: after ∧
    q = runningUse (amounts :: restartables before) r}

/-- What the fold knows of the init containers that it has passed. -/
structure InitTotals.Knows (totals : InitTotals) (done : List (Bool × Resources)) : Prop where
  restartable : totals.restartable = runningUse (restartables done)
  peak : ∀ r, IsGreatest (initUses done r) (totals.peak r)

lemma runningUse_cons : runningUse (amounts :: values) r = amounts r + runningUse values r := by
  rw [runningUse, List.map_cons, List.sum_cons, runningUse]

lemma restartables_concat : restartables (done ++ [(restartable, amounts)]) =
    if restartable then restartables done ++ [amounts] else restartables done := by
  rw [restartables, List.filter_append, List.map_append]
  cases restartable <;> simp [restartables]

lemma knows_nil : InitTotals.Knows ⟨fun _ => 0, fun _ => 0⟩ [] where
  restartable := rfl
  peak r := by
    refine ⟨.inl rfl, ?_⟩
    rintro q (rfl | ⟨before, _, _, _, hsplit, -⟩)
    · exact le_rfl
    · simp at hsplit

lemma addResources_pair (ha : round (a r) = a r) (hab : round (a r + b r) = a r + b r) :
    addResources round [a, b] r = a r + b r := by
  simp [addResources, ha, hab]

lemma initUses_concat {q : ℚ} : q ∈ initUses (done ++ [(restartable, amounts)]) r ↔
    q ∈ initUses done r ∨ q = runningUse (amounts :: restartables done) r := by
  constructor
  · rintro (rfl | ⟨before, restartable', amounts', after, hsplit, rfl⟩)
    · exact .inl (.inl rfl)
    · rcases List.eq_nil_or_concat after with rfl | ⟨after, last, rfl⟩
      · obtain ⟨rfl, hlast⟩ := List.append_inj' hsplit rfl
        obtain ⟨-, rfl⟩ := Prod.mk.inj (List.cons.inj hlast).1
        exact .inr rfl
      · rw [List.concat_eq_append, ← List.cons_append, ← List.append_assoc] at hsplit
        obtain ⟨rfl, -⟩ := List.append_inj' hsplit rfl
        exact .inl (.inr ⟨before, restartable', amounts', after, rfl, rfl⟩)
  · rintro ((rfl | ⟨before, restartable', amounts', after, rfl, rfl⟩) | rfl)
    · exact .inl rfl
    · exact .inr ⟨before, restartable', amounts', after ++ [(restartable, amounts)], by simp, rfl⟩
    · exact .inr ⟨done, restartable, amounts, [], rfl, rfl⟩

/-- One init container. -/
lemma InitTotals.Knows.step (hknows : totals.Knows done) (hread : readInit X container = .ok (restartable, amounts))
    (hamounts : ∀ r, round (amounts r) = amounts r)
    (hdone : ∀ r, round (runningUse (restartables done) r) = runningUse (restartables done) r)
    (hstep : ∀ r, round (runningUse (restartables done) r + amounts r) = runningUse (restartables done) r + amounts r) :
    ∃ next, addInit round X totals container = .ok next ∧ next.Knows (done ++ [(restartable, amounts)]) := by
  obtain ⟨current, hcurrent, hread⟩ := bind_eq_ok.mp hread
  obtain ⟨fields, hfields, hread⟩ := bind_eq_ok.mp hread
  obtain ⟨rfl, rfl⟩ := Prod.mk.inj (pure_eq_ok.mp hread)
  have hpair : addResources round [totals.restartable, current] = runningUse (current :: restartables done) := by
    funext r
    rw [hknows.restartable, addResources_pair (hdone r) (hstep r), runningUse_cons, add_comm]
  have hcurrent' := container_of_exact hcurrent hamounts
  refine ⟨_, bind_eq_ok.mpr ⟨current, hcurrent', bind_eq_ok.mpr ⟨fields, hfields, rfl⟩⟩, ?_, fun r => ?_⟩
  · rw [restartables_concat]
    by_cases halways : (get fields "restartPolicy").asStr? = some "Always"
    · rw [if_pos halways, if_pos (by simpa using halways), hpair]
      funext r
      simp [runningUse, add_comm]
    · rw [if_neg halways, if_neg (by simpa using halways), hknows.restartable]
  · rw [hpair]
    obtain ⟨hmem, hbound⟩ := hknows.peak r
    constructor
    · rw [initUses_concat]
      rcases max_choice (totals.peak r) (runningUse (current :: restartables done) r) with hmax | hmax
      · refine .inl ?_
        rw [← hmax] at hmem
        exact hmem
      · exact .inr hmax
    · intro q hq
      rcases initUses_concat.mp hq with hq | rfl
      · exact (hbound hq).trans (le_max_left _ _)
      · exact le_max_right _ _

/-- The arithmetic keeps every sum of some amounts of the pod. -/
def Keeps (round : ℚ → ℚ) (pod : Pod) : Prop := ∀ r, ∀ some ≤ pod.amounts r, round some.sum = some.sum

lemma Keeps.running (h : Keeps round pod) {running : List Resources}
    (hrunning : (running.map (· r) : Multiset ℚ) ≤ pod.amounts r) :
    round (runningUse running r) = runningUse running r := by
  have hkeep := h r _ hrunning
  rwa [Multiset.sum_coe] at hkeep

lemma restartables_le : ((restartables done).map (· r) : Multiset ℚ) ≤ (done.map (·.2 r) : Multiset ℚ) := by
  refine Multiset.coe_le.mpr (List.Sublist.subperm ?_)
  rw [restartables, List.map_map]
  exact List.filter_sublist.map _

lemma inits_le (hsplit : pod.inits = done ++ inits) :
    ((restartables done).map (· r) : Multiset ℚ) + (inits.map (·.2 r) : Multiset ℚ) ≤
      (pod.inits.map (·.2 r) : Multiset ℚ) := by
  rw [hsplit, List.map_append, ← Multiset.coe_add]
  exact add_le_add_left restartables_le _

lemma inits_le_amounts : (pod.inits.map (·.2 r) : Multiset ℚ) ≤ pod.amounts r := by
  rw [Pod.amounts, add_right_comm]
  exact Multiset.le_add_left _ _

lemma fold_inits (hkeeps : Keeps round pod)
    (hread : List.Forall₂ (fun container p => readInit X container = .ok p) containers inits)
    (hsplit : pod.inits = done ++ inits) (hknows : totals.Knows done) :
    ∃ last, containers.foldlM (addInit round X) totals = .ok last ∧ last.Knows pod.inits := by
  induction hread generalizing done totals with
  | nil =>
    rw [List.append_nil] at hsplit
    exact ⟨totals, rfl, hsplit ▸ hknows⟩
  | @cons container p containers inits hp _ ih =>
    obtain ⟨restartable, amounts⟩ := p
    have hle (r : Resource) := (inits_le (r := r) hsplit).trans inits_le_amounts
    have hdone (r : Resource) : round (runningUse (restartables done) r) = runningUse (restartables done) r :=
      hkeeps.running ((Multiset.le_add_right _ _).trans (hle r))
    have hamounts (r : Resource) : round (amounts r) = amounts r := by
      have hkeep := hkeeps r {amounts r} (le_trans ?_ (hle r))
      · simpa using hkeep
      · rw [List.map_cons, Multiset.singleton_le]
        exact Multiset.mem_add.mpr (.inr (by simp))
    have hstep (r : Resource) :
        round (runningUse (restartables done) r + amounts r) = runningUse (restartables done) r + amounts r := by
      have hkeep := hkeeps r (((restartables done).map (· r) : Multiset ℚ) + {amounts r}) (le_trans ?_ (hle r))
      · simpa [runningUse] using hkeep
      · refine add_le_add_right ?_ _
        rw [Multiset.singleton_le]
        simp
    obtain ⟨next, hnext, hknows'⟩ := hknows.step hp hamounts hdone hstep
    obtain ⟨last, hlast, hknows''⟩ := ih (by rw [hsplit, List.append_assoc]; rfl) hknows'
    exact ⟨last, by rw [List.foldlM_cons, hnext]; exact hlast, hknows''⟩

end Starting

section Peak

variable {X : Externals} {round : ℚ → ℚ} {overheadFields : List (String × Json)} {amounts effective extra : Resources}
  {inits : List (Bool × Resources)} {pod : Pod} {deployment : Json} {r : Resource}

lemma addOverhead_exact (hread : readOverhead X overheadFields = .ok extra) (hextra : ∀ r, round (extra r) = extra r)
    (hsum : ∀ r, round (effective r + extra r) = effective r + extra r) :
    addOverhead round X overheadFields effective = .ok fun r => extra r + effective r := by
  refine ofFields_eq_ok.mpr fun r => ?_
  have hfield := ofFields_eq_ok.mp hread r
  generalize get overheadFields r.resourceName = raw at hfield ⊢
  cases raw with
  | null =>
    dsimp only at hfield ⊢
    rw [← Except.ok.inj hfield, zero_add]
  | _ =>
    dsimp only at hfield ⊢
    rw [parse_of_exact hfield (hextra r)]
    exact congrArg Except.ok ((hsum r).trans (add_comm _ _))

lemma runningUse_nonneg {running : List Resources} (h : ∀ amounts ∈ running, 0 ≤ amounts r) : 0 ≤ runningUse running r := by
  refine List.sum_nonneg fun q hq => ?_
  obtain ⟨amounts, hamounts, rfl⟩ := List.mem_map.mp hq
  exact h amounts hamounts

lemma runningUse_append {running running' : List Resources} :
    runningUse (running ++ running') r = runningUse running r + runningUse running' r := by
  rw [runningUse, List.map_append, List.sum_append, runningUse, runningUse]

/-- The greater of the steady phase and of the init phases is the peak of all phases. -/
lemma isPeak_max {initPeak : ℚ} (hinit : IsGreatest (initUses pod.inits r) initPeak)
    (hnonneg : 0 ≤ runningUse (pod.apps ++ restartables pod.inits) r) :
    pod.IsPeak r (max (runningUse (pod.apps ++ restartables pod.inits) r) initPeak) := by
  obtain ⟨hmem, hbound⟩ := hinit
  have hsteady : pod.Phase (pod.apps ++ restartables pod.inits) := .inr rfl
  constructor
  · rcases max_cases (runningUse (pod.apps ++ restartables pod.inits) r) initPeak with ⟨hmax, -⟩ | ⟨hmax, hlt⟩
    · exact ⟨_, hsteady, hmax⟩
    · rw [hmax]
      rcases hmem with hzero | ⟨before, restartable, amounts, after, hsplit, huse⟩
      · exact absurd (hzero ▸ hlt) (not_lt.mpr hnonneg)
      · exact ⟨_, .inl ⟨before, restartable, amounts, after, hsplit, rfl⟩, huse⟩
  · rintro q ⟨running, ⟨before, restartable, amounts, after, hsplit, rfl⟩ | rfl, rfl⟩
    · exact (hbound (.inr ⟨before, restartable, amounts, after, hsplit, rfl⟩)).trans (le_max_right _ _)
    · exact le_max_left _ _

lemma container_sum_nonneg {containers : List Json} {role : String} {values : List Resources}
    (h : List.Forall₂ (fun container amounts => containerResources id X container role = .ok amounts) containers values) :
    ∀ amounts ∈ values, 0 ≤ amounts r := by
  induction h with
  | nil => simp
  | cons hread _ ih => exact List.forall_mem_cons.mpr ⟨container_nonneg hread r, ih⟩

lemma restartables_nonneg {containers : List Json}
    (h : List.Forall₂ (fun container p => readInit X container = .ok p) containers inits) :
    ∀ amounts ∈ restartables inits, 0 ≤ amounts r := by
  induction h with
  | nil => simp [restartables]
  | @cons container p containers inits hread _ ih =>
    intro amounts hamounts
    obtain ⟨q, hq, rfl⟩ := List.mem_map.mp hamounts
    obtain ⟨hmem, halways⟩ := List.mem_filter.mp hq
    rcases List.mem_cons.mp hmem with rfl | hmem
    · obtain ⟨current, hcurrent, hrest⟩ := bind_eq_ok.mp hread
      obtain ⟨fields, -, hrest⟩ := bind_eq_ok.mp hrest
      rw [← pure_eq_ok.mp hrest]
      exact container_nonneg hcurrent r
    · exact ih q.2 (List.mem_map_of_mem (List.mem_filter.mpr ⟨hmem, halways⟩))

/-- The overhead comes on top of every phase. -/
lemma phase_le {running : List Resources} (hphase : pod.Phase running) :
    (running.map (· r) : Multiset ℚ) + {pod.overhead r} ≤ pod.amounts r := by
  refine add_le_add_left ?_ _
  rcases hphase with ⟨before, restartable, amounts, after, hsplit, rfl⟩ | rfl
  · refine le_trans ?_ (Multiset.le_add_left _ _)
    refine le_trans ?_ (inits_le hsplit)
    rw [List.map_cons, List.map_cons, ← Multiset.cons_coe, ← Multiset.cons_coe, Multiset.add_cons]
    exact Multiset.cons_le_cons _ (Multiset.le_add_right _ _)
  · rw [List.map_append, ← Multiset.coe_add]
    exact add_le_add_right restartables_le _

lemma Keeps.phase (hkeeps : Keeps round pod) {running : List Resources} (hphase : pod.Phase running) :
    round (runningUse running r) = runningUse running r :=
  hkeeps.running ((Multiset.le_add_right _ _).trans (phase_le hphase))

lemma addResources_part (hkeeps : Keeps round pod) {running rest : List Resources} (hphase : pod.Phase (running ++ rest)) :
    addResources round running = runningUse running := by
  refine addResources_exact fun r part hpart => hkeeps.running ?_
  refine le_trans (Multiset.coe_le.mpr ?_) ((Multiset.le_add_right _ _).trans (phase_le hphase))
  exact ((hpart.trans (List.prefix_append _ _)).sublist.map _).subperm

lemma steadyState_exact (hkeeps : Keeps round pod) :
    addResources round [addResources round pod.apps, runningUse (restartables pod.inits)] =
      runningUse (pod.apps ++ restartables pod.inits) := by
  funext r
  have hsteady : pod.Phase (pod.apps ++ restartables pod.inits) := .inr rfl
  have happs : round (runningUse pod.apps r) = runningUse pod.apps r := by
    refine hkeeps.running (le_trans (Multiset.coe_le.mpr ?_) ((Multiset.le_add_right _ _).trans (phase_le hsteady)))
    exact ((List.sublist_append_left _ _).map _).subperm
  have hsum := hkeeps.phase (r := r) hsteady
  rw [runningUse_append] at hsum ⊢
  rw [addResources_part hkeeps hsteady, addResources_pair happs hsum]

lemma Keeps.overhead (hkeeps : Keeps round pod) : round (pod.overhead r) = pod.overhead r := by
  have hkeep := hkeeps r {pod.overhead r} (Multiset.le_add_left _ _)
  rwa [Multiset.sum_singleton] at hkeep

lemma Keeps.peak_overhead (hkeeps : Keeps round pod) {peak : ℚ} (hpeak : pod.IsPeak r peak) :
    round (peak + pod.overhead r) = peak + pod.overhead r := by
  obtain ⟨⟨running, hphase, rfl⟩, -⟩ := hpeak
  have hkeep := hkeeps r _ (phase_le hphase)
  rwa [Multiset.sum_add, Multiset.sum_coe, Multiset.sum_singleton] at hkeep

/-- What the code computes when the arithmetic keeps the sums: the overhead and the peak. -/
lemma effective_of_keeps (hread : readPod X deployment = .ok pod) (hkeeps : Keeps round pod) :
    ∃ R, effectivePodResources round X deployment = .ok R ∧
      ∀ r, ∃ peak, pod.IsPeak r peak ∧ R r = pod.overhead r + peak := by
  unfold readPod at hread
  simp only [bind_eq_ok] at hread
  obtain ⟨fields, hfields, spec, hspec, template, htemplate, podSpec, hpodSpec, containers, hcontainers, hread⟩ := hread
  split_ifs at hread with hempty
  simp only [bind_eq_ok, pure_eq_ok] at hread
  obtain ⟨apps, happs, initItems, hinitItems, inits, hinits, overheadFields, hfound, overhead, hoverhead, rfl⟩ := hread
  have hreadApps := mapM_eq_ok_iff.mp happs
  have hreadInits := mapM_eq_ok_iff.mp hinits
  have hpart (r : Resource) : ∀ q ∈ (⟨apps, inits, overhead⟩ : Pod).amounts r, round q = q := by
    intro q hq
    have hkeep := hkeeps r {q} (Multiset.singleton_le.mpr hq)
    rwa [Multiset.sum_singleton] at hkeep
  have happs' : containers.mapM (fun container => containerResources round X container "app") = .ok apps := by
    rw [mapM_eq_ok_iff]
    refine List.forall₂_iff_get.mpr ⟨hreadApps.length_eq, fun i hi hi' => ?_⟩
    refine container_of_exact ((List.forall₂_iff_get.mp hreadApps).2 i hi hi') fun r => hpart r _ ?_
    rw [Pod.amounts, add_assoc]
    exact Multiset.mem_add.mpr (.inl (List.mem_map.mpr ⟨_, List.get_mem apps ⟨i, hi'⟩, rfl⟩))
  obtain ⟨totals, htotals, hknows⟩ := fold_inits hkeeps hreadInits rfl knows_nil
  have hpeak (r : Resource) := isPeak_max (hknows.peak r) (runningUse_nonneg (List.forall_mem_append.mpr
    ⟨container_sum_nonneg hreadApps, restartables_nonneg hreadInits⟩))
  refine ⟨_, ?_, fun r => ⟨_, hpeak r, rfl⟩⟩
  unfold effectivePodResources
  simp only [bind_eq_ok]
  refine ⟨fields, hfields, spec, hspec, template, htemplate, podSpec, hpodSpec, containers, hcontainers, ?_⟩
  rw [if_neg hempty]
  simp only [bind_eq_ok]
  refine ⟨apps, happs', initItems, hinitItems, totals, htotals, overheadFields, hfound, ?_⟩
  rw [hknows.restartable, steadyState_exact hkeeps]
  exact addOverhead_exact hoverhead (fun r => hkeeps.overhead) fun r => hkeeps.peak_overhead (hpeak r)

end Peak

theorem peak_over_phases {X : Externals} {deployment : Json} {pod : Pod} (hread : readPod X deployment = .ok pod)
    (hdigits : pod.Within28Digits) :
    ∃ R, effectivePodResources decimal28 X deployment = .ok R ∧
      ∀ r, ∃ peak, pod.IsPeak r peak ∧ R r = pod.overhead r + peak := by
  refine effective_of_keeps hread fun r some hsome => ?_
  obtain ⟨k, hgrid, hlt⟩ := hdigits r
  exact decimal28_sum hgrid hlt hsome

namespace PodSample

def container (name cpu memory : String) (restartPolicy : List (String × Json)) : Json :=
  .obj ([("name", .str name), ("resources",
    .obj [("requests", Sample.amounts cpu memory), ("limits", Sample.amounts cpu memory)])] ++ restartPolicy)

def deployment (containers inits : List Json) (overhead : Json) : Json :=
  .obj [("spec", .obj [("template", .obj [("spec", .obj [("containers", .list containers), ("initContainers", .list inits),
    ("overhead", overhead)])])])]

/-- A proxy that keeps running, a migration that takes more than the steady phase, and the frontend. -/
def startup : Json :=
  deployment [container "frontend" "100m" "64Mi" []]
    [container "proxy" "50m" "32Mi" [("restartPolicy", .str "Always")], container "migration" "1" "256Mi" []]
    (Sample.amounts "10m" "1Mi")

/-- Two containers whose amounts need 29 digits together. -/
def wide : Json := deployment [container "frontend" "10E" "64Mi" [], container "probe" "1n" "64Mi" []] [] .null

def amounts (pod : Pod) (r : Resource) : List ℚ := pod.apps.map (· r) ++ pod.inits.map (·.2 r) ++ [pod.overhead r]

def inThousandths (pod : Pod) : Bool :=
  resourceFields.all fun r => (amounts pod r).all (fun q => (q * 1000).num.toNat / 1000 = q) && (amounts pod r).sum < 10 ^ 25

lemma within28Digits {pod : Pod} (h : inThousandths pod = true) : pod.Within28Digits := by
  intro r
  have hr := List.all_eq_true.mp h r (by cases r <;> simp [resourceFields])
  obtain ⟨hgrid, hlt⟩ := (Bool.and_eq_true _ _).mp hr
  have hamounts : pod.amounts r = amounts pod r := rfl
  rw [hamounts]
  refine ⟨-3, fun q hq => ⟨(q * 1000).num.toNat, ?_⟩, ?_⟩
  · have hq' := of_decide_eq_true (List.all_eq_true.mp hgrid q hq)
    calc q = (q * 1000).num.toNat / 1000 := hq'.symm
      _ = (q * 1000).num.toNat * (10 : ℚ) ^ (-3 : ℤ) := by norm_num [div_eq_mul_inv]
  · rw [Multiset.sum_coe]
    refine (of_decide_eq_true hlt).trans_eq ?_
    norm_num

lemma startup_reads : ∃ pod, readPod Sample.externals startup = .ok pod ∧ pod.Within28Digits := by
  have hread : (readPod Sample.externals startup).toOption.any inThousandths = true := by
    decide +kernel
  obtain ⟨pod, hpod, hdigits⟩ := (Option.any_eq_true ..).mp hread
  exact ⟨pod, toOption_eq_some hpod, within28Digits hdigits⟩

lemma wide_reads : ∃ pod, readPod Sample.externals wide = .ok pod ∧
    pod.apps.map (· .requestsCpu) = [10 ^ 19, 1 / 10 ^ 9] ∧ pod.inits = [] ∧ pod.overhead .requestsCpu = 0 := by
  have hread : (readPod Sample.externals wide).toOption.any (fun pod =>
      pod.apps.map (· .requestsCpu) = [10 ^ 19, 1 / 10 ^ 9] && pod.inits.isEmpty &&
        pod.overhead .requestsCpu = 0) = true := by
    decide +kernel
  obtain ⟨pod, hpod, hfields⟩ := (Option.any_eq_true ..).mp hread
  simp only [Bool.and_eq_true, decide_eq_true_eq, List.isEmpty_iff] at hfields
  exact ⟨pod, toOption_eq_some hpod, hfields.1.1, hfields.1.2, hfields.2⟩

lemma wide_effective {R : Resources} (h : effectivePodResources decimal28 Sample.externals wide = .ok R) :
    R .requestsCpu = 10 ^ 19 := by
  have hcpu : (effectivePodResources decimal28 Sample.externals wide).toOption.any (· .requestsCpu = 10 ^ 19) = true := by
    decide +kernel
  rw [h] at hcpu
  exact of_decide_eq_true hcpu

end PodSample

open PodSample in
theorem peak_over_phases_startup : ∃ pod, readPod Sample.externals startup = .ok pod ∧
    ∃ R, effectivePodResources decimal28 Sample.externals startup = .ok R ∧
      ∀ r, ∃ peak, pod.IsPeak r peak ∧ R r = pod.overhead r + peak := by
  obtain ⟨pod, hread, hdigits⟩ := startup_reads
  exact ⟨pod, hread, peak_over_phases hread hdigits⟩

open PodSample in
/-- The sum of 10E and 1n is rounded to 10E. -/
theorem peak_rounded_beyond_28_digits :
    ¬ ∀ X deployment pod, readPod X deployment = .ok pod → ∃ R, effectivePodResources decimal28 X deployment = .ok R ∧
      ∀ r, ∃ peak, pod.IsPeak r peak ∧ R r = pod.overhead r + peak := by
  intro hall
  obtain ⟨pod, hread, happs, hinits, hoverhead⟩ := wide_reads
  obtain ⟨R, hR, hpeaks⟩ := hall _ _ _ hread
  obtain ⟨peak, ⟨⟨running, hphase, rfl⟩, -⟩, hsum⟩ := hpeaks .requestsCpu
  rcases hphase with ⟨before, _, _, _, hsplit, -⟩ | rfl
  · simp [hinits] at hsplit
  · rw [wide_effective hR, hoverhead, hinits, runningUse, List.map_append, List.sum_append, happs] at hsum
    norm_num [restartables] at hsum

end PlatformGitops.Deploy
