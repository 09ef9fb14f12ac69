import Mathlib.Algebra.Order.BigOperators.Group.Multiset
import Mathlib.Algebra.Order.Ring.Rat
import Mathlib.Data.Multiset.Powerset
import Mathlib.Logic.Relation
import Mathlib.Tactic.Linarith
import PlatformGitops.Deploy.RolloutHeadroom
import PlatformGitops.Library.Fallible

/-! Whether a rollout that passed the check can be stopped by the quota. -/

namespace PlatformGitops.Deploy

open Library

/-- The resources of a running pod of the old template. -/
abbrev OldPod := Resource → ℚ≥0

def OldPod.amount (pod : OldPod) : Metric → ℚ
  | .resource r => pod r
  | .pods => 1

def total (pods : Multiset OldPod) (m : Metric) : ℚ := (pods.map fun pod => OldPod.amount pod m).sum

structure Rollout where
  old : Multiset OldPod
  new : Nat
  ready : Nat

/-- A rolling update without unavailable replicas, of at most `wanted` new pods. -/
inductive Step (R : Reading) (wanted : Nat) : Rollout → Rollout → Prop
  | create {old : Multiset OldPod} {new ready : Nat} : new < wanted → old.card + new < R.replicas + R.maxSurge →
      Step R wanted ⟨old, new, ready⟩ ⟨old, new + 1, ready⟩
  | ready {old : Multiset OldPod} {new ready : Nat} : ready < new → Step R wanted ⟨old, new, ready⟩ ⟨old, new, ready + 1⟩
  | remove {pod : OldPod} {old : Multiset OldPod} {new ready : Nat} : R.replicas ≤ old.card + ready →
      Step R wanted ⟨pod ::ₘ old, new, ready⟩ ⟨old, new, ready⟩

abbrev Reaches (R : Reading) (wanted : Nat) := Relation.ReflTransGen (Step R wanted)

/-- The use of the quota, in which the pods of the start were counted. -/
def usage (R : Reading) (start : Multiset OldPod) (s : Rollout) (m : Metric) : ℚ :=
  (R.quota m).used - total start m + total s.old m + s.new * R.newPod m

/-- Wherever the rollout has come, the quota has room for the pod that it creates next. -/
def NeverBlocked (R : Reading) (start : Multiset OldPod) (wanted : Nat) : Prop :=
  ∀ s, Reaches R wanted ⟨start, 0, 0⟩ s → s.new < wanted → s.old.card + s.new < R.replicas + R.maxSurge →
    ∀ m, usage R start { s with new := s.new + 1 } m ≤ (R.quota m).hard ∧
      usage R start { s with new := s.new + 1 } m ≤ (R.quota m).desired

/-- New pods take no more than the margin and what the old pods that made room for them gave back. -/
def Fits (R : Reading) (start : Multiset OldPod) (wanted : Nat) : Prop :=
  ∀ m, ∀ k, 0 < k → k ≤ wanted → k ≤ R.replicas + R.maxSurge →
    ∀ removed ≤ start, removed.card = start.card + k - (R.replicas + R.maxSurge) →
      k * R.newPod m ≤ R.effectiveHard m - (R.quota m).used + total removed m

variable {R : Reading} {start : Multiset OldPod} {wanted : Nat} {m : Metric} {s : Rollout}

lemma OldPod.amount_nonneg (pod : OldPod) (m : Metric) : 0 ≤ pod.amount m := by
  cases m with
  | resource r => exact (pod r).2
  | pods => exact zero_le_one

lemma total_add {a b : Multiset OldPod} : total (a + b) m = total a m + total b m := by
  rw [total, total, total, Multiset.map_add, Multiset.sum_add]

lemma total_nonneg {pods : Multiset OldPod} : 0 ≤ total pods m := by
  refine Multiset.sum_nonneg fun x hx => ?_
  obtain ⟨pod, -, rfl⟩ := Multiset.mem_map.mp hx
  exact OldPod.amount_nonneg pod m

lemma usage_le_iff {limit : ℚ} {removed : Multiset OldPod} (hstart : start = removed + s.old) :
    usage R start s m ≤ limit ↔ s.new * R.newPod m ≤ limit - (R.quota m).used + total removed m := by
  rw [usage, hstart, total_add]
  constructor <;> intro h <;> linarith

/-- Of the pods of the start some were removed, and each removal left enough of them. -/
lemma reaches_split (h : Reaches R wanted ⟨start, 0, 0⟩ s) : ∃ removed, start = removed + s.old := by
  induction h with
  | refl => exact ⟨0, by simp⟩
  | tail _ hstep ih =>
    obtain ⟨removed, hsplit⟩ := ih
    cases hstep with
    | create => exact ⟨removed, hsplit⟩
    | ready => exact ⟨removed, hsplit⟩
    | @remove pod => exact ⟨pod ::ₘ removed, by rw [hsplit, Multiset.add_cons, Multiset.cons_add]⟩

lemma exists_le_card {pods : Multiset OldPod} {n : Nat} (h : n ≤ pods.card) : ∃ some ≤ pods, some.card = n := by
  have hpos : 0 < (pods.powersetCard n).card := by
    rw [Multiset.card_powersetCard]
    exact Nat.choose_pos h
  obtain ⟨some, hsome⟩ := Multiset.card_pos_iff_exists_mem.mp hpos
  exact ⟨some, Multiset.mem_powersetCard.mp hsome⟩

lemma total_mono {a b : Multiset OldPod} (h : a ≤ b) : total a m ≤ total b m := by
  obtain ⟨rest, rfl⟩ := Multiset.le_iff_exists_add.mp h
  rw [total_add]
  exact le_add_of_nonneg_right total_nonneg

lemma reaches_remove {extra kept : Multiset OldPod} {new ready : Nat} (h : R.replicas ≤ kept.card + ready) :
    Reaches R wanted ⟨extra + kept, new, ready⟩ ⟨kept, new, ready⟩ := by
  induction extra using Multiset.induction with
  | empty =>
    rw [zero_add]
  | cons pod extra ih =>
    rw [Multiset.cons_add]
    refine .head (.remove ?_) ih
    rw [Multiset.card_add]
    omega

/-- The state before the next creation in which any such old pods are gone. -/
lemma reaches_before (hsurge : 1 ≤ R.maxSurge) {k : Nat} (hwanted : k < wanted) (hlimit : k < R.replicas + R.maxSurge)
    {removed kept : Multiset OldPod} (hsplit : start = removed + kept)
    (hcard : removed.card = start.card + (k + 1) - (R.replicas + R.maxSurge)) :
    Reaches R wanted ⟨start, 0, 0⟩ ⟨kept, k, k⟩ := by
  induction k generalizing removed kept with
  | zero =>
    subst hsplit
    rw [Multiset.card_add] at hcard
    by_cases hnone : removed.card = 0
    · rw [Multiset.card_eq_zero.mp hnone, zero_add]
    · exact reaches_remove (by omega)
  | succ k ih =>
    have hfewer : start.card + (k + 1) - (R.replicas + R.maxSurge) ≤ removed.card := by omega
    obtain ⟨first, hfirst, hfirstCard⟩ := exists_le_card hfewer
    obtain ⟨extra, rfl⟩ := Multiset.le_iff_exists_add.mp hfirst
    rw [add_assoc] at hsplit
    have hbefore := ih (by omega) (by omega) hsplit hfirstCard
    have hstart : start.card = first.card + (extra.card + kept.card) := by
      rw [hsplit, Multiset.card_add, Multiset.card_add]
    rw [Multiset.card_add] at hcard
    have hcreate : (extra + kept).card + k < R.replicas + R.maxSurge := by
      rw [Multiset.card_add]
      omega
    refine hbefore.trans (.head (.create (by omega) hcreate) (.head (.ready (by omega)) ?_))
    by_cases hnone : extra.card = 0
    · rw [Multiset.card_eq_zero.mp hnone, zero_add]
    · exact reaches_remove (by omega)

lemma neverBlocked_iff_fits (hsurge : 1 ≤ R.maxSurge) : NeverBlocked R start wanted ↔ Fits R start wanted := by
  constructor
  · intro hnever m k hpos hwanted hlimit removed hremoved hcard
    obtain ⟨kept, rfl⟩ := Multiset.le_iff_exists_add.mp hremoved
    obtain ⟨k, rfl⟩ : ∃ j, k = j + 1 := ⟨k - 1, by omega⟩
    have hreach : Reaches R wanted ⟨removed + kept, 0, 0⟩ ⟨kept, k, k⟩ :=
      reaches_before hsurge (by omega) (by omega) rfl hcard
    rw [Multiset.card_add] at hcard
    have hroom : kept.card + k < R.replicas + R.maxSurge := by omega
    obtain ⟨hhard, hdesired⟩ := hnever ⟨kept, k, k⟩ hreach (Nat.lt_of_succ_le hwanted) hroom m
    have hsplit : removed + kept = removed + (Rollout.mk kept (k + 1) k).old := rfl
    have hhard := (usage_le_iff hsplit).mp hhard
    have hdesired := (usage_le_iff hsplit).mp hdesired
    have hlimit : R.effectiveHard m = (R.quota m).desired ∨ R.effectiveHard m = (R.quota m).hard := min_choice ..
    rcases hlimit with hlimit | hlimit
    · rw [hlimit]
      exact hdesired
    · rw [hlimit]
      exact hhard
  · intro hfits s hreach hwanted hroom m
    obtain ⟨removed, hsplit⟩ := reaches_split hreach
    have hcards : start.card = removed.card + s.old.card := by rw [hsplit, Multiset.card_add]
    have hfewer : start.card + (s.new + 1) - (R.replicas + R.maxSurge) ≤ removed.card := by omega
    obtain ⟨some, hsome, hcard⟩ := exists_le_card hfewer
    have hstart : some ≤ start := hsome.trans (by rw [hsplit]; exact Multiset.le_add_right ..)
    have hle := hfits m (s.new + 1) (by omega) (by omega) (by omega) some hstart hcard
    have hsplit' : start = removed + (Rollout.mk s.old (s.new + 1) s.ready).old := hsplit
    have hmono : total some m ≤ total removed m := total_mono hsome
    have hhard : R.effectiveHard m ≤ (R.quota m).hard := min_le_right ..
    have hdesired : R.effectiveHard m ≤ (R.quota m).desired := min_le_left ..
    constructor
    · refine (usage_le_iff hsplit').mpr ?_
      change ((s.new + 1 : Nat) : ℚ) * R.newPod m ≤ _
      linarith
    · refine (usage_le_iff hsplit').mpr ?_
      change ((s.new + 1 : Nat) : ℚ) * R.newPod m ≤ _
      linarith

lemma checkThat_eq_ok {condition : Prop} [Decidable condition] {message : String} {u : Unit} :
    checkThat condition message = .ok u ↔ condition := by
  rw [checkThat]
  split_ifs with h <;> simp [h]

lemma readSurge_pos {round : ℚ → ℚ} {X : Externals} {spec : List (String × Json)} {replicas surge : Nat}
    (h : readSurge round X spec replicas = .ok surge) : 1 ≤ surge := by
  simp only [readSurge, Fallible.bind_eq_ok, Fallible.pure_eq_ok, checkThat_eq_ok] at h
  obtain ⟨strategy, -, -, -, rolling, -, maxSurge, -, maxUnavailable, -, -, hpos, -, -, -, -, rfl⟩ := h
  exact hpos

lemma read_surge {round : ℚ → ℚ} {X : Externals} {deployment desiredQuota liveQuota : Json}
    (h : read round X deployment desiredQuota liveQuota = .ok R) : 1 ≤ R.maxSurge := by
  simp only [read, Fallible.bind_eq_ok, Fallible.pure_eq_ok] at h
  obtain ⟨_, -, spec, -, replicas, -, surge, hsurge, h⟩ := h
  obtain ⟨perPod, -, _, -, _, -, _, -, _, -, _, -, _, -, _, -, quota, -, rfl⟩ := h
  exact readSurge_pos hsurge

/-- The check passes the deployment and the quota. -/
def Passes (X : Externals) (deployment desiredQuota liveQuota : Json) : Prop :=
  ∃ report, evaluate X deployment desiredQuota liveQuota = .ok report ∧ report.pass = true

namespace Sample

def externals : Externals where
  str value := value.asStr?.getD ""
  toInt value := value.asStrictInt?.elim (.error "TypeError") .ok
  intOfText _ := none
  decimalOfText _ := none

def amounts (cpu memory : String) : Json := .obj [("cpu", .str cpu), ("memory", .str memory)]

/-- Two replicas, a surge of one, and pods of eight times the memory of the old ones. -/
def deployment : Json :=
  .obj [("spec", .obj [
    ("replicas", .int 2),
    ("progressDeadlineSeconds", .int 600),
    ("strategy", .obj [("rollingUpdate", .obj [("maxSurge", .int 1), ("maxUnavailable", .int 0)])]),
    ("template", .obj [("spec", .obj [("containers", .list [.obj [("name", .str "frontend"),
      ("resources", .obj [("requests", amounts "100m" "512Mi"), ("limits", amounts "200m" "512Mi")])]])])])])]

def quantities (cpu requested limited pods : String) : Json :=
  .obj [("requests.cpu", .str cpu), ("requests.memory", .str requested), ("limits.cpu", .str cpu),
    ("limits.memory", .str limited), ("pods", .str pods)]

def hard : Json := quantities "10" "700Mi" "10Gi" "10"

def desiredQuota : Json := .obj [("spec", .obj [("hard", hard)])]

def liveQuota : Json := .obj [("status", .obj [("hard", hard), ("used", quantities "200m" "128Mi" "128Mi" "2")])]

def oldPod : OldPod
  | .requestsCpu | .limitsCpu => 1 / 10
  | .requestsMemory | .limitsMemory => 64 * 1024 ^ 2

def running : Multiset OldPod := {oldPod, oldPod}

def memory : Metric := .resource .requestsMemory

lemma passes : Passes externals deployment desiredQuota liveQuota := by
  have hpass : (evaluate externals deployment desiredQuota liveQuota).toOption.any Report.pass = true := by
    decide +kernel
  obtain ⟨report, hreport, hverdict⟩ := (Option.any_eq_true ..).mp hpass
  exact ⟨report, Fallible.toOption_eq_some hreport, hverdict⟩

lemma reading : ∃ R, read id externals deployment desiredQuota liveQuota = .ok R ∧ R.replicas = 2 ∧ R.maxSurge = 1 ∧
    R.newPod memory = 512 * 1024 ^ 2 ∧ R.effectiveHard memory = 700 * 1024 ^ 2 ∧
      (R.quota memory).used = 128 * 1024 ^ 2 := by
  have hread : (read id externals deployment desiredQuota liveQuota).toOption.any (fun R =>
      decide (R.replicas = 2 ∧ R.maxSurge = 1 ∧ R.newPod memory = 512 * 1024 ^ 2 ∧
        R.effectiveHard memory = 700 * 1024 ^ 2 ∧ (R.quota memory).used = 128 * 1024 ^ 2)) = true := by
    decide +kernel
  obtain ⟨R, hR, hvalues⟩ := (Option.any_eq_true ..).mp hread
  exact ⟨R, Fallible.toOption_eq_some hR, of_decide_eq_true hvalues⟩

end Sample

end PlatformGitops.Deploy
