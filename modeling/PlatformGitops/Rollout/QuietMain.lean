import PlatformGitops.Rollout.Queue
import PlatformGitops.Rollout.Windows

/-! A main without a queued, active or failed run is verified, unless an owed run was cancelled for nothing. -/

namespace PlatformGitops.Rollout

open Library Fallible

variable {C : Type} [DecidableEq C] {tree : String → Tree C} {env : Env}

section Fences

lemma diffStatus_eq_differs {fails same : Bool} : diffStatus fails same = .differs ↔ fails = false ∧ same = false := by
  cases fails <;> cases same <;> simp [diffStatus]

omit [DecidableEq C] in
lemma mainFence_eq_superseded {diff : DiffStatus} {digestMap : DigestMap} {latestMain : String}
    (h : mainFence tree diff digestMap latestMain = .error .superseded) :
    (tree latestMain).kustomization ≠ some digestMap ∨ diff = .differs := by
  unfold mainFence at h
  split at h
  · cases h
  · rename_i latest hlatest
    split_ifs at h with hmap
    · exact .inl fun heq => hmap (Option.some.inj (hlatest.symm.trans heq))
    · cases diff with
      | same => cases h
      | differs => exact .inr rfl
      | error => cases h

lemma assertCurrentBackendMap_eq_ok {revision latestMain : String} {digestMap : DigestMap} {u : Unit}
    (h : assertCurrentBackendMap tree env revision digestMap latestMain = .ok u) :
    backend tree latestMain = (some digestMap, (tree revision).contract) := by
  obtain ⟨hmap, hdiff⟩ := mainFence_eq_ok h
  exact Prod.ext hmap (gitDiff_eq_same hdiff).symm

lemma assertCurrentBackendMap_eq_superseded {revision latestMain : String} {digestMap : DigestMap}
    (h : assertCurrentBackendMap tree env revision digestMap latestMain = .error .superseded) :
    backend tree latestMain ≠ (some digestMap, (tree revision).contract) := by
  intro heq
  rcases mainFence_eq_superseded h with hmap | hdiff
  · exact hmap (congrArg Prod.fst heq)
  · exact of_decide_eq_false (diffStatus_eq_differs.mp hdiff).2 (congrArg Prod.snd heq).symm

lemma refreshSemanticMainFence_ok {revision latestMain next : String} {digestMap : DigestMap}
    (h : refreshSemanticMainFence tree env revision digestMap latestMain = .ok next) :
    (tree next).contract = (tree revision).contract ∧ (tree next).atsAcceptance = (tree revision).atsAcceptance := by
  unfold refreshSemanticMainFence at h
  split_ifs at h with hsame
  · cases h
    exact ⟨rfl, rfl⟩
  · simp only [bind_eq_ok, pure_eq_ok] at h
    obtain ⟨_, hfence, rfl⟩ := h
    obtain ⟨hcontract, hats⟩ := of_decide_eq_true (diffStatus_eq_same.mp (mainFence_eq_ok hfence).2).2
    exact ⟨hcontract.symm, hats.symm⟩

lemma refreshSemanticMainFence_superseded {revision latestMain : String} {digestMap : DigestMap}
    (h : refreshSemanticMainFence tree env revision digestMap latestMain = .error .superseded)
    (hats : backend tree latestMain = (some digestMap, (tree revision).contract) →
      (tree latestMain).atsAcceptance = (tree revision).atsAcceptance) :
    backend tree latestMain ≠ (some digestMap, (tree revision).contract) := by
  intro heq
  unfold refreshSemanticMainFence at h
  split_ifs at h
  rcases bind_eq_error.mp h with h | ⟨_, -, h⟩
  · rcases mainFence_eq_superseded h with hmap | hdiff
    · exact hmap (congrArg Prod.fst heq)
    · exact of_decide_eq_false (diffStatus_eq_differs.mp hdiff).2 ⟨(congrArg Prod.snd heq).symm, (hats heq).symm⟩
  · cases h

/-- A convergence that is superseded has seen another map or contract, when those do not hide another ATS file. -/
lemma reconcile_superseded {digestMap : DigestMap} {polls : List Poll} {revision : String}
    (h : reconcile tree env digestMap polls revision = .error .superseded)
    (hats : ∀ tip ∈ polls.filterMap Poll.tip?, backend tree tip = (some digestMap, (tree revision).contract) →
      (tree tip).atsAcceptance = (tree revision).atsAcceptance) :
    ∃ tip ∈ polls.filterMap Poll.tip?, backend tree tip ≠ (some digestMap, (tree revision).contract) := by
  induction polls generalizing revision with
  | nil => cases h
  | cons poll polls ih =>
    have hnext : ∀ {next}, (tree next).contract = (tree revision).contract ∧
        (tree next).atsAcceptance = (tree revision).atsAcceptance →
        reconcile tree env digestMap polls next = .error .superseded →
        ∃ tip ∈ polls.filterMap Poll.tip?, backend tree tip ≠ (some digestMap, (tree revision).contract) := by
      rintro next ⟨hcontract, hsame⟩ h
      rw [← hcontract, ← hsame] at hats
      rw [← hcontract]
      refine ih h fun tip htip => hats tip ?_
      cases poll with
      | failed => exact htip
      | fence latestMain => exact List.mem_cons_of_mem _ htip
      | stable latestMain => exact List.mem_cons_of_mem _ htip
    cases poll with
    | failed => cases h
    | fence latestMain =>
      rcases bind_eq_error.mp h with h | ⟨next, hok, h⟩
      · exact ⟨latestMain, List.mem_cons_self, refreshSemanticMainFence_superseded h (hats latestMain List.mem_cons_self)⟩
      · obtain ⟨tip, htip, hne⟩ := hnext (refreshSemanticMainFence_ok hok) h
        exact ⟨tip, List.mem_cons_of_mem _ htip, hne⟩
    | stable latestMain =>
      rcases bind_eq_error.mp h with h | ⟨next, hok, h⟩
      · exact ⟨latestMain, List.mem_cons_self, refreshSemanticMainFence_superseded h (hats latestMain List.mem_cons_self)⟩
      · split at h
        · cases h
        · obtain ⟨tip, htip, hne⟩ := hnext (refreshSemanticMainFence_ok hok) h
          exact ⟨tip, List.mem_cons_of_mem _ htip, hne⟩

end Fences

section Outcomes

lemma stabilityWindows_superseded {revision : String} {digestMap : DigestMap} {scope : Scope} {owed : List (String × String)}
    {answers : List (String × Bool)}
    (h : stabilityWindows tree env revision digestMap scope owed answers = .error .superseded) :
    ∃ tip ∈ answers.map (·.1), backend tree tip ≠ (some digestMap, (tree revision).contract) := by
  induction owed generalizing answers with
  | nil => cases h
  | cons p owed ih =>
    obtain ⟨service, digest⟩ := p
    unfold stabilityWindows at h
    split at h
    · exact ih h
    · split at h
      · rename_i latestMain answers
        rcases bind_eq_error.mp h with h | ⟨_, -, h⟩
        · exact ⟨latestMain, List.mem_cons_self, assertCurrentBackendMap_eq_superseded h⟩
        · rcases bind_eq_error.mp h with h | ⟨_, -, h⟩
          · obtain ⟨tip, htip, hne⟩ := ih h
            exact ⟨tip, List.mem_cons_of_mem _ htip, hne⟩
          · cases h
      · rename_i latestMain answers
        rcases bind_eq_error.mp h with h | ⟨_, -, h⟩
        · exact ⟨latestMain, List.mem_cons_self, assertCurrentBackendMap_eq_superseded h⟩
        · cases h
      · cases h

lemma verifyRuntime_superseded {revision : String} {digestMap : DigestMap} {scope : Scope}
    (h : verifyRuntime tree env revision digestMap scope = .error .superseded) :
    ∃ tip ∈ env.tips, backend tree tip ≠ (some digestMap, (tree revision).contract) := by
  unfold verifyRuntime at h
  rcases bind_eq_error.mp h with h | ⟨_, -, h⟩
  · exact ⟨env.mainBefore, by simp [Env.tips], assertCurrentBackendMap_eq_superseded h⟩
  rcases bind_eq_error.mp h with h | ⟨_, -, h⟩
  · cases (rejectIf_eq_error.mp h).2
  rcases bind_eq_error.mp h with h | ⟨_, -, h⟩
  · obtain ⟨tip, htip, hne⟩ := stabilityWindows_superseded h
    exact ⟨tip, by simp [Env.tips, htip], hne⟩
  rcases bind_eq_error.mp h with h | ⟨_, -, h⟩
  · cases (rejectIf_eq_error.mp h).2
  rcases bind_eq_error.mp h with h | ⟨_, -, h⟩
  · exact ⟨env.mainAfter, by simp [Env.tips], assertCurrentBackendMap_eq_superseded h⟩
  · cases h

lemma pinLatest_true {current : DigestMap} {revision : String} (h : pinLatest tree env current = .ok (true, revision)) :
    revision = env.latestRevision := by
  unfold pinLatest at h
  split_ifs at h with hsame
  · cases h
    exact hsame.symm
  · split at h
    · cases h
    · split_ifs at h
      · split at h <;> cases h
        rfl
      · cases h

/-- A run that is left to a newer main at its start has seen another map or contract. -/
lemma pinLatest_false {current : DigestMap} {revision : String} (hcomparable : Comparable tree env)
    (hcurrent : (tree env.currentRevision).kustomization = some current)
    (h : pinLatest tree env current = .ok (false, revision)) :
    backend tree env.latestRevision ≠ backend tree env.currentRevision := by
  intro heq
  have hlatest : (tree env.latestRevision).kustomization = some current := (congrArg Prod.fst heq).trans hcurrent
  have hcontract : (tree env.latestRevision).contract = (tree env.currentRevision).contract := congrArg Prod.snd heq
  unfold pinLatest at h
  split_ifs at h with hsame
  · cases h
  · have hdiff : gitDiff tree env env.currentRevision env.latestRevision = .same :=
      diffStatus_eq_same.mpr ⟨hcomparable.pin hsame heq, decide_eq_true hcontract.symm⟩
    simp only [hlatest, hdiff, if_true] at h
    cases h

lemma verifyRollout_eq_superseded (h : verifyRollout tree env = .superseded) :
    ∃ p, pin tree env = .ok p ∧ p.shouldVerify = true ∧ accept tree env p = .error .superseded := by
  unfold verifyRollout at h
  split at h
  · cases h
  · cases h
  · rename_i p _ hpin
    split at h
    · cases h
    · cases h
    · rename_i hverify _
      split at h
      · rename_i haccept
        exact ⟨p, hpin, hverify, haccept⟩
      · cases h
      · cases h

lemma verifyRollout_eq_skipped (h : verifyRollout tree env = .skipped) :
    ∃ p, pin tree env = .ok p ∧ p.shouldVerify = false := by
  unfold verifyRollout at h
  split at h
  · cases h
  · cases h
  · rename_i p _ hpin
    split at h
    · rename_i _ hverify
      exact ⟨p, hpin, hverify⟩
    · cases h
    · split at h <;> cases h

lemma accept_superseded {p : Pin} (hcomparable : Comparable tree env) (hcurrent : (tree env.currentRevision).kustomization = some p.digestMap)
    (hcontract : (tree p.reconcileRevision).contract = (tree env.currentRevision).contract)
    (hlatest : p.reconcileRevision = env.latestRevision) (h : accept tree env p = .error .superseded) :
    ∃ tip ∈ env.tips, backend tree tip ≠ backend tree env.currentRevision := by
  have hbackend : backend tree env.currentRevision = (some p.digestMap, (tree p.reconcileRevision).contract) :=
    Prod.ext hcurrent hcontract.symm
  rw [hbackend]
  unfold accept at h
  rcases bind_eq_error.mp h with h | ⟨_, -, h⟩
  · obtain ⟨tip, htip, hne⟩ := reconcile_superseded h fun tip htip heq =>
      hlatest ▸ hcomparable.convergence tip htip (heq.trans hbackend.symm)
    exact ⟨tip, by simp [Env.tips, Env.pollTips, htip], hne⟩
  rcases bind_eq_error.mp h with h | ⟨_, -, h⟩
  · exact verifyRuntime_superseded h
  rcases bind_eq_error.mp h with h | ⟨_, -, h⟩
  · cases (rejectIf_eq_error.mp h).2
  · cases h

/-- What a run that is left to a newer push has seen of it. -/
lemma LeftToNewer.exists_newer (hcomparable : Comparable tree env) (h : LeftToNewer tree env) :
    ∃ tip ∈ env.tips, backend tree tip ≠ backend tree env.currentRevision := by
  rcases h with h | ⟨-, current, revision, hcurrent, hlatest⟩
  · obtain ⟨p, hpin, hverify, haccept⟩ := verifyRollout_eq_superseded h
    simp only [pin, bind_eq_ok, pure_eq_ok, expect_eq_ok] at hpin
    obtain ⟨current, hcurrent, ⟨verify, revision⟩, hlatest, before, -, rfl⟩ := hpin
    obtain ⟨rfl, -⟩ := Bool.and_eq_true_iff.mp hverify
    exact accept_superseded hcomparable hcurrent (pinLatest_eq_ok hlatest) (pinLatest_true hlatest) haccept
  · exact ⟨env.latestRevision, by simp [Env.tips], pinLatest_false hcomparable hcurrent hlatest⟩

lemma gitDiff_of_unchanged {base : String} (h : contractChangedSince tree env base = false) :
    (tree base).contract = (tree env.currentRevision).contract := by
  simp only [contractChangedSince, decide_eq_false_iff_not, not_not] at h
  exact gitDiff_eq_same h.2.2

/-- Only a run whose push leaves the map and the contract as they were skips them otherwise. -/
lemma leftToNewer_or_unchanged (h : verifyRollout tree env = .skipped) :
    LeftToNewer tree env ∨ ∃ before, env.event = .push before ∧ backend tree before = backend tree env.currentRevision := by
  obtain ⟨p, hpin, hverify⟩ := verifyRollout_eq_skipped h
  simp only [pin, bind_eq_ok, pure_eq_ok, expect_eq_ok] at hpin
  obtain ⟨current, hcurrent, ⟨verify, revision⟩, hlatest, before, hbefore, rfl⟩ := hpin
  rcases Bool.and_eq_false_iff.mp hverify with rfl | hskip
  · exact .inl (.inr ⟨h, current, revision, hcurrent, hlatest⟩)
  · rw [Bool.not_eq_false'] at hskip
    unfold pinBefore at hbefore
    split at hbefore
    · cases hbefore
      cases hskip
    · rename_i before' hevent
      split_ifs at hbefore
      · split at hbefore
        · cases hbefore
        · rename_i beforeMap hmap
          cases hbefore
          obtain ⟨hsame, hunchanged⟩ := of_decide_eq_true hskip
          rw [Bool.not_eq_true] at hunchanged
          exact .inr ⟨before', hevent, Prod.ext (hmap.trans (hsame ▸ hcurrent.symm)) (gitDiff_of_unchanged hunchanged)⟩
      · cases hbefore
        cases hskip

/-- A run that passes has seen the map and the contract that it certifies at a tip of main. -/
lemma certifies_of_passed {acceptance : Acceptance} (h : verifyRollout tree env = .passed acceptance) :
    ∃ tip ∈ env.tips, ∃ map, (tree tip).kustomization = some map ∧ acceptance.runtime.expectedDigests = map.digests ∧
      (tree acceptance.reconcile.effectiveRevision).contract = (tree tip).contract := by
  obtain ⟨p, hpin, haccept⟩ := verifyRollout_passed h
  simp only [accept, bind_eq_ok, pure_eq_ok] at haccept
  obtain ⟨effective, heffective, completed, hcompleted, _, -, rfl⟩ := haccept
  simp only [verifyRuntime, bind_eq_ok, pure_eq_ok] at hcompleted
  obtain ⟨_, -, _, -, _, -, _, -, _, hafter, -⟩ := hcompleted
  have htip := assertCurrentBackendMap_eq_ok hafter
  exact ⟨env.mainAfter, by simp [Env.tips], p.digestMap, congrArg Prod.fst htip, rfl,
    (reconcile_eq_ok heffective).trans (congrArg Prod.snd htip).symm⟩

end Outcomes

section Steps

variable {s s' : Main C} {act : Act}

/-- A verification of a change of main that has not begun or not ended. -/
def Main.Pending (tree : String → Tree C) (s : Main C) : Prop :=
  s.owing tree = true ∨ ∃ run tips, s.active = some (.verify run, tips) ∧ run.owes tree = true

/-- While no run owes a change of main, the queued and the active run are about its tip. -/
structure Main.Consistent (tree : String → Tree C) (s : Main C) : Prop where
  queued : ∀ run, s.queued = some (.verify run) → run.onMain = true → backend tree run.revision = backend tree s.tip
  seen : ∀ job tips, s.active = some (job, tips) → s.owing tree = false → ∀ tip ∈ tips, backend tree tip = backend tree s.tip
  active : ∀ run tips, s.active = some (.verify run, tips) → run.onMain = true → s.owing tree = false →
    backend tree run.revision = backend tree s.tip

lemma Main.owing_eq_true : s.owing tree = true ↔ ∃ run, s.queued = some (.verify run) ∧ run.owes tree = true := by
  unfold Main.owing
  split
  · rename_i run hqueued
    simp [hqueued]
  · rename_i hqueued
    simp only [Bool.false_eq_true, false_iff]
    rintro ⟨run, hrun, -⟩
    exact hqueued run hrun

section Push

variable {revision : String} {triggers : Bool}

omit [DecidableEq C] in
lemma Main.push_active {job : Job} {tips : List String} (h : (s.push revision triggers).active = some (job, tips)) :
    ∃ tips', s.active = some (job, tips') ∧ tips = revision :: tips' := by
  obtain ⟨⟨job', tips'⟩, hactive, heq⟩ := Option.map_eq_some_iff.mp h
  cases heq
  exact ⟨tips', hactive, rfl⟩

/-- Unless a run owes it, a push has changed nothing, and no run owed anything before. -/
lemma Main.push_owing (hfilter : backend tree s.tip ≠ backend tree revision → triggers = true)
    (hkept : Kept tree s (.push revision triggers)) (h : (s.push revision triggers).owing tree = false) :
    backend tree s.tip = backend tree revision ∧ s.owing tree = false := by
  cases triggers with
  | false => exact ⟨not_not.mp fun hne => Bool.false_ne_true (hfilter hne), h⟩
  | true =>
    have hsame : backend tree s.tip = backend tree revision := not_not.mp (of_decide_eq_false h)
    exact ⟨hsame, Bool.eq_false_iff.mpr fun howing => hkept rfl howing hsame⟩

end Push

/-- A dispatched run inherits what the run that it cancels owes. -/
lemma Main.dispatch_owing {revision : String} (hkept : Kept tree s (.dispatch revision)) :
    (s.enqueue (.verify ⟨.dispatch, revision, revision = s.tip, s.owing tree⟩)).owing tree = s.owing tree := by
  change (decide (revision = s.tip) && s.owing tree) = s.owing tree
  cases howing : s.owing tree with
  | false => exact Bool.and_false _
  | true => simp [hkept howing]

omit [DecidableEq C] in
lemma Main.finish_queued {run : Verification} {outcome : Outcome} :
    (s.finish tree run outcome).queued = s.queued ∧ (s.finish tree run outcome).tip = s.tip ∧
      (s.finish tree run outcome).active = none := by
  cases outcome <;> exact ⟨rfl, rfl, rfl⟩

lemma Main.finish_owing {run : Verification} {outcome : Outcome} :
    (s.finish tree run outcome).owing tree = s.owing tree := by
  cases outcome <;> rfl

lemma Main.Consistent.step (hc : s.Consistent tree) (hstep : Step tree s act s') (hkept : Kept tree s act) :
    s'.Consistent tree := by
  cases hstep with
  | @push revision triggers hfilter =>
    refine ⟨fun run hqueued hmain => ?_, fun job tips hactive howing => ?_, fun run tips hactive hmain howing => ?_⟩
    · cases triggers with
      | false => exact (hc.queued run hqueued hmain).trans (not_not.mp fun hne => Bool.false_ne_true (hfilter hne))
      | true =>
        cases hqueued
        rfl
    · obtain ⟨hsame, howing⟩ := Main.push_owing hfilter hkept howing
      obtain ⟨tips', hbefore, rfl⟩ := Main.push_active hactive
      refine List.forall_mem_cons.mpr ⟨rfl, fun tip htip => ?_⟩
      exact (hc.seen job tips' hbefore howing tip htip).trans hsame
    · obtain ⟨hsame, howing⟩ := Main.push_owing hfilter hkept howing
      obtain ⟨tips', hbefore, rfl⟩ := Main.push_active hactive
      exact (hc.active run tips' hbefore hmain howing).trans hsame
  | dispatch =>
    refine ⟨fun run hqueued hmain => ?_, fun job tips hactive howing => ?_, fun run tips hactive hmain howing => ?_⟩
    · cases hqueued
      exact congrArg (backend tree) (of_decide_eq_true hmain)
    · exact hc.seen job tips hactive (Main.dispatch_owing hkept ▸ howing)
    · exact hc.active run tips hactive hmain (Main.dispatch_owing hkept ▸ howing)
  | promote =>
    refine ⟨fun run hqueued hmain => ?_, fun job tips hactive _ => ?_, fun run tips hactive hmain _ => ?_⟩
    · cases hqueued
    · exact hc.seen job tips hactive hkept
    · exact hc.active run tips hactive hmain hkept
  | start hidle hqueued =>
    refine ⟨fun run hnone => (by cases hnone), fun job tips hactive _ => ?_, fun run tips hactive hmain _ => ?_⟩
    · cases hactive
      simp
    · cases hactive
      exact hc.queued run hqueued hmain
  | finish hactive =>
    obtain ⟨hqueued, htip, hnone⟩ := Main.finish_queued (s := s)
    refine ⟨fun run => ?_, fun job tips hactive => ?_, fun run tips hactive => ?_⟩
    · rw [hqueued, htip]
      exact hc.queued run
    · rw [hnone] at hactive
      cases hactive
    · rw [hnone] at hactive
      cases hactive
  | finishPromotion => exact ⟨hc.queued, fun _ _ hnone => (by cases hnone), fun _ _ hnone => (by cases hnone)⟩

/-- A newer map or contract that the active run has seen is owed by the queued one. -/
lemma Main.Consistent.owing_of_newer (hc : s.Consistent tree) {job : Job} {tips : List String} {tip : String}
    (hactive : s.active = some (job, tips)) (htip : tip ∈ tips) (hne : backend tree tip ≠ backend tree s.tip) :
    s.owing tree = true := by
  by_contra howing
  exact hne (hc.seen job tips hactive (Bool.eq_false_iff.mpr howing) tip htip)

/-- A run on main that is left to a newer push leaves it to a queued one. -/
lemma Main.Consistent.owing_of_left (hc : s.Consistent tree) {run : Verification} {tips : List String}
    (hactive : s.active = some (.verify run, tips)) (hmain : run.onMain = true) (hrevision : env.currentRevision = run.revision)
    (htips : env.tips ⊆ tips) (hcomparable : Comparable tree env) (hleft : LeftToNewer tree env) : s.owing tree = true := by
  obtain ⟨tip, htip, hne⟩ := hleft.exists_newer hcomparable
  by_contra howing
  rw [hrevision, hc.active run tips hactive hmain (Bool.eq_false_iff.mpr howing)] at hne
  exact howing (hc.owing_of_newer hactive (htips htip) hne)

/-- A run that a change of main waits for verifies it, or leaves it to a queued one, unless its push has failed. -/
lemma Main.Consistent.finish_owed (hc : s.Consistent tree) {run : Verification} {tips : List String}
    (hactive : s.active = some (.verify run, tips)) (hevent : env.event = run.event)
    (hrevision : env.currentRevision = run.revision) (htips : env.tips ⊆ tips) (hkept : Kept tree s (.finish env))
    (howes : run.owes tree = true) :
    s.owing tree = true ∨ (s.finish tree run (verifyRollout tree env)).pushFailed = true ∨
      ∃ acceptance, verifyRollout tree env = .passed acceptance := by
  obtain ⟨hmain, hchange⟩ := Bool.and_eq_true_iff.mp howes
  have hleft : LeftToNewer tree env → s.owing tree = true :=
    hc.owing_of_left hactive hmain hrevision htips hkept.1
  cases houtcome : verifyRollout tree env with
  | passed acceptance => exact .inr (.inr ⟨acceptance, rfl⟩)
  | superseded => exact .inl (hleft (.inl houtcome))
  | skipped =>
    rcases leftToNewer_or_unchanged houtcome with hnewer | ⟨before, hbefore, hsame⟩
    · exact .inl (hleft hnewer)
    · rw [hevent] at hbefore
      rw [hrevision] at hsame
      simp only [hbefore, decide_eq_true_eq] at hchange
      exact absurd hsame hchange
  | failed =>
    refine .inr (.inl (Bool.or_eq_true_iff.mpr (.inr (decide_eq_true fun hdispatch => ?_))))
    exact hkept.2 run tips hactive hdispatch howes houtcome

/-- What is owed stays owed until a run passes, or a run of a push fails. -/
lemma Main.Consistent.pending_step (hc : s.Consistent tree) (hstep : Step tree s act s') (hkept : Kept tree s act)
    (hartifacts : s'.artifacts = s.artifacts) (h : s.pushFailed = true ∨ s.Pending tree) :
    s'.pushFailed = true ∨ s'.Pending tree := by
  cases hstep with
  | @push revision triggers hfilter =>
    refine h.imp id fun h => ?_
    cases howing : (s.push revision triggers).owing tree with
    | true => exact .inl howing
    | false =>
      obtain ⟨-, hbefore⟩ := Main.push_owing hfilter hkept howing
      rcases h with h | ⟨run, tips, hactive, howes⟩
      · rw [hbefore] at h
        cases h
      · exact .inr ⟨run, revision :: tips, by simp [Main.push, hactive], howes⟩
  | dispatch => exact h.imp id fun h => h.imp (fun h => (Main.dispatch_owing hkept).trans h) id
  | promote =>
    refine h.imp id fun h => .inr (h.resolve_left fun howing => ?_)
    rw [show s.owing tree = false from hkept] at howing
    cases howing
  | start hidle hqueued =>
    refine h.imp id fun h => .inr ?_
    rcases h with h | ⟨run, tips, hactive, -⟩
    · obtain ⟨run, hrun, howes⟩ := Main.owing_eq_true.mp h
      cases hqueued.symm.trans hrun
      exact ⟨run, [s.tip], rfl, howes⟩
    · rw [hidle] at hactive
      cases hactive
  | @finish run tips env hactive hevent hrevision htips =>
    rcases h with h | h | ⟨run', tips', hactive', howes⟩
    · cases houtcome : verifyRollout tree env with
      | passed acceptance => simp [houtcome, Main.finish] at hartifacts
      | failed => exact .inl (Bool.or_eq_true_iff.mpr (.inl h))
      | skipped => exact .inl h
      | superseded => exact .inl h
    · exact .inr (.inl (Main.finish_owing.trans h))
    · cases hactive.symm.trans hactive'
      rcases hc.finish_owed hactive hevent hrevision htips hkept howes with howing | hfailed | ⟨acceptance, hpassed⟩
      · exact .inr (.inl (Main.finish_owing.trans howing))
      · exact .inl hfailed
      · simp [hpassed, Main.finish] at hartifacts
  | finishPromotion hactive =>
    refine h.imp id fun h => .inl (h.resolve_right ?_)
    rintro ⟨run, tips, hactive', -⟩
    cases hactive.symm.trans hactive'

/-- A step adds an artifact of what main is, or leaves what it is to a queued run, or adds none. -/
lemma Main.Consistent.artifacts_step (hc : s.Consistent tree) (hstep : Step tree s act s') :
    s'.artifacts = s.artifacts ∨ (s'.Verified tree ∨ s'.Pending tree) ∧ s.artifacts.length < s'.artifacts.length := by
  cases hstep with
  | @finish run tips env hactive hevent hrevision htips =>
    cases houtcome : verifyRollout tree env with
    | passed acceptance =>
      refine .inr ⟨?_, by simp [Main.finish]⟩
      obtain ⟨tip, htip, map, hmap, hdigests, hcontract⟩ := certifies_of_passed houtcome
      cases howing : s.owing tree with
      | true => exact .inr (.inl howing)
      | false =>
        have hsame := hc.seen _ tips hactive howing tip (htips htip)
        refine .inl ⟨map, (congrArg Prod.fst hsame).symm.trans hmap, ?_⟩
        simp only [Main.finish, hdigests, hcontract]
        rw [show (tree tip).contract = (tree s.tip).contract from congrArg Prod.snd hsame]
        exact List.mem_cons_self
    | failed => exact .inl rfl
    | skipped => exact .inl rfl
    | superseded => exact .inl rfl
  | push => exact .inl rfl
  | dispatch => exact .inl rfl
  | promote => exact .inl rfl
  | start => exact .inl rfl
  | finishPromotion => exact .inl rfl

/-- Only a push that changes main, whose run is queued then, leaves a verified main unverified. -/
lemma Main.Verified.step (h : s.Verified tree) (hstep : Step tree s act s') (hkept : Kept tree s act)
    (hartifacts : s'.artifacts = s.artifacts) : s'.Verified tree ∨ s'.Pending tree := by
  obtain ⟨map, hmap, hmem⟩ := h
  cases hstep with
  | @push revision triggers hfilter =>
    cases howing : (s.push revision triggers).owing tree with
    | true => exact .inr (.inl howing)
    | false =>
      obtain ⟨hsame, -⟩ := Main.push_owing hfilter hkept howing
      refine .inl ⟨map, (congrArg Prod.fst hsame).symm.trans hmap, ?_⟩
      have hcontract : (tree s.tip).contract = (tree revision).contract := congrArg Prod.snd hsame
      rw [hcontract] at hmem
      exact hmem
  | dispatch => exact .inl ⟨map, hmap, hmem⟩
  | promote => exact .inl ⟨map, hmap, hmem⟩
  | start => exact .inl ⟨map, hmap, hmem⟩
  | finish =>
    obtain ⟨-, htip, -⟩ := Main.finish_queued (s := s)
    refine .inl ⟨map, htip.symm ▸ hmap, ?_⟩
    rw [hartifacts, htip]
    exact hmem
  | finishPromotion => exact .inl ⟨map, hmap, hmem⟩

end Steps

section Runs

variable {s₀ s : Main C}

lemma Main.Consistent.reaches (hc : s₀.Consistent tree) (hrun : ReachesKept tree s₀ s) : s.Consistent tree := by
  induction hrun with
  | refl => exact hc
  | tail _ hstep ih =>
    obtain ⟨act, hstep, hkept⟩ := hstep
    exact ih.step hstep hkept

lemma Main.Quiet.consistent (h : s.Quiet) : s.Consistent tree := by
  obtain ⟨hqueued, hactive⟩ := h
  constructor <;> simp [hqueued, hactive]

lemma Main.Quiet.not_pending (h : s.Quiet) : ¬ s.Pending tree := by
  obtain ⟨hqueued, hactive⟩ := h
  simp [Main.Pending, Main.owing, hqueued, hactive]

lemma verified_or_pending (hc : s₀.Consistent tree) (hverified : s₀.Verified tree) (hrun : ReachesKept tree s₀ s) :
    s.Verified tree ∨ s.pushFailed = true ∨ s.Pending tree := by
  induction hrun with
  | refl => exact .inl hverified
  | tail hrun hstep ih =>
    obtain ⟨act, hstep, hkept⟩ := hstep
    have hc := hc.reaches hrun
    rcases hc.artifacts_step hstep with hartifacts | ⟨hdone, -⟩
    · rcases ih with hverified | hpending
      · exact (hverified.step hstep hkept hartifacts).imp id .inr
      · exact .inr (hc.pending_step hstep hkept hartifacts hpending)
    · exact hdone.imp id .inr

/-- What is owed is verified later by a run that passes, unless a run of a push fails first. -/
lemma passes_or_pending (hc : s₀.Consistent tree) (hpending : s₀.Pending tree) (hrun : ReachesKept tree s₀ s) :
    s₀.artifacts.length < s.artifacts.length ∨
      s.artifacts.length = s₀.artifacts.length ∧ (s.pushFailed = true ∨ s.Pending tree) := by
  induction hrun with
  | refl => exact .inr ⟨rfl, .inr hpending⟩
  | tail hrun hstep ih =>
    obtain ⟨act, hstep, hkept⟩ := hstep
    have hc := hc.reaches hrun
    rcases hc.artifacts_step hstep with hartifacts | ⟨-, hmore⟩
    · rw [hartifacts]
      exact ih.imp id fun ⟨hlength, hpending⟩ => ⟨hlength, hc.pending_step hstep hkept hartifacts hpending⟩
    · rcases ih with hlater | ⟨hlength, -⟩
      · exact .inl (hlater.trans hmore)
      · exact .inl (hlength ▸ hmore)

end Runs

/-- Over any steps that meet the condition, a quiet main without a failed push is verified, and a run that is left to a
newer push is followed by one that passes before main is so again. -/
theorem quiet_main_verified (tree : String → Tree C) (s₀ s : Main C) (hquiet : s₀.Quiet)
    (hverified : s₀.Verified tree) (hrun : ReachesKept tree s₀ s) :
    (s.Quiet → s.pushFailed = false → s.Verified tree) ∧
      ∀ run tips env s', s.active = some (.verify run, tips) → run.onMain = true → Step tree s (.finish env) s' →
        Kept tree s (.finish env) → LeftToNewer tree env → s'.owing tree = true ∧
          ∀ s'', ReachesKept tree s' s'' → s''.Quiet → s''.pushFailed = false → s'.artifacts.length < s''.artifacts.length := by
  have hc := hquiet.consistent.reaches hrun
  refine ⟨fun hend hgreen => ?_, fun run tips env s' hactive hmain hstep hkept hleft => ?_⟩
  · rcases verified_or_pending hquiet.consistent hverified hrun with hdone | hfailed | hpending
    · exact hdone
    · rw [hgreen] at hfailed
      cases hfailed
    · exact absurd hpending hend.not_pending
  · have howing : s'.owing tree = true := by
      cases hstep with
      | finish hactive' hevent hrevision htips =>
        cases hactive.symm.trans hactive'
        exact Main.finish_owing.trans (hc.owing_of_left hactive hmain hrevision htips hkept.1 hleft)
    refine ⟨howing, fun s'' hlater hend hgreen => ?_⟩
    rcases passes_or_pending (hc.step hstep hkept) (.inl howing) hlater with hmore | ⟨-, hfailed | hpending⟩
    · exact hmore
    · rw [hgreen] at hfailed
      cases hfailed
    · exact absurd hpending hend.not_pending

section

def shaOf (digit : Char) : String := String.ofList (List.replicate 40 digit)

def imagesAt (digest : String) : DigestMap := ⟨requiredServices.map fun service => (service, digest), by rfl⟩

/-- A first map, another one, and a third that two revisions have. -/
def successiveTree (r : String) : Tree Unit where
  kustomization :=
    if r = shaOf '0' then some (imagesAt "sha256:0")
    else if r = shaOf '1' then some (imagesAt "sha256:1")
    else some (imagesAt "sha256:2")
  contract := ()
  atsAcceptance := ()

def verifiedMain : Main Unit where
  tip := shaOf '0'
  queued := none
  active := none
  artifacts := [((imagesAt "sha256:0").digests, ())]
  pushFailed := false

/-- The run of a push that sees only its own revision and whose gates pass. -/
def pushRun (before current : String) : Env where
  checkedOut := true
  event := .push before
  currentRevision := current
  latestRevision := current
  beforeShown := true
  reachable := fun _ => true
  diffFails := fun _ _ => false
  successfulRuns := none
  polls := [.stable current]
  mainBefore := current
  podsReady := true
  windows := requiredServices.map fun _ => (current, true)
  authFlow := true
  mainAfter := current
  evidenceHolds := true
  uploaded := true

lemma verifiedMain_quiet : verifiedMain.Quiet := ⟨rfl, rfl⟩

lemma verifiedMain_verified : verifiedMain.Verified successiveTree := ⟨imagesAt "sha256:0", by decide, by decide⟩

variable {s s' s'' : Main C} {act : Act}

lemma Reaches.step (h : Reaches tree s s') (hstep : Step tree s' act s'') : Reaches tree s s'' := .tail h ⟨act, hstep⟩

lemma ReachesKept.step (h : ReachesKept tree s s') (hstep : Step tree s' act s'') (hkept : Kept tree s' act) :
    ReachesKept tree s s'' :=
  .tail h ⟨act, hstep, hkept⟩

lemma Step.triggered (revision : String) : Step tree s (.push revision true) (s.push revision true) := .push fun _ => rfl

lemma Step.ends {run : Verification} {tips : List String} {outcome : Outcome} (hactive : s.active = some (.verify run, tips))
    (hevent : env.event = run.event) (hrevision : env.currentRevision = run.revision) (htips : env.tips ⊆ tips)
    (houtcome : verifyRollout tree env = outcome) : Step tree s (.finish env) (s.finish tree run outcome) :=
  houtcome ▸ .finish hactive hevent hrevision htips

end

section

/-- The run of the second map, which ends when main has the third. -/
def supersededRun : Env := { pushRun (shaOf '0') (shaOf '1') with latestRevision := shaOf '3' }

def passedAcceptance : Acceptance where
  runtime := ⟨"testai-backend-runtime-verification-v1", "PASS", (imagesAt "sha256:1").digests⟩
  reconcile := ⟨"PASS", shaOf '1'⟩
  windows := (imagesAt "sha256:1").digests

lemma verifyRollout_supersededRun : verifyRollout successiveTree supersededRun = .skipped := by decide

lemma verifyRollout_unchanged : verifyRollout successiveTree (pushRun (shaOf '2') (shaOf '3')) = .skipped := by decide

lemma verifyRollout_passed_run :
    verifyRollout successiveTree (pushRun (shaOf '0') (shaOf '1')) = .passed passedAcceptance := by decide

lemma supersededRun_comparable : Comparable successiveTree supersededRun := ⟨fun _ _ => rfl, fun _ _ _ => rfl⟩

lemma pushRun_comparable {before current : String} : Comparable successiveTree (pushRun before current) :=
  ⟨fun _ _ => rfl, fun _ _ _ => rfl⟩

end

/-- The queued run of the third map is cancelled by that of a push that leaves the map as it is. -/
theorem quiet_main_not_verified : ∃ (tree : String → Tree Unit) (s₀ s : Main Unit), s₀.Quiet ∧ s₀.Verified tree ∧
    Reaches tree s₀ s ∧ s.Quiet ∧ s.pushFailed = false ∧ ¬ s.Verified tree := by
  have hstart : Reaches successiveTree verifiedMain verifiedMain := Relation.ReflTransGen.refl
  have hactive := (hstart.step (.triggered (shaOf '1'))).step (.start rfl rfl)
  have hcancelled := (hactive.step (.triggered (shaOf '2'))).step (.triggered (shaOf '3'))
  have hleft := hcancelled.step (.ends rfl rfl rfl (by decide) verifyRollout_supersededRun)
  have hskipped := (hleft.step (.start rfl rfl)).step (.ends rfl rfl rfl (by decide) verifyRollout_unchanged)
  refine ⟨successiveTree, verifiedMain, _, verifiedMain_quiet, verifiedMain_verified, hskipped, ⟨rfl, rfl⟩, rfl, ?_⟩
  rintro ⟨map, hmap, hmem⟩
  cases hmap
  revert hmem
  decide

/-- The run of a push that changes the map passes. -/
theorem quiet_main_verified_push : ∃ s, ReachesKept successiveTree verifiedMain s ∧ s.tip = shaOf '1' ∧
    s.Verified successiveTree := by
  have hstart : ReachesKept successiveTree verifiedMain verifiedMain := Relation.ReflTransGen.refl
  have hactive := (hstart.step (.triggered (shaOf '1')) fun _ howing => by cases howing).step (.start rfl rfl) trivial
  have hpassed := hactive.step (.ends rfl rfl rfl (by decide) verifyRollout_passed_run) ⟨pushRun_comparable, ?_⟩
  · exact ⟨_, hpassed, rfl, (quiet_main_verified successiveTree verifiedMain _ verifiedMain_quiet verifiedMain_verified
      hpassed).1 ⟨rfl, rfl⟩ rfl⟩
  · rw [verifyRollout_passed_run]
    rintro _ _ _ _ _ ⟨⟩

end PlatformGitops.Rollout
