import PlatformGitops.Rollout.Verification

/-! The stability windows that a run inherits were completed, under its own contract. -/

namespace PlatformGitops.Rollout

open Library Fallible

variable {C : Type} {tree : String → Tree C} {env : Env}

section Fences

lemma diffStatus_eq_same {fails same : Bool} : diffStatus fails same = .same ↔ fails = false ∧ same = true := by
  cases fails <;> cases same <;> simp [diffStatus]

lemma gitDiff_eq_same [DecidableEq C] {a b : String} (h : gitDiff tree env a b = .same) : (tree a).contract = (tree b).contract :=
  of_decide_eq_true (diffStatus_eq_same.mp h).2

lemma mainFence_eq_ok {diff : DiffStatus} {digestMap : DigestMap} {latestMain : String} {u : Unit}
    (h : mainFence tree diff digestMap latestMain = .ok u) :
    (tree latestMain).kustomization = some digestMap ∧ diff = .same := by
  unfold mainFence at h
  split at h
  · cases h
  · rename_i latest hlatest
    split_ifs at h with hmap
    rw [not_not] at hmap
    cases diff <;> simp_all

variable [DecidableEq C]

lemma refreshSemanticMainFence_eq_ok {revision latestMain next : String} {digestMap : DigestMap}
    (h : refreshSemanticMainFence tree env revision digestMap latestMain = .ok next) :
    (tree next).contract = (tree revision).contract := by
  unfold refreshSemanticMainFence at h
  split_ifs at h with hsame
  · cases h
    rfl
  · simp only [bind_eq_ok, pure_eq_ok] at h
    obtain ⟨_, hfence, rfl⟩ := h
    obtain ⟨hcontract, -⟩ := of_decide_eq_true (diffStatus_eq_same.mp (mainFence_eq_ok hfence).2).2
    exact hcontract.symm

/-- The convergence ends at a revision under the contract that it started with. -/
lemma reconcile_eq_ok {digestMap : DigestMap} {polls : List Poll} {revision effective : String}
    (h : reconcile tree env digestMap polls revision = .ok effective) :
    (tree effective).contract = (tree revision).contract := by
  induction polls generalizing revision with
  | nil => cases h
  | cons poll polls ih =>
    cases poll with
    | failed => cases h
    | fence latestMain =>
      simp only [reconcile, bind_eq_ok] at h
      obtain ⟨next, hnext, h⟩ := h
      exact (ih h).trans (refreshSemanticMainFence_eq_ok hnext)
    | stable latestMain =>
      simp only [reconcile, bind_eq_ok] at h
      obtain ⟨next, hnext, h⟩ := h
      split at h
      · cases h
        rfl
      · exact (ih h).trans (refreshSemanticMainFence_eq_ok hnext)

end Fences

section Scopes

variable [DecidableEq C] {service digest : String}

lemma stabilityWindows_eq_ok {revision : String} {digestMap : DigestMap} {scope : Scope} {owed : List (String × String)}
    {answers : List (String × Bool)} {completed : List (String × String)}
    (h : stabilityWindows tree env revision digestMap scope owed answers = .ok completed) :
    ∀ p ∈ owed, scope.covers p.1 = true → p ∈ completed := by
  induction owed generalizing answers completed with
  | nil => simp
  | cons p owed ih =>
    obtain ⟨service, digest⟩ := p
    unfold stabilityWindows at h
    split at h
    · rename_i hcovers
      refine List.forall_mem_cons.mpr ⟨fun hcovers' => ?_, ih h⟩
      rw [hcovers] at hcovers'
      cases hcovers'
    · split at h
      · simp only [bind_eq_ok, pure_eq_ok] at h
        obtain ⟨_, -, rest, hrest, rfl⟩ := h
        refine List.forall_mem_cons.mpr ⟨fun _ => List.mem_cons_self, fun p hp hcovers => ?_⟩
        exact List.mem_cons_of_mem _ (ih hrest p hp hcovers)
      · simp only [bind_eq_ok] at h
        obtain ⟨_, -, h⟩ := h
        cases h
      · cases h

lemma verifiedFromArtifact_eq_some {artifact : Artifact} {verified : List (String × String)} {revision : String}
    (h : verifiedFromArtifact artifact = some (verified, revision)) :
    startsWith artifact.name artifactPrefix = true ∧ artifact.expired = false ∧ ∃ runtime reconcile,
      artifact.reports = some (runtime, reconcile) ∧ verified = runtime.expectedDigests ∧
        revision = reconcile.effectiveRevision := by
  unfold verifiedFromArtifact at h
  split_ifs at h with hskip
  rw [not_or, not_not, Bool.not_eq_true] at hskip
  obtain ⟨⟨runtime, reconcile⟩, hreports, h⟩ := Option.bind_eq_some_iff.mp h
  obtain ⟨found, hfound, h⟩ := Option.bind_eq_some_iff.mp h
  obtain ⟨found', hfound', h⟩ := Option.map_eq_some_iff.mp h
  cases h
  refine ⟨hskip.1, hskip.2, runtime, reconcile, hreports, ?_, ?_⟩
  · unfold verifiedMapFromReport at hfound
    split_ifs at hfound
    exact (Option.some.inj hfound).symm
  · unfold verifiedRevisionFromReport at hfound'
    split_ifs at hfound'
    exact (Option.some.inj hfound').symm

lemma lookup_of_unchanged {current : DigestMap} {verified : List (String × String)} (hmem : (service, digest) ∈ current.digests)
    (h : service ∉ changedServices current (some verified) false) : verified.lookup service = some digest := by
  by_contra hchanged
  refine h ((List.perm_insertionSort _ _).mem_iff.mpr (List.mem_map.mpr ⟨(service, digest), ?_, rfl⟩))
  exact List.mem_filter.mpr ⟨hmem, by simpa using hchanged⟩

/-- A service without a window has its digest in the evidence of a revision under the same contract. -/
lemma inherited_of_uncovered {current : DigestMap} {contractChanged : Bool} (hmem : (service, digest) ∈ current.digests)
    (h : (windowScope tree env current contractChanged).covers service = false) :
    ∃ runs verified revision, env.successfulRuns = some runs ∧ latestVerified runs = some (verified, revision) ∧
      verified.lookup service = some digest ∧ (tree revision).contract = (tree env.currentRevision).contract := by
  unfold windowScope at h
  split at h
  · cases h
  · rename_i hunchanged
    split at h
    · cases h
    · rename_i verified revision hfound
      split at h
      · cases h
      · rename_i hsame
        obtain ⟨runs, hruns, hlatest⟩ := Option.bind_eq_some_iff.mp hfound
        obtain rfl : contractChanged = false := Bool.eq_false_iff.mpr hunchanged
        have hcontract : gitDiff tree env revision env.currentRevision = .same := by
          simp only [contractChangedSince, decide_eq_true_eq, not_not] at hsame
          exact hsame.2.2
        refine ⟨runs, verified, revision, hruns, hlatest, lookup_of_unchanged hmem ?_, gitDiff_eq_same hcontract⟩
        split at h
        · rename_i hnone
          rw [hnone]
          exact List.not_mem_nil
        · rename_i services
          exact of_decide_eq_false h

end Scopes

section Passing

variable [DecidableEq C]

/-- What a run that passed has gone through. -/
structure Passed (tree : String → Tree C) (env : Env) (acceptance : Acceptance) (current : DigestMap) (contractChanged : Bool) :
    Prop where
  pinned : (tree env.currentRevision).kustomization = some current
  certified : acceptance.runtime.expectedDigests = current.digests
  contract : (tree acceptance.reconcile.effectiveRevision).contract = (tree env.currentRevision).contract
  windows : ∀ p ∈ current.digests, (windowScope tree env current contractChanged).covers p.1 = true → p ∈ acceptance.windows

lemma pinLatest_eq_ok {current : DigestMap} {latest : Bool × String} (h : pinLatest tree env current = .ok latest) :
    (tree latest.2).contract = (tree env.currentRevision).contract := by
  unfold pinLatest at h
  split at h
  · cases h
    rfl
  · split at h
    · cases h
    · split at h
      · split at h
        · rename_i hdiff
          cases h
          exact (gitDiff_eq_same hdiff).symm
        · cases h
          rfl
        · cases h
          rfl
      · cases h
        rfl

lemma verifyRollout_passed {acceptance : Acceptance} (h : verifyRollout tree env = .passed acceptance) :
    ∃ p, pin tree env = .ok p ∧ accept tree env p = .ok acceptance := by
  simp only [verifyRollout] at h
  cases hcheckout : env.checkedOut with
  | false =>
    simp only [hcheckout] at h
    cases h
  | true =>
    cases hpin : pin tree env with
    | error stop =>
      simp only [hcheckout, hpin] at h
      cases h
    | ok p =>
      simp only [hcheckout, hpin] at h
      split at h
      · cases h
      · cases h
      · split at h
        · cases h
        · cases h
        · rename_i accepted haccept
          cases h
          exact ⟨p, rfl, haccept⟩

lemma passed_of_passed {acceptance : Acceptance} (h : verifyRollout tree env = .passed acceptance) :
    ∃ current contractChanged, Passed tree env acceptance current contractChanged := by
  obtain ⟨p, hp, haccept⟩ := verifyRollout_passed h
  simp only [pin, bind_eq_ok, pure_eq_ok, expect_eq_ok] at hp
  obtain ⟨current, hcurrent, latest, hlatest, before, hbefore, rfl⟩ := hp
  simp only [accept, bind_eq_ok, pure_eq_ok] at haccept
  obtain ⟨effective, heffective, completed, hcompleted, _, -, rfl⟩ := haccept
  simp only [verifyRuntime, bind_eq_ok, pure_eq_ok] at hcompleted
  obtain ⟨_, -, _, -, windows, hwindows, _, -, _, -, rfl⟩ := hcompleted
  exact ⟨current, before.1, hcurrent, rfl, (reconcile_eq_ok heffective).trans (pinLatest_eq_ok hlatest),
    stabilityWindows_eq_ok hwindows⟩

end Passing

section Histories

variable [DecidableEq C]

/-- A run that has ended. -/
structure Record where
  env : Env
  outcome : Outcome

/-- The evidence that a run can read of the runs before it. Any of it may be missing. -/
def Published (records : List Record) (env : Env) : Prop :=
  ∀ runs, env.successfulRuns = some runs → ∀ artifact ∈ runs.flatten, startsWith artifact.name artifactPrefix = true →
    artifact.expired = false → ∀ runtime reconcile, artifact.reports = some (runtime, reconcile) →
      ∃ r ∈ records, ∃ acceptance, r.outcome = .passed acceptance ∧ acceptance.runtime = runtime ∧
        acceptance.reconcile = reconcile

/-- The runs that have ended, on any pushes and with any gates passed or not. -/
inductive History (tree : String → Tree C) : List Record → Prop
  | nil : History tree []
  | run {records : List Record} {env : Env} : History tree records → Published records env →
      History tree (records ++ [⟨env, verifyRollout tree env⟩])

/-- A run that passed under the contract and completed the window of the service at the digest. -/
def CompletedBy (tree : String → Tree C) (contract : C) (p : String × String) (r : Record) : Prop :=
  (tree r.env.currentRevision).contract = contract ∧ ∃ acceptance, r.outcome = .passed acceptance ∧ p ∈ acceptance.windows

lemma History.outcome {records : List Record} (h : History tree records) :
    ∀ r ∈ records, r.outcome = verifyRollout tree r.env := by
  induction h with
  | nil => simp
  | run _ _ ih =>
    intro r hr
    rcases List.mem_append.mp hr with hr | hr
    · exact ih r hr
    · obtain rfl := List.mem_singleton.mp hr
      rfl

/-- The windows of a certified map were completed by the run or by an earlier one. -/
lemma completed_of_passed {records : List Record} {acceptance : Acceptance}
    (hrecords : ∀ r ∈ records, r.outcome = verifyRollout tree r.env) (hpublished : Published records env)
    (hbefore : ∀ r ∈ records, ∀ acceptance, r.outcome = .passed acceptance → ∀ p ∈ acceptance.runtime.expectedDigests,
      ∃ r' ∈ records, CompletedBy tree (tree r.env.currentRevision).contract p r')
    (h : verifyRollout tree env = .passed acceptance) :
    ∀ p ∈ acceptance.runtime.expectedDigests, p ∈ acceptance.windows ∨
      ∃ r' ∈ records, CompletedBy tree (tree env.currentRevision).contract p r' := by
  obtain ⟨current, contractChanged, hpassed⟩ := passed_of_passed h
  rintro ⟨service, digest⟩ hp
  rw [hpassed.certified] at hp
  cases hcovers : (windowScope tree env current contractChanged).covers service with
  | true => exact .inl (hpassed.windows _ hp hcovers)
  | false =>
    obtain ⟨runs, verified, revision, hruns, hlatest, hlookup, hcontract⟩ := inherited_of_uncovered hp hcovers
    obtain ⟨artifact, hartifact, hverified⟩ := List.exists_of_findSome?_eq_some hlatest
    obtain ⟨hname, hexpired, runtime, reconcile, hreports, rfl, rfl⟩ := verifiedFromArtifact_eq_some hverified
    obtain ⟨r, hr, found, hfound, rfl, rfl⟩ := hpublished runs hruns artifact hartifact hname hexpired _ _ hreports
    obtain ⟨before, after, hsplit, -⟩ := List.lookup_eq_some_iff.mp hlookup
    have hmem : (service, digest) ∈ found.runtime.expectedDigests := by simp [hsplit]
    obtain ⟨_, _, hearlier⟩ := passed_of_passed ((hrecords r hr).symm.trans hfound)
    rw [← hcontract, hearlier.contract]
    exact .inr (hbefore r hr found hfound _ hmem)

end Histories

/-- Over any history, every service of a certified map has its window at its digest from the run itself or from an earlier
one that passed under the same contract. -/
theorem inherited_windows_completed [DecidableEq C] (tree : String → Tree C) (records : List Record)
    (hhistory : History tree records) (before after : List Record) (r : Record) (acceptance : Acceptance)
    (hsplit : records = before ++ r :: after) (hpassed : r.outcome = .passed acceptance) :
    ∀ p ∈ acceptance.runtime.expectedDigests,
      ∃ r' ∈ before ++ [r], CompletedBy tree (tree r.env.currentRevision).contract p r' := by
  induction hhistory generalizing before after r acceptance with
  | nil => simp at hsplit
  | @run records env hhistory hpublished ih =>
    rcases List.eq_nil_or_concat after with rfl | ⟨after, last, rfl⟩
    · obtain ⟨rfl, hlast⟩ := List.append_inj' hsplit rfl
      cases hlast
      have hbefore : ∀ r ∈ records, ∀ acceptance, r.outcome = .passed acceptance →
          ∀ p ∈ acceptance.runtime.expectedDigests,
            ∃ r' ∈ records, CompletedBy tree (tree r.env.currentRevision).contract p r' := by
        intro r hr acceptance hacceptance p hp
        obtain ⟨earlier, later, hrecords⟩ := List.append_of_mem hr
        obtain ⟨r', hr', hcompleted⟩ := ih earlier later r acceptance hrecords hacceptance p hp
        refine ⟨r', ?_, hcompleted⟩
        rw [hrecords]
        rcases List.mem_append.mp hr' with hr' | hr'
        · exact List.mem_append_left _ hr'
        · exact List.mem_append_right _ (List.mem_singleton.mp hr' ▸ List.mem_cons_self)
      intro p hp
      rcases completed_of_passed hhistory.outcome hpublished hbefore hpassed p hp with hown | ⟨r', hr', hcompleted⟩
      · exact ⟨_, List.mem_append_right _ (List.mem_singleton_self _), rfl, acceptance, hpassed, hown⟩
      · exact ⟨r', List.mem_append_left _ hr', hcompleted⟩
    · rw [List.concat_eq_append, ← List.cons_append, ← List.append_assoc] at hsplit
      obtain ⟨hrecords, -⟩ := List.append_inj' hsplit rfl
      exact ih before after r acceptance hrecords hpassed

section

def images : DigestMap := ⟨requiredServices.map fun service => (service, "sha256:1"), by decide⟩

def unchangedTree : String → Tree Unit := fun _ => ⟨some images, (), ()⟩

def releaseRevision : String := "aaaaaaaaaaaaaaaaaaaaaaaaaaaaaaaaaaaaaaaa"

/-- A push that verifies every service. -/
def releaseRun : Env where
  checkedOut := true
  event := .push ""
  currentRevision := releaseRevision
  latestRevision := releaseRevision
  beforeShown := false
  reachable := fun _ => true
  diffFails := fun _ _ => false
  successfulRuns := none
  polls := [.stable releaseRevision]
  mainBefore := releaseRevision
  podsReady := true
  windows := requiredServices.map fun _ => (releaseRevision, true)
  authFlow := true
  mainAfter := releaseRevision
  evidenceHolds := true
  uploaded := true

def releaseAcceptance : Acceptance where
  runtime := ⟨"testai-backend-runtime-verification-v1", "PASS", images.digests⟩
  reconcile := ⟨"PASS", releaseRevision⟩
  windows := images.digests

/-- A dispatch on the same revision, which inherits every window. -/
def repeatedRun : Env :=
  { releaseRun with
    event := .dispatch
    successfulRuns :=
      some [[⟨"testai-backend-acceptance-1", false, some (releaseAcceptance.runtime, releaseAcceptance.reconcile)⟩]]
    windows := [] }

lemma verifyRollout_releaseRun : verifyRollout unchangedTree releaseRun = .passed releaseAcceptance := by
  decide

lemma verifyRollout_repeatedRun :
    verifyRollout unchangedTree repeatedRun = .passed { releaseAcceptance with windows := [] } := by
  decide

end

theorem inherited_windows_completed_repeated :
    ∃ r' ∈ [⟨releaseRun, .passed releaseAcceptance⟩, ⟨repeatedRun, .passed { releaseAcceptance with windows := [] }⟩],
      CompletedBy unchangedTree () ("api-gateway", "sha256:1") r' := by
  have hfirst : History unchangedTree [⟨releaseRun, verifyRollout unchangedTree releaseRun⟩] :=
    .run .nil fun _ hruns => by cases hruns
  have hsecond : History unchangedTree
      [⟨releaseRun, verifyRollout unchangedTree releaseRun⟩, ⟨repeatedRun, verifyRollout unchangedTree repeatedRun⟩] := by
    refine .run hfirst fun runs hruns artifact hartifact _ _ runtime reconcile hreports => ?_
    cases hruns
    obtain rfl := List.mem_singleton.mp hartifact
    cases hreports
    exact ⟨_, List.mem_singleton_self _, releaseAcceptance, verifyRollout_releaseRun, rfl, rfl⟩
  rw [verifyRollout_releaseRun, verifyRollout_repeatedRun] at hsecond
  exact inherited_windows_completed unchangedTree _ hsecond [_] [] _ _ rfl rfl ("api-gateway", "sha256:1") (by decide)

end PlatformGitops.Rollout
