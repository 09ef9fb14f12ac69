import PlatformGitops.CrossAi.Bootstrap
import PlatformGitops.CrossAi.IntentStore.Writers
import PlatformGitops.CrossAi.Reconciler
import PlatformGitops.CrossAi.Server
import Mathlib

/-! One service with its worker, its poller, its sweeper and the runners that ask for their bootstrap: apply and its
rollback never write together. -/

namespace PlatformGitops.CrossAi.WriterExclusion

open Library IntentStore Ledger Evaluator Reconciler Bootstrap Server

/-- A run attempt of a repository. -/
abbrev Attempt := String × Int × Int

/-- The service, with the run attempts that GitHub has reported as completed. -/
structure World where
  service : Service.World
  completed : Set Attempt

namespace World

def db (w : World) : Db := w.service.db

def initial : World := ⟨Service.World.initial, ∅⟩

end World

def attemptOf (repository : String) (run : Json) : Option Attempt := do
  let id ← (run.get "id").asInt?
  let attempt ← (run.get "run_attempt").asInt?
  pure (repository, id, attempt)

def Ended (run : Json) : Prop := (run.get "status").asStr? = some "completed"

/-- A run that GitHub reports: an attempt it has reported as completed is never reported as anything else. -/
def Reports (repository : String) (run : Json) (before after : Set Attempt) : Prop :=
  (∀ a, attemptOf repository run = some a → a ∈ before → Ended run) ∧
    after = before ∪ {a | attemptOf repository run = some a ∧ Ended run}

def watch {γ : Type} (e : Effect γ) (r : Except Failure γ) (before after : Set Attempt) : Prop :=
  match e, r with
  | .github (.workflowRun _ repository _), .ok run => Reports repository run before after
  | .github (.workflowRunAttempt _ repository _ _), .ok run => Reports repository run before after
  | _, _ => after = before

section

variable (X : Externals) (E : DeploymentEvaluator) (R : GitHubOutcomeReconciler) (B : RunnerBootstrapAuthorizer)

/-- What runs in the process: the intake, the worker, the poller, the sweeper, the bootstraps, and the users of the
registry that reserve and move no stage. -/
inductive Entry : Action Unit → Prop
  | accept (request : DeploymentProtectionRequest) : Entry (do let _ ← accept request)
  | worker (request : DeploymentProtectionRequest) : Entry (workerCycle request (E.evaluate X))
  | polled (request : DeploymentProtectionRequest) : Entry (do let _ ← processPolled request (E.evaluate X))
  | sweep : Entry (do let _ ← R.runOnce X)
  | bootstrap (request : RunnerBootstrapRequest) (credential : List UInt8) (oidcToken : String) :
      Entry (do let _ ← B.authorize X request credential oidcToken)
  | other {α : Type} (c : IntentStore.Call α) : ¬ c.Moves → Entry (do let _ ← Action.registry c)

def system : System Failure Effect World Nat where
  answer t e w w' r := Service.answer X t e w.service w'.service r ∧ watch e r w.completed w'.completed
  start _ p := Entry X E R B p
  restart w w' := w' = ⟨{ w.service with lock := none, reservation := none }, w.completed⟩

end

/-- Once a rollback has a run, apply has failed or its run is known to have ended. -/
structure Inv (w : World) : Prop where
  exclusive : ∀ rid, Left w.db (rid, .compensatingRollback) →
    InState w.db (rid, .apply) .callbackUnknown ∨ InState w.db (rid, .apply) .failed
  proved : ∀ rid row, w.db.stages.find? (rid, .apply) = some row → row.state = .callbackUnknown →
    ∃ record run attempt, w.db.intents.find? rid = some record ∧ row.runId = some run ∧
      row.runAttempt = some attempt ∧ (record.repository, run, attempt) ∈ w.completed

/-- Only the holder of the lock reserves a stage or resumes apply. -/
structure Guar (u : Nat) (w w' : World) : Prop where
  lock : ∀ t, t ≠ u → w.service.lock = some t → w'.service.lock = some t
  completed : w.completed ⊆ w'.completed
  changes : Changes w.db w'.db
  calm : w.service.lock = some u ∨ Calm w.db w'.db

def contract : Contract World Nat := ⟨Inv, Guar⟩

def Held (t : Nat) (w : World) : Prop := w.service.lock = some t

/-- The effects that any thread may have at any time. -/
def Plain {γ : Type} : Effect γ → Prop
  | .registry c => c.Plain
  | .acquire => False
  | .release => False
  | _ => True

section

variable {X : Externals} {E : DeploymentEvaluator} {R : GitHubOutcomeReconciler} {B : RunnerBootstrapAuthorizer}
  {t : Nat} {w w' : World}

lemma watch_subset {γ : Type} {e : Effect γ} {r : Except Failure γ} {before after : Set Attempt}
    (h : watch e r before after) : before ⊆ after := by
  unfold watch at h
  split at h
  · exact h.2 ▸ Set.subset_union_left
  · exact h.2 ▸ Set.subset_union_left
  · exact h ▸ Set.Subset.rfl

/-- Every effect but the lock and the registry leaves the registry alone. -/
lemma plain_answer {γ : Type} {e : Effect γ} {r : Except Failure γ} (he : Plain e)
    (h : (system X E R B).answer t e w w' r) :
    Tame w.db w'.db ∧ w'.service.lock = w.service.lock ∧ w.completed ⊆ w'.completed := by
  obtain ⟨hans, hwatch⟩ := h
  refine (and_assoc.mp ⟨?_, watch_subset hwatch⟩ : _)
  obtain ⟨service, completed⟩ := w
  obtain ⟨service', completed'⟩ := w'
  cases e with
  | registry c =>
    rcases hans with ⟨rfl, -⟩ | ⟨amb, -, rfl⟩
    · exact ⟨.refl _, rfl⟩
    · exact ⟨exec_tame he _, rfl⟩
  | ledger c => rcases hans with ⟨rfl, -⟩ | ⟨amb, -, rfl⟩ <;> exact ⟨.refl _, rfl⟩
  | evaluate request =>
    obtain ⟨rfl, -⟩ := hans
    exact ⟨.refl _, rfl⟩
  | postDecision d =>
    obtain rfl : service' = service.post d := hans
    exact ⟨.refl _, rfl⟩
  | acquire => exact he.elim
  | release => exact he.elim
  | _ =>
    obtain rfl : service' = service := hans
    exact ⟨.refl _, rfl⟩

/-- The invariant survives a step that finds no run ended. -/
lemma Inv.tame (hi : Inv w) (h : Tame w.db w'.db) (hc : w.completed ⊆ w'.completed) : Inv w' := by
  refine ⟨fun rid hl => ?_, fun rid row' hrow' hs => ?_⟩
  · have hl' := h.left _ hl
    rcases hi.exclusive rid hl' with hu | hf
    · exact h.unknown rid hu hl'
    · exact .inr (h.changes.failed hf)
  · obtain ⟨row, hrow, hrs⟩ := h.fresh (rid, .apply) ⟨row', hrow', hs⟩
    obtain ⟨record, run, attempt, hrecord, hrun, hattempt, hended⟩ := hi.proved rid row hrow hrs
    obtain ⟨row₁, hrow₁, -, hrun₁, hattempt₁⟩ := h.changes.kept.rows _ row hrow (by simp [hrs])
    obtain ⟨record', hrecord', hrepository⟩ := h.changes.kept.intents rid record hrecord
    obtain rfl := Option.some.inj (hrow'.symm.trans hrow₁)
    refine ⟨record', run, attempt, hrecord', hrun₁.trans hrun, hattempt₁.trans hattempt, ?_⟩
    rw [hrepository]
    exact hc hended

lemma plain_kept {γ : Type} {e : Effect γ} {r : Except Failure γ} (he : Plain e) (hi : Inv w)
    (h : (system X E R B).answer t e w w' r) : Guar t w w' ∧ Inv w' := by
  obtain ⟨htame, hlock, hc⟩ := plain_answer he h
  exact ⟨⟨fun u _ hu => hlock.trans hu, hc, htame.changes, .inr htame.toCalm⟩, hi.tame htame hc⟩

/-- What others may do to the state while a thread holds the lock. -/
def Aloof (w w' : World) : Prop := Calm w.db w'.db ∧ w.completed ⊆ w'.completed

lemma rely_held {P : World → Prop} (hP : ∀ w w', Aloof w w' → P w → P w') (hr : contract.rely t w w')
    (h : Held t w ∧ P w) : Held t w' ∧ P w' := by
  refine contract.rely_stable (P := fun w => Held t w ∧ P w) (fun u hu w₁ w₂ hg hw => ?_) hr h
  obtain ⟨hheld, hp⟩ := hw
  refine ⟨hg.lock t (Ne.symm hu) hheld, ?_⟩
  rcases hg.calm with hl | hcalm
  · exact (hu (Option.some.inj (hl.symm.trans hheld))).elim
  · exact hP w₁ w₂ ⟨hcalm, hg.completed⟩ hp

/-- What a thread without the lock can count on. -/
lemma rely_changes {P : World → Prop}
    (hP : ∀ w w' : World, Changes w.db w'.db → w.completed ⊆ w'.completed → P w → P w')
    (hr : contract.rely t w w') (h : P w) : P w' :=
  contract.rely_stable (fun _ _ w₁ w₂ hg hp => hP w₁ w₂ hg.changes hg.completed hp) hr h

abbrev Wp (X : Externals) (E : DeploymentEvaluator) (R : GitHubOutcomeReconciler) (B : RunnerBootstrapAuthorizer)
    (t : Nat) {α : Type} (p : Action α) (Q : Except Failure α → World → Prop) (w : World) : Prop :=
  contract.wp (system X E R B).toMachine t p Q w

/-- An assertion of a thread that the others keep, and that it keeps itself by plain effects. -/
structure Stable (t : Nat) (I : World → Prop) : Prop where
  others : ∀ w w', contract.rely t w w' → I w → I w'
  own : ∀ w w', Tame w.db w'.db → w'.service.lock = w.service.lock → w.completed ⊆ w'.completed → I w → I w'

lemma stable_held {P : World → Prop} (hP : ∀ w w', Aloof w w' → P w → P w') : Stable t fun w => Held t w ∧ P w :=
  ⟨fun _ _ hr h => rely_held hP hr h, fun w w' htame hlock hc h => ⟨hlock.trans h.1, hP w w' ⟨htame.toCalm, hc⟩ h.2⟩⟩

lemma stable_free {P : World → Prop}
    (hP : ∀ w w' : World, Changes w.db w'.db → w.completed ⊆ w'.completed → P w → P w') : Stable t P :=
  ⟨fun _ _ hr h => rely_changes hP hr h, fun w w' htame _ hc h => hP w w' htame.changes hc h⟩

section

variable {I : World → Prop} {α β : Type}

lemma wp_plain {p : Action α} (hI : Stable t I) (hp : p.Only Plain) (h : I w) :
    Wp X E R B t p (fun _ w => I w) w := by
  refine Contract.wp_stable hI.others hp (fun e he w₁ w₂ r hi hw hans => ?_) h
  obtain ⟨hg, hi₂⟩ := plain_kept he hi hans
  obtain ⟨htame, hlock, hc⟩ := plain_answer he hans
  exact ⟨hg, hi₂, hI.own w₁ w₂ htame hlock hc hw⟩

lemma wp_then {p : Action α} {f : α → Action β} {Q : Except Failure β → World → Prop} (hI : Stable t I)
    (hp : p.Only Plain) (h : I w) (hfail : ∀ e w, I w → Q (.error e) w) (hf : ∀ a w, I w → Wp X E R B t (f a) Q w) :
    Wp X E R B t (p >>= f) Q w := by
  refine Contract.wp_bind (Contract.wp_mono (fun r w hw => ?_) (wp_plain hI hp h))
  cases r with
  | ok a => exact hf a w hw
  | error e => exact hfail e w hw

lemma wp_ofExcept {r : Except Failure α} {f : α → Action β} {Q : Except Failure β → World → Prop}
    (hfail : ∀ e, Q (.error e) w) (hf : ∀ a, r = .ok a → Wp X E R B t (f a) Q w) :
    Wp X E R B t (Prog.ofExcept r >>= f) Q w := by
  cases r with
  | ok a => exact hf a rfl
  | error e => exact hfail e

lemma wp_rejectIf {bad : Prop} [Decidable bad] {code message : String} {f : Unit → Action β}
    {Q : Except Failure β → World → Prop} (hfail : ∀ e, Q (.error e) w) (hf : ¬ bad → Wp X E R B t (f ()) Q w) :
    Wp X E R B t (Action.rejectIf bad code message >>= f) Q w := by
  by_cases h : bad
  · simp only [Action.rejectIf, if_pos h]
    exact hfail _
  · simp only [Action.rejectIf, if_neg h]
    exact hf h

/-- A plain effect, with what its answer says. -/
lemma wp_ask {e : Effect α} {f : α → Action β} {Q : Except Failure β → World → Prop} (hI : Stable t I) (he : Plain e)
    (h : I w) (hfail : ∀ e w, I w → Q (.error e) w)
    (hf : ∀ w₁ w₂ a, Inv w₁ → (system X E R B).answer t e w₁ w₂ (.ok a) → I w₁ → I w₂ → Wp X E R B t (f a) Q w₂) :
    Wp X E R B t (Prog.perform e >>= f) Q w := by
  refine Contract.wp_bind (Contract.wp_perform fun w₁ hr hi w₂ r hans => ?_)
  obtain ⟨hg, hi₂⟩ := plain_kept he hi hans
  obtain ⟨htame, hlock, hc⟩ := plain_answer he hans
  have h₁ := hI.others w w₁ hr h
  have h₂ := hI.own w₁ w₂ htame hlock hc h₁
  refine ⟨hg, hi₂, ?_⟩
  cases r with
  | ok a => exact hf w₁ w₂ a hi hans h₁ h₂
  | error e => exact hfail e w₂ h₂

end

/-- No rollback of the intent has a run, or apply has failed: apply may be resumed, as far as it can be. -/
def Cleared (rid : String) (w : World) : Prop :=
  ¬ Left w.db (rid, .compensatingRollback) ∨ InState w.db (rid, .apply) .failed

/-- The run attempt that apply is bound to has ended, and it is another one. -/
def Foreign (rid : String) (run attempt : Int) (w : World) : Prop :=
  InState w.db (rid, .apply) .callbackUnknown ∧ Left w.db (rid, .compensatingRollback) ∧
    ∀ row, w.db.stages.find? (rid, .apply) = some row → ¬ (row.runId = some run ∧ row.runAttempt = some attempt)

def Clear (rid : String) (run attempt : Int) (w : World) : Prop := Cleared rid w ∨ Foreign rid run attempt w

lemma cleared_aloof {rid : String} (w w' : World) (ha : Aloof w w') (h : Cleared rid w) : Cleared rid w' := by
  rcases h with hl | hf
  · exact .inl fun hl' => hl (ha.1.left _ hl')
  · exact .inr (ha.1.changes.failed hf)

lemma clear_aloof {rid : String} {run attempt : Int} (w w' : World) (ha : Aloof w w') (h : Clear rid run attempt w) :
    Clear rid run attempt w' := by
  rcases h with h | ⟨hu, hl, hbound⟩
  · exact .inl (cleared_aloof w w' ha h)
  · rcases ha.1.unknown rid hu hl with hu' | hf
    · refine .inr ⟨hu', hl.changes ha.1.changes, fun row' hrow' => ?_⟩
      obtain ⟨row, hrow, hs⟩ := hu
      obtain ⟨row₁, hrow₁, -, hrun, hattempt⟩ := ha.1.changes.kept.rows _ row hrow (by simp [hs])
      obtain rfl := Option.some.inj (hrow'.symm.trans hrow₁)
      rw [hrun, hattempt]
      exact hbound row hrow
    · exact .inl (.inr hf)

/-- What a thread knows of the repository of an intent. -/
def Repository (rid repository : String) (w : World) : Prop :=
  ∃ record, w.db.intents.find? rid = some record ∧ record.repository = repository

lemma repository_changes {rid repository : String} (w w' : World) (hc : Changes w.db w'.db)
    (h : Repository rid repository w) : Repository rid repository w' := by
  obtain ⟨record, hrecord, rfl⟩ := h
  obtain ⟨record', hrecord', he⟩ := hc.kept.intents rid record hrecord
  exact ⟨record', hrecord', he⟩

lemma getFinalized_answer {rid : String} {record : IntentRecord} {envelope : Json}
    (h : (system X E R B).answer t (.registry (.getFinalized rid)) w w' (.ok (record, envelope))) :
    Repository rid record.repository w' := by
  obtain ⟨⟨-, hr⟩ | ⟨amb, hr | hr, hw⟩, -⟩ := h
  · cases hr
  · simp only [IntentStore.Call.exec, getFinalized, IntentStore.get, Fallible.bind_eq_ok, expect_eq_ok,
      Fallible.pure_eq_ok, rejectIf_eq_ok, eq_comm (a := Except.ok (record, envelope))] at hr
    obtain ⟨⟨record₁, envelope₁⟩, ⟨record₂, hrecord, envelope₂, -, hpair⟩, _, -, hout⟩ := hr
    cases hpair
    cases hout
    refine ⟨_, ?_, rfl⟩
    rw [World.db, hw]
    exact hrecord
  · cases hr

/-- A run that is not ended is not the one of an apply whose rollback has a run. -/
lemma clear_of_live {rid repository : String} {run : Json} {id attempt : Int} (hi : Inv w)
    (hrepository : Repository rid repository w) (hreports : Reports repository run w.completed w'.completed)
    (hattempt : attemptOf repository run = some (repository, id, attempt)) (hlive : ¬ Ended run) :
    Clear rid id attempt w := by
  by_cases hl : Left w.db (rid, .compensatingRollback)
  · rcases hi.exclusive rid hl with hu | hf
    · refine .inr ⟨hu, hl, fun row hrow hbound => hlive ?_⟩
      obtain ⟨row₁, hrow₁, hs⟩ := hu
      obtain rfl := Option.some.inj (hrow.symm.trans hrow₁)
      obtain ⟨record, run₁, attempt₁, hrecord, hrun₁, hattempt₁, hended⟩ := hi.proved rid row hrow hs
      obtain rfl := Option.some.inj (hrun₁.symm.trans hbound.1)
      obtain rfl := Option.some.inj (hattempt₁.symm.trans hbound.2)
      obtain ⟨record', hrecord', rfl⟩ := hrepository
      obtain rfl := Option.some.inj (hrecord.symm.trans hrecord')
      exact hreports.1 _ hattempt hended
    · exact .inl (.inr hf)
  · exact .inl (.inl hl)

lemma positiveInt_eq_ok {value : Json} {field : String} {n : Int} (h : positiveInt value field = .ok n) :
    value.asInt? = some n := by
  simp only [positiveInt, expect_eq_ok, Dispatcher.positiveInt?, Option.filter_eq_some_iff] at h
  cases value <;> simp only [Json.asStrictInt?, reduceCtorEq, false_and] at h
  exact h.1

lemma runIdentity_eq_ok {policy : DeploymentPolicy} {request : DeploymentProtectionRequest} {run : Json}
    {path repository : String} {attempt : Int} (h : runIdentity policy request run = .ok (path, attempt)) :
    attemptOf repository run = some (repository, request.runId, attempt) ∧ ¬ Ended run := by
  simp only [runIdentity, Fallible.bind_eq_ok, rejectIf_eq_ok, Fallible.pure_eq_ok, not_not, Prod.mk.injEq] at h
  obtain ⟨id, hid, _, rfl, _, -, _, -, _, -, _, -, _, -, _, -, _, -, _, -, _, -, attempt₁, hattempt, _, hstatus,
    _, -, -, rfl⟩ := h
  refine ⟨by simp [attemptOf, positiveInt_eq_ok hid, positiveInt_eq_ok hattempt], fun hended => ?_⟩
  obtain ⟨status, hs, hmem⟩ := hstatus
  obtain rfl := Option.some.inj (hended.symm.trans hs)
  exact absurd hmem (by decide)

/-- The lock is held, and a result is about the run of the request, for which apply may be resumed. -/
def Evaluated (t : Nat) (request : DeploymentProtectionRequest) (r : Except Failure EvaluationResult) (w : World) :
    Prop :=
  Held t w ∧ ∀ result, r = .ok result → result.requestId = request.requestId ∧ result.runId = request.runId ∧
    Clear request.requestId request.runId result.runAttempt w

lemma evaluated_error {request : DeploymentProtectionRequest} {e : Failure} (h : Held t w) :
    Evaluated t request (.error e) w :=
  ⟨h, fun _ hr => by cases hr⟩

lemma plain_github {α : Type} (query : GitHub α) : (Action.github query).Only Plain := Prog.only_perform.mpr trivial

lemma plain_now : Action.now.Only Plain := Prog.only_perform.mpr trivial

lemma plain_verifyLiveRunnerInventory (installationId : Int) (repository : String) (labels : List String)
    (lease : LeasePayload) :
    (DeploymentEvaluator.verifyLiveRunnerInventory X installationId repository labels lease).Only Plain := by
  unfold DeploymentEvaluator.verifyLiveRunnerInventory
  split
  · exact Prog.only_bind (plain_github _) fun _ => Prog.only_ofExcept
  · trivial

lemma wp_evaluateStage {request : DeploymentProtectionRequest} {record : IntentRecord} {verified : VerifiedBundle}
    {run : Json} {path : String} {attempt rule : Int} (h : Held t w ∧ Clear request.requestId request.runId attempt w) :
    Wp X E R B t (E.evaluateStage X request record verified run (path, attempt) rule) (Evaluated t request) w := by
  have hI := stable_held (t := t) (@clear_aloof request.requestId request.runId attempt)
  have hfail : ∀ (e : Failure) (w : World), Held t w ∧ Clear request.requestId request.runId attempt w →
      Evaluated t request (.error e) w := fun _ _ h => evaluated_error h.1
  refine wp_then hI (plain_github _) h hfail fun _ w h => ?_
  refine wp_rejectIf (fun e => hfail e w h) fun _ => ?_
  refine wp_ofExcept (fun e => hfail e w h) fun signed _ => ?_
  obtain ⟨stage, stagePolicy⟩ := signed
  have hread : Plain (Effect.registry (.getDispatch request.requestId (Stage.ofText stage.stage))) := trivial
  refine wp_then hI (Prog.only_perform.mpr hread) h hfail fun _ w h => ?_
  refine wp_rejectIf (fun e => hfail e w h) fun _ => ?_
  refine wp_rejectIf (fun e => hfail e w h) fun _ => ?_
  refine wp_rejectIf (fun e => hfail e w h) fun _ => ?_
  refine wp_then hI (plain_verifyLiveRunnerInventory _ _ _ _) h hfail fun _ w h => ?_
  refine wp_then hI (plain_github _) h hfail fun _ w h => ?_
  refine wp_then hI (Prog.only_perform.mpr trivial) h hfail fun _ w h => ?_
  refine wp_rejectIf (fun e => hfail e w h) fun _ => ?_
  refine wp_rejectIf (fun e => hfail e w h) fun _ => ?_
  refine ⟨h.1, fun result hr => ?_⟩
  cases hr
  exact ⟨rfl, rfl, h.2⟩

/-- What a run that was read says, until its status is looked at. -/
def Sighted (rid repository : String) (run : Json) (w : World) : Prop :=
  ∀ id attempt, attemptOf repository run = some (repository, id, attempt) → ¬ Ended run → Clear rid id attempt w

lemma sighted_aloof {rid repository : String} {run : Json} (w w' : World) (ha : Aloof w w')
    (h : Sighted rid repository run w) : Sighted rid repository run w' :=
  fun id attempt hattempt hlive => clear_aloof w w' ha (h id attempt hattempt hlive)

lemma wp_evaluate (request : DeploymentProtectionRequest) (hheld : Held t w) :
    Wp X E R B t (E.evaluate X request) (Evaluated t request) w := by
  have hI := stable_held (t := t) (P := fun _ => True) fun _ _ _ h => h
  have hfail : ∀ (e : Failure) (w : World), Held t w ∧ True → Evaluated t request (.error e) w :=
    fun _ _ h => evaluated_error h.1
  refine wp_then hI plain_now ⟨hheld, trivial⟩ hfail fun now w h => ?_
  refine wp_ofExcept (fun e => hfail e w h) fun _ _ => ?_
  have hread : Plain (Effect.registry (.getFinalized request.requestId)) := trivial
  refine wp_ask hI hread h hfail fun _ w found _ hans _ h => ?_
  obtain ⟨record, envelope⟩ := found
  refine wp_rejectIf (fun e => hfail e w h) fun hbound => ?_
  simp only [recordDiffers, not_or, not_not] at hbound
  have hknown := hbound.2.1 ▸ getFinalized_answer hans
  -- from here on the thread knows the repository of the intent
  have hI := stable_held (t := t) (P := Repository request.requestId request.repository)
    fun w w' ha => repository_changes w w' ha.1.changes
  have hfail : ∀ (e : Failure) (w : World), Held t w ∧ Repository request.requestId request.repository w →
      Evaluated t request (.error e) w := fun _ _ h => evaluated_error h.1
  refine wp_then hI (Prog.only_perform.mpr trivial) ⟨h.1, hknown⟩ hfail fun _ w h => ?_
  refine wp_ofExcept (fun e => hfail e w h) fun verified _ => ?_
  refine wp_ofExcept (fun e => hfail e w h) fun _ _ => ?_
  refine wp_then hI (plain_github _) h hfail fun _ w h => ?_
  refine wp_ofExcept (fun e => hfail e w h) fun _ _ => ?_
  refine wp_then hI (plain_github _) h hfail fun _ w h => ?_
  refine wp_ofExcept (fun e => hfail e w h) fun rule _ => ?_
  refine wp_ask hI trivial h hfail fun w₁ w₂ run hi hans h₁ h₂ => ?_
  have hsame : w₂.service = w₁.service := hans.1
  have hsighted : Sighted request.requestId request.repository run w₂ := by
    intro id attempt hattempt hlive
    have hclear := clear_of_live hi h₁.2 hans.2 hattempt hlive
    rwa [Clear, Cleared, Foreign, World.db, ← hsame] at hclear
  have hJ := stable_held (t := t) (@sighted_aloof request.requestId request.repository run)
  refine wp_then hJ plain_now ⟨h₂.1, hsighted⟩ (fun e w h => evaluated_error h.1) fun _ w h => ?_
  refine wp_ofExcept (fun e => evaluated_error h.1) fun identity hbinding => ?_
  obtain ⟨path, attempt⟩ := identity
  simp only [runBinding, Fallible.bind_eq_ok, rejectIf_eq_ok, Fallible.pure_eq_ok] at hbinding
  obtain ⟨_, hidentity, _, -, _, -, _, -, rfl⟩ := hbinding
  obtain ⟨hattempt, hlive⟩ := runIdentity_eq_ok hidentity
  exact wp_evaluateStage ⟨h.1, h.2 _ _ hattempt hlive⟩

/-- A reservation keeps the invariant, and one of apply is granted only when apply may run. -/
lemma reserve_inv {amb : Ambient} {rid : String} {stage : Stage} {run attempt rule : Int} {at_ : Option Datetime}
    {res : StageReservation} (hi : Inv w) (hc : w.completed ⊆ w'.completed)
    (h : reserveStage X amb rid stage run attempt rule at_ w.db = .ok (w'.db, res)) :
    Changes w.db w'.db ∧ Inv w' ∧ res.requestId = rid ∧ res.stage = stage ∧
      (stage = .apply → Clear rid run attempt w → Cleared rid w') := by
  obtain ⟨rfl, rfl, rfl, rfl, rfl, row, hres⟩ := reserveStage_eq_ok h
  rcases hres.outcome with ⟨hne, hrun, hattempt, -, hdb, -⟩ | ⟨hav, hpre, -, hchange, hintents, -, -, row', hs', -, -, -,
    hstages⟩
  · have htame : Tame w.db w'.db := hdb ▸ .refl _
    refine ⟨htame.changes, hi.tame htame hc, rfl, rfl, fun hstage hclear => ?_⟩
    rcases hclear with hcleared | ⟨-, -, hforeign⟩
    · exact cleared_aloof w w' ⟨htame.toCalm, hc⟩ hcleared
    · exact (hforeign row (hstage ▸ hres.found) ⟨hrun, hattempt⟩).elim
  · have hsame : ∀ k, k ≠ (res.requestId, res.stage) → w'.db.stages.find? k = w.db.stages.find? k :=
      fun k hk => (hstages k).trans (if_neg hk)
    have hnew : w'.db.stages.find? (res.requestId, res.stage) = some row' := (hstages _).trans (if_pos rfl)
    -- an apply that was available has no rollback with a run
    have hfree : res.stage = .apply → ¬ Left w'.db (res.requestId, .compensatingRollback) := by
      rintro hstage ⟨r, hr, hne⟩
      have hl : Left w.db (res.requestId, .compensatingRollback) := ⟨r, by rwa [← hsame _ (by simp [hstage])], hne⟩
      have havail : InState w.db (res.requestId, .apply) .available := ⟨row, hstage ▸ hres.found, hav⟩
      rcases hi.exclusive _ hl with hu | hf
      · exact absurd (havail.unique hu) (by decide)
      · exact absurd (havail.unique hf) (by decide)
    refine ⟨.single hchange, ⟨fun rid hl => ?_, fun rid r hr hrs => ?_⟩, rfl, rfl, fun hstage _ => .inl (hfree hstage)⟩
    · by_cases happly : (rid, Stage.apply) = (res.requestId, res.stage)
      · obtain ⟨rfl, hstage⟩ := Prod.mk.inj happly
        exact (hfree hstage.symm hl).elim
      · have hunknown : InState w.db (rid, .apply) .callbackUnknown ∨ InState w.db (rid, .apply) .failed := by
          by_cases hroll : (rid, Stage.compensatingRollback) = (res.requestId, res.stage)
          · obtain ⟨rfl, hstage⟩ := Prod.mk.inj hroll
            exact prerequisite_rollback (hstage ▸ hpre)
          · refine hi.exclusive rid ?_
            rwa [Left, hsame _ hroll] at hl
        rwa [InState, InState, hsame _ happly]
    · have happly : (rid, Stage.apply) ≠ (res.requestId, res.stage) := by
        intro he
        rw [he, hnew] at hr
        obtain rfl := Option.some.inj hr
        exact absurd (hs'.symm.trans hrs) (by decide)
      obtain ⟨record, run, attempt, hrecord, hrun, hattempt, hended⟩ :=
        hi.proved rid r ((hsame _ happly).symm.trans hr) hrs
      exact ⟨record, run, attempt, hintents ▸ hrecord, hrun, hattempt, hc hended⟩

/-- A move of one stage keeps the invariant when apply is not resumed beside a rollback, and is known to have ended
before it is set aside. -/
lemma Inv.moves {k : StageKey} {row : StageRow} {target : StageState} (hi : Inv w) (hchanges : Changes w.db w'.db)
    (hc : w.completed ⊆ w'.completed) (hm : Moves w.db w'.db k row target) (hrow : w.db.stages.find? k = some row)
    (hne : row.state ≠ .available)
    (happly : k.2 = .apply → Left w.db (k.1, .compensatingRollback) → target = .callbackUnknown ∨ target = .failed)
    (hproved : k.2 = .apply → target = .callbackUnknown → ∃ record run attempt, w.db.intents.find? k.1 = some record ∧
      row.runId = some run ∧ row.runAttempt = some attempt ∧ (record.repository, run, attempt) ∈ w.completed) :
    Inv w' := by
  refine ⟨fun rid hl => ?_, fun rid row' hrow' hs => ?_⟩
  · have hl' := hm.left hrow hne hl
    by_cases hk : (rid, Stage.apply) = k
    · subst hk
      have hnew := (hm (rid, .apply)).trans (if_pos rfl)
      exact (happly rfl hl').imp (fun h => ⟨_, hnew, h⟩) fun h => ⟨_, hnew, h⟩
    · exact (hi.exclusive rid hl').imp (hm.inState_of_ne hk) (hm.inState_of_ne hk)
  · have hended : ∃ record run attempt, w.db.intents.find? rid = some record ∧ row'.runId = some run ∧
        row'.runAttempt = some attempt ∧ (record.repository, run, attempt) ∈ w.completed := by
      by_cases hk : (rid, Stage.apply) = k
      · subst hk
        obtain rfl := Option.some.inj (hrow'.symm.trans ((hm (rid, .apply)).trans (if_pos rfl)))
        exact hproved rfl hs
      · exact hi.proved rid row' (((hm _).trans (if_neg hk)).symm.trans hrow') hs
    obtain ⟨record, run, attempt, hrecord, hrun, hattempt, hin⟩ := hended
    obtain ⟨record', hrecord', hrepository⟩ := hchanges.kept.intents rid record hrecord
    exact ⟨record', run, attempt, hrecord', hrun, hattempt, hrepository ▸ hc hin⟩

lemma approve_inv {amb : Ambient} {rid reason : String} {stage : Stage} {at_ : Option Datetime} {u : Unit} (hi : Inv w)
    (hc : w.completed ⊆ w'.completed) (hcleared : stage = .apply → Cleared rid w)
    (h : transitionStage X amb rid stage "ApprovedPendingOutcome" reason at_ w.db = .ok (w'.db, u)) :
    Changes w.db w'.db ∧ Inv w' := by
  rcases transitionStage_moves h with hdb | ⟨row, target, hrow, htext, hmove, hchange, hmoves⟩
  · have htame : Tame w.db w'.db := hdb ▸ .refl _
    exact ⟨htame.changes, hi.tame htame hc⟩
  · have htarget : target = .approvedPendingOutcome := by
      revert htext
      cases target <;> decide
    subst htarget
    refine ⟨.single hchange, hi.moves (.single hchange) hc hmoves hrow hmove.ne_available.1 (fun hstage hl => ?_)
      fun _ hs => by cases hs⟩
    rcases hcleared hstage with hfree | hf
    · exact (hfree hl).elim
    · obtain rfl : stage = .apply := hstage
      obtain ⟨r, hr, hs⟩ := hf
      obtain rfl := Option.some.inj (hr.symm.trans hrow)
      rw [hs] at hmove
      cases hmove

/-- The sweeper has seen the run of the stage ended. -/
def Proved (rid : String) (stage : Stage) (w : World) : Prop :=
  ∃ record row run attempt, w.db.intents.find? rid = some record ∧ w.db.stages.find? (rid, stage) = some row ∧
    row.state ≠ .available ∧ row.runId = some run ∧ row.runAttempt = some attempt ∧
    (record.repository, run, attempt) ∈ w.completed

lemma proved_changes {rid : String} {stage : Stage} (w w' : World) (hchanges : Changes w.db w'.db)
    (hc : w.completed ⊆ w'.completed) (h : Proved rid stage w) : Proved rid stage w' := by
  obtain ⟨record, row, run, attempt, hrecord, hrow, hne, hrun, hattempt, hin⟩ := h
  obtain ⟨record', hrecord', hrepository⟩ := hchanges.kept.intents rid record hrecord
  obtain ⟨row', hrow', hne', hrun', hattempt'⟩ := hchanges.kept.rows _ row hrow hne
  exact ⟨record', row', run, attempt, hrecord', hrow', hne', hrun'.trans hrun, hattempt'.trans hattempt,
    hrepository ▸ hc hin⟩

lemma unknown_inv {amb : Ambient} {rid reason : String} {stage : Stage} {at_ : Option Datetime} {u : Unit} (hi : Inv w)
    (hc : w.completed ⊆ w'.completed) (hproved : Proved rid stage w)
    (h : transitionStage X amb rid stage "CallbackUnknown" reason at_ w.db = .ok (w'.db, u)) :
    Calm w.db w'.db ∧ Inv w' := by
  rcases transitionStage_moves h with hdb | ⟨row, target, hrow, htext, hmove, hchange, hmoves⟩
  · have htame : Tame w.db w'.db := hdb ▸ .refl _
    exact ⟨htame.toCalm, hi.tame htame hc⟩
  · have htarget : target = .callbackUnknown := by
      revert htext
      cases target <;> decide
    subst htarget
    have hov : row.state ≠ .callbackUnknown := by
      intro hs
      rw [hs] at hmove
      cases hmove
    refine ⟨hmoves.calm (.single hchange) hrow hmove.ne_available.1 fun _ hs _ => (hov hs).elim,
      hi.moves (.single hchange) hc hmoves hrow hmove.ne_available.1 (fun _ _ => .inl rfl) fun hstage _ => ?_⟩
    obtain ⟨record, row₁, run, attempt, hrecord, hrow₁, -, hrun, hattempt, hin⟩ := hproved
    obtain rfl := Option.some.inj (hrow.symm.trans hrow₁)
    exact ⟨record, run, attempt, hrecord, hrun, hattempt, hin⟩

lemma lock_answer {α : Type} {c : IntentStore.Call α} {r : Except Failure α}
    (h : (system X E R B).answer t (.registry c) w w' r) : w'.service.lock = w.service.lock := by
  obtain ⟨⟨hw, -⟩ | ⟨amb, -, hw⟩, -⟩ := h <;> rw [hw]

/-- A call of the holder of the lock that keeps the invariant. -/
lemma held_kept {α : Type} {c : IntentStore.Call α} {r : Except Failure α} (hheld : Held t w)
    (hdb : Changes w.db w'.db ∧ Inv w') (h : (system X E R B).answer t (.registry c) w w' r) :
    Guar t w w' ∧ Inv w' ∧ Held t w' := by
  have hlock := lock_answer h
  exact ⟨⟨fun u _ hu => hlock.trans hu, watch_subset h.2, hdb.1, .inl hheld⟩, hdb.2, hlock.trans hheld⟩

/-- A call that runs one transaction leaves the tables as they are, or commits; then its answer may be lost. -/
lemma transact_answer {α : Type} {c : IntentStore.Call α} {r : Except Failure α}
    {body : Ambient → Db → Except Failure (Db × α)}
    (hc : ∀ amb reg, c.exec X amb reg = IntentStore.transact reg (body amb))
    (h : (system X E R B).answer t (.registry c) w w' r) :
    (w'.db = w.db ∧ ∀ a, r ≠ .ok a) ∨ ∃ amb a, body amb w.db = .ok (w'.db, a) ∧ ∀ b, r = .ok b → b = a := by
  obtain ⟨⟨hw, rfl⟩ | ⟨amb, hr, hw⟩, -⟩ := h
  · exact .inl ⟨by rw [World.db, hw, World.db], fun a ha => by cases ha⟩
  · rw [hc] at hr hw
    have hdb : w'.db = (IntentStore.transact w.service.registry (body amb)).1.db := by
      rw [World.db, hw, Service.World.db]
    unfold IntentStore.transact at hr hdb
    cases hb : body amb w.service.registry.db with
    | error e =>
      rw [hb] at hr hdb
      refine .inl ⟨hdb, fun a ha => ?_⟩
      rcases hr with hr | hr <;> rw [ha] at hr <;> cases hr
    | ok v =>
      rw [hb] at hr hdb
      refine .inr ⟨amb, v.2, hb.trans (by rw [hdb]), fun b hb' => ?_⟩
      rcases hr with hr | hr <;> rw [hb'] at hr <;> cases hr
      rfl

/-- The lock is held, and a reservation of apply is one of an apply that may run. -/
def Granted (t : Nat) (r : Except Failure StageReservation) (w : World) : Prop :=
  Held t w ∧ ∀ res, r = .ok res → res.stage = .apply → Cleared res.requestId w

lemma reserve_kept {rid : String} {stage : Stage} {run attempt rule : Int} {at_ : Option Datetime}
    {r : Except Failure StageReservation} (hi : Inv w) (hheld : Held t w) (hclear : Clear rid run attempt w)
    (h : (system X E R B).answer t (.registry (.reserveStage rid stage run attempt rule at_)) w w' r) :
    Guar t w w' ∧ Inv w' ∧ Granted t r w' := by
  rcases transact_answer (fun _ _ => rfl) h with ⟨hdb, hr⟩ | ⟨amb, res, hbody, hr⟩
  · have htame : Tame w.db w'.db := hdb ▸ .refl _
    obtain ⟨hg, hi', hheld'⟩ := held_kept hheld ⟨htame.changes, hi.tame htame (watch_subset h.2)⟩ h
    exact ⟨hg, hi', hheld', fun res hres => (hr res hres).elim⟩
  · obtain ⟨hchanges, hinv, hrid, hstage, hcleared⟩ := reserve_inv hi (watch_subset h.2) hbody
    obtain ⟨hg, hi', hheld'⟩ := held_kept hheld ⟨hchanges, hinv⟩ h
    refine ⟨hg, hi', hheld', fun res' hres happly => ?_⟩
    obtain rfl := hr res' hres
    rw [hrid]
    exact hcleared (hstage.symm.trans happly) hclear

lemma approve_kept {rid reason : String} {stage : Stage} {at_ : Option Datetime} {r : Except Failure Unit} (hi : Inv w)
    (hheld : Held t w) (hcleared : stage = .apply → Cleared rid w)
    (h : (system X E R B).answer t (.registry (.transitionStage rid stage "ApprovedPendingOutcome" reason at_)) w w' r) :
    Guar t w w' ∧ Inv w' ∧ Held t w' := by
  refine held_kept hheld ?_ h
  rcases transact_answer (fun _ _ => rfl) h with ⟨hdb, -⟩ | ⟨amb, u, hbody, -⟩
  · have htame : Tame w.db w'.db := hdb ▸ .refl _
    exact ⟨htame.changes, hi.tame htame (watch_subset h.2)⟩
  · exact approve_inv hi (watch_subset h.2) hcleared hbody

lemma unknown_kept {rid reason : String} {stage : Stage} {at_ : Option Datetime} {r : Except Failure Unit} (hi : Inv w)
    (hproved : Proved rid stage w)
    (h : (system X E R B).answer t (.registry (.transitionStage rid stage "CallbackUnknown" reason at_)) w w' r) :
    Guar t w w' ∧ Inv w' := by
  have hlock := lock_answer h
  have hc := watch_subset h.2
  have hcalm : Calm w.db w'.db ∧ Inv w' := by
    rcases transact_answer (fun _ _ => rfl) h with ⟨hdb, -⟩ | ⟨amb, u, hbody, -⟩
    · have htame : Tame w.db w'.db := hdb ▸ .refl _
      exact ⟨htame.toCalm, hi.tame htame hc⟩
    · exact unknown_inv hi hc hproved hbody
  exact ⟨⟨fun u _ hu => hlock.trans hu, hc, hcalm.1.changes, .inr hcalm.1⟩, hcalm.2⟩

/-- What the holder of the lock knows of the stage it has reserved. -/
def Ready (reservation : Option StageReservation) (w : World) : Prop :=
  ∀ res ∈ reservation, res.stage = .apply → Cleared res.requestId w

lemma stable_ready (reservation : Option StageReservation) : Stable t fun w => Held t w ∧ Ready reservation w :=
  stable_held fun w w' ha h res hres happly => cleared_aloof w w' ha (h res hres happly)

lemma stable_lock : Stable t fun w => Held t w ∧ True := stable_held fun _ _ _ h => h

abbrev Keeps (X : Externals) (E : DeploymentEvaluator) (R : GitHubOutcomeReconciler) (B : RunnerBootstrapAuthorizer)
    (t : Nat) {α : Type} (p : Action α) (w : World) : Prop :=
  Wp X E R B t p (fun _ w => Held t w) w

lemma keeps_plain {α : Type} {p : Action α} (hp : p.Only Plain) (hheld : Held t w) : Keeps X E R B t p w :=
  Contract.wp_mono (fun _ _ h => h.1) (wp_plain stable_lock hp ⟨hheld, trivial⟩)

lemma keeps_bind {α β : Type} {p : Action α} {f : α → Action β} (hp : Keeps X E R B t p w)
    (hf : ∀ a w, Held t w → Keeps X E R B t (f a) w) : Keeps X E R B t (p >>= f) w := by
  refine Contract.wp_bind (Contract.wp_mono (fun r w hheld => ?_) hp)
  cases r with
  | ok a => exact hf a w hheld
  | error e => exact hheld

lemma keeps_attempt {α β : Type} {p : Action α} {f : Except Failure α → Action β} (hp : Keeps X E R B t p w)
    (hf : ∀ r w, Held t w → Keeps X E R B t (f r) w) : Keeps X E R B t (p.attempt >>= f) w :=
  Contract.wp_bind (Contract.wp_attempt (Contract.wp_mono (fun r w hheld => hf r w hheld) hp))

lemma plain_ledger {α : Type} (c : Ledger.Call α) : (Action.ledger c).Only Plain := Prog.only_perform.mpr trivial

lemma plain_moveReserved {r : StageReservation} {toState reason : String} (happroved : toState ≠ "ApprovedPendingOutcome")
    (hunknown : toState ≠ "CallbackUnknown") : (moveReserved r toState reason).Only Plain :=
  Prog.only_perform.mpr ⟨happroved, hunknown⟩

lemma plain_rejectStage (code : String) (reservation : Option StageReservation) :
    (rejectStage code reservation).Only Plain := by
  cases reservation with
  | none => trivial
  | some r =>
    simp only [rejectStage]
    split
    · exact plain_moveReserved (by decide) (by decide)
    · trivial

lemma plain_refuseStage (callback : CallbackResult) (reservation : Option StageReservation) :
    (refuseStage callback reservation).Only Plain := by
  cases reservation with
  | none => trivial
  | some r =>
    simp only [refuseStage]
    split
    · refine plain_moveReserved ?_ ?_ <;> split <;> decide
    · trivial

lemma keeps_approveStage {reservation : Option StageReservation} (h : Held t w ∧ Ready reservation w) :
    Keeps X E R B t (approveStage reservation) w := by
  cases reservation with
  | none => exact h.1
  | some r =>
    refine Contract.wp_perform fun w₁ hr hi w₂ out hans => ?_
    obtain ⟨hheld, hready⟩ := (stable_ready (some r)).others w w₁ hr h
    exact approve_kept hi hheld (hready r rfl) hans

lemma keeps_recordAccepted {request : DeploymentProtectionRequest} {v : Verdict}
    {reservation : Option StageReservation} {callback : CallbackResult} (h : Held t w ∧ Ready reservation w) :
    Keeps X E R B t (recordAccepted request v reservation callback) w := by
  refine wp_then (stable_ready reservation) (plain_ledger _) h (fun _ _ h => h.1) fun _ w h => ?_
  exact keeps_bind (keeps_approveStage h) fun _ w hheld => keeps_plain (plain_ledger _) hheld

lemma keeps_postClaimedDecision {request : DeploymentProtectionRequest} {v : Verdict}
    {reservation : Option StageReservation} (h : Held t w ∧ Ready reservation w) :
    Keeps X E R B t (postClaimedDecision request v reservation) w := by
  have hI := stable_ready (t := t) reservation
  refine wp_then hI (plain_ledger _) h (fun _ _ h => h.1) fun claimed w h => ?_
  dsimp only
  split
  · exact keeps_plain (plain_ledger _) h.1
  · refine wp_then hI (Prog.only_perform.mpr trivial) h (fun _ _ h => h.1) fun callback w h => ?_
    split
    · exact keeps_recordAccepted h
    · exact keeps_bind (keeps_plain (plain_ledger _) h.1) fun _ w hheld =>
        keeps_bind (keeps_plain (plain_refuseStage _ _) hheld) fun _ w hheld => keeps_plain (plain_ledger _) hheld

lemma keeps_refuse {request : DeploymentProtectionRequest} {reservation : Option StageReservation} {e : Failure}
    (hheld : Held t w) : Keeps X E R B t (refuse request reservation e) w := by
  cases e with
  | policy exc =>
    refine keeps_bind (keeps_plain (plain_rejectStage exc.code reservation) hheld) fun _ w hheld => ?_
    have hready : Ready none w := fun res hres => by cases hres
    refine keeps_attempt (keeps_postClaimedDecision ⟨hheld, hready⟩) fun r w hheld => ?_
    split
    · exact hheld
    · split
      · exact hheld
      · exact keeps_bind (keeps_plain (plain_ledger _) hheld) fun _ w hheld => hheld
    · exact hheld
  | _ => exact hheld

lemma wp_evaluateAndReserve (request : DeploymentProtectionRequest) (hheld : Held t w) :
    Wp X E R B t (evaluateAndReserve request (E.evaluate X)) (fun r w => Held t w ∧ ∀ found, r = .ok found →
      Ready (some found.2) w) w := by
  refine Contract.wp_bind (Contract.wp_mono (fun r w h => ?_) (wp_evaluate request hheld))
  cases r with
  | error e => exact ⟨h.1, fun found hfound => by cases hfound⟩
  | ok result =>
    obtain ⟨hrid, hrun, hclear⟩ := h.2 result rfl
    have hI := stable_held (t := t) (@clear_aloof request.requestId request.runId result.runAttempt)
    refine Contract.wp_bind (Contract.wp_perform fun w₁ hr hi w₂ out hans => ?_)
    obtain ⟨hheld₁, hclear₁⟩ := hI.others w w₁ hr ⟨h.1, hclear⟩
    rw [hrid, hrun] at hans
    obtain ⟨hg, hi₂, hgranted⟩ := reserve_kept hi hheld₁ hclear₁ hans
    refine ⟨hg, hi₂, ?_⟩
    cases out with
    | error e => exact ⟨hgranted.1, fun found hfound => by cases hfound⟩
    | ok reservation =>
      refine ⟨hgranted.1, fun found hfound res hres happly => ?_⟩
      cases hfound
      cases hres
      exact hgranted.2 reservation rfl happly

lemma plain_registry {α : Type} {c : IntentStore.Call α} (hc : c.Plain) : (Action.registry c).Only Plain :=
  Prog.only_perform.mpr hc

lemma plain_evaluateStage {request : DeploymentProtectionRequest} {record : IntentRecord} {verified : VerifiedBundle}
    {run : Json} {identity : String × Int} {rule : Int} :
    (E.evaluateStage X request record verified run identity rule).Only Plain := by
  refine Prog.only_bind (plain_github _) fun _ => Action.only_bind_rejectIf fun _ => ?_
  refine Prog.only_bind_ofExcept fun signed _ => Prog.only_bind (plain_registry trivial) fun _ => ?_
  refine Action.only_bind_rejectIf fun _ => Action.only_bind_rejectIf fun _ => Action.only_bind_rejectIf fun _ => ?_
  refine Prog.only_bind (plain_verifyLiveRunnerInventory _ _ _ _) fun _ => Prog.only_bind (plain_github _) fun _ => ?_
  refine Prog.only_bind (Prog.only_perform.mpr trivial) fun _ => ?_
  exact Action.only_bind_rejectIf fun _ => Action.only_bind_rejectIf fun _ => Prog.only_pure

lemma plain_evaluate (request : DeploymentProtectionRequest) : (E.evaluate X request).Only Plain := by
  refine Prog.only_bind plain_now fun _ => Prog.only_bind_ofExcept fun _ _ => ?_
  refine Prog.only_bind (plain_registry trivial) fun _ => Action.only_bind_rejectIf fun _ => ?_
  refine Prog.only_bind (Prog.only_perform.mpr trivial) fun _ => Prog.only_bind_ofExcept fun _ _ => ?_
  refine Prog.only_bind_ofExcept fun _ _ => Prog.only_bind (plain_github _) fun _ => ?_
  refine Prog.only_bind_ofExcept fun _ _ => Prog.only_bind (plain_github _) fun _ => ?_
  refine Prog.only_bind_ofExcept fun _ _ => Prog.only_bind (plain_github _) fun _ => ?_
  exact Prog.only_bind plain_now fun _ => Prog.only_bind_ofExcept fun _ _ => plain_evaluateStage

lemma plain_recheck (request : DeploymentProtectionRequest) (result : EvaluationResult) :
    (recheck request (E.evaluate X) result).Only Plain := by
  refine Prog.only_bind (plain_evaluate request) fun _ => ?_
  unfold Action.rejectIf
  split <;> trivial

lemma keeps_enforce (request : DeploymentProtectionRequest) (hheld : Held t w) :
    Keeps X E R B t (enforce request (E.evaluate X)) w := by
  refine keeps_bind (keeps_plain (plain_ledger _) hheld) fun _ w hheld => ?_
  refine Contract.wp_bind (Contract.wp_attempt (Contract.wp_mono (fun r w h => ?_)
    (wp_evaluateAndReserve request hheld)))
  cases r with
  | error e => exact keeps_refuse h.1
  | ok found =>
    obtain ⟨result, reservation⟩ := found
    refine Contract.wp_bind (Contract.wp_attempt (Contract.wp_mono (fun r w h => ?_)
      (wp_plain (stable_ready (some reservation)) (plain_recheck request result) ⟨h.1, h.2 _ rfl⟩)))
    cases r with
    | error e => exact keeps_refuse h.1
    | ok _ => exact keeps_bind (keeps_postClaimedDecision h) fun _ w hheld => hheld

abbrev Safe (X : Externals) (E : DeploymentEvaluator) (R : GitHubOutcomeReconciler) (B : RunnerBootstrapAuthorizer)
    (t : Nat) {α : Type} (p : Action α) (w : World) : Prop :=
  Wp X E R B t p (fun _ _ => True) w

lemma safe_plain {α : Type} {p : Action α} (hp : p.Only Plain) : Safe X E R B t p w :=
  Contract.wp_of_only hp fun _ he _ _ _ hi hans => plain_kept he hi hans

lemma safe_bind {α β : Type} {p : Action α} {f : α → Action β} (hp : Safe X E R B t p w)
    (hf : ∀ a w, Safe X E R B t (f a) w) : Safe X E R B t (p >>= f) w := by
  refine Contract.wp_bind (Contract.wp_mono (fun r w _ => ?_) hp)
  cases r with
  | ok a => exact hf a w
  | error e => trivial

lemma acquire_kept {r : Except Failure Unit} (hi : Inv w) (h : (system X E R B).answer t .acquire w w' r) :
    Guar t w w' ∧ Inv w' ∧ Held t w' := by
  obtain ⟨⟨hfree, hw, -⟩, hwatch⟩ := h
  have hdb : w'.db = w.db := by rw [World.db, hw, World.db, Service.World.db, Service.World.db]
  have htame : Tame w.db w'.db := hdb ▸ .refl _
  refine ⟨⟨fun u _ hu => ?_, watch_subset hwatch, htame.changes, .inr htame.toCalm⟩,
    hi.tame htame (watch_subset hwatch), by rw [Held, hw]⟩
  rw [hfree] at hu
  cases hu

lemma release_kept {r : Except Failure Unit} (hi : Inv w) (hheld : Held t w)
    (h : (system X E R B).answer t .release w w' r) : Guar t w w' ∧ Inv w' := by
  obtain ⟨⟨hw, -⟩, hwatch⟩ := h
  have hdb : w'.db = w.db := by rw [World.db, hw, World.db, Service.World.db, Service.World.db]
  have htame : Tame w.db w'.db := hdb ▸ .refl _
  refine ⟨⟨fun u hu hl => ?_, watch_subset hwatch, htame.changes, .inr htame.toCalm⟩,
    hi.tame htame (watch_subset hwatch)⟩
  exact (hu (Option.some.inj (hl.symm.trans hheld))).elim

lemma safe_locked {α : Type} {body : Action α} (hbody : ∀ w, Held t w → Keeps X E R B t body w) :
    Safe X E R B t (locked body) w := by
  refine Contract.wp_bind (Contract.wp_perform fun w₁ _ hi w₂ r hans => ?_)
  obtain ⟨hg, hi₂, hheld⟩ := acquire_kept hi hans
  refine ⟨hg, hi₂, ?_⟩
  cases r with
  | error e => trivial
  | ok _ =>
    refine Contract.wp_bind (Contract.wp_attempt (Contract.wp_mono (fun out w hheld => ?_) (hbody w₂ hheld)))
    refine Contract.wp_bind (Contract.wp_perform fun w₃ hr₃ hi₃ w₄ r hans₄ => ?_)
    obtain ⟨hheld₃, -⟩ := stable_lock.others w w₃ hr₃ ⟨hheld, trivial⟩
    obtain ⟨hg₄, hi₄⟩ := release_kept hi₃ hheld₃ hans₄
    refine ⟨hg₄, hi₄, ?_⟩
    cases r with
    | error e => trivial
    | ok _ => cases out <;> trivial

lemma safe_workerCycle (request : DeploymentProtectionRequest) :
    Safe X E R B t (workerCycle request (E.evaluate X)) w := by
  refine Contract.wp_bind (Contract.wp_attempt (Contract.wp_mono (fun r w _ => ?_)
    (safe_locked fun w hheld => keeps_enforce request hheld)))
  cases r with
  | ok _ => trivial
  | error e => exact safe_bind (safe_plain (Prog.only_attempt (plain_ledger _))) fun _ _ => trivial

lemma safe_processPolled (request : DeploymentProtectionRequest) :
    Safe X E R B t (processPolled request (E.evaluate X)) w := by
  refine wp_rejectIf (fun _ => trivial) fun _ => safe_locked fun w hheld => ?_
  refine keeps_bind (keeps_plain (plain_ledger _) hheld) fun _ w hheld => ?_
  refine keeps_bind (keeps_plain (plain_ledger _) hheld) fun succeeded w hheld => ?_
  cases succeeded with
  | true => exact hheld
  | false => exact keeps_bind (keeps_enforce request hheld) fun _ w hheld => keeps_plain (plain_ledger _) hheld

/-- What a thread knows of the run that a stage is bound to. -/
def Bound (rid : String) (stage : Stage) (run attempt : Int) (w : World) : Prop :=
  ∃ row, w.db.stages.find? (rid, stage) = some row ∧ row.state ≠ .available ∧ row.runId = some run ∧
    row.runAttempt = some attempt

lemma bound_changes {rid : String} {stage : Stage} {run attempt : Int} (w w' : World) (hc : Changes w.db w'.db)
    (h : Bound rid stage run attempt w) : Bound rid stage run attempt w' := by
  obtain ⟨row, hrow, hne, hrun, hattempt⟩ := h
  obtain ⟨row', hrow', hne', hrun', hattempt'⟩ := hc.kept.rows _ row hrow hne
  exact ⟨row', hrow', hne', hrun'.trans hrun, hattempt'.trans hattempt⟩

lemma getStage_answer {rid : String} {stage : Stage} {res : StageReservation}
    (h : (system X E R B).answer t (.registry (.getStage rid stage)) w w' (.ok res)) :
    Bound rid stage res.runId res.runAttempt w' := by
  obtain ⟨⟨-, hr⟩ | ⟨amb, hr | hr, hw⟩, -⟩ := h
  · cases hr
  · simp only [IntentStore.Call.exec, getStage, Fallible.bind_eq_ok, expect_eq_ok, Fallible.pure_eq_ok,
      rejectIf_eq_ok, eq_comm (a := Except.ok res)] at hr
    obtain ⟨row, hrow, _, hne, run, hrun, attempt, hattempt, _, -, _, -, _, -, rfl⟩ := hr
    refine ⟨row, ?_, hne, hrun, hattempt⟩
    rw [World.db, hw]
    exact hrow
  · cases hr

lemma terminalRun_eq_ok {record : IntentRecord} {res : StageReservation} {signed : WorkflowStage} {run : Json}
    {u : Unit} (repository : String) (h : terminalRun record res signed run = .ok u) :
    attemptOf repository run = some (repository, res.runId, res.runAttempt) ∧ Ended run := by
  simp only [terminalRun, Fallible.bind_eq_ok, rejectIf_eq_ok, not_or, not_not] at h
  obtain ⟨_, hsame, hended, -⟩ := h
  simp only [runDiffers, not_or, not_not] at hsame
  obtain ⟨hid, hattempt, -⟩ := hsame
  exact ⟨by simp [attemptOf, hid, hattempt], hended⟩

lemma safe_markUnknown {rid : String} {stage : Stage} {res : StageReservation} {at_ : Datetime}
    (h : Proved rid stage w) : Safe X E R B t (GitHubOutcomeReconciler.markUnknown rid stage res at_) w := by
  unfold GitHubOutcomeReconciler.markUnknown
  split
  · refine Contract.wp_perform fun w₁ hr hi w₂ out hans => ?_
    obtain ⟨hg, hi₂⟩ := unknown_kept hi (rely_changes proved_changes hr h) hans
    exact ⟨hg, hi₂, trivial⟩
  · trivial

lemma plain_stageEvidenceFromArchive (archive : List UInt8) : (stageEvidenceFromArchive X archive).Only Plain := by
  refine Action.only_bind_rejectIf fun _ => Prog.only_bind (Prog.only_perform.mpr trivial) fun _ => ?_
  refine Prog.only_bind_ofExcept fun _ _ => Prog.only_bind_ofExcept fun _ _ => ?_
  refine Prog.only_bind (Prog.only_perform.mpr trivial) fun _ => Prog.only_bind_ofExcept fun _ _ => ?_
  exact Action.only_bind_rejectIf fun _ => Prog.only_ofExcept

lemma plain_checkProductArtifact {record : IntentRecord} {res : StageReservation} {evidence : Json} :
    (R.checkProductArtifact X record res evidence).Only Plain := by
  refine Prog.only_bind_ofExcept fun _ _ => Prog.only_bind_ofExcept fun _ _ => ?_
  refine Prog.only_bind_ofExcept fun _ _ => Action.only_bind_rejectIf fun _ => ?_
  refine Prog.only_bind (plain_github _) fun _ => ?_
  unfold Action.rejectIf
  split <;> trivial

lemma plain_sealedOutcome {rid : String} {stage : Stage} {record : IntentRecord} {verified : VerifiedBundle}
    {res : StageReservation} {run : Json} {at_ : Datetime} :
    (R.sealedOutcome X rid stage record verified res run at_).Only Plain := by
  refine Prog.only_bind_ofExcept fun _ _ => Prog.only_bind_ofExcept fun _ _ => ?_
  refine Prog.only_bind (plain_github _) fun _ => Prog.only_bind_ofExcept fun _ _ => ?_
  refine Prog.only_bind (plain_github _) fun _ => Prog.only_bind (plain_stageEvidenceFromArchive _) fun evidence => ?_
  dsimp only
  split
  · refine Prog.only_bind plain_checkProductArtifact fun _ => ?_
    exact Action.only_bind_rejectIf fun _ => Prog.only_ofExcept
  · exact Action.only_bind_rejectIf fun _ => Prog.only_ofExcept

lemma safe_reconcile (rid : String) (stage : Stage) : Safe X E R B t (R.reconcile X rid stage) w := by
  refine safe_bind (safe_plain plain_now) fun at_ w => ?_
  have hread : Plain (Effect.registry (.getFinalized rid)) := trivial
  refine wp_ask (stable_free (P := fun _ => True) fun _ _ _ _ h => h) hread trivial (fun _ _ _ => trivial)
    fun _ w found _ hans _ _ => ?_
  obtain ⟨record, envelope⟩ := found
  have hI : Stable t (Repository rid record.repository) := stable_free fun w w' hc _ => repository_changes w w' hc
  refine wp_then hI (Prog.only_perform.mpr trivial) (getFinalized_answer hans) (fun _ _ _ => trivial) fun _ w h => ?_
  refine wp_ofExcept (fun _ => trivial) fun verified _ => ?_
  have hread : Plain (Effect.registry (.getStage rid stage)) := trivial
  refine wp_ask hI hread h (fun _ _ _ => trivial) fun _ w res _ hans _ h => ?_
  have hbound := getStage_answer hans
  refine wp_ofExcept (fun _ => trivial) fun signed _ => ?_
  have hJ : Stable t fun w => Repository rid record.repository w ∧ Bound rid stage res.runId res.runAttempt w :=
    stable_free fun w w' hc _ h => ⟨repository_changes w w' hc h.1, bound_changes w w' hc h.2⟩
  refine wp_ask hJ trivial ⟨h, hbound⟩ (fun _ _ _ => trivial) fun w₁ w₂ run _ hans _ h => ?_
  have hreports : Reports record.repository run w₁.completed w₂.completed := hans.2
  refine wp_ofExcept (fun _ => trivial) fun _ hterminal => ?_
  obtain ⟨hattempt, hended⟩ := terminalRun_eq_ok record.repository hterminal
  have hin : (record.repository, res.runId, res.runAttempt) ∈ w₂.completed := by
    rw [hreports.2]
    exact .inr ⟨hattempt, hended⟩
  have hproved : Proved rid stage w₂ := by
    obtain ⟨⟨record', hrecord, hrepository⟩, row, hrow, hne, hrun, hrunAttempt⟩ := h
    exact ⟨record', row, res.runId, res.runAttempt, hrecord, hrow, hne, hrun, hrunAttempt, hrepository ▸ hin⟩
  refine safe_bind (safe_markUnknown hproved) fun _ w => safe_bind (safe_plain plain_sealedOutcome) fun _ w => ?_
  exact safe_bind (safe_plain (plain_registry trivial)) fun _ _ => trivial

lemma safe_reconcileEach (pending : List StageReservation) (counts : Nat × Nat) :
    Safe X E R B t (R.reconcileEach X pending counts) w := by
  induction pending generalizing counts w with
  | nil => trivial
  | cons res rest ih =>
    refine Contract.wp_bind (Contract.wp_attempt (Contract.wp_mono (fun r w _ => ?_)
      (safe_reconcile res.requestId res.stage)))
    cases r with
    | ok _ => exact ih _
    | error _ => exact ih _

lemma safe_runOnce : Safe X E R B t (R.runOnce X) w :=
  safe_bind (safe_plain (plain_registry trivial)) fun _ _ =>
    safe_bind (safe_plain (plain_registry trivial)) fun pending _ => safe_reconcileEach pending (0, 0)

lemma plain_verifyLiveRunAndRunner {request : RunnerBootstrapRequest} {record : IntentRecord}
    {runners : List EligibleRunner} : (B.verifyLiveRunAndRunner X request record runners).Only Plain := by
  refine Prog.only_bind (plain_github _) fun _ => Action.only_bind_rejectIf fun _ => ?_
  exact Prog.only_bind (plain_github _) fun _ => Prog.only_ofExcept

lemma plain_priorOf (request : RunnerBootstrapRequest) : (RunnerBootstrapAuthorizer.priorOf request).Only Plain := by
  unfold RunnerBootstrapAuthorizer.priorOf
  split
  · trivial
  · refine Prog.only_bind (Prog.only_bind (plain_registry trivial) fun _ => ?_) fun _ => Prog.only_pure
    refine Prog.only_bind (Prog.only_attempt (plain_registry trivial)) fun out => ?_
    split
    · trivial
    · split <;> trivial
    · trivial

lemma plain_admission {request : RunnerBootstrapRequest} {credential : List UInt8} {token : String} {at_ : Datetime} :
    (B.admission X request credential token at_).Only Plain := by
  refine Prog.only_bind (plain_registry trivial) fun _ => Prog.only_bind (Prog.only_perform.mpr trivial) fun _ => ?_
  refine Prog.only_bind_ofExcept fun _ _ => Action.only_bind_rejectIf fun _ => ?_
  refine Prog.only_bind (Prog.only_perform.mpr trivial) fun _ => Prog.only_bind_ofExcept fun _ _ => ?_
  refine Action.only_bind_rejectIf fun _ => Prog.only_bind_ofExcept fun _ _ => Prog.only_bind_ofExcept fun _ _ => ?_
  refine Action.only_bind_rejectIf fun _ => Prog.only_bind (plain_registry trivial) fun _ => ?_
  refine Action.only_bind_rejectIf fun _ => Prog.only_bind (plain_registry trivial) fun approved => ?_
  -- the text of the timestamp is not to be computed
  generalize parseUtc X (Json.str approved.text) "bootstrap.approvedAt" = approvedAt
  exact Prog.only_bind_ofExcept fun _ _ => Action.only_bind_rejectIf fun _ => Prog.only_pure

lemma plain_authorize (request : RunnerBootstrapRequest) (credential : List UInt8) (token : String) :
    (B.authorize X request credential token).Only Plain := by
  refine Prog.only_bind plain_now fun _ => Prog.only_bind plain_admission fun admitted => ?_
  obtain ⟨record, envelope, verified, stagePolicy, reservation⟩ := admitted
  refine Prog.only_bind (plain_github _) fun _ => Action.only_bind_rejectIf fun _ => ?_
  refine Prog.only_bind (plain_verifyLiveRunnerInventory _ _ _ _) fun _ => ?_
  refine Prog.only_bind plain_verifyLiveRunAndRunner fun runnerId => Prog.only_bind (plain_priorOf request) fun prior => ?_
  dsimp only
  generalize sha256Digest X (BootstrapResponse.json _) = digest
  exact Prog.only_bind_ofExcept fun _ _ => Prog.only_bind (plain_registry trivial) fun _ => Prog.only_pure

lemma plain_of_not_moves {α : Type} {c : IntentStore.Call α} (hc : ¬ c.Moves) : c.Plain := by
  cases c with
  | reserveStage => exact (hc trivial).elim
  | transitionStage => exact (hc trivial).elim
  | _ => trivial

lemma system_meets : Contract.Meets (system X E R B) contract := by
  refine ⟨fun t p w hstart hi => ?_, fun w w' h hi => ?_⟩
  · cases hstart with
    | accept request => exact safe_bind (safe_plain (plain_ledger _)) fun _ _ => trivial
    | worker request => exact safe_workerCycle request
    | polled request => exact safe_bind (safe_processPolled request) fun _ _ => trivial
    | sweep => exact safe_bind safe_runOnce fun _ _ => trivial
    | bootstrap request credential token =>
      exact safe_bind (safe_plain (plain_authorize request credential token)) fun _ _ => trivial
    | other c hc => exact safe_bind (safe_plain (plain_registry (plain_of_not_moves hc))) fun _ _ => trivial
  · obtain rfl : w' = ⟨{ w.service with lock := none, reservation := none }, w.completed⟩ := h
    exact ⟨hi.exclusive, hi.proved⟩

lemma run_inv {pool : Pool Failure Effect Nat}
    (h : (system X E R B).Run (World.initial, fun _ => none) (w, pool)) : Inv w := by
  have hinitial : Inv World.initial := by
    refine ⟨fun rid hl => ?_, fun rid row hrow => ?_⟩
    · obtain ⟨r, hr, -⟩ := hl
      cases hr
    · cases hrow
  have hk : Contract.Kept contract (system X E R B) (World.initial, fun _ => none) :=
    ⟨hinitial, fun t p hp => by cases hp⟩
  exact (Contract.kept_run system_meets hk h).inv

/-- A rollback that may be writing. -/
def RollbackActive (w : World) (rid : String) : Prop :=
  InState w.db (rid, .compensatingRollback) .reserved ∨
    InState w.db (rid, .compensatingRollback) .approvedPendingOutcome

lemma RollbackActive.left {rid : String} (h : RollbackActive w rid) : Left w.db (rid, .compensatingRollback) := by
  rcases h with ⟨r, hr, hs⟩ | ⟨r, hr, hs⟩ <;> exact ⟨r, hr, by simp [hs]⟩

lemma Inv.idle {rid : String} (hi : Inv w) (h : InState w.db (rid, .apply) .approvedPendingOutcome) :
    ¬ RollbackActive w rid := by
  intro hactive
  rcases hi.exclusive rid hactive.left with hu | hf
  · exact absurd (h.unique hu) (by decide)
  · exact absurd (h.unique hf) (by decide)

/-- A bootstrap credential is given out while its stage is approved. -/
lemma bootstrap_answer {rid digest : String} {stage : Stage} {run attempt runner : Int} {at_ : Option Datetime}
    {consumption : BootstrapConsumption}
    (h : (system X E R B).answer t (.registry (.consumeBootstrap rid stage run attempt runner digest at_)) w w'
      (.ok consumption)) :
    InState w.db (rid, stage) .approvedPendingOutcome ∧ w'.db.stages = w.db.stages := by
  rcases transact_answer (fun _ _ => rfl) h with ⟨-, hr⟩ | ⟨amb, a, hbody, -⟩
  · exact (hr _ rfl).elim
  · obtain ⟨row, hrow, hs, -, -, hstages, -⟩ := consumeBootstrap_eq_ok hbody
    exact ⟨⟨row, hrow, hs⟩, hstages⟩

theorem no_concurrent_writers {pool : Pool Failure Effect Nat}
    (h : (system X E R B).Run (World.initial, fun _ => none) (w, pool)) (rid : String) :
    (RollbackActive w rid →
      InState w.db (rid, .apply) .callbackUnknown ∨ InState w.db (rid, .apply) .failed) ∧
    ¬ (InState w.db (rid, .apply) .approvedPendingOutcome ∧
      InState w.db (rid, .compensatingRollback) .approvedPendingOutcome) ∧
    ∀ t run attempt runner digest at_ w' consumption,
      (system X E R B).answer t (.registry (.consumeBootstrap rid .apply run attempt runner digest at_)) w w'
        (.ok consumption) → ¬ RollbackActive w rid ∧ ¬ RollbackActive w' rid := by
  have hi := run_inv h
  refine ⟨fun hactive => hi.exclusive rid hactive.left, fun hboth => hi.idle hboth.1 (.inr hboth.2),
    fun t run attempt runner digest at_ w' consumption hans => ?_⟩
  obtain ⟨happroved, hstages⟩ := bootstrap_answer hans
  have hidle := hi.idle happroved
  refine ⟨hidle, ?_⟩
  rwa [RollbackActive, InState, InState, hstages]

end

namespace Sample

open IntentStore.Sample Service.Sample

/-- A policy for another environment. -/
def policy : DeploymentPolicy where
  digest := "P"
  phase := .dualGate
  machineOnlyEnabled := false
  repositoryId := 42
  repository := "acik/platform"
  environment := "staging"
  runnerBootstrapUrl := ""
  allowedInstallationIds := [3]
  allowedDispatcherInstallationIds := []
  allowedDispatcherActorIds := []
  allowedDeploymentClasses := []
  maxGrantTtlMinutes := 60
  requiredCustomRuleAppIds := []
  stages := []

def evaluator : DeploymentEvaluator where
  policy := policy
  trustRoot := .null
  expectedTrustRootSha256 := ""
  mode := .enforce
  enforcePhase _ := by decide
  trustRootPin _ := by decide
  policyAuthority _ := by decide
  machineOnly := by decide

lemma installation_own : (1 : ℤ) ≤ 3 := by decide

def reconciler : GitHubOutcomeReconciler := ⟨3, .null, "", installation_own⟩

def authorizer : RunnerBootstrapAuthorizer := ⟨evaluator, 3, by decide⟩

abbrev service : System Failure Effect World Nat := system Service.Sample.externals evaluator reconciler authorizer

/-- The world of the service, with a clock and without GitHub. -/
def world {γ : Type} (e : Effect γ) (w : World) : Option (World × Except Failure γ) :=
  match e with
  | .now => some (w, .ok start)
  | .github _ => none
  | e => (Service.Sample.world accepted204 e w.service).map fun out => (⟨out.1, w.completed⟩, out.2)

lemma service_answers {γ : Type} {e : Effect γ} {w w' : World} {r : Except Failure γ}
    (h : (Service.Sample.world accepted204 e w.service).map
      (fun out => ((⟨out.1, w.completed⟩ : World), out.2)) = some (w', r)) :
    Service.answer Service.Sample.externals 0 e w.service w'.service r ∧ w'.completed = w.completed := by
  obtain ⟨⟨s, out⟩, hw, heq⟩ := Option.map_eq_some_iff.mp h
  cases heq
  exact ⟨Service.Sample.world_answers accepted204 e _ _ _ hw, rfl⟩

lemma world_answers : Answers service.toMachine 0 world := by
  intro γ e w w' r h
  cases e with
  | now =>
    cases h
    exact ⟨rfl, rfl⟩
  | github query => cases h
  | _ => exact service_answers h

def alone (p : Action Unit) (w : World) : Option World := (p.interp world w).map (·.1)

lemma run_alone_world {p : Action Unit} {w w' : World}
    (hp : Entry Service.Sample.externals evaluator reconciler authorizer p) (h : alone p w = some w') :
    service.Run (w, fun _ => none) (w', fun _ => none) := by
  obtain ⟨⟨w₁, out⟩, hrun, rfl⟩ := Option.map_eq_some_iff.mp h
  exact System.run_alone hp (exec_interp world_answers hrun)

/-- An intent is registered and finalized, its run is refused, and the sweeper finds nothing to do. -/
def swept : Option World := do
  let w ← alone (do let _ ← Action.registry (.register envelope verified principal none)) World.initial
  let w ← alone (do let _ ← Action.registry (.finalizeRef "req" "aaaaaaaaaaaaaaaaaaaaaaaaaaaaaaaaaaaaaaaa" "a" none)) w
  let w ← alone (do let _ ← processPolled (request "d1") (evaluator.evaluate Service.Sample.externals)) w
  alone (do let _ ← reconciler.runOnce Service.Sample.externals) w

lemma run_swept {w : World} (h : swept = some w) : service.Run (World.initial, fun _ => none) (w, fun _ => none) := by
  simp only [swept, Option.bind_eq_bind, Option.bind_eq_some_iff] at h
  obtain ⟨w₁, h₁, w₂, h₂, w₃, h₃, h₄⟩ := h
  exact (((run_alone_world (.other _ id) h₁).trans (run_alone_world (.other _ id) h₂)).trans
    (run_alone_world (.polled _) h₃)).trans (run_alone_world .sweep h₄)

/-- The decisions posted, and the states of apply and of its rollback. -/
def view (w : World) : List DecisionState × Option StageState × Option StageState :=
  (w.service.posts.map (·.decision.state), (w.db.stages.find? ("req", .apply)).map (·.state),
    (w.db.stages.find? ("req", .compensatingRollback)).map (·.state))

lemma swept_view : swept.map view = some ([.rejected], some .available, some .available) := by
  decide +kernel

end Sample

theorem no_concurrent_writers_swept : ∃ w, Sample.swept = some w ∧
    w.service.posts.map (·.decision.state) = [.rejected] ∧ InState w.db ("req", .apply) .available ∧
    (RollbackActive w "req" →
      InState w.db ("req", .apply) .callbackUnknown ∨ InState w.db ("req", .apply) .failed) ∧
    ¬ (InState w.db ("req", .apply) .approvedPendingOutcome ∧
      InState w.db ("req", .compensatingRollback) .approvedPendingOutcome) := by
  obtain ⟨w, hw, hview⟩ := Option.map_eq_some_iff.mp Sample.swept_view
  obtain ⟨hposts, happly, -⟩ := by simpa only [Sample.view, Prod.mk.injEq] using hview
  obtain ⟨row, hrow, hs⟩ := Option.map_eq_some_iff.mp happly
  obtain ⟨hactive, hboth, -⟩ := no_concurrent_writers (Sample.run_swept hw) "req"
  exact ⟨w, hw, hposts, ⟨row, hrow, hs⟩, hactive, hboth⟩

end PlatformGitops.CrossAi.WriterExclusion
