import PlatformGitops.CrossAi.Dispatcher
import PlatformGitops.CrossAi.IntentStore.StageInvariants

/-! Any number of dispatchers on one registry, interleaved and crashing anywhere: each stage is posted
at most once, after its watermark, and is bound to one later run. -/

namespace PlatformGitops.CrossAi.DispatchSafety

open Library IntentStore Dispatcher

/-- A `workflow_dispatch` POST: the stage it is made for, and the row that the registry holds then. -/
structure Post where
  key : StageKey
  row : Option DispatchJob

/-- The registry, with what happened so far: the thread that claimed each dispatch, and the POSTs. -/
structure World where
  registry : Registry
  owner : StageKey → Option Nat
  posts : List Post

namespace World

def db (w : World) : Db := w.registry.db

def posted (w : World) : List StageKey := w.posts.map Post.key

def initial : World := ⟨Registry.empty, fun _ => none, []⟩

/-- The world after a transaction of thread `t`, which owns the dispatches it claimed. -/
def commit (w : World) (t : Nat) (reg : Registry) : World :=
  { w with registry := reg,
           owner := fun k => if ¬ Claimed w.db k ∧ Claimed reg.db k then some t else w.owner k }

end World

/-- A call on the registry fails before its transaction, or is committed; its answer may be lost. -/
def answer (X : Externals) {β : Type} (t : Nat) (e : Effect β) (w w' : World) (r : Except Failure β) : Prop :=
  match e with
  | .registry c => (w' = w ∧ r = .error .unavailable) ∨ ∃ amb : Ambient,
      w' = w.commit t (c.exec X amb w.registry).1 ∧
        (r = (c.exec X amb w.registry).2 ∨ r = .error .unavailable)
  | .dispatchWorkflow stage _ _ _ requestId =>
      w' = { w with posts := w.posts ++ [⟨(requestId, stage), w.db.dispatches.find? (requestId, stage)⟩] }
  | _ => w' = w

/-- What a process may do: an entry point of the orchestrator, or a call of another user of the registry. -/
inductive Entry (X : Externals) : Action Unit → Prop
  | registerAndDispatchApply (O : IntentDispatchOrchestrator) (envelope : Json) :
      Entry X (do let _ ← registerAndDispatchApply O envelope)
  | dispatchStage (O : IntentDispatchOrchestrator) (requestId : String) (stage : Stage) :
      Entry X (do let _ ← dispatchStage O requestId stage)
  | reconcileDispatch (requestId : String) (stage : Stage) :
      Entry X (do let _ ← Dispatcher.reconcileDispatch X requestId stage)
  | other {α : Type} (c : Call α) : Entry X (do let _ ← Action.registry c)

def system (X : Externals) : System Failure Effect World Nat where
  answer := answer X
  start _ p := Entry X p
  restart w w' := w' = w

structure Inv (w : World) : Prop where
  changes : Changes Db.empty w.db
  fresh : ∀ k, ¬ Claimed w.db k → w.owner k = none ∧ k ∉ w.posted
  once : w.posted.Nodup
  watermark : ∀ p ∈ w.posts, ∃ j m, p.row = some j ∧ j.preDispatchRunIdWatermark = some m ∧
    Watermarked w.db p.key m

structure Guar (t : Nat) (w w' : World) : Prop where
  changes : Changes w.db w'.db
  owner : ∀ k u, w.owner k = some u → w'.owner k = some u
  posts : w'.posts = w.posts ∨ ∃ p, w'.posts = w.posts ++ [p] ∧ w.owner p.key = some t

def contract : Contract World Nat := ⟨Inv, Guar⟩

def Quiet {γ : Type} : Effect γ → Prop
  | .dispatchWorkflow .. => False
  | _ => True

section

variable {X : Externals} {t : Nat} {w w' : World}

lemma Inv.claimed_of_owner (hi : Inv w) {k : StageKey} {u : Nat} (hu : w.owner k = some u) :
    Claimed w.db k := by
  by_contra hn
  rw [(hi.fresh k hn).1] at hu
  cases hu

lemma commit_kept {reg : Registry} (hi : Inv w) (hc : Changes w.db reg.db) :
    Guar t w (w.commit t reg) ∧ Inv (w.commit t reg) := by
  refine ⟨⟨hc, fun k u hu => ?_, Or.inl rfl⟩, ⟨hi.changes.trans hc, fun k hk => ?_, hi.once, fun p hp => ?_⟩⟩
  · exact (if_neg fun h => h.1 (hi.claimed_of_owner hu)).trans hu
  · have hn : ¬ Claimed w.db k := fun h => hk (h.changes hc)
    exact ⟨(if_neg fun h => hk h.2).trans (hi.fresh k hn).1, (hi.fresh k hn).2⟩
  · obtain ⟨j, m, hrow, hm, hw⟩ := hi.watermark p hp
    exact ⟨j, m, hrow, hm, hw.changes hc⟩

lemma registry_kept {α : Type} {c : Call α} {r : Except Failure α} (hi : Inv w)
    (h : (system X).answer t (.registry c) w w' r) : Guar t w w' ∧ Inv w' := by
  rcases h with ⟨rfl, -⟩ | ⟨amb, rfl, -⟩
  · exact ⟨⟨.refl, fun _ _ h => h, Or.inl rfl⟩, hi⟩
  · exact commit_kept hi (exec_changes c w.registry)

lemma quiet_kept {γ : Type} {e : Effect γ} {r : Except Failure γ} (he : Quiet e) (hi : Inv w)
    (h : (system X).answer t e w w' r) : Guar t w w' ∧ Inv w' ∧ w'.posts = w.posts := by
  have hsame : w' = w → Guar t w w' ∧ Inv w' ∧ w'.posts = w.posts := by
    rintro rfl
    exact ⟨⟨.refl, fun _ _ h => h, Or.inl rfl⟩, hi, rfl⟩
  cases e with
  | registry c =>
    obtain ⟨hg, hi'⟩ := registry_kept hi h
    refine ⟨hg, hi', ?_⟩
    rcases h with ⟨rfl, -⟩ | ⟨amb, rfl, -⟩ <;> rfl
  | dispatchWorkflow => exact he.elim
  | _ => exact hsame h

/-- Thread `t` has claimed the dispatch and has not posted it. -/
def Holds (t : Nat) (k : StageKey) (w : World) : Prop := w.owner k = some t ∧ k ∉ w.posted

lemma Guar.holds {u : Nat} {k : StageKey} (hg : Guar u w w') (hu : u ≠ t) (h : Holds t k w) : Holds t k w' := by
  refine ⟨hg.owner k t h.1, ?_⟩
  rcases hg.posts with he | ⟨p, he, ho⟩
  · simpa [World.posted, he] using h.2
  · have hne : k ≠ p.key := by
      rintro rfl
      exact hu (Option.some.inj (ho.symm.trans h.1))
    simpa [World.posted, he, hne] using h.2

lemma holds_rely {k : StageKey} (hr : contract.rely t w w') (h : Holds t k w) : Holds t k w' :=
  contract.rely_stable (fun _ hu _ _ hg => Guar.holds hg hu) hr h

lemma holds_quiet {γ : Type} {e : Effect γ} {r : Except Failure γ} {k : StageKey} (he : Quiet e) (hi : Inv w)
    (h : (system X).answer t e w w' r) (hk : Holds t k w) : Holds t k w' := by
  obtain ⟨hg, -, hposts⟩ := quiet_kept he hi h
  exact ⟨hg.owner k t hk.1, by simpa [World.posted, hposts] using hk.2⟩

lemma holds_registry {α : Type} {c : Call α} {r : Except Failure α} {k : StageKey} (hi : Inv w)
    (h : (system X).answer t (.registry c) w w' r) (hk : Holds t k w) : Holds t k w' := by
  have he : Quiet (Effect.registry c) := trivial
  exact holds_quiet he hi h hk

lemma watermarked_rely {k : StageKey} {m : Int} (hr : contract.rely t w w') (h : Watermarked w.db k m) :
    Watermarked w'.db k m :=
  contract.rely_stable (fun _ _ _ _ hg hw => Watermarked.changes hw hg.changes) hr h

/-- A call that is no POST keeps the claim of its thread. -/
lemma wp_quiet {γ : Type} {e : Effect γ} {k : StageKey} {Q : Except Failure γ → World → Prop} (he : Quiet e)
    (hk : Holds t k w) (hQ : ∀ r w, Holds t k w → Q r w) :
    contract.wp (system X).toMachine t (.perform e) Q w := by
  refine Contract.wp_perform fun w₁ hr hi w₂ r hans => ?_
  obtain ⟨hg, hi₂, -⟩ := quiet_kept he hi hans
  exact ⟨hg, hi₂, hQ r w₂ (holds_quiet he hi hans (holds_rely hr hk))⟩

lemma claim_holds {requestId : String} {stage : Stage} {at_ : Option Datetime} {job : DispatchJob}
    (hi : Inv w) (h : (system X).answer t (.registry (.claimDispatch requestId stage at_)) w w' (.ok job)) :
    job.requestId = requestId ∧ Holds t (requestId, stage) w' := by
  rcases h with ⟨-, hr⟩ | ⟨amb, rfl, hr | hr⟩
  · cases hr
  · obtain ⟨db, hb, hreg⟩ := transact_eq_ok hr.symm
    obtain ⟨j, hj, hs, rfl, hj', -⟩ := claimDispatch_eq_ok hb
    have hkey : j.key = (requestId, stage) := Table.find?_key hj
    have hn : ¬ Claimed w.db (requestId, stage) := by
      rintro ⟨j', hj', hne⟩
      obtain rfl := Option.some.inj (hj.symm.trans hj')
      exact hne hs
    refine ⟨(Prod.mk.inj hkey).1, if_pos ⟨hn, ?_⟩, (hi.fresh _ hn).2⟩
    have hdb : ((Call.claimDispatch requestId stage at_).exec X amb w.registry).1 = ⟨db, w.registry.cas⟩ := hreg
    rw [hdb]
    exact ⟨_, hj', by simp⟩
  · cases hr

lemma watermark_holds {requestId : String} {stage : Stage} {m : Int} {at_ : Option Datetime}
    {job : DispatchJob} (h : (system X).answer t (.registry (.recordDispatchWatermark requestId stage m at_)) w w'
      (.ok job)) : Watermarked w'.db (requestId, stage) m := by
  rcases h with ⟨-, hr⟩ | ⟨amb, rfl, hr | hr⟩
  · cases hr
  · obtain ⟨db, hb, hreg⟩ := transact_eq_ok hr.symm
    obtain ⟨hj, -, hm, -⟩ := recordDispatchWatermark_eq_ok hb
    have hdb : ((Call.recordDispatchWatermark requestId stage m at_).exec X amb w.registry).1 =
      ⟨db, w.registry.cas⟩ := hreg
    exact ⟨job, by simpa [World.commit, World.db, hdb] using hj, hm⟩
  · cases hr

/-- The POST of a thread that holds the claim, once the watermark is stored. -/
lemma post_kept {stage : Stage} {installationId : Int} {repository path requestId : String} {m : Int}
    {r : Except Failure DispatchResult} (hi : Inv w) (hk : Holds t (requestId, stage) w)
    (hm : Watermarked w.db (requestId, stage) m)
    (h : (system X).answer t (.dispatchWorkflow stage installationId repository path requestId) w w' r) :
    Guar t w w' ∧ Inv w' := by
  obtain rfl := h
  obtain ⟨j, hj, hjm⟩ := hm
  refine ⟨⟨.refl, fun _ _ h => h, Or.inr ⟨_, rfl, hk.1⟩⟩, ⟨hi.changes, fun k hn => ?_, ?_, fun p hp => ?_⟩⟩
  · refine ⟨(hi.fresh k hn).1, ?_⟩
    have hne : k ≠ (requestId, stage) := by
      rintro rfl
      exact hn (hi.claimed_of_owner hk.1)
    simpa [World.posted, hne] using (hi.fresh k hn).2
  · have hnew := hk.2
    simp only [World.posted, List.map_append, List.map_cons, List.map_nil] at hnew ⊢
    refine List.nodup_append.mpr ⟨hi.once, by simp, fun k hk' k' hk'' => ?_⟩
    obtain rfl : k' = (requestId, stage) := by simpa using hk''
    rintro rfl
    exact hnew hk'
  · rcases List.mem_append.mp hp with hp | hp
    · exact hi.watermark p hp
    · obtain rfl := List.mem_singleton.mp hp
      exact ⟨j, m, hj, hjm, j, hj, hjm⟩

lemma wp_of_quiet {α : Type} {p : Action α} (hp : p.Only Quiet) :
    contract.wp (system X).toMachine t p (fun _ _ => True) w := by
  refine Contract.wp_of_only hp fun e he w₁ w₂ r hi hans => ?_
  obtain ⟨hg, hi₂, -⟩ := quiet_kept he hi hans
  exact ⟨hg, hi₂⟩

abbrev Safe (X : Externals) (t : Nat) {α : Type} (p : Action α) (w : World) : Prop :=
  contract.wp (system X).toMachine t p (fun _ _ => True) w

lemma safe_bind {α β : Type} {p : Action α} {f : α → Action β} (hp : p.Only Quiet)
    (hf : ∀ a w, Safe X t (f a) w) : Safe X t (p >>= f) w := Contract.wp_seq (wp_of_quiet hp) hf

/-- A quiet call of a thread that holds its claim, and goes on holding it. -/
lemma safe_quiet {γ β : Type} {e : Effect γ} {f : γ → Action β} {k : StageKey} (he : Quiet e)
    (hk : Holds t k w) (hf : ∀ a w, Holds t k w → Safe X t (f a) w) : Safe X t (.perform e >>= f) w := by
  refine Contract.wp_bind (wp_quiet he hk fun r w hk => ?_)
  cases r with
  | ok a => exact hf a w hk
  | error e => trivial

lemma safe_expect {α β : Type} {x : Option α} {code message : String} {f : α → Action β}
    (hf : ∀ a, Safe X t (f a) w) : Safe X t (Action.expect x code message >>= f) w := by
  cases x with
  | none => trivial
  | some a => exact hf a

lemma only_rejectIf {bad : Prop} [Decidable bad] {code message : String} :
    (Action.rejectIf bad code message).Only Quiet := by
  unfold Action.rejectIf
  split <;> trivial

lemma only_verifiedRecord (requestId : String) : (verifiedRecord requestId).Only Quiet := by
  refine Prog.only_bind (Prog.only_perform.mpr trivial) fun v => ?_
  refine Prog.only_bind (Prog.only_perform.mpr trivial) fun verified => ?_
  exact Prog.only_bind only_rejectIf fun _ => Prog.only_pure

lemma only_registry {α : Type} (c : Call α) : (Action.registry c).Only Quiet := Prog.only_perform.mpr trivial

lemma only_now : Action.now.Only Quiet := Prog.only_perform.mpr trivial

lemma only_afterPost (requestId : String) (stage : Stage) (result : DispatchResult) : (do
    if result.accepted then
      let status ← Action.expect result.status "DISPATCH_STATUS_INVALID" "accepted dispatch lacks HTTP status"
      let recordedAt ← Action.now
      Action.registry (.markDispatchPosted requestId stage result.reasonCode status (some recordedAt))
    else
      let resolvedAt ← Action.now
      Action.registry (.resolveDispatch requestId stage (if result.ambiguous then "Uncertain" else "Rejected")
        result.reasonCode result.status (some resolvedAt)) : Action DispatchJob).Only Quiet := by
  split
  · refine Prog.only_bind Prog.only_ofExcept fun status => ?_
    exact Prog.only_bind only_now fun recordedAt => only_registry _
  · exact Prog.only_bind only_now fun resolvedAt => only_registry _

lemma safe_dispatchStage (O : IntentDispatchOrchestrator) (requestId : String) (stage : Stage) :
    Safe X t (dispatchStage O requestId stage) w := by
  unfold dispatchStage
  refine safe_bind (Prog.only_perform.mpr trivial) fun current w => ?_
  refine safe_bind (only_verifiedRecord requestId) fun record w => ?_
  refine safe_bind (Prog.only_perform.mpr trivial) fun job w => ?_
  split
  · trivial
  refine Contract.wp_bind (Contract.wp_perform fun w₁ _ hi w₂ r hans => ?_)
  obtain ⟨hg, hi₂⟩ := registry_kept hi hans
  refine ⟨hg, hi₂, ?_⟩
  cases r with
  | error e => trivial
  | ok claimed =>
    -- from here on the thread holds the claim, whatever the others do
    obtain ⟨hid, hk⟩ := claim_holds hi hans
    refine safe_quiet trivial hk fun snapshotAt w hk => ?_
    refine safe_quiet trivial hk fun preexisting w hk => safe_expect fun watermark => ?_
    refine Contract.wp_bind (Contract.wp_perform fun w₁ hr hi w₂ r hans => ?_)
    obtain ⟨hg, hi₂⟩ := registry_kept hi hans
    refine ⟨hg, hi₂, ?_⟩
    cases r with
    | error e => trivial
    | ok updated =>
      have hm := watermark_holds hans
      have hk₂ := holds_registry hi hans (holds_rely hr hk)
      refine Contract.wp_bind (Contract.wp_perform fun w₃ hr₃ hi₃ w₄ r hans₄ => ?_)
      rw [hid] at hans₄
      obtain ⟨hg₄, hi₄⟩ := post_kept hi₃ (holds_rely hr₃ hk₂) (watermarked_rely hr₃ hm) hans₄
      refine ⟨hg₄, hi₄, ?_⟩
      cases r with
      | error e => trivial
      | ok result => exact wp_of_quiet (only_afterPost requestId stage result)

lemma only_reconcileDispatch (requestId : String) (stage : Stage) :
    (Dispatcher.reconcileDispatch X requestId stage).Only Quiet := by
  unfold Dispatcher.reconcileDispatch
  refine Prog.only_bind only_now fun current => Prog.only_bind (only_registry _) fun job => ?_
  refine Prog.only_bind only_rejectIf fun _ => Prog.only_bind Prog.only_ofExcept fun claimedAt => ?_
  refine Prog.only_bind only_rejectIf fun _ => Prog.only_bind Prog.only_ofExcept fun watermark => ?_
  refine Prog.only_bind (only_verifiedRecord requestId) fun record => Prog.only_bind only_rejectIf fun _ => ?_
  refine Prog.only_bind (Prog.only_perform.mpr trivial) fun runs => ?_
  split
  · split
    · exact only_registry _
    · trivial
  · refine Prog.only_bind (Prog.only_perform.mpr trivial) fun liveRef => ?_
    exact Prog.only_bind only_rejectIf fun _ => only_registry _
  · split
    · exact Prog.only_bind (only_registry _) fun _ => trivial
    · trivial

lemma safe_registerAndDispatchApply (O : IntentDispatchOrchestrator) (envelope : Json) :
    Safe X t (registerAndDispatchApply O envelope) w := by
  unfold registerAndDispatchApply
  refine safe_bind only_now fun current w => safe_bind (Prog.only_perform.mpr trivial) fun verified w => ?_
  refine safe_bind (only_registry _) fun _ w => safe_bind (Prog.only_perform.mpr trivial) fun liveRef w => ?_
  exact safe_bind (only_registry _) fun _ w => safe_dispatchStage O verified.requestId .apply

lemma safe_ignore {α : Type} {p : Action α} (h : Safe X t p w) : Safe X t (do let _ ← p) w :=
  Contract.wp_seq h fun _ _ => trivial

lemma system_meets (X : Externals) : Contract.Meets (system X) contract := by
  refine ⟨fun t p w hstart hi => ?_, fun w w' h hi => h ▸ hi⟩
  cases hstart with
  | registerAndDispatchApply O envelope => exact safe_ignore (safe_registerAndDispatchApply O envelope)
  | dispatchStage O requestId stage => exact safe_ignore (safe_dispatchStage O requestId stage)
  | reconcileDispatch requestId stage => exact safe_ignore (wp_of_quiet (only_reconcileDispatch requestId stage))
  | other c => exact safe_ignore (wp_of_quiet (only_registry c))

lemma inv_initial : Inv World.initial := by
  refine ⟨.refl, fun k _ => ⟨rfl, ?_⟩, ?_, ?_⟩
  · simp [World.initial, World.posted]
  · simp [World.initial, World.posted]
  · simp [World.initial]

lemma run_kept {c : World × Pool Failure Effect Nat} (h : (system X).Run (World.initial, fun _ => none) c) :
    Contract.Kept contract (system X) c := by
  have hinit : Contract.Kept contract (system X) (World.initial, fun _ => none) :=
    ⟨inv_initial, fun t p hp => by cases hp⟩
  exact Contract.kept_run (system_meets X) hinit h

lemma run_changes {c c' : World × Pool Failure Effect Nat} (hk : Contract.Kept contract (system X) c)
    (h : (system X).Run c c') : Changes c.1.db c'.1.db := by
  induction h with
  | refl => exact .refl
  | tail hpre hstep ih =>
    obtain ⟨-, he | ⟨t, hg⟩ | he⟩ := Contract.kept_step (system_meets X)
      (Contract.kept_run (system_meets X) hk hpre) hstep
    · rw [he]
      exact ih
    · exact ih.trans hg.changes
    · rw [show _ = _ from he]
      exact ih

theorem dispatch_posted_at_most_once {w : World} {pool : Pool Failure Effect Nat}
    (h : (system X).Run (World.initial, fun _ => none) (w, pool)) :
    (∀ k, w.posted.count k ≤ 1) ∧
    (∀ p ∈ w.posts, ∃ j m, p.row = some j ∧ j.preDispatchRunIdWatermark = some m ∧
      Watermarked w.db p.key m) ∧
    ∀ k j r, w.db.dispatches.find? k = some j → j.runId = some r →
      (∃ m, j.preDispatchRunIdWatermark = some m ∧ m < r) ∧
      (∀ w' pool', (system X).Run (w, pool) (w', pool') →
        ∃ j', w'.db.dispatches.find? k = some j' ∧ j'.runId = some r) ∧
      ∀ k' j', w.db.dispatches.find? k' = some j' → j'.runId = some r →
        (j'.repository = j.repository ∨ j'.repositoryId = j.repositoryId) → k' = k := by
  have hk := run_kept h
  have hbound := runsBound_changes hk.inv.changes runsBound_empty
  refine ⟨fun k => ?_, hk.inv.watermark, fun k j r hj hr => ⟨?_, fun w' pool' hrun => ?_, ?_⟩⟩
  · exact List.nodup_iff_count_le_one.mp hk.inv.once k
  · rcases hbound k j hj with ⟨hn, -⟩ | ⟨r', m, hr', hm, hlt, -⟩
    · rw [hn] at hr
      cases hr
    · obtain rfl := Option.some.inj (hr'.symm.trans hr)
      exact ⟨m, hm, hlt⟩
  · exact runId_changes (run_changes hk hrun) hbound hj hr
  · intro k' j' hj' hr' hrepo
    exact runId_unique hj hj' hr hr' hrepo

end

namespace Sample

open IntentStore.Sample

def orchestrator : IntentDispatchOrchestrator := ⟨3, principal, by decide, by decide⟩

def workflowRun : Json :=
  .obj [("id", .int 11), ("run_attempt", .int 1), ("event", .str "workflow_dispatch"),
    ("head_branch", .str "refs/heads/intent/1"), ("head_sha", .str "a"), ("path", .str "apply"),
    ("triggering_actor", .obj [("id", .int 7)]), ("created_at", .str "2026-07-16T20:02:00Z"),
    ("repository", .obj [("id", .int 42), ("full_name", .str "acik/platform")]),
    ("head_repository", .obj [("id", .int 42), ("full_name", .str "acik/platform")])]

def ambientOf (reg : Registry) : Ambient :=
  ⟨start + 2 * minute, fun i => toString reg.db.events.rows.length ++ "." ++ toString i⟩

/-- A world that answers the calls of one dispatch, with one workflow run for the POST. -/
def world {γ : Type} (e : Effect γ) (w : World) : Option (World × Except Failure γ) :=
  match e with
  | .now => some (w, .ok (start + 2 * minute))
  | .registry c =>
    let out := c.exec externals (ambientOf w.registry) w.registry
    some (w.commit 0 out.1, out.2)
  | .verifyEnvelope _ => some (w, .ok verified)
  | .github (.createIntentRef ..) => some (w, .ok ⟨"aaaaaaaaaaaaaaaaaaaaaaaaaaaaaaaaaaaaaaaa", "a", true⟩)
  | .github (.intentRef ..) => some (w, .ok ⟨"aaaaaaaaaaaaaaaaaaaaaaaaaaaaaaaaaaaaaaaa", "a", true⟩)
  | .github (.workflowRunsForDispatch ..) => some (w, .ok (if w.posts = [] then [] else [workflowRun]))
  | .dispatchWorkflow stage _ _ _ requestId =>
    some ({ w with posts := w.posts ++ [⟨(requestId, stage), w.db.dispatches.find? (requestId, stage)⟩] },
      .ok ⟨true, false, some 204, "DISPATCH_ACCEPTED_204"⟩)
  | _ => none

lemma world_answers : Answers (system externals).toMachine 0 world := by
  intro γ e w w' r h
  cases e with
  | registry c =>
    cases h
    exact Or.inr ⟨ambientOf w.registry, rfl, Or.inl rfl⟩
  | github query => cases query <;> cases h <;> rfl
  | _ => cases h <;> rfl

/-- The dispatch of a new intent, and then its reconciliation. -/
def accepted : Option World := do
  let (w, _) ← Prog.interp world (do let _ ← registerAndDispatchApply orchestrator envelope) World.initial
  let (w, _) ← Prog.interp world (do let _ ← Dispatcher.reconcileDispatch externals "req" .apply) w
  pure w

lemma run_accepted {w : World} (h : accepted = some w) :
    (system externals).Run (World.initial, fun _ => none) (w, fun _ => none) := by
  simp only [accepted, Option.bind_eq_bind, Option.bind_eq_some_iff, Option.pure_def, Option.some.injEq] at h
  obtain ⟨⟨w₁, out₁⟩, h₁, ⟨w₂, out₂⟩, h₂, rfl⟩ := h
  exact .trans (System.run_alone (.registerAndDispatchApply orchestrator envelope) (exec_interp world_answers h₁))
    (System.run_alone (.reconcileDispatch "req" .apply) (exec_interp world_answers h₂))

lemma accepted_facts : accepted.map (fun w => (w.posts.length, (w.db.dispatches.find? ("req", .apply)).bind (·.runId))) =
    some (1, some 11) := by
  decide +kernel

end Sample

theorem dispatch_posted_at_most_once_accepted : ∃ w, Sample.accepted = some w ∧ w.posts.length = 1 ∧
    w.posted.count ("req", .apply) ≤ 1 ∧
    ∃ j, w.db.dispatches.find? ("req", .apply) = some j ∧ j.runId = some 11 ∧
      ∃ m, j.preDispatchRunIdWatermark = some m ∧ m < 11 := by
  obtain ⟨w, hw, hfacts⟩ := Option.map_eq_some_iff.mp Sample.accepted_facts
  obtain ⟨hposts, hrunId⟩ := Prod.mk.inj hfacts
  obtain ⟨honce, -, hrun⟩ := dispatch_posted_at_most_once (Sample.run_accepted hw)
  obtain ⟨j, hj, hr⟩ := Option.bind_eq_some_iff.mp hrunId
  exact ⟨w, hw, hposts, honce _, j, hj, hr, (hrun _ j 11 hj hr).1⟩

end PlatformGitops.CrossAi.DispatchSafety
