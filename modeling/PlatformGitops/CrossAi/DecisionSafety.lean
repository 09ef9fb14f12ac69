import PlatformGitops.CrossAi.Server

/-! One service, with its worker, its poller and its restarts interleaved anywhere: all decisions posted for one
run are the one decision recorded for it, and none is posted once its callback is settled. -/

namespace PlatformGitops.CrossAi.DecisionSafety

open Library IntentStore Ledger Server Service

structure Inv (w : World) : Prop where
  posts : ∀ p ∈ w.posts, ∃ row, w.decision? p.decision.key = some row ∧ p.decision.state = row.state ∧
    p.decision.comment = row.comment

/-- A post of the holder of the lock: the decision of an open record. -/
def Posts (t : Nat) (w : World) (p : Sent) : Prop :=
  w.lock = some t ∧ ∃ row, w.decision? p.decision.key = some row ∧ p.decision.state = row.state ∧
    p.decision.comment = row.comment ∧ ¬ row.callbackStatus.Terminal

structure Guar (t : Nat) (w w' : World) : Prop where
  step : DecisionStep w.ledger w'.ledger
  decisions : w.lock = some t ∨ w'.ledger.decisions = w.ledger.decisions
  lock : ∀ u, u ≠ t → w.lock = some u → w'.lock = some u
  posts : w'.posts = w.posts ∨ ∃ p, w'.posts = w.posts ++ [p] ∧ Posts t w p

def contract : Contract World Nat := ⟨Inv, Guar⟩

def Held (t : Nat) (w : World) : Prop := w.lock = some t

/-- The effects a thread needs no lock for. -/
def Quiet {γ : Type} : Effect γ → Prop
  | .ledger c => ¬ c.Decides
  | .postDecision _ => False
  | .acquire => False
  | .release => False
  | _ => True

/-- The effects that neither take the lock nor free it, and post nothing. -/
def Calm {γ : Type} : Effect γ → Prop
  | .postDecision _ => False
  | .acquire => False
  | .release => False
  | _ => True

section

variable {X : Externals} {t : Nat} {w w' : World}

lemma Inv.keeps (hi : Inv w) (hstep : DecisionStep w.ledger w'.ledger) (hposts : w'.posts = w.posts) : Inv w' := by
  refine ⟨fun p hp => ?_⟩
  obtain ⟨row, hrow, hstate, hcomment⟩ := hi.posts p (hposts ▸ hp)
  obtain ⟨row', hrow', hs, hc, -⟩ := hstep.keeps hrow
  exact ⟨row', hrow', hstate.trans hs.symm, hcomment.trans hc.symm⟩

lemma calm_answer {γ : Type} {e : Effect γ} {r : Except Failure γ} (he : Calm e)
    (h : (system X).answer t e w w' r) :
    DecisionStep w.ledger w'.ledger ∧ (Quiet e → w'.ledger.decisions = w.ledger.decisions) ∧
      w'.lock = w.lock ∧ w'.posts = w.posts := by
  cases e with
  | registry c =>
    rcases h with ⟨rfl, -⟩ | ⟨amb, -, rfl⟩ <;> exact ⟨.same rfl, fun _ => rfl, rfl, rfl⟩
  | ledger c =>
    rcases h with ⟨rfl, -⟩ | ⟨amb, -, rfl⟩
    · exact ⟨.same rfl, fun _ => rfl, rfl, rfl⟩
    · exact ⟨exec_step c, fun hc => exec_same hc, rfl, rfl⟩
  | postDecision => exact he.elim
  | acquire => exact he.elim
  | release => exact he.elim
  | evaluate =>
    obtain ⟨rfl, -⟩ := h
    exact ⟨.same rfl, fun _ => rfl, rfl, rfl⟩
  | _ =>
    obtain rfl : w' = w := h
    exact ⟨.same rfl, fun _ => rfl, rfl, rfl⟩

lemma calm_kept {γ : Type} {e : Effect γ} {r : Except Failure γ} (he : Calm e) (hi : Inv w) (hheld : Held t w)
    (h : (system X).answer t e w w' r) : Guar t w w' ∧ Inv w' ∧ Held t w' := by
  obtain ⟨hstep, -, hlock, hposts⟩ := calm_answer he h
  exact ⟨⟨hstep, .inl hheld, fun u _ hu => hlock.trans hu, .inl hposts⟩, hi.keeps hstep hposts, hlock.trans hheld⟩

lemma Quiet.calm {γ : Type} {e : Effect γ} (he : Quiet e) : Calm e := by
  cases e <;> trivial

lemma quiet_kept {γ : Type} {e : Effect γ} {r : Except Failure γ} (he : Quiet e) (hi : Inv w)
    (h : (system X).answer t e w w' r) : Guar t w w' ∧ Inv w' := by
  obtain ⟨hstep, hsame, hlock, hposts⟩ := calm_answer he.calm h
  exact ⟨⟨hstep, .inr (hsame he), fun u _ hu => hlock.trans hu, .inl hposts⟩, hi.keeps hstep hposts⟩

lemma held_rely (hr : contract.rely t w w') (h : Held t w) : Held t w' :=
  contract.rely_stable (fun _ hu _ _ hg hw => hg.lock t (Ne.symm hu) hw) hr h

/-- The holder of the lock has seen the record of the run, and nobody else changes it. -/
def Seen (t : Nat) (row : DecisionRecord) (w : World) : Prop := Held t w ∧ w.decision? row.key = some row

lemma Guar.seen {u : Nat} {row : DecisionRecord} (hg : Guar u w w') (hu : u ≠ t) (h : Seen t row w) :
    Seen t row w' := by
  refine ⟨hg.lock t (Ne.symm hu) h.1, ?_⟩
  rcases hg.decisions with hl | hd
  · exact (hu (Option.some.inj (hl.symm.trans h.1))).elim
  · rw [World.decision?, hd]
    exact h.2

lemma seen_rely {row : DecisionRecord} (hr : contract.rely t w w') (h : Seen t row w) : Seen t row w' :=
  contract.rely_stable (fun _ hu _ _ hg => Guar.seen hg hu) hr h

lemma claim_seen {request : DeploymentProtectionRequest} {v : Verdict} {row : DecisionRecord} {inserted : Bool}
    (hheld : Held t w)
    (h : (system X).answer t (.ledger (.claimDecision request v.state v.reasonCode v.evidenceDigest v.comment)) w w'
      (.ok (row, inserted))) :
    Seen t row w' ∧ row.Says request v.state v.reasonCode v.evidenceDigest v.comment := by
  rcases h with ⟨-, hr⟩ | ⟨amb, hr | hr, rfl⟩
  · cases hr
  · obtain ⟨hterms, hrow⟩ := exec_claimDecision hr.symm
    refine ⟨⟨hheld, ?_⟩, hterms⟩
    rw [hterms.key]
    exact hrow
  · cases hr

lemma post_kept {request : DeploymentProtectionRequest} {v : Verdict} {row : DecisionRecord}
    {r : Except Failure CallbackResult} (hi : Inv w) (hseen : Seen t row w)
    (hterms : row.Says request v.state v.reasonCode v.evidenceDigest v.comment)
    (hopen : ¬ row.callbackStatus.Terminal)
    (h : (system X).answer t (.postDecision (decisionOf request v)) w w' r) :
    Guar t w w' ∧ Inv w' ∧ Held t w' := by
  obtain rfl : w' = w.post (decisionOf request v) := h
  have hrow : w.decision? (decisionOf request v).key = some row := by
    rw [show (decisionOf request v).key = row.key from hterms.key.symm]
    exact hseen.2
  refine ⟨⟨.same rfl, .inl hseen.1, fun u _ hu => hu, .inr ⟨_, rfl, hseen.1, row, hrow, hterms.state.symm,
    hterms.comment.symm, hopen⟩⟩, ⟨fun p hp => ?_⟩, hseen.1⟩
  rcases List.mem_append.mp hp with hp | hp
  · exact hi.posts p hp
  · obtain rfl := List.mem_singleton.mp hp
    exact ⟨row, hrow, hterms.state.symm, hterms.comment.symm⟩

/-- The program keeps the contract and the lock. -/
abbrev Keeps (X : Externals) (t : Nat) {α : Type} (p : Action α) (w : World) : Prop :=
  contract.wp (system X).toMachine t p (fun _ w => Held t w) w

lemma keeps_calm {α : Type} {p : Action α} (hp : p.Only Calm) (hheld : Held t w) : Keeps X t p w :=
  Contract.wp_stable (fun _ _ hr h => held_rely hr h) hp (fun _ he _ _ _ hi hh hans => calm_kept he hi hh hans) hheld

lemma keeps_bind {α β : Type} {p : Action α} {f : α → Action β} (hp : Keeps X t p w)
    (hf : ∀ a w, Held t w → Keeps X t (f a) w) : Keeps X t (p >>= f) w := by
  refine Contract.wp_bind (Contract.wp_mono (fun r w hheld => ?_) hp)
  cases r with
  | ok a => exact hf a w hheld
  | error e => exact hheld

lemma keeps_attempt {α β : Type} {p : Action α} {f : Except Failure α → Action β} (hp : Keeps X t p w)
    (hf : ∀ r w, Held t w → Keeps X t (f r) w) : Keeps X t (p.attempt >>= f) w :=
  Contract.wp_bind (Contract.wp_attempt (Contract.wp_mono (fun r w hheld => hf r w hheld) hp))

lemma calm_registry {α : Type} (c : IntentStore.Call α) : (Action.registry c).Only Calm :=
  Prog.only_perform.mpr trivial

lemma calm_ledger {α : Type} (c : Ledger.Call α) : (Action.ledger c).Only Calm := Prog.only_perform.mpr trivial

lemma keeps_postClaimedDecision (request : DeploymentProtectionRequest) (v : Verdict)
    (reservation : Option StageReservation) (hheld : Held t w) :
    Keeps X t (postClaimedDecision request v reservation) w := by
  refine Contract.wp_bind (Contract.wp_perform fun w₁ hr hi w₂ r hans => ?_)
  have hcalm : Calm (Effect.ledger (.claimDecision request v.state v.reasonCode v.evidenceDigest v.comment)) := trivial
  obtain ⟨hg, hi₂, hheld₂⟩ := calm_kept hcalm hi (held_rely hr hheld) hans
  refine ⟨hg, hi₂, ?_⟩
  cases r with
  | error e => exact hheld₂
  | ok claimed =>
    obtain ⟨row, inserted⟩ := claimed
    obtain ⟨hseen, hterms⟩ := claim_seen (held_rely hr hheld) hans
    dsimp only
    split
    · exact keeps_calm (calm_ledger _) hheld₂
    · rename_i hopen
      -- between the claim and the POST the lock keeps the record as it was claimed
      refine Contract.wp_bind (Contract.wp_perform fun w₃ hr₃ hi₃ w₄ r hans₄ => ?_)
      obtain ⟨hg₄, hi₄, hheld₄⟩ := post_kept hi₃ (seen_rely hr₃ hseen) hterms hopen hans₄
      refine ⟨hg₄, hi₄, ?_⟩
      cases r with
      | error e => exact hheld₄
      | ok callback =>
        dsimp only
        split
        · exact keeps_calm (only_recordAccepted (fun _ _ _ _ _ => trivial) (fun _ => trivial) _ _ _ _) hheld₄
        · exact keeps_calm (only_recordRefused (fun _ _ _ _ _ => trivial) (fun _ => trivial) _ _ _ _) hheld₄

lemma keeps_refuse (request : DeploymentProtectionRequest) (reservation : Option StageReservation) (e : Failure)
    (hheld : Held t w) : Keeps X t (refuse request reservation e) w := by
  cases e with
  | policy exc =>
    refine keeps_bind (keeps_calm (only_rejectStage (fun _ _ _ _ _ => trivial) exc.code reservation) hheld) fun _ w hheld => ?_
    refine keeps_attempt (keeps_postClaimedDecision request _ none hheld) fun r w hheld => ?_
    split
    · exact hheld
    · split
      · exact hheld
      · exact keeps_bind (keeps_calm (calm_ledger _) hheld) fun _ w hheld => hheld
    · exact hheld
  | _ => exact hheld

lemma calm_rejectIf {bad : Prop} [Decidable bad] {code message : String} :
    (Action.rejectIf bad code message).Only Calm := by
  unfold Action.rejectIf
  split <;> trivial

lemma calm_evaluator (request : DeploymentProtectionRequest) : (evaluator request).Only Calm :=
  Prog.only_perform.mpr trivial

lemma calm_evaluateAndReserve (request : DeploymentProtectionRequest) :
    (evaluateAndReserve request evaluator).Only Calm :=
  Prog.only_bind (calm_evaluator request) fun _ => Prog.only_bind (calm_registry _) fun _ => Prog.only_pure

lemma calm_recheck (request : DeploymentProtectionRequest) (result : EvaluationResult) :
    (recheck request evaluator result).Only Calm :=
  Prog.only_bind (calm_evaluator request) fun _ => calm_rejectIf

lemma keeps_enforce (request : DeploymentProtectionRequest) (hheld : Held t w) :
    Keeps X t (enforce request evaluator) w := by
  refine keeps_bind (keeps_calm (calm_ledger _) hheld) fun _ w hheld => ?_
  refine keeps_attempt (keeps_calm (calm_evaluateAndReserve request) hheld) fun r w hheld => ?_
  cases r with
  | error e => exact keeps_refuse request none e hheld
  | ok found =>
    obtain ⟨result, reservation⟩ := found
    refine keeps_attempt (keeps_calm (calm_recheck request result) hheld) fun r w hheld => ?_
    cases r with
    | error e => exact keeps_refuse request (some reservation) e hheld
    | ok _ =>
      exact keeps_bind (keeps_postClaimedDecision request _ _ hheld) fun _ w hheld => hheld

abbrev Safe (X : Externals) (t : Nat) {α : Type} (p : Action α) (w : World) : Prop :=
  contract.wp (system X).toMachine t p (fun _ _ => True) w

lemma acquire_kept {r : Except Failure Unit} (hi : Inv w) (h : (system X).answer t .acquire w w' r) :
    Guar t w w' ∧ Inv w' ∧ Held t w' := by
  obtain ⟨hfree, rfl, -⟩ := h
  refine ⟨⟨.same rfl, .inr rfl, fun u _ hu => ?_, .inl rfl⟩, ⟨hi.posts⟩, rfl⟩
  rw [hfree] at hu
  cases hu

lemma release_kept {r : Except Failure Unit} (hi : Inv w) (hheld : Held t w)
    (h : (system X).answer t .release w w' r) : Guar t w w' ∧ Inv w' := by
  obtain ⟨rfl, -⟩ := h
  refine ⟨⟨.same rfl, .inl hheld, fun u hu hl => ?_, .inl rfl⟩, ⟨hi.posts⟩⟩
  exact (hu (Option.some.inj (hl.symm.trans hheld))).elim

lemma safe_locked {α : Type} {body : Action α} (hbody : ∀ w, Held t w → Keeps X t body w) :
    Safe X t (locked body) w := by
  refine Contract.wp_bind (Contract.wp_perform fun w₁ hr hi w₂ r hans => ?_)
  obtain ⟨hg, hi₂, hheld⟩ := acquire_kept hi hans
  refine ⟨hg, hi₂, ?_⟩
  cases r with
  | error e => trivial
  | ok _ =>
    refine Contract.wp_bind (Contract.wp_attempt (Contract.wp_mono (fun out w hheld => ?_) (hbody w₂ hheld)))
    refine Contract.wp_bind (Contract.wp_perform fun w₃ hr₃ hi₃ w₄ r hans₄ => ?_)
    obtain ⟨hg₄, hi₄⟩ := release_kept hi₃ (held_rely hr₃ hheld) hans₄
    refine ⟨hg₄, hi₄, ?_⟩
    cases r with
    | error e => trivial
    | ok _ => cases out <;> trivial

lemma safe_quiet {α : Type} {p : Action α} (hp : p.Only Quiet) : Safe X t p w :=
  Contract.wp_of_only hp fun _ he _ _ _ hi hans => quiet_kept he hi hans

lemma safe_bind {α β : Type} {p : Action α} {f : α → Action β} (hp : Safe X t p w)
    (hf : ∀ a w, Safe X t (f a) w) : Safe X t (p >>= f) w := by
  refine Contract.wp_bind (Contract.wp_mono (fun r w _ => ?_) hp)
  cases r with
  | ok a => exact hf a w
  | error e => trivial

lemma quiet_append (request : DeploymentProtectionRequest) (eventType reasonCode : String) (evidence : Option String) :
    (append request eventType reasonCode evidence).Only Quiet :=
  Prog.only_perform.mpr id

lemma safe_workerCycle (request : DeploymentProtectionRequest) : Safe X t (workerCycle request evaluator) w := by
  refine Contract.wp_bind (Contract.wp_attempt (Contract.wp_mono (fun r w _ => ?_)
    (safe_locked fun w hheld => keeps_enforce request hheld)))
  cases r with
  | ok _ => trivial
  | error e => exact safe_bind (safe_quiet (Prog.only_attempt (quiet_append request _ _ _))) fun _ _ => trivial

lemma safe_processPolled (request : DeploymentProtectionRequest) : Safe X t (processPolled request evaluator) w := by
  refine safe_bind (safe_quiet ?_) fun _ w => safe_locked fun w hheld => ?_
  · unfold Action.rejectIf
    split <;> trivial
  · refine keeps_bind (keeps_calm (calm_ledger _) hheld) fun _ w hheld => ?_
    refine keeps_bind (keeps_calm (calm_ledger _) hheld) fun succeeded w hheld => ?_
    cases succeeded with
    | true => exact hheld
    | false =>
      exact keeps_bind (keeps_enforce request hheld) fun _ w hheld => keeps_calm (calm_ledger _) hheld

lemma system_meets (X : Externals) : Contract.Meets (system X) contract := by
  refine ⟨fun t p w hstart hi => ?_, fun w w' h hi => ?_⟩
  · cases hstart with
    | accept request => exact safe_bind (safe_quiet (Prog.only_perform.mpr id)) fun _ _ => trivial
    | worker request => exact safe_workerCycle request
    | polled request => exact safe_bind (safe_processPolled request) fun _ _ => trivial
    | other c => exact safe_bind (safe_quiet (Prog.only_perform.mpr trivial)) fun _ _ => trivial
  · obtain rfl : w' = { w with lock := none, reservation := none } := h
    exact ⟨hi.posts⟩

lemma run_kept {c : World × Pool Failure Effect Nat} (h : (system X).Run (World.initial, fun _ => none) c) :
    Contract.Kept contract (system X) c := by
  refine Contract.kept_run (system_meets X) ⟨⟨fun p hp => ?_⟩, fun t p hp => ?_⟩ h
  · simp [World.initial] at hp
  · cases hp

/-- A settled record keeps its status, and its run gets no further POST. -/
lemma settled_step {c c' : World × Pool Failure Effect Nat} (hk : Contract.Kept contract (system X) c)
    (h : (system X).Step c c') {k : DecisionKey} {row : DecisionRecord} (hrow : c.1.decision? k = some row)
    (hsettled : row.callbackStatus.Terminal) :
    (∃ row', c'.1.decision? k = some row' ∧ row'.callbackStatus = row.callbackStatus) ∧
      c'.1.posts.filter (·.decision.key = k) = c.1.posts.filter (·.decision.key = k) := by
  obtain ⟨-, hsame | ⟨t, hg⟩ | hrestart⟩ := Contract.kept_step (system_meets X) hk h
  · rw [hsame]
    exact ⟨⟨row, hrow, rfl⟩, rfl⟩
  · obtain ⟨row', hrow', -, -, hstatus⟩ := hg.step.keeps hrow
    refine ⟨⟨row', hrow', hstatus hsettled⟩, ?_⟩
    rcases hg.posts with hposts | ⟨p, hposts, -, open_, hopen, -, -, hnot⟩
    · rw [hposts]
    · have hne : p.decision.key ≠ k := by
        rintro rfl
        obtain rfl := Option.some.inj (hopen.symm.trans hrow)
        exact hnot hsettled
      rw [hposts, List.filter_append]
      simp [hne]
  · have hstate : c'.1 = { c.1 with lock := none, reservation := none } := hrestart
    rw [hstate]
    exact ⟨⟨row, hrow, rfl⟩, rfl⟩

lemma settled_run {c c' : World × Pool Failure Effect Nat} (hk : Contract.Kept contract (system X) c)
    (h : (system X).Run c c') {k : DecisionKey} {row : DecisionRecord} (hrow : c.1.decision? k = some row)
    (hsettled : row.callbackStatus.Terminal) :
    (∃ row', c'.1.decision? k = some row' ∧ row'.callbackStatus = row.callbackStatus) ∧
      c'.1.posts.filter (·.decision.key = k) = c.1.posts.filter (·.decision.key = k) := by
  induction h with
  | refl => exact ⟨⟨row, hrow, rfl⟩, rfl⟩
  | tail hpre hstep ih =>
    obtain ⟨⟨row₁, hrow₁, hstatus₁⟩, hposts₁⟩ := ih
    obtain ⟨⟨row₂, hrow₂, hstatus₂⟩, hposts₂⟩ :=
      settled_step (Contract.kept_run (system_meets X) hk hpre) hstep hrow₁ (hstatus₁ ▸ hsettled)
    exact ⟨⟨row₂, hrow₂, hstatus₂.trans hstatus₁⟩, hposts₂.trans hposts₁⟩

theorem posted_decisions_agree {w : World} {pool : Pool Failure Effect Nat}
    (h : (system X).Run (World.initial, fun _ => none) (w, pool)) :
    (∀ p ∈ w.posts, ∃ row, w.decision? p.decision.key = some row ∧ p.decision.state = row.state ∧
      p.decision.comment = row.comment) ∧
    (∀ p ∈ w.posts, ∀ q ∈ w.posts, p.decision.key = q.decision.key →
      p.decision.state = q.decision.state ∧ p.decision.comment = q.decision.comment) ∧
    ∀ k row, w.decision? k = some row →
      row.callbackStatus = .succeeded ∨ row.callbackStatus = .definitiveFailure →
      ∀ w' pool', (system X).Run (w, pool) (w', pool') →
        w'.posts.filter (·.decision.key = k) = w.posts.filter (·.decision.key = k) := by
  have hk := run_kept h
  refine ⟨hk.inv.posts, fun p hp q hq hkey => ?_, fun k row hrow hsettled w' pool' hrun => ?_⟩
  · obtain ⟨row, hrow, hps, hpc⟩ := hk.inv.posts p hp
    obtain ⟨row', hrow', hqs, hqc⟩ := hk.inv.posts q hq
    rw [hkey, hrow'] at hrow
    obtain rfl := Option.some.inj hrow
    exact ⟨hps.trans hqs.symm, hpc.trans hqc.symm⟩
  · exact (settled_run hk hrun hrow hsettled).2

end

theorem posted_decisions_agree_retried : ∃ w, Service.Sample.retried = some w ∧ w.posts.length = 2 ∧
    (∀ p ∈ w.posts, ∃ row, w.decision? p.decision.key = some row ∧ p.decision.state = row.state ∧
      p.decision.comment = row.comment) ∧
    ∃ row, w.decision? (42, "production", 11) = some row ∧ row.callbackStatus = .succeeded ∧
      ∀ w' pool', (system Service.Sample.externals).Run (w, fun _ => none) (w', pool') →
        w'.posts.filter (·.decision.key = (42, "production", 11)) =
          w.posts.filter (·.decision.key = (42, "production", 11)) := by
  obtain ⟨w, hw, hview⟩ := Option.map_eq_some_iff.mp Service.Sample.retried_view
  obtain ⟨hposts, hstatus, -⟩ := by simpa only [Service.Sample.view, Prod.mk.injEq] using hview
  obtain ⟨hsame, -, hsettled⟩ := posted_decisions_agree (Service.Sample.run_retried hw)
  obtain ⟨row, hrow, hsucceeded⟩ := Option.map_eq_some_iff.mp hstatus
  refine ⟨w, hw, by simpa using congrArg List.length hposts, hsame, row, hrow, hsucceeded, fun w' pool' hrun => ?_⟩
  exact hsettled _ row hrow (.inl hsucceeded) w' pool' hrun

end PlatformGitops.CrossAi.DecisionSafety
