import PlatformGitops.CrossAi.IntentStore.StageChanges
import PlatformGitops.CrossAi.Server

/-! The cycles of one service, one after the other: in which of them an approval is posted. -/

namespace PlatformGitops.CrossAi.EnforcementOrder

open Library IntentStore Ledger Server Service

/-- An approval is posted in a cycle that was given a reservation in state Reserved, for a stage in that state. -/
def Good (p : Sent) : Prop :=
  p.decision.state = .approved → ∃ r row, p.reservation = some r ∧ r.state = .reserved ∧ p.row = some row ∧
    row.state = .reserved

def AllGood (w : World) : Prop := ∀ p ∈ w.posts, Good p

/-- If a stage of the request is already bound to its run and past Reserved, then the run has a decision record that
is settled or rejects. -/
def Guarded (request : DeploymentProtectionRequest) (w : World) : Prop :=
  ∀ stage row, w.db.stages.find? (request.requestId, stage) = some row → row.runId = some request.runId →
    row.state ≠ .available → row.state ≠ .reserved →
    ∃ record, w.decision? (decisionKey request) = some record ∧
      (record.callbackStatus.Terminal ∨ record.state = .rejected)

/-- A turn of the service: the whole of one of its programs, or a restart. An enforcement cycle starts in a state
that meets the guard. -/
inductive Turn (X : Externals) (guard : DeploymentProtectionRequest → World → Prop) : World → World → Prop
  | worker {request : DeploymentProtectionRequest} {w w' : World} {out : Except Failure Unit} : guard request w →
      Exec (system X).toMachine 0 (workerCycle request evaluator) w w' out → Turn X guard w w'
  | polled {request : DeploymentProtectionRequest} {w w' : World} {out : Except Failure Unit} : guard request w →
      Exec (system X).toMachine 0 (do let _ ← processPolled request evaluator) w w' out → Turn X guard w w'
  | accept {request : DeploymentProtectionRequest} {w w' : World} {out : Except Failure Unit} :
      Exec (system X).toMachine 0 (do let _ ← accept request) w w' out → Turn X guard w w'
  | other {α : Type} {c : IntentStore.Call α} {w w' : World} {out : Except Failure Unit} :
      Exec (system X).toMachine 0 (do let _ ← Action.registry c) w w' out → Turn X guard w w'
  | restart {w w' : World} : (system X).restart w w' → Turn X guard w w'

/-- The effects that post nothing. -/
def Silent {γ : Type} : Effect γ → Prop
  | .postDecision _ => False
  | _ => True

/-- The effects that change neither the registry nor a decision record. -/
def Still {γ : Type} : Effect γ → Prop
  | .registry _ => False
  | .ledger c => ¬ c.Decides
  | .postDecision _ => False
  | .acquire => False
  | .release => False
  | _ => True

/-- The two worlds agree on the registry, the decision records, the given reservation and the posts. -/
structure Same (w w' : World) : Prop where
  registry : w'.registry = w.registry
  decisions : w'.ledger.decisions = w.ledger.decisions
  reservation : w'.reservation = w.reservation
  posts : w'.posts = w.posts

section

variable {X : Externals} {w₀ w w' : World}

lemma Same.refl (w : World) : Same w w := ⟨rfl, rfl, rfl, rfl⟩

lemma Same.trans {w'' : World} (h : Same w w') (h' : Same w' w'') : Same w w'' :=
  ⟨h'.registry.trans h.registry, h'.decisions.trans h.decisions, h'.reservation.trans h.reservation,
    h'.posts.trans h.posts⟩

lemma still_answer {t : Nat} {γ : Type} {e : Effect γ} {r : Except Failure γ} (he : Still e)
    (h : (system X).answer t e w w' r) : Same w w' := by
  cases e with
  | registry c => exact he.elim
  | ledger c =>
    rcases h with ⟨rfl, -⟩ | ⟨amb, -, rfl⟩
    · exact .refl _
    · exact ⟨rfl, exec_same he, rfl, rfl⟩
  | postDecision => exact he.elim
  | acquire => exact he.elim
  | release => exact he.elim
  | evaluate =>
    obtain ⟨rfl, -⟩ := h
    exact .refl _
  | _ =>
    obtain rfl : w' = w := h
    exact .refl _

lemma silent_answer {t : Nat} {γ : Type} {e : Effect γ} {r : Except Failure γ} (he : Silent e)
    (h : (system X).answer t e w w' r) : w'.posts = w.posts := by
  cases e with
  | registry c => rcases h with ⟨rfl, -⟩ | ⟨amb, -, rfl⟩ <;> rfl
  | ledger c => rcases h with ⟨rfl, -⟩ | ⟨amb, -, rfl⟩ <;> rfl
  | postDecision => exact he.elim
  | acquire => exact h.2.1 ▸ rfl
  | release => exact h.1 ▸ rfl
  | evaluate => exact h.1 ▸ rfl
  | _ => exact h ▸ rfl

abbrev Ends (X : Externals) {α : Type} (p : Action α) (Q : Except Failure α → World → Prop) (w : World) : Prop :=
  Triple (system X).toMachine 0 p Q w

lemma ends_silent {α : Type} {p : Action α} (hp : p.Only Silent) (hw : AllGood w) :
    Ends X p (fun _ w => AllGood w) w := by
  refine triple_only hp (fun e he w₁ w₂ r hg hans => ?_) hw
  rw [AllGood, silent_answer he hans]
  exact hg

lemma ends_still {α : Type} {p : Action α} (hp : p.Only Still) (hw : Same w₀ w) :
    Ends X p (fun _ w => Same w₀ w) w :=
  triple_only hp (fun _ he _ _ _ hs hans => hs.trans (still_answer he hans)) hw

lemma silent_registry {α : Type} (c : IntentStore.Call α) : (Action.registry c).Only Silent :=
  Prog.only_perform.mpr trivial

lemma silent_ledger {α : Type} (c : Ledger.Call α) : (Action.ledger c).Only Silent := Prog.only_perform.mpr trivial

lemma ends_ignore {α : Type} {p : Action α} (hp : Ends X p (fun _ w => AllGood w) w) :
    Ends X (do let _ ← p) (fun _ w => AllGood w) w :=
  triple_bind hp (fun _ _ h => triple_pure h) fun _ _ h => h

/-- The claim of a decision changes only the ledger, and returns the record that was there or a new one. -/
lemma claim_answer {request : DeploymentProtectionRequest} {v : Verdict} {r : Except Failure (DecisionRecord × Bool)}
    (h : (system X).answer 0 (.ledger (.claimDecision request v.state v.reasonCode v.evidenceDigest v.comment)) w w' r) :
    w'.registry = w.registry ∧ w'.reservation = w.reservation ∧ w'.posts = w.posts ∧
      ∀ row inserted, r = .ok (row, inserted) →
        row.Says request v.state v.reasonCode v.evidenceDigest v.comment ∧
          (w.decision? (decisionKey request) = none ∨ w.decision? (decisionKey request) = some row) := by
  rcases h with ⟨rfl, rfl⟩ | ⟨amb, hr, rfl⟩
  · exact ⟨rfl, rfl, rfl, fun _ _ h => by cases h⟩
  · refine ⟨rfl, rfl, rfl, fun row inserted hok => ?_⟩
    rcases hr with hr | hr
    · obtain ⟨hterms, ⟨-, hfound⟩ | ⟨hnone, -⟩⟩ := claimDecision_eq_ok (transact_eq_ok (hr.symm.trans hok))
      · exact ⟨hterms, .inr hfound⟩
      · exact ⟨hterms, .inl hnone⟩
    · rw [hr] at hok
      cases hok

/-- A reservation in state Reserved was given, of a stage in that state. -/
def Reserving (w : World) : Prop :=
  ∃ r row, w.reservation = some r ∧ r.state = .reserved ∧ w.db.stages.find? (r.requestId, r.stage) = some row ∧
    row.state = .reserved

/-- A decision is posted only for an open record of this verdict, or for a new one; if it approves, the cycle must
then hold a reservation. -/
lemma ends_postClaimedDecision (request : DeploymentProtectionRequest) (v : Verdict)
    (reservation : Option StageReservation) (hgood : AllGood w)
    (hpost : v.state = .approved → ∀ row : DecisionRecord,
      w.decision? (decisionKey request) = none ∨ w.decision? (decisionKey request) = some row →
      row.Says request v.state v.reasonCode v.evidenceDigest v.comment → ¬ row.callbackStatus.Terminal → Reserving w) :
    Ends X (postClaimedDecision request v reservation) (fun _ w => AllGood w) w := by
  refine triple_bind (triple_perform fun w₁ r hans => claim_answer hans) (fun claimed w₁ hq => ?_) fun e w₁ hq => ?_
  · obtain ⟨row, inserted⟩ := claimed
    obtain ⟨hregistry, hreservation, hposts, hclaim⟩ := hq
    obtain ⟨hterms, hfound⟩ := hclaim row inserted rfl
    have hgood₁ : AllGood w₁ := by
      rw [AllGood, hposts]
      exact hgood
    dsimp only
    split
    · exact ends_silent (silent_ledger _) hgood₁
    · rename_i hopen
      have hposted : AllGood (w₁.post (decisionOf request v)) := by
        intro p hp
        rcases List.mem_append.mp hp with hp | hp
        · exact hgood₁ p hp
        · obtain rfl := List.mem_singleton.mp hp
          intro hstate
          obtain ⟨r, stageRow, hr, hrs, hrow, hrows⟩ := hpost hstate row hfound hterms hopen
          refine ⟨r, stageRow, hreservation.trans hr, hrs, ?_, hrows⟩
          simp only [hreservation, hr, Option.bind_some, World.db, hregistry]
          exact hrow
      refine triple_bind (triple_perform fun w₂ r hans => (show w₂ = w₁.post (decisionOf request v) from hans))
        (fun callback w₂ hq => ?_) fun e w₂ hq => hq ▸ hposted
      subst hq
      split
      · exact ends_silent (only_recordAccepted (fun _ _ _ _ _ => trivial) (fun _ => trivial) _ _ _ _) hposted
      · exact ends_silent (only_recordRefused (fun _ _ _ _ _ => trivial) (fun _ => trivial) _ _ _ _) hposted
  · rw [AllGood, hq.2.2.1]
    exact hgood

lemma ends_refuse (request : DeploymentProtectionRequest) (reservation : Option StageReservation) (e : Failure)
    (hgood : AllGood w) : Ends X (refuse request reservation e) (fun _ w => AllGood w) w := by
  cases e with
  | policy exc =>
    refine triple_bind (ends_silent (only_rejectStage (fun _ _ _ _ _ => trivial) exc.code reservation) hgood)
      (fun _ w hgood => ?_) fun _ _ h => h
    refine triple_attempt (ends_postClaimedDecision request _ none hgood fun h => by cases h) fun r w hgood => ?_
    split
    · exact triple_pure hgood
    · split
      · exact triple_fail hgood
      · exact triple_bind (ends_silent (silent_ledger _) hgood) (fun _ _ h => triple_pure h) fun _ _ h => h
    · exact triple_fail hgood
  | _ => exact triple_fail hgood

/-- What the state is once a cycle was given a reservation: the stage is reserved, or it already was past that when
the cycle began. -/
structure Given (request : DeploymentProtectionRequest) (w₀ w : World) : Prop where
  decisions : w.ledger.decisions = w₀.ledger.decisions
  posts : w.posts = w₀.posts
  stage : Reserving w ∨ ∃ stage row, w₀.db.stages.find? (request.requestId, stage) = some row ∧
    row.runId = some request.runId ∧ row.state ≠ .available ∧ row.state ≠ .reserved

lemma Given.same {request : DeploymentProtectionRequest} (h : Given request w₀ w) (hs : Same w w') :
    Given request w₀ w' := by
  refine ⟨hs.decisions.trans h.decisions, hs.posts.trans h.posts, h.stage.imp_left ?_⟩
  rintro ⟨r, row, hr, hrs, hrow, hrows⟩
  exact ⟨r, row, hs.reservation.trans hr, hrs, by rw [World.db, hs.registry]; exact hrow, hrows⟩

lemma reserve_given {request : DeploymentProtectionRequest} {result : EvaluationResult}
    {reservation : StageReservation} (hid : result.requestId = request.requestId)
    (hrun : result.runId = request.runId) (hsame : Same w₀ w)
    (h : (system X).answer 0 (.registry (.reserveStage result.requestId result.stage result.runId result.runAttempt
      result.appRuleId none)) w w' (.ok reservation)) : Given request w₀ w' := by
  rcases h with ⟨-, hr⟩ | ⟨amb, hr | hr, rfl⟩
  · cases hr
  · obtain ⟨db, hb, hreg⟩ := IntentStore.transact_eq_ok hr.symm
    obtain ⟨hrid, hstage, hrrun, -, -, row, hres⟩ := reserveStage_eq_ok hb
    refine ⟨hsame.decisions, hsame.posts, ?_⟩
    have hw₀ : w₀.db.stages.find? (request.requestId, result.stage) = some row := by
      rw [← hid, ← hrid, ← hstage, World.db, ← hsame.registry]
      exact hres.found
    have hreserving : ∀ row', db.stages.find? (reservation.requestId, reservation.stage) = some row' →
        reservation.state = .reserved → row'.state = .reserved → Reserving { w with
          registry := ((Call.reserveStage result.requestId result.stage result.runId result.runAttempt result.appRuleId
            none).exec X amb w.registry).1,
          reservation := some reservation } := by
      intro row' hrow' hrs hrows
      refine ⟨reservation, row', rfl, hrs, ?_, hrows⟩
      change (((Call.reserveStage result.requestId result.stage result.runId result.runAttempt result.appRuleId
        none).exec X amb w.registry).1).db.stages.find? _ = _
      rw [show ((Call.reserveStage result.requestId result.stage result.runId result.runAttempt result.appRuleId
        none).exec X amb w.registry).1 = ⟨db, w.registry.cas⟩ from hreg]
      exact hrow'
    rcases hres.outcome with ⟨hne, hbound, -, -, rfl, hstate⟩ | ⟨-, -, hstate, -, -, -, -, row', hrow', -, -, -, hfind⟩
    · by_cases hreserved : row.state = .reserved
      · exact .inl (hreserving row hres.found (hstate.trans hreserved) hreserved)
      · exact .inr ⟨result.stage, row, hw₀, hbound.trans (congrArg some (hrrun.trans hrun)), hne, hreserved⟩
    · exact .inl (hreserving row' ((hfind _).trans (if_pos rfl)) hstate hrow')
  · cases hr

lemma still_evaluator (request : DeploymentProtectionRequest) : (evaluator request).Only Still :=
  Prog.only_perform.mpr trivial

lemma ends_evaluateAndReserve (request : DeploymentProtectionRequest) (hsame : Same w₀ w) :
    Ends X (evaluateAndReserve request evaluator) (fun r w => w.posts = w₀.posts ∧
      ∀ out, r = .ok out → Given request w₀ w) w := by
  refine triple_bind (triple_perform fun w₁ r hans => hans) (fun result w₁ hq => ?_) fun e w₁ hq => ?_
  · obtain ⟨rfl, hsubject⟩ := hq
    obtain ⟨hid, hrun⟩ := hsubject result rfl
    refine triple_bind (triple_perform fun w₂ r hans => hans) (fun reservation w₂ hans => ?_) fun e w₂ hans => ?_
    · have hgiven := reserve_given hid hrun hsame hans
      exact triple_pure ⟨hgiven.posts, fun _ _ => hgiven⟩
    · have hsilent : Silent (Effect.registry (.reserveStage result.requestId result.stage result.runId
        result.runAttempt result.appRuleId none)) := trivial
      exact ⟨(silent_answer hsilent hans).trans hsame.posts, fun _ h => by cases h⟩
  · obtain ⟨rfl, -⟩ := hq
    exact ⟨hsame.posts, fun _ h => by cases h⟩

/-- In a guarded cycle a decision that approves finds a reserved stage, or a record that keeps it from the POST. -/
lemma ends_enforce (request : DeploymentProtectionRequest) (hguard : Guarded request w₀) (hgood : AllGood w₀)
    (hsame : Same w₀ w) : Ends X (enforce request evaluator) (fun _ w => AllGood w) w := by
  have hposts : ∀ w, w.posts = w₀.posts → AllGood w := fun w h => by
    rw [AllGood, h]
    exact hgood
  refine triple_bind (ends_still (Prog.only_perform.mpr id) hsame) (fun _ w hsame => ?_)
    fun _ w hsame => hposts w hsame.posts
  refine triple_attempt (ends_evaluateAndReserve request hsame) fun r w hq => ?_
  cases r with
  | error e => exact ends_refuse request none e (hposts w hq.1)
  | ok found =>
    obtain ⟨result, reservation⟩ := found
    have hgiven := hq.2 _ rfl
    have hrecheck : Ends X (recheck request evaluator result) (fun _ w' => Same w w') w := by
      refine ends_still (Prog.only_bind (still_evaluator request) fun _ => ?_) (.refl w)
      unfold Action.rejectIf
      split <;> trivial
    refine triple_attempt hrecheck fun r w' hsame' => ?_
    have hgiven' := hgiven.same hsame'
    cases r with
    | error e => exact ends_refuse request (some reservation) e (hposts w' hgiven'.posts)
    | ok _ =>
      refine triple_bind (ends_postClaimedDecision request _ _ (hposts w' hgiven'.posts) ?_)
        (fun _ _ h => triple_pure h) fun _ _ h => h
      intro _ row hfound hterms hopen
      rcases hgiven'.stage with hreserving | ⟨stage, stageRow, hrow, hbound, hav, hres⟩
      · exact hreserving
      · obtain ⟨record, hrecord, hblocked⟩ := hguard stage stageRow hrow hbound hav hres
        rw [World.decision?, ← hgiven'.decisions] at hrecord
        rcases hfound with hnone | hsome
        · rw [World.decision?, hrecord] at hnone
          cases hnone
        · obtain rfl := Option.some.inj (hrecord.symm.trans hsome)
          rcases hblocked with hsettled | hrejects
          · exact (hopen hsettled).elim
          · rw [hterms.state] at hrejects
            cases hrejects

lemma Guarded.of_eq {request : DeploymentProtectionRequest} (h : Guarded request w) (hregistry : w'.registry = w.registry)
    (hdecisions : w'.ledger.decisions = w.ledger.decisions) : Guarded request w' := by
  intro stage row hrow
  rw [World.decision?, hdecisions]
  rw [World.db, hregistry] at hrow
  exact h stage row hrow

lemma ends_locked {α : Type} {body : Action α} {request : DeploymentProtectionRequest} (hguard : Guarded request w)
    (hgood : AllGood w)
    (hbody : ∀ w, Guarded request w → AllGood w → Ends X body (fun _ w => AllGood w) w) :
    Ends X (locked body) (fun _ w => AllGood w) w := by
  refine triple_bind (triple_perform fun w₁ r hans => hans) (fun _ w₁ hq => ?_) fun e w₁ hq => by cases hq.2.2
  obtain ⟨-, rfl, -⟩ := hq
  refine triple_attempt (hbody _ (hguard.of_eq rfl rfl) hgood) fun out w₂ hgood₂ => ?_
  refine triple_bind (triple_perform fun w₃ r hans => hans) (fun _ w₃ hq => ?_) fun e w₃ hq => by cases hq.2
  obtain ⟨rfl, -⟩ := hq
  exact triple_ofExcept hgood₂

lemma ends_workerCycle (request : DeploymentProtectionRequest) (hguard : Guarded request w) (hgood : AllGood w) :
    Ends X (workerCycle request evaluator) (fun _ w => AllGood w) w := by
  refine triple_attempt (ends_locked hguard hgood fun w₀ hguard hgood => ends_enforce request hguard hgood (.refl w₀))
    fun r w hgood => ?_
  cases r with
  | ok _ => exact triple_pure hgood
  | error e => exact ends_ignore (ends_silent (Prog.only_attempt (silent_ledger _)) hgood)

lemma ends_processPolled (request : DeploymentProtectionRequest) (hguard : Guarded request w) (hgood : AllGood w) :
    Ends X (processPolled request evaluator) (fun _ w => AllGood w) w := by
  refine Action.triple_rejectIf (fun _ => hgood) fun _ => ?_
  refine ends_locked hguard hgood fun w₀ hguard hgood => ?_
  have hposts : ∀ w, Same w₀ w → AllGood w := fun w h => by
    rw [AllGood, h.posts]
    exact hgood
  have hstill : ∀ {α : Type} {c : Ledger.Call α} {w : World}, ¬ c.Decides → Same w₀ w →
      Ends X (Action.ledger c) (fun _ w => Same w₀ w) w := fun hc hs => ends_still (Prog.only_perform.mpr hc) hs
  refine triple_bind (hstill id (.refl w₀)) (fun _ w hsame => ?_) fun _ w hsame => hposts w hsame
  refine triple_bind (hstill id hsame) (fun succeeded w hsame => ?_) fun _ w hsame => hposts w hsame
  cases succeeded with
  | true => exact triple_pure (hposts w hsame)
  | false =>
    exact triple_bind (ends_enforce request hguard hgood hsame)
      (fun _ w hgood => ends_silent (silent_ledger _) hgood) fun _ _ h => h

lemma turn_good (hgood : AllGood w) (h : Turn X Guarded w w') : AllGood w' := by
  have hexec : ∀ {p : Action Unit} {out : Except Failure Unit}, Ends X p (fun _ w => AllGood w) w →
      Exec (system X).toMachine 0 p w w' out → AllGood w' := fun hp hexec => hp w' _ hexec
  cases h with
  | worker hguard h => exact hexec (ends_workerCycle _ hguard hgood) h
  | polled hguard h => exact hexec (ends_ignore (ends_processPolled _ hguard hgood)) h
  | accept h => exact hexec (ends_ignore (ends_silent (silent_ledger _) hgood)) h
  | other h => exact hexec (ends_ignore (ends_silent (silent_registry _) hgood)) h
  | restart h =>
    obtain rfl : w' = { w with lock := none, reservation := none } := h
    exact hgood

theorem approved_only_while_reserved (h : Relation.ReflTransGen (Turn X Guarded) World.initial w) :
    ∀ p ∈ w.posts, p.decision.state = .approved → ∃ r row, p.reservation = some r ∧ r.state = .reserved ∧
      p.row = some row ∧ row.state = .reserved := by
  have hgood : AllGood w := by
    induction h with
    | refl =>
      intro p hp
      cases hp
    | tail _ hturn ih => exact turn_good ih hturn
  exact hgood

end

section

open Service.Sample

lemma turn_cycle {callback : CallbackResult} {deliveryId : String} {w w' : World}
    {guard : DeploymentProtectionRequest → World → Prop} (hguard : guard (request deliveryId) w)
    (h : cycle callback deliveryId w = some w') : Turn Service.Sample.externals guard w w' := by
  obtain ⟨out, hexec⟩ := exec_cycle h
  exact .polled hguard hexec

lemma turns_ready (guard : DeploymentProtectionRequest → World → Prop) {w : World} (h : ready = some w) :
    Relation.ReflTransGen (Turn Service.Sample.externals guard) World.initial w := by
  simp only [ready, Option.bind_eq_bind, Option.bind_eq_some_iff] at h
  obtain ⟨w₁, h₁, h₂⟩ := h
  obtain ⟨out₁, hexec₁⟩ := exec_call h₁
  obtain ⟨out₂, hexec₂⟩ := exec_call h₂
  exact .head (.other hexec₁) (.single (.other hexec₂))

/-- Before the first cycle every stage is available, so the cycle is guarded. -/
lemma first_cycle : (ready.bind fun w => (cycle accepted204 "d1" w).map fun w' =>
    (decide (∀ row ∈ w.db.stages.rows, row.state = .available), (view w').1)) =
      some (true, [(.approved, some .reserved)]) := by
  decide +kernel

theorem approved_only_while_reserved_first : ∃ w, Relation.ReflTransGen (Turn Service.Sample.externals Guarded)
    World.initial w ∧ w.posts.length = 1 ∧ ∀ p ∈ w.posts, p.decision.state = .approved →
      ∃ r row, p.reservation = some r ∧ r.state = .reserved ∧ p.row = some row ∧ row.state = .reserved := by
  obtain ⟨w, hw, hcycle⟩ := Option.bind_eq_some_iff.mp first_cycle
  obtain ⟨w', hw', hview⟩ := Option.map_eq_some_iff.mp hcycle
  obtain ⟨hall, hposts⟩ := Prod.mk.inj hview
  have hguard : Guarded (request "d1") w := by
    intro stage row hrow _ hne
    exact (hne (of_decide_eq_true hall row (Table.find?_mem hrow))).elim
  have hrun := (turns_ready Guarded hw).tail (turn_cycle hguard hw')
  refine ⟨w', hrun, ?_, approved_only_while_reserved hrun⟩
  simpa [view] using congrArg List.length hposts

/-- After a callback that timed out the stage is OutcomeOverdue, and the next delivery of the run posts its approval
again. -/
theorem approved_while_outcomeOverdue : ∃ w, Relation.ReflTransGen (Turn Service.Sample.externals fun _ _ => True)
    World.initial w ∧ ∃ p ∈ w.posts, p.decision.state = .approved ∧
      ∃ r, p.reservation = some r ∧ r.state = .outcomeOverdue := by
  obtain ⟨w, hw, hview⟩ := Option.map_eq_some_iff.mp retried_view
  have hrun : Relation.ReflTransGen (Turn Service.Sample.externals fun _ _ => True) World.initial w := by
    simp only [retried, Option.bind_eq_bind, Option.bind_eq_some_iff] at hw
    obtain ⟨w₁, h₁, w₂, h₂, h₃⟩ := hw
    exact ((turns_ready _ h₁).tail (turn_cycle trivial h₂)).tail (turn_cycle trivial h₃)
  refine ⟨w, hrun, ?_⟩
  have hmem : (DecisionState.approved, some StageState.outcomeOverdue) ∈ (view w).1 := by
    rw [hview]
    simp
  obtain ⟨p, hp, hpost⟩ := List.mem_map.mp hmem
  obtain ⟨hstate, hreservation⟩ := Prod.mk.inj hpost
  obtain ⟨r, hr, hrs⟩ := Option.map_eq_some_iff.mp hreservation
  exact ⟨p, hp, hstate, r, hr, hrs⟩

end

end PlatformGitops.CrossAi.EnforcementOrder
