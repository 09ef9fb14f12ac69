import PlatformGitops.CrossAi.IntentStore.DispatchChanges
import Mathlib

/-! What the calls on stages do when they return, and that every call is made of the listed changes. -/

namespace PlatformGitops.CrossAi.IntentStore

open Library

section

variable {X : Externals} {amb : Ambient} {db db' : Db}

/-- What a reservation that was granted says about the row before and after. -/
structure Reserved (db db' : Db) (res : StageReservation) (row : StageRow) : Prop where
  found : db.stages.find? (res.requestId, res.stage) = some row
  outcome : (row.state ≠ .available ∧ row.runId = some res.runId ∧ row.runAttempt = some res.runAttempt ∧
      row.appRuleId = some res.appRuleId ∧ db' = db ∧ res.state = row.state) ∨
    (row.state = .available ∧ prerequisiteSatisfied db res.requestId res.stage = true ∧
      res.state = .reserved ∧ Change db db' ∧ db'.intents = db.intents ∧ db'.outcomes = db.outcomes ∧
      db'.dispatches = db.dispatches ∧ ∃ row', row'.state = .reserved ∧ row'.runId = some res.runId ∧
        row'.runAttempt = some res.runAttempt ∧ row'.appRuleId = some res.appRuleId ∧
        ∀ k, db'.stages.find? k =
          if k = (res.requestId, res.stage) then some row' else db.stages.find? k)

lemma reserveStage_eq_ok {requestId : String} {stage : Stage} {runId runAttempt appRuleId : Int}
    {now : Option Datetime} {res : StageReservation}
    (h : reserveStage X amb requestId stage runId runAttempt appRuleId now db = .ok (db', res)) :
    res.requestId = requestId ∧ res.stage = stage ∧ res.runId = runId ∧ res.runAttempt = runAttempt ∧
      res.appRuleId = appRuleId ∧ ∃ row, Reserved db db' res row := by
  simp only [reserveStage, Fallible.bind_eq_ok, rejectIf_eq_ok, expect_eq_ok] at h
  obtain ⟨_, -, intent, -, _, -, _, -, row, hrow, h⟩ := h
  split at h
  · next hs =>
    simp only [Fallible.bind_eq_ok, rejectIf_eq_ok, Fallible.pure_eq_ok, Prod.mk.injEq, not_not] at h
    obtain ⟨_, ⟨h₁, h₂, h₃⟩, rfl, rfl⟩ := h
    exact ⟨rfl, rfl, rfl, rfl, rfl, row, hrow, Or.inl ⟨hs, h₁, h₂, h₃, rfl, rfl⟩⟩
  · next hs =>
    have hstate : row.state = .available := not_not.mp hs
    simp only [Fallible.bind_eq_ok, rejectIf_eq_ok, expect_eq_ok, Fallible.pure_eq_ok, Prod.mk.injEq] at h
    obtain ⟨_, hp, _, -, ⟨stages, n⟩, hm, last, he, rfl, rfl⟩ := h
    obtain ⟨events, rfl, hr⟩ := event_eq_ok he
    have hpre : prerequisiteSatisfied db requestId stage = true := by simpa using hp
    have hfind := Table.find?_modifyWhere? hrow hstate hm
    have hkey : row.key = (requestId, stage) := Table.find?_key hrow
    obtain ⟨rfl, rfl⟩ := Prod.mk.inj hkey
    refine ⟨rfl, rfl, rfl, rfl, rfl, row, hrow, Or.inr ⟨hstate, hpre, rfl, ?_, rfl, rfl, rfl, _, rfl, rfl,
      rfl, rfl, hfind⟩⟩
    exact .stageReserved hrow hstate hpre rfl rfl rfl rfl hfind hr

lemma moveStage_eq_ok {eventId : String} {row : StageRow} {fromState toState : StageState}
    {reason : String} {at_ : Stamp}
    (h : moveStage X db eventId row.requestId row.stage fromState toState reason at_ = .ok db') :
    ∃ stages events, db' = { db with stages, events } ∧
      db.stages.modify? row.key (fun r => { r with state := toState }) = some stages ∧
      Records db.events events row.requestId (some row.stage) (some (.stage fromState)) (.stage toState) := by
  simp only [moveStage, Fallible.bind_eq_ok, stored_eq_ok] at h
  obtain ⟨stages, hm, he⟩ := h
  obtain ⟨events, rfl, hr⟩ := event_eq_ok he
  exact ⟨stages, events, rfl, hm, hr⟩

lemma transition_move {s t : StageState} (ht : ¬ (t = .succeeded ∨ t = .failed ∨ t = .rolledBack))
    (h : t ∈ allowedStageTransitions s) : StageMove s t := by
  cases s <;> simp only [allowedStageTransitions, List.mem_cons, List.not_mem_nil, or_false] at h
  · rcases h with rfl | rfl | rfl
    · exact .approved
    · exact .rejected
    · exact .overdue
  · exact (ht h).elim
  · exact h ▸ .terminal
  · exact h ▸ .progressed

/-- A transition that returned: the stage was there already, or it took one allowed move. -/
lemma transitionStage_eq_ok {requestId : String} {stage : Stage} {toState reason : String}
    {at_ : Option Datetime} {u : Unit}
    (h : transitionStage X amb requestId stage toState reason at_ db = .ok (db', u)) :
    ∃ row target, db.stages.find? (requestId, stage) = some row ∧ StageState.ofText? toState = some target ∧
      ((target = row.state ∧ db' = db) ∨ (StageMove row.state target ∧ Change db db' ∧
        ∃ stages events, db' = { db with stages, events } ∧
          db.stages.modify? (requestId, stage) (fun r => { r with state := target }) = some stages)) := by
  simp only [transitionStage, Fallible.bind_eq_ok, rejectIf_eq_ok, expect_eq_ok] at h
  obtain ⟨target, ht, _, -, _, hsealed, row, hrow, h⟩ := h
  refine ⟨row, target, hrow, ht, ?_⟩
  split at h
  · next he =>
    simp only [Fallible.pure_eq_ok, Prod.mk.injEq] at h
    exact Or.inl ⟨he, h.1.symm⟩
  · simp only [Fallible.bind_eq_ok, rejectIf_eq_ok, Fallible.pure_eq_ok, Prod.mk.injEq, not_not] at h
    obtain ⟨_, ha, last, hm, rfl, -⟩ := h
    have hkey : row.key = (requestId, stage) := Table.find?_key hrow
    obtain ⟨rfl, rfl⟩ := Prod.mk.inj hkey
    have hmove := transition_move hsealed ha
    obtain ⟨stages, events, rfl, hmod, hr⟩ := moveStage_eq_ok hm
    exact Or.inr ⟨hmove, .stageMoved hrow hmove hmod hr, stages, events, rfl, hmod⟩

lemma overdue_key (r : StageRow) : StageRow.key { r with state := .outcomeOverdue } = r.key := rfl

/-- One stage found past its deadline is set aside. -/
def Expires (db db' : Db) : Prop :=
  ∃ row stages events, db' = { db with stages, events } ∧ db.stages.find? row.key = some row ∧
    StageMove row.state .outcomeOverdue ∧
    db.stages.modify? row.key (fun r => { r with state := .outcomeOverdue }) overdue_key = some stages ∧
    Records db.events events row.requestId (some row.stage) (some (.stage row.state)) (.stage .outcomeOverdue)

lemma Expires.change (h : Expires db db') : Change db db' := by
  obtain ⟨row, stages, events, rfl, hrow, hmove, hm, hr⟩ := h
  exact .stageMoved hrow hmove hm hr

lemma expireRow_eq_ok {at_ : Stamp} {n : Nat} {acc : Db × Nat} {row : StageRow}
    (hrow : db.stages.find? row.key = some row) (hmove : StageMove row.state .outcomeOverdue)
    (h : expireRow X amb at_ (db, n) row = .ok acc) :
    Expires db acc.1 ∧ ∀ k, k ≠ row.key → acc.1.stages.find? k = db.stages.find? k := by
  simp only [expireRow, Fallible.bind_eq_ok, stored_eq_ok, Fallible.pure_eq_ok] at h
  obtain ⟨⟨stages, m⟩, hm, last, he, rfl⟩ := h
  obtain ⟨events, rfl, hr⟩ := event_eq_ok he
  have hp : (fun r : StageRow => r.state = row.state) row := rfl
  have hmod := ((Table.modifyWhere?_eq_some hrow hp).mp hm).1
  refine ⟨⟨row, stages, events, rfl, hrow, hmove, hmod, hr⟩, fun k hk => ?_⟩
  exact (Table.find?_modify? hmod k).trans (if_neg hk)

lemma expireRows_expires {at_ : Stamp} {rows : List StageRow} {n : Nat} {acc : Db × Nat}
    (hn : (rows.map StageRow.key).Nodup)
    (hrows : ∀ r ∈ rows, db.stages.find? r.key = some r ∧ StageMove r.state .outcomeOverdue)
    (h : rows.foldlM (expireRow X amb at_) (db, n) = .ok acc) :
    Relation.ReflTransGen Expires db acc.1 := by
  induction rows generalizing db n with
  | nil =>
    obtain rfl : (db, n) = acc := by simpa [pure, Except.pure] using h
    exact .refl
  | cons row rows ih =>
    rw [List.map_cons, List.nodup_cons] at hn
    rw [List.foldlM_cons, Fallible.bind_eq_ok] at h
    obtain ⟨⟨mid, m⟩, hm, h⟩ := h
    obtain ⟨hrow, hmove⟩ := hrows row List.mem_cons_self
    obtain ⟨he, hkeep⟩ := expireRow_eq_ok hrow hmove hm
    refine .head he (ih hn.2 (fun r hr => ?_) h)
    obtain ⟨hf, hmv⟩ := hrows r (List.mem_cons_of_mem _ hr)
    exact ⟨(hkeep _ fun hk => hn.1 (hk ▸ List.mem_map_of_mem hr)).trans hf, hmv⟩

lemma expirePendingStages_expires {now : Option Datetime} {n : Nat}
    (h : expirePendingStages X amb now db = .ok (db', n)) : Relation.ReflTransGen Expires db db' := by
  refine expireRows_expires ?_ (fun r hr => ?_) h
  · have hp := List.perm_insertionSort (rowLe · ·) (db.stages.rows.filter (fun r =>
      (r.state = .reserved ∨ r.state = .approvedPendingOutcome) ∧
        ∃ e ∈ r.reservationExpiresAt, e.seconds ≤ (utcSeconds (now.getD amb.now)).seconds))
    exact (hp.map StageRow.key).nodup_iff.mpr (db.stages.primary.sublist (List.filter_sublist.map _))
  · simp only [overdueRows, List.mem_insertionSort, List.mem_filter, decide_eq_true_eq] at hr
    refine ⟨Table.mem_iff_find?.mp hr.1, ?_⟩
    rcases hr.2.1 with hs | hs <;> rw [hs]
    · exact .overdue
    · exact .approvedOverdue

/-- An outcome that was recorded: the one stage it names moves to its sealed state. -/
structure Seals (db db' : Db) (c : OutcomeCall) (row : StageRow) (target : StageState) : Prop where
  found : db.stages.find? (c.requestId, c.stage) = some row
  waiting : row.state = .reserved ∨ row.state = .callbackUnknown ∨ row.state = .approvedPendingOutcome
  allowed : target ∈ allowedTargets c.stage
  guarded : c.stage = .apply → target = .succeeded →
    ∃ r ∈ db.stages.find? (c.requestId, .compensatingRollback), r.state = .available
  intents : db'.intents = db.intents
  dispatches : db'.dispatches = db.dispatches
  stages : ∀ k, db'.stages.find? k =
    if k = (c.requestId, c.stage) then some { row with state := target } else db.stages.find? k
  changes : Changes db db'

lemma leaseCheck_eq_ok {outcome : Json} {row : StageRow} {fromState : StageState}
    (h : (if row.state = .reserved ∨ row.state = .callbackUnknown then do
        runStartedInLease X outcome row
        pure (some row.state)
      else pure (some row.state)) = (.ok (some fromState) : Except Failure (Option StageState))) :
    row.state = fromState := by
  split at h
  · simp only [Fallible.bind_eq_ok, Fallible.pure_eq_ok, Option.some.injEq] at h
    exact h.choose_spec.2
  · simpa using h

lemma outcomeAdmission_eq_ok {c : OutcomeCall} {target : StageState} {archive : String}
    {current : Datetime} {fromState : StageState}
    (h : outcomeAdmission X c target archive current db = .ok (some fromState)) :
    ∃ row, db.stages.find? (c.requestId, c.stage) = some row ∧ row.state = fromState ∧
      row.runId = some c.runId ∧ row.runAttempt = some c.runAttempt ∧
      (row.state = .reserved ∨ row.state = .callbackUnknown ∨ row.state = .approvedPendingOutcome) ∧
      (c.stage = .apply → target = .succeeded →
        ∃ r ∈ db.stages.find? (c.requestId, .compensatingRollback), r.state = .available) := by
  simp only [outcomeAdmission, Fallible.bind_eq_ok, rejectIf_eq_ok, expect_eq_ok, not_or, not_not] at h
  obtain ⟨row, hrow, intent, -, _, ⟨hrun, hattempt⟩, _, -, _, -, h⟩ := h
  cases ho : db.outcomes.find? (c.requestId, c.stage) with
  | some existing =>
    simp only [ho, Fallible.bind_eq_ok, Fallible.pure_eq_ok, reduceCtorEq, and_false, exists_false] at h
  | none =>
    simp only [ho, Fallible.bind_eq_ok, rejectIf_eq_ok, not_not, List.mem_cons, List.not_mem_nil,
      or_false] at h
    obtain ⟨_, hs, h⟩ := h
    split at h
    · simp only [Fallible.bind_eq_ok, rejectIf_eq_ok, not_not, Option.map_eq_some_iff] at h
      obtain ⟨_, ⟨r, hr, hav⟩, h⟩ := h
      exact ⟨row, hrow, leaseCheck_eq_ok h, hrun, hattempt, hs, fun _ _ => ⟨r, hr, hav⟩⟩
    · next hg => exact ⟨row, hrow, leaseCheck_eq_ok h, hrun, hattempt, hs, fun ha ht => (hg ⟨ha, ht⟩).elim⟩

lemma find?_moved {row : StageRow} {toState : StageState} {stages : Table StageRow.key StagesValid}
    (hrow : db.stages.find? row.key = some row)
    (hm : db.stages.modify? row.key (fun r => { r with state := toState }) = some stages) (k : StageKey) :
    stages.find? k = if k = row.key then some { row with state := toState } else db.stages.find? k := by
  rw [Table.find?_modify? hm k, hrow]
  rfl

/-- The last two writes of an outcome, on a stage that is known to be approved. -/
lemma sealApproved_seals {c : OutcomeCall} {row : StageRow} {o : StageOutcome} {eventId reason : String}
    {at_ : Stamp} {outcomes : Table StageOutcome.key OutcomesValid}
    (hrow : db.stages.find? (c.requestId, c.stage) = some row) (hs : row.state = .approvedPendingOutcome)
    (ho : o.key = (c.requestId, c.stage)) (hrun : row.runId = some o.runId)
    (hattempt : row.runAttempt = some o.runAttempt) (ht : o.targetState ∈ allowedTargets c.stage)
    (hg : c.stage = .apply → o.targetState = .succeeded →
      ∃ r ∈ db.stages.find? (c.requestId, .compensatingRollback), r.state = .available)
    (hi : db.outcomes.insert? o = some outcomes)
    (h : moveStage X { db with outcomes } eventId c.requestId c.stage .approvedPendingOutcome
      o.targetState reason at_ = .ok db') : Seals db db' c row o.targetState := by
  have hkey : row.key = (c.requestId, c.stage) := Table.find?_key hrow
  obtain ⟨hr, hst⟩ := Prod.mk.inj hkey
  rw [← hr, ← hst] at h
  obtain ⟨stages, events, rfl, hm, hrec⟩ := moveStage_eq_ok h
  rw [← hkey] at hrow ho
  refine ⟨hkey ▸ hrow, Or.inr (Or.inr hs), ht, hg, rfl, rfl, fun k => ?_, .single ?_⟩
  · exact (find?_moved hrow hm k).trans (by rw [hkey])
  · rw [← hr, ← hst] at hg
    exact .outcomeSealed hrow hs ho hrun hattempt (hst ▸ ht) hg hi hm hrec

lemma sealOutcome_seals {c : OutcomeCall} {target : StageState} {archive : String} {row : StageRow}
    {at_ : Stamp} {b : Bool} (hrow : db.stages.find? (c.requestId, c.stage) = some row)
    (hrun : row.runId = some c.runId) (hattempt : row.runAttempt = some c.runAttempt)
    (hs : row.state = .reserved ∨ row.state = .callbackUnknown ∨ row.state = .approvedPendingOutcome)
    (ht : target ∈ allowedTargets c.stage)
    (hg : c.stage = .apply → target = .succeeded →
      ∃ r ∈ db.stages.find? (c.requestId, .compensatingRollback), r.state = .available)
    (h : sealOutcome X amb c target archive row.state at_ db = .ok (db', b)) :
    Seals db db' c row target := by
  have hkey : row.key = (c.requestId, c.stage) := Table.find?_key hrow
  obtain ⟨hr, hst⟩ := Prod.mk.inj hkey
  simp only [sealOutcome] at h
  split at h <;>
    simp only [Fallible.bind_eq_ok, stored_eq_ok, Fallible.pure_eq_ok, Prod.mk.injEq] at h <;>
    obtain ⟨mid, hmid, outcomes, hi, last, hl, rfl, -⟩ := h
  · next hp =>
    have hmove : StageMove row.state .approvedPendingOutcome := by
      rcases of_decide_eq_true hp with he | he <;> rw [he]
      · exact .approved
      · exact .progressed
    rw [← hr, ← hst] at hmid
    obtain ⟨stages, events, rfl, hm, hrec⟩ := moveStage_eq_ok hmid
    have hfind := find?_moved (hkey ▸ hrow) hm
    have hrow' := (hfind (c.requestId, c.stage)).trans (if_pos hkey.symm)
    have hother : c.stage = .apply → target = .succeeded →
        ∃ r ∈ stages.find? (c.requestId, .compensatingRollback), r.state = .available := by
      intro ha hts
      obtain ⟨r, hr', hav⟩ := hg ha hts
      refine ⟨r, (hfind _).trans ((if_neg ?_).trans hr'), hav⟩
      rw [hkey, ha]
      simp
    have hsealed := sealApproved_seals hrow' rfl rfl hrun hattempt ht hother hi hl
    refine ⟨hrow, hs, ht, hg, hsealed.intents, hsealed.dispatches, fun k => ?_,
      .head (.stageMoved (hkey ▸ hrow) hmove hm hrec) hsealed.changes⟩
    rw [hsealed.stages k]
    split
    · rfl
    · next hk => exact (hfind k).trans (if_neg (hkey ▸ hk))
  · next hp =>
    subst hmid
    have hstate : row.state = .approvedPendingOutcome := by
      rcases hs with he | he | he
      · exact (hp (by simp [he])).elim
      · exact (hp (by simp [he])).elim
      · exact he
    exact sealApproved_seals hrow hstate rfl hrun hattempt ht hg hi hl

/-- A call that records an outcome seals the stage, or leaves the tables alone. -/
lemma recordStageOutcome_seals (c : OutcomeCall) (at_ : Option Datetime) (reg : Registry) :
    (recordStageOutcome X amb c at_ reg).1.db = reg.db ∨
      ∃ row target, (recordStageOutcome X amb c at_ reg).2 = .ok true ∧
        Seals reg.db (recordStageOutcome X amb c at_ reg).1.db c row target := by
  unfold recordStageOutcome
  cases hc : outcomeChecks c with
  | error e => exact Or.inl rfl
  | ok v =>
    obtain ⟨target, archive⟩ := v
    have ht : target ∈ allowedTargets c.stage := by
      simp only [outcomeChecks, Fallible.bind_eq_ok, rejectIf_eq_ok, not_not, Fallible.pure_eq_ok,
        Prod.mk.injEq] at hc
      obtain ⟨t, -, _, ht, _, -, a, -, _, -, rfl, rfl⟩ := hc
      exact ht
    cases ha : outcomeAdmission X c target archive (at_.getD amb.now) reg.db with
    | error e => simp [ha]
    | ok o =>
      cases o with
      | none => simp [ha]
      | some fromState =>
        obtain ⟨row, hrow, rfl, hrun, hattempt, hs, hg⟩ := outcomeAdmission_eq_ok ha
        cases hp : putJson X reg.cas c.outcome c.outcomeDigest with
        | error e => simp [ha]
        | ok cas =>
          simp only [ha, transact]
          cases hd : sealOutcome X amb c target archive row.state (utcSeconds (at_.getD amb.now)) reg.db with
          | error e => exact Or.inl rfl
          | ok v =>
            refine Or.inr ⟨row, target, ?_, sealOutcome_seals hrow hrun hattempt hs ht hg hd⟩
            simp only [sealOutcome] at hd
            split at hd <;> simp only [Fallible.bind_eq_ok, Fallible.pure_eq_ok] at hd <;>
              obtain ⟨_, -, _, -, _, -, rfl⟩ := hd <;> rfl

lemma consumeBootstrap_eq_ok {requestId : String} {stage : Stage} {runId runAttempt runnerId : Int}
    {digest : String} {at_ : Option Datetime} {b : BootstrapConsumption}
    (h : consumeBootstrap X amb requestId stage runId runAttempt runnerId digest at_ db = .ok (db', b)) :
    ∃ row, db.stages.find? (requestId, stage) = some row ∧ row.state = .approvedPendingOutcome ∧
      row.runId = some runId ∧ row.runAttempt = some runAttempt ∧ db'.stages = db.stages ∧
      Change db db' := by
  simp only [consumeBootstrap, Fallible.bind_eq_ok, rejectIf_eq_ok, expect_eq_ok, stored_eq_ok,
    Fallible.pure_eq_ok, Prod.mk.injEq, not_or, not_not] at h
  obtain ⟨_, -, _, -, row, hrow, _, ⟨hs, hrun, hattempt⟩, _, -, consumptions, hi, last, he, rfl, -⟩ := h
  obtain ⟨events, rfl, hr⟩ := event_eq_ok he
  have hkey : row.key = (requestId, stage) := Table.find?_key hrow
  obtain ⟨rfl, rfl⟩ := Prod.mk.inj hkey
  exact ⟨row, hrow, hs, hrun, hattempt, rfl, .bootstrapConsumed hrow hs rfl hi hr⟩

lemma transact_db {α : Type} {R : Db → Db → Prop} (hR : ∀ db, R db db) (reg : Registry)
    {body : Db → Except Failure (Db × α)} (h : ∀ db' a, body reg.db = .ok (db', a) → R reg.db db') :
    R reg.db (transact reg body).1.db := by
  unfold transact
  cases hb : body reg.db with
  | error e => exact hR _
  | ok v => exact h v.1 v.2 hb

lemma register_aside {envelope : Json} {verified : VerifiedBundle} {principal : String}
    {at_ : Option Datetime} {reg : Registry} :
    Aside reg.db (register X amb envelope verified principal at_ reg).1.db := by
  unfold register
  split
  · exact .refl _
  · split
    · exact .refl _
    · next cas _ => exact transact_db .refl ⟨reg.db, cas⟩ fun _ _ h => registerRows_aside h

/-- The calls that move or reserve a stage. -/
def Call.Moves {α : Type} : Call α → Prop
  | .expirePendingStages _ => True
  | .reserveStage .. => True
  | .transitionStage .. => True
  | .recordStageOutcome .. => True
  | _ => False

lemma exec_aside {α : Type} {c : Call α} (hc : ¬ c.Moves) (reg : Registry) : Aside reg.db (c.exec X amb reg).1.db := by
  cases c with
  | register => exact register_aside
  | finalizeRef => exact transact_db .refl reg fun _ _ h => finalizeRef_aside h
  | queueDispatch => exact transact_db .refl reg fun _ _ h => queueDispatch_aside h
  | claimDispatch =>
    refine transact_db .refl reg fun _ _ h => ?_
    obtain ⟨_, -, -, -, -, haside⟩ := claimDispatch_eq_ok h
    exact haside
  | resolveDispatch => exact transact_db .refl reg fun _ _ h => resolveDispatch_aside h
  | recordDispatchWatermark => exact transact_db .refl reg fun _ _ h => (recordDispatchWatermark_eq_ok h).2.2.2
  | markDispatchPosted => exact transact_db .refl reg fun _ _ h => markDispatchPosted_aside h
  | reconcileDispatch => exact transact_db .refl reg fun _ _ h => reconcileDispatch_aside h
  | consumeBootstrap =>
    refine transact_db .refl reg fun _ _ h => ?_
    obtain ⟨_, -, -, -, -, hstages, hc⟩ := consumeBootstrap_eq_ok h
    exact .single hc hstages
  | expirePendingStages => exact (hc trivial).elim
  | reserveStage => exact (hc trivial).elim
  | transitionStage => exact (hc trivial).elim
  | recordStageOutcome => exact (hc trivial).elim
  | _ => exact .refl _

/-- Every call of the registry, whatever its arguments and clock, is made of the listed changes. -/
lemma exec_changes {α : Type} (c : Call α) (reg : Registry) : Changes reg.db (c.exec X amb reg).1.db := by
  have hrefl : ∀ db, Changes db db := fun _ => .refl
  cases c with
  | expirePendingStages =>
    refine transact_db hrefl reg fun _ _ h => ?_
    exact Relation.ReflTransGen.mono (fun _ _ => Expires.change) _ _ (expirePendingStages_expires h)
  | reserveStage =>
    refine transact_db hrefl reg fun _ _ h => ?_
    obtain ⟨-, -, -, -, -, row, hres⟩ := reserveStage_eq_ok h
    rcases hres.outcome with ⟨-, -, -, -, rfl, -⟩ | ⟨-, -, -, hc, -⟩
    · exact .refl
    · exact .single hc
  | transitionStage =>
    refine transact_db hrefl reg fun _ _ h => ?_
    obtain ⟨_, _, -, -, ⟨-, rfl⟩ | ⟨-, hc, -⟩⟩ := transitionStage_eq_ok h
    · exact .refl
    · exact .single hc
  | recordStageOutcome call at_ =>
    rcases recordStageOutcome_seals call at_ reg with h | h
    · exact h ▸ .refl
    · obtain ⟨_, _, -, hseal⟩ := h
      exact hseal.changes
  | _ => exact (exec_aside id reg).changes

lemma Runs.changes {reg reg' : Registry} (h : Runs X reg reg') : Changes reg.db reg'.db := by
  refine Relation.ReflTransGen.lift' Registry.db (fun reg reg' hs => ?_) _ _ h
  obtain ⟨α, c, amb, rfl⟩ := hs
  exact exec_changes c reg

end

end PlatformGitops.CrossAi.IntentStore
