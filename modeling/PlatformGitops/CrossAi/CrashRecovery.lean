import PlatformGitops.CrossAi.IntentStore.StageInvariants
import PlatformGitops.CrossAi.Server

/-! A delivery of a run that already has an approved decision record, processed while nothing goes wrong:
where it leaves the stage. -/

namespace PlatformGitops.CrossAi.CrashRecovery

open Library IntentStore Ledger Server Service

section

variable {α β : Type}

/-- The database itself failed: a broken constraint, or no connection. -/
def storageFailure : Except Failure α → Bool
  | .error .integrityError => true
  | .error .unavailable => true
  | _ => false

/-- The computation returns, or the database fails. -/
def Stores (x : Except Failure α) : Prop := storageFailure x = false → ∃ a, x = .ok a

lemma storageFailure_error {e : Failure} :
    storageFailure (.error e : Except Failure α) = storageFailure (.error e : Except Failure β) := by
  cases e <;> rfl

lemma stores_ok {a : α} : Stores (.ok a) := fun _ => ⟨a, rfl⟩

lemma stores_bind {x : Except Failure α} {f : α → Except Failure β} (hx : Stores x)
    (hf : ∀ a, x = .ok a → Stores (f a)) : Stores (x >>= f) := by
  cases x with
  | ok a => exact hf a rfl
  | error e =>
    intro h
    obtain ⟨a, ha⟩ := hx (storageFailure_error.trans h)
    cases ha

lemma stores_stored {x : Option α} : Stores (stored x) := by
  cases x with
  | some a => exact stores_ok
  | none =>
    intro h
    cases h

lemma stores_rejectIf {bad : Prop} [Decidable bad] {code message : String} (h : ¬ bad) :
    Stores (rejectIf bad code message) := by
  rw [(rejectIf_eq_ok (u := ())).mpr h]
  exact stores_ok

lemma stores_expect {x : Option α} {a : α} {code message : String} (h : x = some a) :
    Stores (expect x code message) := by
  rw [h]
  exact stores_ok

/-- A JSON object of texts and nulls always has a digest. -/
lemma stores_sha256Digest {X : Externals} {fields : List (String × Json)}
    (h : ∀ p ∈ fields, p.2 = .null ∨ ∃ s, p.2 = .str s) : Stores (sha256Digest X (.obj fields)) := by
  have hparts : ∀ path, ∀ q ∈ renderFields path fields, ∃ cs, q.2 = .ok cs := by
    intro path
    induction fields with
    | nil =>
      intro q hq
      cases hq
    | cons p fields ih =>
      obtain ⟨key, value⟩ := p
      intro q hq
      rcases List.mem_cons.mp hq with rfl | hq
      · rcases h (key, value) List.mem_cons_self with hnull | ⟨s, hstr⟩
        · obtain rfl : value = .null := hnull
          exact ⟨_, rfl⟩
        · obtain rfl : value = .str s := hstr
          exact ⟨_, rfl⟩
      · exact ih (fun p hp => h p (List.mem_cons_of_mem _ hp)) q hq
  have hmap : ∀ parts : List (String × Rendered), (∀ q ∈ parts, ∃ cs, q.2 = .ok cs) →
      ∃ out, parts.mapM (fun p => do pure (dumpsStr p.1 ++ ':' :: (← p.2))) = (.ok out : Except Failure _) := by
    intro parts
    induction parts with
    | nil => exact fun _ => ⟨[], rfl⟩
    | cons q parts ih =>
      intro hq
      obtain ⟨cs, hcs⟩ := hq q List.mem_cons_self
      obtain ⟨out, hout⟩ := ih fun q' hq' => hq q' (List.mem_cons_of_mem _ hq')
      exact ⟨(dumpsStr q.1 ++ ':' :: cs) :: out, by rw [List.mapM_cons, hcs, hout]; rfl⟩
  obtain ⟨out, hout⟩ := hmap ((renderFields "$" fields).insertionSort
    (fun p q => unitsLe (keySortValue p.1) (keySortValue q.1))) fun q hq =>
      hparts "$" q ((List.mem_insertionSort _).mp hq)
  have hrender : render "$" (.obj fields) = .ok ('\x7b' :: [','].intercalate out ++ ['\x7d']) := by
    rw [render, renderedObject, hout]
    rfl
  rw [sha256Digest, canonicalBytes, hrender]
  exact stores_ok

end

section

variable {X : Externals} {amb : Ambient}

lemma stores_event {db : Db} {eventId requestId reason : String} {stage : Option Stage}
    {fromState : Option EventState} {toState : EventState} {at_ : Stamp} :
    Stores (db.event X eventId requestId stage fromState toState reason at_) := by
  refine stores_bind (stores_sha256Digest ?_) fun _ _ => stores_bind stores_stored fun _ _ => stores_ok
  cases stage <;> cases fromState <;> cases db.events.rows.getLast? <;> simp [Json.ofOption]

lemma stores_appendEvent {ledger : ObserveLedger} {deliveryId type reason : String} {evidence : Option String}
    (h : ledger.deliveries.find? deliveryId ≠ none) :
    Stores (appendEvent X amb deliveryId type reason evidence ledger) := by
  refine stores_bind (stores_rejectIf (by simpa using h)) fun _ _ => ?_
  refine stores_bind (stores_sha256Digest ?_) fun _ _ => stores_bind stores_stored fun _ _ => stores_ok
  cases evidence <;> cases ledger.events.rows.getLast? <;> simp [Json.ofOption]

lemma stores_recordDelivery {ledger : ObserveLedger} {request : DeploymentProtectionRequest}
    (h : ∀ d, ledger.deliveries.find? request.deliveryId = some d → d.request.payloadSha256 = request.payloadSha256) :
    Stores (recordDelivery amb request ledger) := by
  unfold recordDelivery
  split
  · exact stores_ok
  · refine stores_bind stores_stored fun existing hexisting => ?_
    refine stores_bind (stores_rejectIf ?_) fun _ _ => stores_ok
    exact not_not.mpr (h existing (stored_eq_ok.mp hexisting))

lemma stores_completeDecision {ledger : ObserveLedger} {request : DeploymentProtectionRequest}
    {record : DecisionRecord} {status : Option Int} (h : ledger.decisions.find? (decisionKey request) = some record)
    (hopen : ¬ record.callbackStatus.Terminal) :
    Stores (completeDecision amb request .succeeded status ledger) := by
  obtain ⟨hsucceeded, hfailed⟩ := not_or.mp hopen
  refine stores_bind (stores_rejectIf (by decide)) fun _ _ => stores_bind (stores_expect h) fun row hrow => ?_
  obtain rfl : record = row := by simpa [h] using hrow
  rw [if_neg hsucceeded]
  refine stores_bind (stores_rejectIf fun hbad => hfailed hbad.1) fun _ _ => ?_
  exact stores_bind stores_stored fun _ _ => stores_ok

/-- The states from which the approval of a stage is an allowed move. -/
def Approvable (s : StageState) : Prop := s = .reserved ∨ s = .callbackUnknown

instance (s : StageState) : Decidable (Approvable s) := inferInstanceAs (Decidable (_ ∨ _))

/-- Where a decision that GitHub accepts leaves the stage. -/
def approvedState (s : StageState) : StageState := if Approvable s then .approvedPendingOutcome else s

lemma ofText_approved : StageState.ofText? "ApprovedPendingOutcome" = some .approvedPendingOutcome := by decide

lemma stores_approve {db : Db} {requestId reason : String} {stage : Stage} {row : StageRow} {at_ : Option Datetime}
    (hrow : db.stages.find? (requestId, stage) = some row) (hs : Approvable row.state) :
    Stores (transitionStage X amb requestId stage "ApprovedPendingOutcome" reason at_ db) := by
  refine stores_bind (stores_expect ofText_approved) fun target htarget => ?_
  obtain rfl := Option.some.inj (ofText_approved.symm.trans (expect_eq_ok.mp htarget))
  refine stores_bind (stores_rejectIf (by decide)) fun _ _ => stores_bind (stores_rejectIf (by decide)) fun _ _ => ?_
  refine stores_bind (stores_expect hrow) fun row' hrow' => ?_
  obtain rfl : row = row' := by simpa [hrow] using hrow'
  split
  · exact stores_ok
  · refine stores_bind (stores_rejectIf ?_) fun _ _ => ?_
    · rcases hs with hs | hs <;> rw [hs] <;> decide
    · refine stores_bind ?_ fun _ _ => stores_ok
      exact stores_bind stores_stored fun _ _ => stores_event

/-- The approval of a stage that is called while the database works. -/
lemma approve_stage {requestId reason : String} {stage : Stage} {row : StageRow} {at_ : Option Datetime}
    {reg : Registry} (hrow : reg.db.stages.find? (requestId, stage) = some row)
    (hstored : storageFailure (IntentStore.transact reg (transitionStage X amb requestId stage "ApprovedPendingOutcome" reason
      at_)).2 = false) :
    ((IntentStore.transact reg (transitionStage X amb requestId stage "ApprovedPendingOutcome" reason at_)).1.db.stages.find?
      (requestId, stage)).map (·.state) = some (approvedState row.state) := by
  unfold IntentStore.transact at hstored ⊢
  cases h : transitionStage X amb requestId stage "ApprovedPendingOutcome" reason at_ reg.db with
  | ok out =>
    obtain ⟨db', u⟩ := out
    obtain ⟨row', target, hrow', htarget, hout⟩ := transitionStage_eq_ok h
    obtain rfl : row = row' := Option.some.inj (hrow.symm.trans hrow')
    obtain rfl := Option.some.inj (ofText_approved.symm.trans htarget)
    rcases hout with ⟨hsame, rfl⟩ | ⟨hmove, -, stages, events, rfl, hmod⟩
    · simp [hrow, approvedState, Approvable, ← hsame]
    · have hs : Approvable row.state := by
        cases hs : row.state <;> rw [hs] at hmove <;> cases hmove
        · exact .inl rfl
        · exact .inr rfl
      simp [Table.find?_modify? hmod, hrow, approvedState, hs]
  | error e =>
    have hs : ¬ Approvable row.state := by
      intro hs
      rw [h] at hstored
      have hreturns : Stores (transitionStage X amb requestId stage "ApprovedPendingOutcome" reason at_ reg.db) :=
        stores_approve hrow hs
      rw [h] at hreturns
      obtain ⟨a, ha⟩ := hreturns (storageFailure_error.trans hstored)
      cases ha
    simp [hrow, approvedState, hs]

end

/-- What the world does in a recovery: the databases work and the clock is before the deadline, the evaluation gives
the same result, and GitHub accepts the decision. -/
def recovery (X : Externals) (result : EvaluationResult) (deadline : Datetime) : Machine Failure Effect World Nat where
  answer t e w w' r := match e with
    | .registry c => ∃ amb : Ambient, amb.now < deadline ∧ r = (c.exec X amb w.registry).2 ∧
        storageFailure r = false ∧
        w' = { w with registry := (c.exec X amb w.registry).1, reservation := given c r w.reservation }
    | .ledger c => ∃ amb : Ambient, r = (c.exec X amb w.ledger).2 ∧ storageFailure r = false ∧
        w' = { w with ledger := (c.exec X amb w.ledger).1 }
    | .evaluate _ => w' = w ∧ r = .ok result
    | .postDecision d => w' = w.post d ∧ ∃ callback : CallbackResult, r = .ok callback ∧ callback.accepted = true
    | .acquire => w.lock = none ∧ w' = { w with lock := some t, reservation := none } ∧ r = .ok ()
    | .release => w' = { w with lock := none } ∧ r = .ok ()
    | _ => False

/-- The run of the request has an approved decision record, of this evaluation, and its stage is bound to it. -/
structure Interrupted (request : DeploymentProtectionRequest) (result : EvaluationResult) (intent : IntentRecord)
    (record : DecisionRecord) (row : StageRow) (w : World) : Prop where
  subject : result.requestId = request.requestId
  registered : w.db.intents.find? request.requestId = some intent
  finalized : intent.state = .finalized
  reserved : w.db.stages.find? (request.requestId, result.stage) = some row
  taken : row.state ≠ .available
  bound : row.runId = some result.runId ∧ row.runAttempt = some result.runAttempt ∧ row.appRuleId = some result.appRuleId
  positive : ¬ min (min result.runId result.runAttempt) result.appRuleId < 1
  decided : w.decision? (decisionKey request) = some record
  terms : record.Says request .approved result.reasonCode (some result.evidenceDigest) (approvalComment result)
  reason : result.reasonCode ≠ "" ∧ result.reasonCode.toList.length ≤ 100
  comment : (approvalComment result).toList.length ≤ 1024

/-- A redelivery or a poll of the run is processed. The worker takes a request after its delivery was recorded. -/
inductive Redelivered (X : Externals) (request : DeploymentProtectionRequest) (result : EvaluationResult)
    (deadline : Datetime) : World → World → Prop
  | worker {w w' : World} {out : Except Failure Unit} : w.ledger.deliveries.find? request.deliveryId ≠ none →
      Exec (recovery X result deadline) 0 (workerCycle request evaluator) w w' out →
      Redelivered X request result deadline w w'
  | polled {w w' : World} {out : Except Failure Bool} : request.provenance = .githubAppDeliveryApiV1 →
      (∀ d, w.ledger.deliveries.find? request.deliveryId = some d → d.request.payloadSha256 = request.payloadSha256) →
      Exec (recovery X result deadline) 0 (processPolled request evaluator) w w' out →
      Redelivered X request result deadline w w'

def StageIs (request : DeploymentProtectionRequest) (result : EvaluationResult) (s : StageState) (w : World) : Prop :=
  (w.db.stages.find? (request.requestId, result.stage)).map (·.state) = some s

/-- Where a delivery that is processed again leaves the stage. -/
def settledState (record : DecisionRecord) (row : StageRow) : StageState :=
  if record.callbackStatus.Terminal then row.state else approvedState row.state

/-- The effects that are no calls on the registry. -/
def Apart {γ : Type} : Effect γ → Prop
  | .registry _ => False
  | _ => True

section

variable {X : Externals} {request : DeploymentProtectionRequest} {result : EvaluationResult} {intent : IntentRecord}
  {record : DecisionRecord} {row : StageRow} {deadline : Datetime} {w w' : World} {s : StageState}

lemma Interrupted.of_eq (h : Interrupted request result intent record row w) (hregistry : w'.registry = w.registry)
    (hdecisions : w'.ledger.decisions = w.ledger.decisions) : Interrupted request result intent record row w' := by
  have hdb : w'.db = w.db := congrArg Registry.db hregistry
  refine ⟨h.subject, ?_, h.finalized, ?_, h.taken, h.bound, h.positive, ?_, h.terms, h.reason, h.comment⟩
  · rw [hdb]
    exact h.registered
  · rw [hdb]
    exact h.reserved
  · rw [World.decision?, hdecisions]
    exact h.decided

lemma apart_answer {γ : Type} {e : Effect γ} {r : Except Failure γ} (he : Apart e)
    (h : (recovery X result deadline).answer 0 e w w' r) : w'.registry = w.registry := by
  cases e with
  | registry c => exact he.elim
  | ledger c =>
    obtain ⟨amb, -, -, rfl⟩ := h
    rfl
  | evaluate request => rw [h.1]
  | postDecision d =>
    obtain ⟨rfl, -⟩ := h
    rfl
  | acquire =>
    obtain ⟨-, rfl, -⟩ := h
    rfl
  | release =>
    obtain ⟨rfl, -⟩ := h
    rfl
  | _ => exact h.elim

lemma triple_apart {α : Type} {p : Action α} (hp : p.Only Apart) (h : StageIs request result s w) :
    Triple (recovery X result deadline) 0 p (fun _ w => StageIs request result s w) w := by
  refine triple_only hp (fun e he w₁ w₂ r hs hans => ?_) h
  rw [StageIs, World.db, apart_answer he hans]
  exact hs

lemma apart_ledger {α : Type} (c : Ledger.Call α) : (Action.ledger c).Only Apart := Prog.only_perform.mpr trivial

/-- A call of the ledger that can only fail with the database returns, and does nothing to the decisions. -/
lemma ledger_answer {α : Type} {c : Ledger.Call α} {r : Except Failure α} (hc : ¬ c.Decides)
    (hstores : ∀ amb, storageFailure (c.exec X amb w.ledger).2 = false → ∃ a, (c.exec X amb w.ledger).2 = .ok a)
    (h : (recovery X result deadline).answer 0 (.ledger c) w w' r) :
    (∃ a, r = .ok a) ∧ w'.registry = w.registry ∧ w'.ledger.decisions = w.ledger.decisions := by
  obtain ⟨amb, rfl, hstored, rfl⟩ := h
  exact ⟨hstores amb hstored, rfl, exec_same hc⟩

lemma stores_transact {α : Type} {ledger : ObserveLedger} {x : Except Failure (ObserveLedger × α)} (h : Stores x)
    (hstored : storageFailure (Ledger.transact ledger x).2 = false) : ∃ a, (Ledger.transact ledger x).2 = .ok a := by
  cases x with
  | ok out => exact ⟨out.2, rfl⟩
  | error e =>
    obtain ⟨a, ha⟩ := h (storageFailure_error.trans hstored)
    cases ha

lemma append_answer {type reason : String} {evidence : Option String} {r : Except Failure Unit}
    (hrecorded : w.ledger.deliveries.find? request.deliveryId ≠ none)
    (h : (recovery X result deadline).answer 0 (.ledger (.appendEvent request.deliveryId type reason evidence)) w w' r) :
    (∃ a, r = .ok a) ∧ w'.registry = w.registry ∧ w'.ledger.decisions = w.ledger.decisions :=
  ledger_answer (c := .appendEvent request.deliveryId type reason evidence) id
    (fun _ => stores_transact (stores_appendEvent hrecorded)) h

lemma reserve_answer {r : Except Failure StageReservation} (hi : Interrupted request result intent record row w)
    (h : (recovery X result intent.expiresAt.instant).answer 0 (.registry (.reserveStage result.requestId result.stage
      result.runId result.runAttempt result.appRuleId none)) w w' r) :
    w'.registry = w.registry ∧ w'.ledger = w.ledger ∧
      ∃ res : StageReservation, r = .ok res ∧ res.requestId = request.requestId ∧ res.stage = result.stage := by
  obtain ⟨amb, hclock, rfl, -, rfl⟩ := h
  have hreserve : reserveStage X amb result.requestId result.stage result.runId result.runAttempt result.appRuleId none
      w.registry.db = .ok (w.registry.db, ⟨request.requestId, result.stage, result.runId, result.runAttempt,
        result.appRuleId, row.reservationId, row.reservationExpiresAt, row.state, true⟩) := by
    have hintent : w.registry.db.intents.find? request.requestId = some intent := hi.registered
    have hrow : w.registry.db.stages.find? (request.requestId, result.stage) = some row := hi.reserved
    rw [hi.subject]
    simp only [reserveStage, Fallible.bind_eq_ok, rejectIf_eq_ok, expect_eq_ok, Option.getD_none]
    refine ⟨(), hi.positive, intent, hintent, (), fun h => h hi.finalized, (), not_le.mpr hclock, row, hrow, ?_⟩
    rw [if_pos hi.taken]
    simp only [Fallible.bind_eq_ok, rejectIf_eq_ok, not_not, Fallible.pure_eq_ok]
    exact ⟨(), hi.bound, trivial⟩
  simp only [IntentStore.Call.exec, IntentStore.transact, hreserve]
  exact ⟨trivial, trivial, _, rfl, rfl, rfl⟩

lemma claim_answer {r : Except Failure (DecisionRecord × Bool)} (hi : Interrupted request result intent record row w)
    (h : (recovery X result deadline).answer 0 (.ledger (.claimDecision request .approved result.reasonCode
      (some result.evidenceDigest) (approvalComment result))) w w' r) : w' = w ∧ r = .ok (record, false) := by
  obtain ⟨amb, rfl, -, rfl⟩ := h
  have hclaim : claimDecision amb request .approved result.reasonCode (some result.evidenceDigest)
      (approvalComment result) w.ledger = .ok (w.ledger, record, false) := by
    have hrecord : w.ledger.decisions.find? (decisionKey request) = some record := hi.decided
    have hcomment : approvalComment result ≠ "" := fun h => absurd (String.append_eq_empty_iff.mp h).2 (by decide)
    simp only [claimDecision, Fallible.bind_eq_ok, rejectIf_eq_ok, hrecord]
    refine ⟨(), ?_, (), ?_, rfl⟩
    · simp only [not_or, not_lt]
      exact ⟨hi.reason.1, hi.reason.2, hcomment, hi.comment⟩
    · simp [hi.terms.state, hi.terms.reasonCode, hi.terms.evidenceDigest, hi.terms.comment]
  simp [Ledger.Call.exec, Ledger.transact, hclaim]

lemma Interrupted.stageIs (hi : Interrupted request result intent record row w) :
    StageIs request result row.state w := by
  rw [StageIs, hi.reserved]
  rfl

lemma complete_answer {status : Option Int} {r : Except Failure DecisionRecord}
    (hi : Interrupted request result intent record row w) (hopen : ¬ record.callbackStatus.Terminal)
    (h : (recovery X result deadline).answer 0 (.ledger (.completeDecision request .succeeded status)) w w' r) :
    (∃ a, r = .ok a) ∧ w'.registry = w.registry := by
  obtain ⟨amb, rfl, hstored, rfl⟩ := h
  exact ⟨stores_transact (stores_completeDecision hi.decided hopen) hstored, rfl⟩

lemma triple_recordAccepted {res : StageReservation} {v : Verdict} {callback : CallbackResult}
    (hi : Interrupted request result intent record row w) (hopen : ¬ record.callbackStatus.Terminal)
    (hres : res.requestId = request.requestId ∧ res.stage = result.stage) :
    Triple (recovery X result deadline) 0 (recordAccepted request v (some res) callback)
      (fun _ w => StageIs request result (approvedState row.state) w) w := by
  refine triple_bind (triple_perform fun w₁ r hans => complete_answer hi hopen hans) (fun _ w₁ hq => ?_)
    fun e w₁ hq => ?_
  · have hrow : w₁.registry.db.stages.find? (request.requestId, result.stage) = some row := by
      rw [hq.2]
      exact hi.reserved
    have happrove : ∀ w₂ r, (recovery X result deadline).answer 0 (.registry (.transitionStage res.requestId res.stage
        "ApprovedPendingOutcome" "CALLBACK_ACCEPTED_204" none)) w₁ w₂ r →
        StageIs request result (approvedState row.state) w₂ := by
      rintro w₂ r ⟨amb, -, rfl, hstored, rfl⟩
      rw [hres.1, hres.2] at hstored ⊢
      exact approve_stage hrow hstored
    refine triple_bind (triple_perform happrove) (fun _ w₂ hstage => ?_) fun _ _ h => h
    exact triple_apart (apart_ledger _) hstage
  · obtain ⟨⟨a, ha⟩, -⟩ := hq
    cases ha

lemma triple_postClaimedDecision {res : StageReservation} (hi : Interrupted request result intent record row w)
    (hres : res.requestId = request.requestId ∧ res.stage = result.stage) :
    Triple (recovery X result deadline) 0 (postClaimedDecision request (approval result) (some res))
      (fun _ w => StageIs request result (settledState record row) w) w := by
  refine triple_bind (triple_perform fun w₁ r hans => claim_answer hi hans) (fun claimed w₁ hq => ?_) fun e w₁ hq => ?_
  · obtain ⟨rfl, hclaimed⟩ := hq
    obtain rfl := Except.ok.inj hclaimed
    rw [settledState]
    -- a settled record is replayed: the stage stays as it is
    by_cases hopen : record.callbackStatus.Terminal
    · rw [if_pos hopen]
      dsimp only
      rw [if_pos (show _ ∨ _ from hopen)]
      exact triple_apart (apart_ledger _) hi.stageIs
    · rw [if_neg hopen]
      dsimp only
      rw [if_neg (show ¬ (_ ∨ _) from hopen)]
      refine triple_bind (triple_perform fun w₂ r hans => hans) (fun callback w₂ hq => ?_) fun e w₂ hq => ?_
      · obtain ⟨rfl, callback', hcallback, haccepted⟩ := hq
        obtain rfl := Except.ok.inj hcallback
        rw [if_pos haccepted]
        exact triple_recordAccepted (hi.of_eq rfl rfl) hopen hres
      · obtain ⟨-, callback, hcallback, -⟩ := hq
        cases hcallback
  · cases hq.2

lemma triple_evaluateAndReserve (hi : Interrupted request result intent record row w) :
    Triple (recovery X result intent.expiresAt.instant) 0 (evaluateAndReserve request evaluator)
      (fun r w' => w'.registry = w.registry ∧ w'.ledger = w.ledger ∧ ∃ res : StageReservation, r = .ok (result, res) ∧
        res.requestId = request.requestId ∧ res.stage = result.stage) w := by
  refine triple_bind (triple_perform fun w₁ r hans => hans) (fun found w₁ hq => ?_) fun e w₁ hq => ?_
  · obtain ⟨rfl, hfound⟩ := hq
    obtain rfl := Except.ok.inj hfound
    refine triple_bind (triple_perform fun w₂ r hans => reserve_answer hi hans) (fun res w₂ hq => ?_) fun e w₂ hq => ?_
    · obtain ⟨hregistry, hledger, res', hr, hres⟩ := hq
      obtain rfl := Except.ok.inj hr
      exact triple_pure ⟨hregistry, hledger, res, rfl, hres⟩
    · obtain ⟨-, -, res, hr, -⟩ := hq
      cases hr
  · cases hq.2

lemma triple_recheck : Triple (recovery X result deadline) 0 (recheck request evaluator result)
    (fun r w' => r = .ok () ∧ w' = w) w := by
  refine triple_bind (triple_perform fun w₁ r hans => hans) (fun found w₁ hq => ?_) fun e w₁ hq => ?_
  · obtain ⟨rfl, hfound⟩ := hq
    obtain rfl := Except.ok.inj hfound
    simp only [Action.rejectIf, ne_eq, not_true_eq_false, if_false]
    exact triple_pure ⟨rfl, rfl⟩
  · cases hq.2

lemma triple_enforce (hi : Interrupted request result intent record row w)
    (hrecorded : w.ledger.deliveries.find? request.deliveryId ≠ none) :
    Triple (recovery X result intent.expiresAt.instant) 0 (enforce request evaluator)
      (fun _ w => StageIs request result (settledState record row) w) w := by
  refine triple_bind (triple_perform fun w₁ r hans => append_answer hrecorded hans) (fun _ w₁ hq => ?_) fun e w₁ hq => ?_
  · have hi₁ := hi.of_eq hq.2.1 hq.2.2
    refine triple_attempt (triple_evaluateAndReserve hi₁) fun r w₂ hq => ?_
    obtain ⟨hregistry, hledger, res, rfl, hres⟩ := hq
    have hi₂ := hi₁.of_eq hregistry (by rw [hledger])
    refine triple_attempt triple_recheck fun r w₃ hq => ?_
    obtain ⟨rfl, rfl⟩ := hq
    exact triple_bind (triple_postClaimedDecision hi₂ hres) (fun _ _ h => triple_pure h) fun _ _ h => h
  · obtain ⟨⟨a, ha⟩, -⟩ := hq
    cases ha

lemma triple_locked {α : Type} {body : Action α}
    (hbody : ∀ w₁ : World, w₁.registry = w.registry → w₁.ledger = w.ledger →
      Triple (recovery X result deadline) 0 body (fun _ w => StageIs request result s w) w₁) :
    Triple (recovery X result deadline) 0 (locked body) (fun _ w => StageIs request result s w) w := by
  refine triple_bind (triple_perform fun w₁ r hans => hans) (fun _ w₁ hq => ?_) fun e w₁ hq => by cases hq.2.2
  obtain ⟨-, rfl, -⟩ := hq
  refine triple_attempt (hbody _ rfl rfl) fun out w₂ hstage => ?_
  refine triple_bind (triple_perform fun w₃ r hans => hans) (fun _ w₃ hq => ?_) fun e w₃ hq => by cases hq.2
  obtain ⟨rfl, -⟩ := hq
  exact triple_ofExcept hstage

lemma triple_workerCycle (hi : Interrupted request result intent record row w)
    (hrecorded : w.ledger.deliveries.find? request.deliveryId ≠ none) :
    Triple (recovery X result intent.expiresAt.instant) 0 (workerCycle request evaluator)
      (fun _ w => StageIs request result (settledState record row) w) w := by
  have hlocked : Triple (recovery X result intent.expiresAt.instant) 0 (locked (enforce request evaluator))
      (fun _ w => StageIs request result (settledState record row) w) w := by
    refine triple_locked fun w₁ hregistry hledger => ?_
    rw [← hledger] at hrecorded
    exact triple_enforce (hi.of_eq hregistry (by rw [hledger])) hrecorded
  refine triple_attempt hlocked fun r w₂ hstage => ?_
  cases r with
  | ok _ => exact triple_pure hstage
  | error e =>
    exact triple_bind (triple_apart (Prog.only_attempt (apart_ledger _)) hstage) (fun _ _ h => triple_pure h)
      fun _ _ h => h

lemma recordDelivery_recorded {amb : Ambient} {ledger ledger' : ObserveLedger} {inserted : Bool}
    (h : recordDelivery amb request ledger = .ok (ledger', inserted)) :
    ledger'.deliveries.find? request.deliveryId ≠ none := by
  unfold recordDelivery at h
  split at h
  · next deliveries hinsert =>
    cases h
    simp [Table.find?_insert? hinsert, Delivery.key]
  · simp only [Fallible.bind_eq_ok, stored_eq_ok, Fallible.pure_eq_ok, Prod.mk.injEq] at h
    obtain ⟨existing, hexisting, _, -, rfl, -⟩ := h
    simp [hexisting]

lemma recordDelivery_answer {r : Except Failure Bool}
    (hpayload : ∀ d, w.ledger.deliveries.find? request.deliveryId = some d →
      d.request.payloadSha256 = request.payloadSha256)
    (h : (recovery X result deadline).answer 0 (.ledger (.recordDelivery request)) w w' r) :
    ((∃ a, r = .ok a) ∧ w'.registry = w.registry ∧ w'.ledger.decisions = w.ledger.decisions) ∧
      w'.ledger.deliveries.find? request.deliveryId ≠ none := by
  have hreturns := ledger_answer (c := .recordDelivery request) id
    (fun _ => stores_transact (stores_recordDelivery hpayload)) h
  refine ⟨hreturns, ?_⟩
  obtain ⟨amb, rfl, -, rfl⟩ := h
  obtain ⟨⟨a, ha⟩, -⟩ := hreturns
  exact recordDelivery_recorded (Ledger.transact_eq_ok ha)

lemma callbackSucceeded_answer {r : Except Failure Bool} (hi : Interrupted request result intent record row w)
    (h : (recovery X result deadline).answer 0 (.ledger (.callbackSucceeded request)) w w' r) :
    w' = w ∧ r = .ok (decide (record.callbackStatus = .succeeded)) := by
  obtain ⟨amb, rfl, -, rfl⟩ := h
  refine ⟨rfl, ?_⟩
  have hrecord : w.ledger.decisions.find? (decisionKey request) = some record := hi.decided
  simp [Ledger.Call.exec, callbackSucceeded, hrecord]

lemma triple_processPolled (hi : Interrupted request result intent record row w)
    (hprovenance : request.provenance = .githubAppDeliveryApiV1)
    (hpayload : ∀ d, w.ledger.deliveries.find? request.deliveryId = some d →
      d.request.payloadSha256 = request.payloadSha256) :
    Triple (recovery X result intent.expiresAt.instant) 0 (processPolled request evaluator)
      (fun _ w => StageIs request result (settledState record row) w) w := by
  refine Action.triple_rejectIf (fun h => (h hprovenance).elim) fun _ => ?_
  refine triple_locked fun w₁ hregistry hledger => ?_
  have hi₁ := hi.of_eq hregistry (by rw [hledger])
  rw [← hledger] at hpayload
  refine triple_bind (triple_perform fun w₂ r hans => recordDelivery_answer hpayload hans) (fun _ w₂ hq => ?_)
    fun e w₂ hq => ?_
  · obtain ⟨⟨-, hregistry₂, hdecisions₂⟩, hrecorded⟩ := hq
    have hi₂ := hi₁.of_eq hregistry₂ hdecisions₂
    refine triple_bind (triple_perform fun w₃ r hans => callbackSucceeded_answer hi₂ hans) (fun found w₃ hq => ?_)
      fun e w₃ hq => by cases hq.2
    obtain ⟨rfl, hfound⟩ := hq
    obtain rfl := Except.ok.inj hfound
    by_cases hsucceeded : record.callbackStatus = .succeeded
    · have hterminal : record.callbackStatus.Terminal := .inl hsucceeded
      rw [settledState, if_pos hterminal]
      simp only [hsucceeded, decide_true, if_true]
      exact triple_pure hi₂.stageIs
    · simp only [hsucceeded, decide_false, Bool.false_eq_true, if_false]
      exact triple_bind (triple_enforce hi₂ hrecorded) (fun _ _ h => triple_apart (apart_ledger _) h) fun _ _ h => h
  · obtain ⟨⟨⟨a, ha⟩, -⟩, -⟩ := hq
    cases ha

lemma redelivered_stage (hi : Interrupted request result intent record row w)
    (h : Redelivered X request result intent.expiresAt.instant w w') :
    StageIs request result (settledState record row) w' := by
  cases h with
  | worker hrecorded hexec => exact triple_workerCycle hi hrecorded _ _ hexec
  | polled hprovenance hpayload hexec => exact triple_processPolled hi hprovenance hpayload _ _ hexec

/-- The writes that follow the answer of GitHub. -/
def Written {γ : Type} : Effect γ → Prop
  | .registry (.transitionStage ..) => True
  | .ledger _ => True
  | _ => False

/-- The run keeps its decision and its stage wherever the service stops. -/
lemma interrupted_answer {t : Nat} {γ : Type} {e : Effect γ} {r : Except Failure γ} (he : Written e)
    (hi : ∃ record row, Interrupted request result intent record row w) (h : (system X).answer t e w w' r) :
    ∃ record row, Interrupted request result intent record row w' := by
  obtain ⟨record, row, hi⟩ := hi
  cases e with
  | ledger c =>
    rcases h with ⟨rfl, -⟩ | ⟨amb, -, rfl⟩
    · exact ⟨record, row, hi⟩
    · obtain ⟨record', hrecord', hsame⟩ := (@exec_step X amb _ _ c).survives hi.decided
      have hterms : record'.Says request .approved result.reasonCode (some result.evidenceDigest)
          (approvalComment result) := by
        rcases hsame with rfl | ⟨status, httpStatus, at_, rfl, -, -⟩
        · exact hi.terms
        · exact ⟨hi.terms.key, hi.terms.state, hi.terms.reasonCode, hi.terms.evidenceDigest, hi.terms.comment⟩
      exact ⟨record', row, hi.subject, hi.registered, hi.finalized, hi.reserved, hi.taken, hi.bound, hi.positive,
        hrecord', hterms, hi.reason, hi.comment⟩
  | registry c =>
    rcases h with ⟨rfl, -⟩ | ⟨amb, -, rfl⟩
    · exact ⟨record, row, hi⟩
    · cases c with
      | transitionStage requestId stage target reason at_ =>
        simp only [IntentStore.Call.exec, IntentStore.transact]
        cases hb : transitionStage X amb requestId stage target reason at_ w.registry.db with
        | error e => exact ⟨record, row, hi.of_eq rfl rfl⟩
        | ok out =>
          obtain ⟨db', u⟩ := out
          obtain ⟨moved, state, hmoved, -, ⟨-, rfl⟩ | ⟨hmove, -, stages, events, rfl, hmod⟩⟩ := transitionStage_eq_ok hb
          · exact ⟨record, row, hi.of_eq rfl rfl⟩
          · have hfind := Table.find?_modify? hmod (request.requestId, result.stage)
            by_cases hk : (request.requestId, result.stage) = (requestId, stage)
            · rw [if_pos hk, ← hk] at hfind
              rw [show w.registry.db.stages.find? (request.requestId, result.stage) = some row from hi.reserved] at hfind
              exact ⟨record, { row with state }, hi.subject, hi.registered, hi.finalized, hfind, hmove.ne_available.2,
                hi.bound, hi.positive, hi.decided, hi.terms, hi.reason, hi.comment⟩
            · rw [if_neg hk] at hfind
              exact ⟨record, row, hi.subject, hi.registered, hi.finalized, hfind.trans hi.reserved, hi.taken, hi.bound,
                hi.positive, hi.decided, hi.terms, hi.reason, hi.comment⟩
      | _ => exact he.elim
  | _ => exact he.elim

lemma redelivered_approved (hi : Interrupted request result intent record row w)
    (h : Redelivered X request result intent.expiresAt.instant w w') :
    (w'.db.stages.find? (request.requestId, result.stage)).map (·.state) = some .approvedPendingOutcome ↔
      row.state = .approvedPendingOutcome ∨
        ((record.callbackStatus = .pending ∨ record.callbackStatus = .unknown) ∧
          (row.state = .reserved ∨ row.state = .callbackUnknown)) := by
  have hstage : (w'.db.stages.find? (request.requestId, result.stage)).map (·.state) =
    some (settledState record row) := redelivered_stage hi h
  rw [hstage, Option.some.injEq, settledState, approvedState]
  by_cases hterminal : record.callbackStatus.Terminal
  · have hclosed : ¬ (record.callbackStatus = .pending ∨ record.callbackStatus = .unknown) := by
      rcases hterminal with hs | hs <;> simp [hs]
    simp [hterminal, hclosed]
  · have hopen : record.callbackStatus = .pending ∨ record.callbackStatus = .unknown := by
      rw [CallbackStatus.Terminal] at hterminal
      cases hs : record.callbackStatus <;> simp [hs] at hterminal ⊢
    rw [if_neg hterminal]
    split
    · next hs => simp [hopen, show row.state = .reserved ∨ row.state = .callbackUnknown from hs]
    · next hs => simp [show ¬ (row.state = .reserved ∨ row.state = .callbackUnknown) from hs]

/-- The service stops anywhere in the writes that follow an accepted approval and is restarted; then a delivery of the
run is processed. -/
theorem recovered_approved_iff {w₀ : World} {t : Nat} {res : StageReservation} {callback : CallbackResult}
    (hanswered : Interrupted request result intent record row w₀)
    (hstop : Stops (system X).toMachine t (recordAccepted request (approval result) (some res) callback) w₀ w)
    (h : Redelivered X request result intent.expiresAt.instant { w with lock := none, reservation := none } w') :
    (w'.db.stages.find? (request.requestId, result.stage)).map (·.state) = some .approvedPendingOutcome ↔
      ∃ record row, w.decision? (decisionKey request) = some record ∧
        w.db.stages.find? (request.requestId, result.stage) = some row ∧
        (row.state = .approvedPendingOutcome ∨
          ((record.callbackStatus = .pending ∨ record.callbackStatus = .unknown) ∧
            (row.state = .reserved ∨ row.state = .callbackUnknown))) := by
  have hstopped : ∃ record row, Interrupted request result intent record row w := by
    refine stops_only (I := fun w => ∃ record row, Interrupted request result intent record row w)
      (only_recordAccepted (P := Written) (fun _ _ _ _ _ => trivial) (fun _ => trivial) request _ _ callback)
      (fun e he w₁ w₂ r hi hans => interrupted_answer he hi hans) ⟨record, row, hanswered⟩ hstop
  obtain ⟨record', row', hi⟩ := hstopped
  have hrestarted : Interrupted request result intent record' row' { w with lock := none, reservation := none } :=
    hi.of_eq rfl rfl
  rw [redelivered_approved hrestarted h]
  constructor
  · intro hstate
    exact ⟨record', row', hi.decided, hi.reserved, hstate⟩
  · rintro ⟨record'', row'', hrecord, hrow, hstate⟩
    obtain rfl := Option.some.inj (hi.decided.symm.trans hrecord)
    obtain rfl := Option.some.inj (hi.reserved.symm.trans hrow)
    exact hstate

end

instance (request : DeploymentProtectionRequest) (result : EvaluationResult) (intent : IntentRecord)
    (record : DecisionRecord) (row : StageRow) (w : World) : Decidable (Interrupted request result intent record row w) :=
  decidable_of_iff (result.requestId = request.requestId ∧ w.db.intents.find? request.requestId = some intent ∧
    intent.state = .finalized ∧ w.db.stages.find? (request.requestId, result.stage) = some row ∧
    row.state ≠ .available ∧ (row.runId = some result.runId ∧ row.runAttempt = some result.runAttempt ∧
      row.appRuleId = some result.appRuleId) ∧ (¬ min (min result.runId result.runAttempt) result.appRuleId < 1) ∧
    w.decision? (decisionKey request) = some record ∧ (record.key = decisionKey request ∧ record.state = .approved ∧
      record.reasonCode = result.reasonCode ∧ record.evidenceDigest = some result.evidenceDigest ∧
      record.comment = approvalComment result) ∧ (result.reasonCode ≠ "" ∧ result.reasonCode.toList.length ≤ 100) ∧
    (approvalComment result).toList.length ≤ 1024)
    ⟨fun ⟨h₁, h₂, h₃, h₄, h₅, h₆, h₇, h₈, ⟨k₁, k₂, k₃, k₄, k₅⟩, h₁₀, h₁₁⟩ =>
        ⟨h₁, h₂, h₃, h₄, h₅, h₆, h₇, h₈, ⟨k₁, k₂, k₃, k₄, k₅⟩, h₁₀, h₁₁⟩,
      fun ⟨h₁, h₂, h₃, h₄, h₅, h₆, h₇, h₈, ⟨k₁, k₂, k₃, k₄, k₅⟩, h₁₀, h₁₁⟩ =>
        ⟨h₁, h₂, h₃, h₄, h₅, h₆, h₇, h₈, ⟨k₁, k₂, k₃, k₄, k₅⟩, h₁₀, h₁₁⟩⟩

namespace Sample

open Service.Sample

/-- The service is stopped after the first calls of its first cycle, and restarted. -/
def stopped (calls : Nat) : Option World :=
  ready.bind fun w => (Prog.steps (world accepted204) calls (do let _ ← processPolled (request "d1") evaluator) w).map
    fun out => { out.1 with lock := none, reservation := none }

/-- A world in which the callbacks are accepted, and that stops where the database fails. -/
def prompt {γ : Type} (e : Effect γ) (w : World) : Option (World × Except Failure γ) :=
  (world accepted204 e w).filter fun out => !storageFailure out.2

def redelivered (w : World) : Option World :=
  (Prog.interp prompt (processPolled (request "d2") evaluator) w).map (·.1)

def interruption (w : World) : Option (IntentRecord × DecisionRecord × StageRow) := do
  let intent ← w.db.intents.find? "req"
  let record ← w.decision? (42, "production", 11)
  let row ← w.db.stages.find? ("req", .apply)
  if Interrupted (request "d2") result intent record row w ∧
    (w.ledger.deliveries.find? "d2").isNone ∧ IntentStore.Sample.start + 2 * minute < intent.expiresAt.instant then
    some (intent, record, row)
  else none

def view (calls : Nat) : Option (CallbackStatus × StageState × Option StageState) := do
  let w ← stopped calls
  let (_, record, row) ← interruption w
  let w' ← redelivered w
  pure (record.callbackStatus, row.state, (w'.db.stages.find? ("req", .apply)).map (·.state))

-- nine calls are made when GitHub has answered, ten when the answer is recorded
lemma view_answered : view 9 = some (.pending, .reserved, some .approvedPendingOutcome) := by
  decide +kernel

lemma view_recorded : view 10 = some (.succeeded, .reserved, some .reserved) := by
  decide +kernel

lemma run_stopped {calls : Nat} {w : World} (h : stopped calls = some w) :
    (system Service.Sample.externals).Run (World.initial, fun _ => none) (w, fun _ => none) := by
  obtain ⟨w₁, hready, hsteps⟩ := Option.bind_eq_some_iff.mp h
  obtain ⟨⟨w₂, rest⟩, hrun, hrestart⟩ := Option.map_eq_some_iff.mp hsteps
  exact (run_ready hready).trans (System.run_crash (world_answers accepted204) (.polled _) hrun hrestart.symm)

lemma stopped_restarted {calls : Nat} {w : World} (h : stopped calls = some w) :
    { w with lock := none, reservation := none } = w := by
  obtain ⟨w₁, -, hsteps⟩ := Option.bind_eq_some_iff.mp h
  obtain ⟨out, -, rfl⟩ := Option.map_eq_some_iff.mp hsteps
  rfl

lemma prompt_answers {deadline : Datetime} (hclock : IntentStore.Sample.start + 2 * minute < deadline) :
    Answers (recovery Service.Sample.externals result deadline) 0 prompt := by
  intro γ e w w' r h
  obtain ⟨hworld, hkept⟩ := Option.filter_eq_some_iff.mp h
  have hstored : storageFailure r = false := by simpa using hkept
  clear hkept
  cases e with
  | registry c =>
    cases hworld
    exact ⟨ambientOf w, hclock, rfl, hstored, rfl⟩
  | ledger c =>
    cases hworld
    exact ⟨ambientOf w, rfl, hstored, rfl⟩
  | evaluate request =>
    simp only [world] at hworld
    split at hworld <;> cases hworld
    exact ⟨rfl, rfl⟩
  | postDecision d =>
    cases hworld
    exact ⟨rfl, accepted204, rfl, rfl⟩
  | acquire =>
    by_cases hfree : w.lock = none
    · simp only [world, if_pos hfree, Option.some.injEq, Prod.mk.injEq] at hworld
      exact ⟨hfree, hworld.1.symm, hworld.2.symm⟩
    · simp [world, hfree] at hworld
  | release =>
    cases hworld
    exact ⟨rfl, rfl⟩
  | _ => cases hworld

/-- The facts that the views rest on. -/
lemma view_facts {calls : Nat} {status : CallbackStatus} {before : StageState} {after : Option StageState}
    (h : view calls = some (status, before, after)) :
    ∃ w w' intent record row, stopped calls = some w ∧ Interrupted (request "d2") result intent record row w ∧
      Redelivered Service.Sample.externals (request "d2") result intent.expiresAt.instant w w' ∧
      record.callbackStatus = status ∧ row.state = before ∧
      (w'.db.stages.find? ("req", .apply)).map (·.state) = after := by
  simp only [view, Option.bind_eq_bind, Option.bind_eq_some_iff, Option.pure_def, Option.some.injEq,
    Prod.mk.injEq] at h
  obtain ⟨w, hw, ⟨intent, record, row⟩, hinter, w', hw', hstatus, hstate, hafter⟩ := h
  simp only [interruption, Option.bind_eq_bind, Option.bind_eq_some_iff] at hinter
  obtain ⟨intent', -, record', -, row', -, hif⟩ := hinter
  split at hif
  · rename_i hchecks
    cases hif
    obtain ⟨hi, hnew, hclock⟩ := hchecks
    obtain ⟨⟨w'', out⟩, hrun, rfl⟩ := Option.map_eq_some_iff.mp hw'
    refine ⟨w, w'', intent, record, row, hw, hi, .polled rfl (fun d hd => ?_) (exec_interp (prompt_answers hclock) hrun),
      hstatus, hstate, hafter⟩
    have hnone : w.ledger.deliveries.find? "d2" = none := by simpa using hnew
    rw [show (request "d2").deliveryId = "d2" from rfl, hnone] at hd
    cases hd
  · cases hif

end Sample

/-- Stopped when GitHub has answered and nothing is recorded yet: the redelivery approves the stage. -/
theorem recovered_approved_iff_answered : ∃ w w' intent record row, Sample.stopped 9 = some w ∧
    Interrupted (Service.Sample.request "d2") Service.Sample.result intent record row w ∧
    Redelivered Service.Sample.externals (Service.Sample.request "d2") Service.Sample.result
      intent.expiresAt.instant { w with lock := none, reservation := none } w' ∧
    (w'.db.stages.find? ("req", .apply)).map (·.state) = some .approvedPendingOutcome := by
  obtain ⟨w, w', intent, record, row, hw, hi, hredelivered, hstatus, hstate, -⟩ := Sample.view_facts Sample.view_answered
  have hrestarted := hredelivered
  rw [← Sample.stopped_restarted hw] at hrestarted
  refine ⟨w, w', intent, record, row, hw, hi, hrestarted, ?_⟩
  have hstop : Stops (system Service.Sample.externals).toMachine 0 (recordAccepted (Service.Sample.request "d2")
    (approval Service.Sample.result) (some ⟨"req", .apply, 11, 1, 5, none, none, .reserved, true⟩)
    Service.Sample.accepted204) w w := .here
  exact (recovered_approved_iff hi hstop hrestarted).mpr
    ⟨record, row, hi.decided, hi.reserved, .inr ⟨.inl hstatus, .inl hstate⟩⟩

/-- Stopped between the two writes: the redelivery replays the decision and leaves the stage Reserved. -/
theorem redelivered_stays_reserved : ∃ w w' intent record row, Sample.stopped 10 = some w ∧
    (system Service.Sample.externals).Run (World.initial, fun _ => none) (w, fun _ => none) ∧
    Interrupted (Service.Sample.request "d2") Service.Sample.result intent record row w ∧
    record.callbackStatus = .succeeded ∧
    Redelivered Service.Sample.externals (Service.Sample.request "d2") Service.Sample.result
      intent.expiresAt.instant w w' ∧
    (w'.db.stages.find? ("req", .apply)).map (·.state) = some .reserved := by
  obtain ⟨w, w', intent, record, row, hw, hi, hredelivered, hstatus, -, hafter⟩ := Sample.view_facts Sample.view_recorded
  exact ⟨w, w', intent, record, row, hw, Sample.run_stopped hw, hi, hstatus, hredelivered, hafter⟩

end PlatformGitops.CrossAi.CrashRecovery
