import PlatformGitops.CrossAi.IntentStore.Rows
import Mathlib

/-! The ledger of the service: deliveries, their event log and the decision records. -/

namespace PlatformGitops.CrossAi

open Library

inductive Provenance where
  | githubWebhookHmacSha256V1
  | githubAppDeliveryApiV1
deriving DecidableEq, Repr

structure DeploymentProtectionRequest where
  deliveryId : String
  repositoryId : Int
  repository : String
  installationId : Int
  environment : String
  headSha : String
  intentRef : String
  requestId : String
  runId : Int
  senderId : Int
  payloadSha256 : String
  provenance : Provenance
deriving DecidableEq, Repr

namespace Ledger

inductive DecisionState where
  | approved | rejected
deriving DecidableEq, Repr

inductive CallbackStatus where
  | pending | succeeded | definitiveFailure | unknown
deriving DecidableEq, Repr

def CallbackStatus.text : CallbackStatus → String
  | pending => "Pending"
  | succeeded => "Succeeded"
  | definitiveFailure => "DefinitiveFailure"
  | unknown => "Unknown"

/-- The run a decision is about: the repository, the environment and the run. -/
abbrev DecisionKey := Int × String × Int

structure DecisionRecord where
  repositoryId : Int
  environment : String
  runId : Int
  firstDeliveryId : String
  state : DecisionState
  reasonCode : String
  evidenceDigest : Option String
  comment : String
  callbackStatus : CallbackStatus
  callbackHttpStatus : Option Int
  createdAt : Stamp
  updatedAt : Stamp
deriving DecidableEq, Repr

def DecisionRecord.key (r : DecisionRecord) : DecisionKey := (r.repositoryId, r.environment, r.runId)

structure Delivery where
  request : DeploymentProtectionRequest
  receivedAt : Stamp
deriving DecidableEq, Repr

def Delivery.key (d : Delivery) : String := d.request.deliveryId

structure LedgerEvent where
  eventId : String
  deliveryId : String
  recordedAt : Stamp
  eventType : String
  reasonCode : String
  evidenceDigest : Option String
  previousHash : Option String
  eventHash : String
deriving DecidableEq, Repr

def LedgerEventsValid (rows : List LedgerEvent) : Prop := UniqueOn (fun r => some r.eventHash) rows

instance : DecidablePred LedgerEventsValid := fun _ => inferInstanceAs (Decidable (UniqueOn _ _))

end Ledger

open Ledger

structure ObserveLedger where
  deliveries : Table Delivery.key (fun _ => True)
  events : Table LedgerEvent.eventId LedgerEventsValid
  decisions : Table DecisionRecord.key (fun _ => True)

namespace Ledger

lemma ledgerEventsValid_nil : LedgerEventsValid [] := by simp [LedgerEventsValid, UniqueOn]

def empty : ObserveLedger where
  deliveries := ⟨[], List.nodup_nil, trivial⟩
  events := ⟨[], List.nodup_nil, ledgerEventsValid_nil⟩
  decisions := ⟨[], List.nodup_nil, trivial⟩

def decisionKey (request : DeploymentProtectionRequest) : DecisionKey :=
  (request.repositoryId, request.environment, request.runId)

section

variable (X : Externals) (amb : IntentStore.Ambient)

def recordDelivery (request : DeploymentProtectionRequest) (ledger : ObserveLedger) :
    Except Failure (ObserveLedger × Bool) :=
  match ledger.deliveries.insert? ⟨request, utcSeconds amb.now⟩ with
  | some deliveries => .ok ({ ledger with deliveries }, true)
  | none => do
    let existing ← IntentStore.stored (ledger.deliveries.find? request.deliveryId)
    rejectIf (existing.request.payloadSha256 ≠ request.payloadSha256) "WEBHOOK_DELIVERY_COLLISION"
      "one delivery ID was reused with a different semantic payload"
    pure (ledger, false)

def appendEvent (deliveryId eventType reasonCode : String) (evidenceDigest : Option String)
    (ledger : ObserveLedger) : Except Failure (ObserveLedger × Unit) := do
  rejectIf ((ledger.deliveries.find? deliveryId).isNone) "LEDGER_DELIVERY_MISSING"
    "delivery must be recorded before event"
  let eventId := amb.uuid 0
  let recordedAt := utcSeconds amb.now
  let previousHash := ledger.events.rows.getLast?.map (·.eventHash)
  let eventHash ← sha256Digest X (.obj [("domain", .str "acik.cross-ai-deployment-ledger-event.v1"),
    ("eventId", .str eventId), ("deliveryId", .str deliveryId), ("recordedAt", .str recordedAt.text),
    ("eventType", .str eventType), ("reasonCode", .str reasonCode),
    ("evidenceDigest", Json.ofOption .str evidenceDigest), ("previousHash", Json.ofOption .str previousHash)])
  let events ← IntentStore.stored (ledger.events.insert?
    ⟨eventId, deliveryId, recordedAt, eventType, reasonCode, evidenceDigest, previousHash, eventHash⟩)
  pure ({ ledger with events }, ())

def callbackSucceeded (request : DeploymentProtectionRequest) (ledger : ObserveLedger) : Bool :=
  (ledger.decisions.find? (decisionKey request)).map (·.callbackStatus) = some .succeeded

def claimDecision (request : DeploymentProtectionRequest) (state : DecisionState) (reasonCode : String)
    (evidenceDigest : Option String) (comment : String) (ledger : ObserveLedger) :
    Except Failure (ObserveLedger × DecisionRecord × Bool) := do
  rejectIf (reasonCode = "" ∨ reasonCode.toList.length > 100 ∨ comment = "" ∨ comment.toList.length > 1024)
    "DECISION_RECORD_INVALID" "decision record fields are invalid"
  match ledger.decisions.find? (decisionKey request) with
  | some row =>
    rejectIf (row.state ≠ state ∨ row.reasonCode ≠ reasonCode ∨ row.evidenceDigest ≠ evidenceDigest ∨
      row.comment ≠ comment) "DECISION_CONFLICT" "one run cannot receive contradictory decisions"
    pure (ledger, row, false)
  | none =>
    let timestamp := utcSeconds amb.now
    let row : DecisionRecord := ⟨request.repositoryId, request.environment, request.runId,
      request.deliveryId, state, reasonCode, evidenceDigest, comment, .pending, none, timestamp, timestamp⟩
    Fallible.rejectIf ((ledger.deliveries.find? request.deliveryId).isNone) .integrityError
    let decisions ← IntentStore.stored (ledger.decisions.insert? row)
    pure ({ ledger with decisions }, row, true)

def completeDecision (request : DeploymentProtectionRequest) (callbackStatus : CallbackStatus)
    (callbackHttpStatus : Option Int) (ledger : ObserveLedger) :
    Except Failure (ObserveLedger × DecisionRecord) := do
  rejectIf (callbackStatus = .pending) "DECISION_CALLBACK_STATE_INVALID" "callback result is invalid"
  let row ← expect (ledger.decisions.find? (decisionKey request)) "DECISION_NOT_CLAIMED"
    "decision must be claimed before callback"
  if row.callbackStatus = .succeeded then
    rejectIf (callbackStatus ≠ .succeeded) "DECISION_CONFLICT" "successful callback cannot be contradicted"
    pure (ledger, row)
  else
    rejectIf (row.callbackStatus = .definitiveFailure ∧ callbackStatus ≠ .definitiveFailure)
      "DECISION_CONFLICT" "definitive callback failure cannot be changed"
    let update (r : DecisionRecord) : DecisionRecord :=
      { r with callbackStatus, callbackHttpStatus, updatedAt := utcSeconds amb.now }
    let decisions ← IntentStore.stored (ledger.decisions.modify? (decisionKey request) update)
    pure ({ ledger with decisions }, update row)

end

inductive Call : Type → Type
  | recordDelivery (request : DeploymentProtectionRequest) : Call Bool
  | appendEvent (deliveryId eventType reasonCode : String) (evidenceDigest : Option String) : Call Unit
  | callbackSucceeded (request : DeploymentProtectionRequest) : Call Bool
  | claimDecision (request : DeploymentProtectionRequest) (state : DecisionState) (reasonCode : String)
      (evidenceDigest : Option String) (comment : String) : Call (DecisionRecord × Bool)
  | completeDecision (request : DeploymentProtectionRequest) (callbackStatus : CallbackStatus)
      (callbackHttpStatus : Option Int) : Call DecisionRecord

def transact {α : Type} (ledger : ObserveLedger) (result : Except Failure (ObserveLedger × α)) :
    ObserveLedger × Except Failure α :=
  match result with
  | .ok (ledger', a) => (ledger', .ok a)
  | .error e => (ledger, .error e)

def Call.exec {α : Type} (X : Externals) (amb : IntentStore.Ambient) (ledger : ObserveLedger) :
    Call α → ObserveLedger × Except Failure α
  | .recordDelivery request => transact ledger (Ledger.recordDelivery amb request ledger)
  | .appendEvent delivery type reason evidence =>
    transact ledger (Ledger.appendEvent X amb delivery type reason evidence ledger)
  | .callbackSucceeded request => (ledger, .ok (Ledger.callbackSucceeded request ledger))
  | .claimDecision request state reason evidence comment =>
    transact ledger (Ledger.claimDecision amb request state reason evidence comment ledger)
  | .completeDecision request status httpStatus =>
    transact ledger (Ledger.completeDecision amb request status httpStatus ledger)

end Ledger

end PlatformGitops.CrossAi

/-! What the calls of the ledger do to its decision records. -/

namespace PlatformGitops.CrossAi.Ledger

open Library

def CallbackStatus.Terminal (s : CallbackStatus) : Prop := s = .succeeded ∨ s = .definitiveFailure

instance (s : CallbackStatus) : Decidable s.Terminal := inferInstanceAs (Decidable (_ ∨ _))

/-- The record says what a claim of a decision asks for. -/
structure DecisionRecord.Says (row : DecisionRecord) (request : DeploymentProtectionRequest) (state : DecisionState)
    (reasonCode : String) (evidenceDigest : Option String) (comment : String) : Prop where
  key : row.key = decisionKey request
  state : row.state = state
  reasonCode : row.reasonCode = reasonCode
  evidenceDigest : row.evidenceDigest = evidenceDigest
  comment : row.comment = comment

/-- How a call may change the decision records: it claims a new one, or it completes one that is open. -/
inductive DecisionStep (ledger ledger' : ObserveLedger) : Prop
  | same : ledger'.decisions = ledger.decisions → DecisionStep ledger ledger'
  | claimed {row : DecisionRecord} : ledger.decisions.find? row.key = none → row.callbackStatus = .pending →
      (∀ k, ledger'.decisions.find? k = if k = row.key then some row else ledger.decisions.find? k) →
      DecisionStep ledger ledger'
  | completed {row : DecisionRecord} {status : CallbackStatus} {httpStatus : Option Int} {at_ : Stamp} :
      ledger.decisions.find? row.key = some row → row.callbackStatus ≠ .succeeded →
      (row.callbackStatus = .definitiveFailure → status = .definitiveFailure) →
      (∀ k, ledger'.decisions.find? k = if k = row.key then
        some { row with callbackStatus := status, callbackHttpStatus := httpStatus, updatedAt := at_ }
        else ledger.decisions.find? k) →
      DecisionStep ledger ledger'

section

variable {X : Externals} {amb : IntentStore.Ambient} {ledger ledger' : ObserveLedger}
  {request : DeploymentProtectionRequest} {row : DecisionRecord}

lemma transact_fst {α : Type} {result : Except Failure (ObserveLedger × α)} {P : ObserveLedger → Prop}
    (hsame : P ledger) (h : ∀ ledger' a, result = .ok (ledger', a) → P ledger') : P (transact ledger result).1 := by
  cases result with
  | error e => exact hsame
  | ok out => exact h out.1 out.2 rfl

lemma transact_eq_ok {α : Type} {result : Except Failure (ObserveLedger × α)} {a : α}
    (h : (transact ledger result).2 = .ok a) : result = .ok ((transact ledger result).1, a) := by
  cases result with
  | error e => cases h
  | ok out =>
    cases h
    rfl

lemma find?_row_key {k : DecisionKey} (h : ledger.decisions.find? k = some row) : row.key = k :=
  Table.find?_key h

lemma claimDecision_eq_ok {state : DecisionState} {reason comment : String} {evidence : Option String}
    {inserted : Bool} (h : claimDecision amb request state reason evidence comment ledger = .ok (ledger', row, inserted)) :
    row.Says request state reason evidence comment ∧
      ((ledger' = ledger ∧ ledger.decisions.find? (decisionKey request) = some row) ∨
        (ledger.decisions.find? (decisionKey request) = none ∧ row.callbackStatus = .pending ∧
          ∀ k, ledger'.decisions.find? k =
            if k = decisionKey request then some row else ledger.decisions.find? k)) := by
  simp only [claimDecision, Fallible.bind_eq_ok] at h
  obtain ⟨_, -, h⟩ := h
  split at h
  · rename_i found hfound
    simp only [Fallible.bind_eq_ok, Fallible.pure_eq_ok, rejectIf_eq_ok, not_or, not_not, Prod.mk.injEq] at h
    obtain ⟨_, ⟨hstate, hreason, hevidence, hcomment⟩, rfl, rfl, -⟩ := h
    exact ⟨⟨find?_row_key hfound, hstate, hreason, hevidence, hcomment⟩, Or.inl ⟨rfl, hfound⟩⟩
  · rename_i hnone
    simp only [Fallible.bind_eq_ok, Fallible.pure_eq_ok, Prod.mk.injEq] at h
    obtain ⟨_, -, decisions, hinsert, rfl, rfl, -⟩ := h
    refine ⟨⟨rfl, rfl, rfl, rfl, rfl⟩, Or.inr ⟨hnone, rfl, fun k => ?_⟩⟩
    exact Table.find?_insert? (by simpa [IntentStore.stored] using hinsert) k

lemma completeDecision_eq_ok {status : CallbackStatus} {httpStatus : Option Int}
    (h : completeDecision amb request status httpStatus ledger = .ok (ledger', row)) :
    ∃ before, ledger.decisions.find? (decisionKey request) = some before ∧
      ((ledger' = ledger ∧ row = before ∧ before.callbackStatus = .succeeded ∧ status = .succeeded) ∨
        (before.callbackStatus ≠ .succeeded ∧
          (before.callbackStatus = .definitiveFailure → status = .definitiveFailure) ∧
          row = { before with callbackStatus := status, callbackHttpStatus := httpStatus,
                              updatedAt := utcSeconds amb.now } ∧
          ∀ k, ledger'.decisions.find? k =
            if k = decisionKey request then some row else ledger.decisions.find? k)) := by
  simp only [completeDecision, Fallible.bind_eq_ok, expect_eq_ok] at h
  obtain ⟨_, -, before, hbefore, h⟩ := h
  refine ⟨before, hbefore, ?_⟩
  split at h
  · rename_i hsucceeded
    simp only [Fallible.bind_eq_ok, Fallible.pure_eq_ok, rejectIf_eq_ok, not_not, Prod.mk.injEq] at h
    obtain ⟨_, hstatus, rfl, rfl⟩ := h
    exact Or.inl ⟨rfl, rfl, hsucceeded, hstatus⟩
  · rename_i hopen
    simp only [Fallible.bind_eq_ok, Fallible.pure_eq_ok, rejectIf_eq_ok, not_and, not_not, Prod.mk.injEq] at h
    obtain ⟨_, hdefinitive, decisions, hmodify, rfl, rfl⟩ := h
    refine Or.inr ⟨hopen, hdefinitive, rfl, fun k => ?_⟩
    rw [Table.find?_modify? (by simpa [IntentStore.stored] using hmodify) k, hbefore]
    rfl

lemma claimDecision_step {state : DecisionState} {reason comment : String} {evidence : Option String}
    {inserted : Bool} (h : claimDecision amb request state reason evidence comment ledger = .ok (ledger', row, inserted)) :
    DecisionStep ledger ledger' := by
  obtain ⟨hterms, ⟨rfl, -⟩ | ⟨hnone, hpending, hfind⟩⟩ := claimDecision_eq_ok h
  · exact .same rfl
  · rw [← hterms.key] at hnone hfind
    exact .claimed hnone hpending hfind

lemma completeDecision_step {status : CallbackStatus} {httpStatus : Option Int}
    (h : completeDecision amb request status httpStatus ledger = .ok (ledger', row)) :
    DecisionStep ledger ledger' := by
  obtain ⟨before, hbefore, ⟨rfl, -⟩ | ⟨hopen, hdefinitive, rfl, hfind⟩⟩ := completeDecision_eq_ok h
  · exact .same rfl
  · have hkey := find?_row_key hbefore
    rw [← hkey] at hbefore
    rw [← hkey] at hfind
    exact .completed hbefore hopen hdefinitive hfind

lemma exec_claimDecision {state : DecisionState} {reason comment : String} {evidence : Option String} {inserted : Bool}
    (h : ((Call.claimDecision request state reason evidence comment).exec X amb ledger).2 = .ok (row, inserted)) :
    row.Says request state reason evidence comment ∧
      ((Call.claimDecision request state reason evidence comment).exec X amb ledger).1.decisions.find?
        (decisionKey request) = some row := by
  have hclaim := transact_eq_ok h
  obtain ⟨hterms, ⟨hsame, hfound⟩ | ⟨-, -, hfind⟩⟩ := claimDecision_eq_ok hclaim
  · refine ⟨hterms, ?_⟩
    simp only [Call.exec]
    rw [hsame]
    exact hfound
  · exact ⟨hterms, (hfind _).trans (if_pos rfl)⟩

/-- The calls that may change a decision record. -/
def Call.Decides {α : Type} : Call α → Prop
  | .claimDecision .. => True
  | .completeDecision .. => True
  | _ => False

lemma exec_same {α : Type} {c : Call α} (hc : ¬ c.Decides) :
    (c.exec X amb ledger).1.decisions = ledger.decisions := by
  have hsame : ∀ {β : Type} {result : Except Failure (ObserveLedger × β)},
      (∀ ledger' a, result = .ok (ledger', a) → ledger'.decisions = ledger.decisions) →
        (transact ledger result).1.decisions = ledger.decisions := fun h =>
    by
    exact transact_fst (P := fun l => l.decisions = ledger.decisions) rfl h
  cases c with
  | recordDelivery request =>
    refine hsame fun ledger' a h => ?_
    unfold recordDelivery at h
    split at h
    · cases h
      rfl
    · simp only [Fallible.bind_eq_ok, Fallible.pure_eq_ok, Prod.mk.injEq] at h
      obtain ⟨_, -, _, -, rfl, -⟩ := h
      rfl
  | appendEvent delivery type reason evidence =>
    refine hsame fun ledger' a h => ?_
    simp only [appendEvent, Fallible.bind_eq_ok, Fallible.pure_eq_ok, Prod.mk.injEq] at h
    obtain ⟨_, -, _, -, _, -, rfl, -⟩ := h
    rfl
  | callbackSucceeded request => rfl
  | claimDecision => exact (hc trivial).elim
  | completeDecision => exact (hc trivial).elim

lemma exec_step {α : Type} (c : Call α) : DecisionStep ledger (c.exec X amb ledger).1 := by
  cases c with
  | claimDecision request state reason evidence comment =>
    exact transact_fst (.same rfl) fun ledger' a h => claimDecision_step h
  | completeDecision request status httpStatus =>
    exact transact_fst (.same rfl) fun ledger' a h => completeDecision_step h
  | recordDelivery request => exact .same (exec_same id)
  | appendEvent delivery type reason evidence => exact .same (exec_same id)
  | callbackSucceeded request => exact .same (exec_same id)

/-- A record is never removed, and only its callback changes, while it is open. -/
lemma DecisionStep.survives (h : DecisionStep ledger ledger') {k : DecisionKey} (hrow : ledger.decisions.find? k = some row) :
    ∃ row', ledger'.decisions.find? k = some row' ∧ (row' = row ∨ ∃ status httpStatus at_,
      row' = { row with callbackStatus := status, callbackHttpStatus := httpStatus, updatedAt := at_ } ∧
        row.callbackStatus ≠ .succeeded ∧ (row.callbackStatus = .definitiveFailure → status = .definitiveFailure)) := by
  cases h with
  | same hsame => exact ⟨row, by rw [hsame, hrow], .inl rfl⟩
  | @claimed new hnone _ hfind =>
    have hk : k ≠ new.key := by
      rintro rfl
      rw [hnone] at hrow
      cases hrow
    exact ⟨row, by rw [hfind, if_neg hk, hrow], .inl rfl⟩
  | @completed before status httpStatus at_ hbefore hopen hdefinitive hfind =>
    by_cases hk : k = before.key
    · subst hk
      obtain rfl : before = row := Option.some.inj (hbefore.symm.trans hrow)
      exact ⟨_, by rw [hfind, if_pos rfl], .inr ⟨status, httpStatus, at_, rfl, hopen, hdefinitive⟩⟩
    · exact ⟨row, by rw [hfind, if_neg hk, hrow], .inl rfl⟩

/-- What a record says never changes, and nor does a settled status. -/
lemma DecisionStep.keeps (h : DecisionStep ledger ledger') {k : DecisionKey}
    (hrow : ledger.decisions.find? k = some row) :
    ∃ row', ledger'.decisions.find? k = some row' ∧ row'.state = row.state ∧ row'.comment = row.comment ∧
      (row.callbackStatus.Terminal → row'.callbackStatus = row.callbackStatus) := by
  obtain ⟨row', hrow', rfl | ⟨status, httpStatus, at_, rfl, hopen, hdefinitive⟩⟩ := h.survives hrow
  · exact ⟨row', hrow', rfl, rfl, fun _ => rfl⟩
  · refine ⟨_, hrow', rfl, rfl, ?_⟩
    rintro (hs | hd)
    · exact (hopen hs).elim
    · exact (hdefinitive hd).trans hd.symm

end

end PlatformGitops.CrossAi.Ledger
