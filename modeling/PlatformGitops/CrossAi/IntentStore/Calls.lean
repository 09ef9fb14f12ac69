import PlatformGitops.CrossAi.IntentStore.Stages
import Mathlib.Logic.Relation

/-! The calls of the registry and their execution on its durable state. -/

namespace PlatformGitops.CrossAi.IntentStore

open Library

inductive Call : Type → Type
  | register (envelope : Json) (verified : VerifiedBundle) (registrationPrincipal : String)
      (registeredAt : Option Datetime) : Call Bool
  | finalizeRef (requestId refObjectId resolvedHeadSha : String) (finalizedAt : Option Datetime) : Call Bool
  | queueDispatch (requestId : String) (stage : Stage) (installationId : Int) (repository : String)
      (queuedAt : Option Datetime) : Call DispatchJob
  | getDispatch (requestId : String) (stage : Stage) : Call DispatchJob
  | claimDispatch (requestId : String) (stage : Stage) (claimedAt : Option Datetime) : Call DispatchJob
  | resolveDispatch (requestId : String) (stage : Stage) (state reasonCode : String)
      (httpStatus : Option Int) (resolvedAt : Option Datetime) : Call DispatchJob
  | recordDispatchWatermark (requestId : String) (stage : Stage) (watermark : Int)
      (snapshotAt : Option Datetime) : Call DispatchJob
  | markDispatchPosted (requestId : String) (stage : Stage) (reasonCode : String) (httpStatus : Int)
      (recordedAt : Option Datetime) : Call DispatchJob
  | reconcileDispatch (requestId : String) (stage : Stage) (runId : Int)
      (reconciledAt : Option Datetime) : Call DispatchJob
  | get (requestId : String) : Call (IntentRecord × Json)
  | getFinalized (requestId : String) : Call (IntentRecord × Json)
  | getStage (requestId : String) (stage : Stage) : Call StageReservation
  | getStageOutcome (requestId : String) (stage : Stage) : Call (String × Json)
  | stageApprovedAt (requestId : String) (stage : Stage) : Call Stamp
  | consumeBootstrap (requestId : String) (stage : Stage) (runId runAttempt runnerId : Int)
      (responseDigest : String) (consumedAt : Option Datetime) : Call BootstrapConsumption
  | pendingStages (limit : Int) : Call (List StageReservation)
  | expirePendingStages (now : Option Datetime) : Call Nat
  | reserveStage (requestId : String) (stage : Stage) (runId runAttempt appRuleId : Int)
      (now : Option Datetime) : Call StageReservation
  | transitionStage (requestId : String) (stage : Stage) (toState reasonCode : String)
      (recordedAt : Option Datetime) : Call Unit
  | recordStageOutcome (call : OutcomeCall) (recordedAt : Option Datetime) : Call Bool

def Call.exec {α : Type} (X : Externals) (amb : Ambient) (reg : Registry) :
    Call α → Registry × Except Failure α
  | .register envelope verified principal at_ => IntentStore.register X amb envelope verified principal at_ reg
  | .finalizeRef rid ref sha at_ => transact reg (IntentStore.finalizeRef X amb rid ref sha at_)
  | .queueDispatch rid stage installation repository at_ =>
    transact reg (IntentStore.queueDispatch X amb rid stage installation repository at_)
  | .getDispatch rid stage => (reg, IntentStore.getDispatch rid stage reg.db)
  | .claimDispatch rid stage at_ => transact reg (IntentStore.claimDispatch X amb rid stage at_)
  | .resolveDispatch rid stage state reason status at_ =>
    transact reg (IntentStore.resolveDispatch X amb rid stage state reason status at_)
  | .recordDispatchWatermark rid stage watermark at_ =>
    transact reg (IntentStore.recordDispatchWatermark amb rid stage watermark at_)
  | .markDispatchPosted rid stage reason status at_ =>
    transact reg (IntentStore.markDispatchPosted amb rid stage reason status at_)
  | .reconcileDispatch rid stage run at_ =>
    transact reg (IntentStore.reconcileDispatch X amb rid stage run at_)
  | .get rid => (reg, IntentStore.get X rid reg)
  | .getFinalized rid => (reg, IntentStore.getFinalized X rid reg)
  | .getStage rid stage => (reg, IntentStore.getStage rid stage reg.db)
  | .getStageOutcome rid stage => (reg, IntentStore.getStageOutcome X rid stage reg)
  | .stageApprovedAt rid stage => (reg, IntentStore.stageApprovedAt rid stage reg.db)
  | .consumeBootstrap rid stage run attempt runner digest at_ =>
    transact reg (IntentStore.consumeBootstrap X amb rid stage run attempt runner digest at_)
  | .pendingStages limit => (reg, IntentStore.pendingStages limit reg.db)
  | .expirePendingStages now => transact reg (IntentStore.expirePendingStages X amb now)
  | .reserveStage rid stage run attempt rule now =>
    transact reg (IntentStore.reserveStage X amb rid stage run attempt rule now)
  | .transitionStage rid stage target reason at_ =>
    transact reg (IntentStore.transitionStage X amb rid stage target reason at_)
  | .recordStageOutcome call at_ => IntentStore.recordStageOutcome X amb call at_ reg

/-- One call, with any arguments, at any reading of the clock. -/
def Step (X : Externals) (reg reg' : Registry) : Prop :=
  ∃ (α : Type) (c : Call α) (amb : Ambient), reg' = (c.exec X amb reg).1

def Runs (X : Externals) : Registry → Registry → Prop := Relation.ReflTransGen (Step X)

def Reachable (X : Externals) (reg : Registry) : Prop := Runs X Registry.empty reg

lemma Reachable.exec {X : Externals} {reg : Registry} (h : Reachable X reg) {α : Type} (c : Call α)
    (amb : Ambient) : Reachable X (c.exec X amb reg).1 :=
  Relation.ReflTransGen.tail h ⟨α, c, amb, rfl⟩

namespace Sample

/-- A stand-in for the digest function, which reads a short window of its input. -/
def checksum (bytes : List UInt8) : String :=
  let value := ((bytes.drop 53).take 4).foldl (fun (acc : Nat) (b : UInt8) => acc * 256 + b.toNat) 0
  String.ofList ((List.range 64).map fun i => hexDigit (value / 16 ^ i % 16))

def start : Datetime := 1784232000 * second

def digest (name : String) : String := "sha256:" ++ checksum (utf8 name)

def envelope : Json := .obj [("payloadType", .str "bundle")]

def externals : Externals where
  sha256 := checksum
  fromisoformat s := if s = "2026-07-16T20:02:00+00:00" then some ⟨start + 2 * minute, some 0⟩ else none
  b64decode _ := none
  jsonLoads _ := some envelope
  ed25519Verify _ _ _ := false
  schemaValid _ _ := false

def principal : String := "spiffe://acik/intent-registrar"

def subject : Subject where
  json := .null
  repositoryId := 42
  repository := "acik/platform"
  headSha := "a"
  intentRef := "refs/heads/intent/1"
  environment := "production"
  deploymentClass := ""
  policySha256 := ""
  artifactSetSha256 := "A"
  rollbackPlanSha256 := "B"
  postDeployVerifierSha256 := "V"
  runnerPolicySha256 := ""
  runnerAdmissionLeaseSha256 := ""
  bootstrapCredentialSha256 := ""
  sessionSha256 := "S"
  endpointIdSha256 := ""
  operatorIdSha256 := ""

def workflowStage (name : String) (order : Int) : WorkflowStage :=
  ⟨name, order, name, name, "", "", [], false, none, none⟩

def key : TrustKey := ⟨"", .runnerManagement, [], none, [], [], [], none, 0, 0⟩

def verified : VerifiedBundle where
  bundleId := "bundle"
  bundleDigest := (sha256Digest externals envelope).toOption.getD ""
  subjectDigest := "U"
  requestId := "req"
  sessionDigest := "S"
  expiresAt := start + 60 * minute
  providerFamilies := []
  providerIdentityClasses := []
  finalReviewDigests := []
  coordinatorKeyId := ""
  runnerAdmissionLease := ⟨"", ⟨"", .null, [], "", []⟩, ⟨"", "", .null, .null, []⟩, key, 0, 0⟩
  payload :=
    { bundleId := "bundle", subject, workflowStages := [workflowStage "apply" 1,
        workflowStage "browser-evidence" 2, workflowStage "compensating-rollback" 3],
      workflowStagesJson := .null, runnerAdmissionLeaseEnvelope := .null, reviewEnvelopes := [],
      closureEntries := [], closureRootSha256 := "", consensusProviderFamilies := [],
      consensusFinalAgreeReviewSha256 := [], consensusClosureRootSha256 := "",
      grant := ⟨.null, "req", "", .null, .null, principal, 7,
        [("apply", "n1"), ("browser-evidence", "n2"), ("compensating-rollback", "n3")]⟩ }

def ambient (step : Nat) : Ambient := ⟨start + step * second, fun i => toString step ++ "." ++ toString i⟩

def outcome (conclusion : String) : Json :=
  .obj [("schemaVersion", .str "acik.cross-ai-deployment-stage-outcome.v1"), ("requestId", .str "req"),
    ("stage", .str "apply"), ("runId", .int 11), ("runAttempt", .int 1),
    ("sourceArtifactName", .str "cross-ai-stage-outcome-req-apply-11-1"), ("conclusion", .str conclusion),
    ("sourceArchiveSha256", .str (digest "archive")), ("repositoryId", .int 42),
    ("repository", .str "acik/platform"), ("environment", .str "production"), ("headSha", .str "a"),
    ("intentRef", .str "refs/heads/intent/1"), ("sessionSha256", .str "S"),
    ("workflowBlobSha256", .str "apply"), ("artifactSetSha256", .str "A"),
    ("rollbackPlanSha256", .str "B"), ("postDeployVerifierSha256", .str "V"),
    ("runStartedAt", .str "2026-07-16T20:02:00Z")]

def outcomeCall (conclusion target : String) : OutcomeCall :=
  ⟨"req", .apply, 11, 1, outcome conclusion, (sha256Digest externals (outcome conclusion)).toOption.getD "", target⟩

def after {α : Type} (reg : Registry) (step : Nat) (c : Call α) : Registry :=
  (c.exec externals (ambient step) reg).1

def finalized : Registry :=
  after (after .empty 0 (.register envelope verified principal none)) 1
    (.finalizeRef "req" "aaaaaaaaaaaaaaaaaaaaaaaaaaaaaaaaaaaaaaaa" "a" none)

def reserved : Registry := after finalized 2 (.reserveStage "req" .apply 11 1 5 none)

def succeeded : Registry := after reserved 3 (.recordStageOutcome (outcomeCall "success" "Succeeded") none)

lemma reachable_after {α : Type} {reg : Registry} (h : Reachable externals reg) (step : Nat) (c : Call α) :
    Reachable externals (after reg step c) :=
  h.exec c (ambient step)

lemma reachable_finalized : Reachable externals finalized :=
  reachable_after (reachable_after .refl _ _) _ _

lemma reachable_succeeded : Reachable externals succeeded :=
  reachable_after (reachable_after reachable_finalized _ _) _ _

def browsing : Registry := after succeeded 4 (.reserveStage "req" .browserEvidence 12 1 5 none)

lemma reachable_browsing : Reachable externals browsing := reachable_after reachable_succeeded _ _

def stateIn (reg : Registry) (s : Stage) : Option StageState := (reg.db.stages.find? ("req", s)).map (·.state)

end Sample
end PlatformGitops.CrossAi.IntentStore

/-! The few kinds of committed change that every call of the registry is made of. -/

namespace PlatformGitops.CrossAi.IntentStore

open Library

/-- A row as registration writes it: open and bound to no run. -/
structure StageRow.Unbound (r : StageRow) : Prop where
  state : r.state = .available
  runId : r.runId = none

/-- The moves of a stage that record no outcome. -/
inductive StageMove : StageState → StageState → Prop
  | approved : StageMove .reserved .approvedPendingOutcome
  | rejected : StageMove .reserved .rejected
  | overdue : StageMove .reserved .outcomeOverdue
  | approvedOverdue : StageMove .approvedPendingOutcome .outcomeOverdue
  | terminal : StageMove .outcomeOverdue .callbackUnknown
  | progressed : StageMove .callbackUnknown .approvedPendingOutcome

/-- What an update may do to a dispatch row. -/
inductive DispatchMove : DispatchJob → DispatchJob → Prop
  | claimed {j : DispatchJob} {at_ : Stamp} : j.state = .pending →
      DispatchMove j { j with state := .sending, claimedAt := some at_ }
  | resolved {j : DispatchJob} {target : DispatchState} {at_ : Stamp} {status : Option Int}
      {reason : String} : j.state = .sending → (target = .uncertain ∨ target = .rejected) →
      DispatchMove j { j with
        state := target, resolvedAt := some at_, httpStatus := status, reasonCode := some reason }
  | watermarked {j : DispatchJob} {at_ : Stamp} {watermark : Int} : j.state = .sending →
      j.preDispatchRunIdWatermark = none →
      DispatchMove j { j with snapshotAt := some at_, preDispatchRunIdWatermark := some watermark }
  | posted {j : DispatchJob} {at_ : Stamp} {status : Int} {reason : String} : j.state = .sending →
      j.httpStatus = none →
      DispatchMove j { j with httpStatus := some status, reasonCode := some reason, resolvedAt := some at_ }
  | reconciled {j : DispatchJob} {at_ : Stamp} {watermark runId : Int} {reason : String} :
      (j.state = .sending ∨ j.state = .uncertain) → j.preDispatchRunIdWatermark = some watermark →
      watermark < runId →
      DispatchMove j { j with
        state := .accepted, resolvedAt := some at_, reasonCode := some reason, runId := some runId }

/-- The log of a dispatch grows exactly when its state changes. -/
def DispatchRecords (events events' : EventTable) (j j' : DispatchJob) : Prop :=
  (j'.state = j.state ∧ events' = events) ∨
    (j'.state ≠ j.state ∧ Records events events' j.requestId (some j.stage) (some (.dispatch j.state))
      (.dispatch j'.state))

inductive Change (db : Db) : Db → Prop
  | registered {row : IntentRecord} {intents : Table IntentRecord.requestId IntentsValid}
      {stages : Table StageRow.key StagesValid} {events : EventTable} :
      row.state = .registered → db.intents.insert? row = some intents →
      (∀ k, stages.find? k = db.stages.find? k ∨
        (k.1 = row.requestId ∧ db.stages.find? k = none ∧ ∃ r ∈ stages.find? k, r.Unbound)) →
      Records db.events events row.requestId none none (.intent .registered) →
      Change db { db with intents, stages, events }
  | finalized {row : IntentRecord} {refObjectId : String} {at_ : Stamp}
      {intents : Table IntentRecord.requestId IntentsValid} {events : EventTable} :
      db.intents.find? row.requestId = some row → row.state = .registered →
      db.intents.modify? row.requestId (fun r => { r with
        refObjectId := some refObjectId, finalizedAt := some at_, state := .finalized }) = some intents →
      Records db.events events row.requestId none (some (.intent .registered)) (.intent .finalized) →
      Change db { db with intents, events }
  | dispatchQueued {job : DispatchJob} {row : StageRow}
      {dispatches : Table DispatchJob.key DispatchesValid} {events : EventTable} :
      db.dispatches.insert? job = some dispatches → db.stages.find? job.key = some row →
      job.state = .pending → job.preDispatchRunIdWatermark = none → job.runId = none →
      Records db.events events job.requestId (some job.stage) none (.dispatch .pending) →
      Change db { db with dispatches, events }
  | dispatchMoved {j j' : DispatchJob} {dispatches : Table DispatchJob.key DispatchesValid}
      {events : EventTable} :
      db.dispatches.find? j.key = some j → DispatchMove j j' →
      (∀ k, dispatches.find? k = if k = j.key then some j' else db.dispatches.find? k) →
      DispatchRecords db.events events j j' →
      Change db { db with dispatches, events }
  | stageReserved {row row' : StageRow} {runId runAttempt appRuleId : Int}
      {stages : Table StageRow.key StagesValid} {events : EventTable} :
      db.stages.find? row.key = some row → row.state = .available →
      prerequisiteSatisfied db row.requestId row.stage = true → row'.state = .reserved →
      row'.runId = some runId → row'.runAttempt = some runAttempt → row'.appRuleId = some appRuleId →
      (∀ k, stages.find? k = if k = row.key then some row' else db.stages.find? k) →
      Records db.events events row.requestId (some row.stage) (some (.stage .available)) (.stage .reserved) →
      Change db { db with stages, events }
  | stageMoved {row : StageRow} {toState : StageState} {stages : Table StageRow.key StagesValid}
      {events : EventTable} :
      db.stages.find? row.key = some row → StageMove row.state toState →
      db.stages.modify? row.key (fun r => { r with state := toState }) = some stages →
      Records db.events events row.requestId (some row.stage) (some (.stage row.state)) (.stage toState) →
      Change db { db with stages, events }
  | outcomeSealed {row : StageRow} {outcome : StageOutcome} {stages : Table StageRow.key StagesValid}
      {outcomes : Table StageOutcome.key OutcomesValid} {events : EventTable} :
      db.stages.find? row.key = some row → row.state = .approvedPendingOutcome → outcome.key = row.key →
      row.runId = some outcome.runId → row.runAttempt = some outcome.runAttempt →
      outcome.targetState ∈ allowedTargets row.stage →
      (row.stage = .apply → outcome.targetState = .succeeded →
        ∃ r ∈ db.stages.find? (row.requestId, .compensatingRollback), r.state = .available) →
      db.outcomes.insert? outcome = some outcomes →
      db.stages.modify? row.key (fun r => { r with state := outcome.targetState }) = some stages →
      Records db.events events row.requestId (some row.stage) (some (.stage .approvedPendingOutcome))
        (.stage outcome.targetState) →
      Change db { db with stages, outcomes, events }
  | bootstrapConsumed {row : StageRow} {consumption : BootstrapConsumption}
      {consumptions : Table BootstrapConsumption.key ConsumptionsValid} {events : EventTable} :
      db.stages.find? row.key = some row → row.state = .approvedPendingOutcome →
      consumption.key = row.key → db.consumptions.insert? consumption = some consumptions →
      Records db.events events row.requestId (some row.stage) (some (.stage .approvedPendingOutcome))
        (.stage .approvedPendingOutcome) →
      Change db { db with consumptions, events }

abbrev Changes := Relation.ReflTransGen Change

/-- A call that leaves every stage alone that is already there. -/
structure Aside (db db' : Db) : Prop where
  changes : Changes db db'
  stages : ∀ k, db'.stages.find? k = db.stages.find? k ∨
    (db.stages.find? k = none ∧ ∃ r ∈ db'.stages.find? k, r.Unbound)

lemma Aside.refl (db : Db) : Aside db db := ⟨.refl, fun _ => .inl rfl⟩

lemma Aside.single {db db' : Db} (h : Change db db') (hs : db'.stages = db.stages) : Aside db db' :=
  ⟨.single h, fun _ => .inl (by rw [hs])⟩

end PlatformGitops.CrossAi.IntentStore
