import PlatformGitops.CrossAi.Effects
import PlatformGitops.CrossAi.Ledger
import Mathlib

/-! The enforcement cycles of the service: one decision for each run, under the process lock. -/

namespace PlatformGitops.CrossAi.Server

open Library IntentStore Ledger

def approvalComment (result : EvaluationResult) : String :=
  "APPROVED evidence=sha256:" ++ String.ofList (( removeprefix result.evidenceDigest "sha256:").toList.take 16) ++
    " stage=" ++ result.stage.text ++ " policy=v1"

def rejectionComment (code : String) : String :=
  "REJECTED code=" ++ if code.toList.length ≤ 80 then code else "POLICY_REJECTED"

def CallbackStatus.upper : CallbackStatus → String
  | .pending => "PENDING"
  | .succeeded => "SUCCEEDED"
  | .definitiveFailure => "DEFINITIVEFAILURE"
  | .unknown => "UNKNOWN"

/-- A decision that is claimed and posted: its verdict, and what it says. -/
structure Verdict where
  state : DecisionState
  reasonCode : String
  evidenceDigest : Option String
  comment : String
deriving DecidableEq, Repr

def approval (result : EvaluationResult) : Verdict :=
  ⟨.approved, result.reasonCode, some result.evidenceDigest, approvalComment result⟩

def rejection (code : String) : Verdict := ⟨.rejected, code, none, rejectionComment code⟩

def decisionOf (request : DeploymentProtectionRequest) (v : Verdict) : Decision :=
  ⟨request.repositoryId, request.installationId, request.repository, request.runId, request.environment, v.state,
    v.comment⟩

section

variable (request : DeploymentProtectionRequest)

def append (eventType reasonCode : String) (evidenceDigest : Option String) : Action Unit :=
  Action.ledger (.appendEvent request.deliveryId eventType reasonCode evidenceDigest)

def moveReserved (r : StageReservation) (toState reasonCode : String) : Action Unit :=
  Action.registry (.transitionStage r.requestId r.stage toState reasonCode none)

def approveStage : Option StageReservation → Action Unit
  | some r => moveReserved r "ApprovedPendingOutcome" "CALLBACK_ACCEPTED_204"
  | none => pure ()

/-- An ambiguous callback moves the stage whatever its state, a failed one only while it is reserved. -/
def refuseStage (callback : CallbackResult) : Option StageReservation → Action Unit
  | some r =>
    if callback.ambiguous ∨ r.state = .reserved then
      moveReserved r (if callback.ambiguous then "OutcomeOverdue" else "Rejected") callback.reasonCode
    else pure ()
  | none => pure ()

def rejectStage (code : String) : Option StageReservation → Action Unit
  | some r => if r.state = .reserved then moveReserved r "Rejected" code else pure ()
  | none => pure ()

def recordAccepted (v : Verdict) (reservation : Option StageReservation) (callback : CallbackResult) : Action Unit := do
  let _ ← Action.ledger (.completeDecision request .succeeded callback.status)
  approveStage reservation
  append request (if v.state = .approved then "DECISION_APPROVED" else "DECISION_REJECTED") v.reasonCode
    v.evidenceDigest

def recordRefused (v : Verdict) (reservation : Option StageReservation) (callback : CallbackResult) : Action Unit := do
  let _ ← Action.ledger (.completeDecision request (if callback.ambiguous then .unknown else .definitiveFailure)
    callback.status)
  refuseStage callback reservation
  append request (if callback.ambiguous then "CALLBACK_UNKNOWN" else "CALLBACK_DEFINITIVE_FAILURE")
    callback.reasonCode v.evidenceDigest

def postClaimedDecision (v : Verdict) (reservation : Option StageReservation) : Action Unit := do
  let (record, _) ← Action.ledger (.claimDecision request v.state v.reasonCode v.evidenceDigest v.comment)
  if record.callbackStatus = .succeeded ∨ record.callbackStatus = .definitiveFailure then
    append request "DECISION_REPLAYED" ("CALLBACK_" ++ CallbackStatus.upper record.callbackStatus) v.evidenceDigest
  else do
    let callback ← Prog.perform (Effect.postDecision (decisionOf request v))
    if callback.accepted then recordAccepted request v reservation callback
    else recordRefused request v reservation callback

/-- The handler of a policy error: other failures are raised again. -/
def refuse (reservation : Option StageReservation) : Failure → Action (Option EvaluationResult)
  | .policy exc => do
    rejectStage exc.code reservation
    match ← (postClaimedDecision request (rejection exc.code) none).attempt with
    | .ok _ => pure none
    | .error (.policy blocked) =>
      if blocked.code ≠ "DECISION_CONFLICT" then .fail (.policy blocked)
      else do
        append request "DECISION_CONFLICT_BLOCKED" blocked.code none
        pure none
    | .error e => .fail e
  | e => .fail e

section

variable (evaluate : DeploymentProtectionRequest → Action EvaluationResult)

def evaluateAndReserve : Action (EvaluationResult × StageReservation) := do
  let result ← evaluate request
  let reservation ← Action.registry (.reserveStage result.requestId result.stage result.runId result.runAttempt
    result.appRuleId none)
  pure (result, reservation)

/-- The second full read, which closes the window between evaluation and callback. -/
def recheck (result : EvaluationResult) : Action Unit := do
  let rechecked ← evaluate request
  Action.rejectIf (rechecked ≠ result) "GITHUB_TRUTH_CHANGED" "evaluation changed before callback"

def enforce : Action (Option EvaluationResult) := do
  append request "ENFORCEMENT_REQUESTED" "AUTHENTICATED_WEBHOOK_ENQUEUED" none
  match ← (evaluateAndReserve request evaluate).attempt with
  | .error e => refuse request none e
  | .ok (result, reservation) =>
    match ← (recheck request evaluate result).attempt with
    | .error e => refuse request (some reservation) e
    | .ok _ => do
      postClaimedDecision request (approval result) (some reservation)
      pure (some result)

/-- The process lock is released however the body ends. -/
def locked {α : Type} (body : Action α) : Action α := do
  Prog.perform Effect.acquire
  let out ← body.attempt
  Prog.perform Effect.release
  Prog.ofExcept out

/-- One turn of the worker: it never fails. -/
def workerCycle : Action Unit := do
  match ← (locked (enforce request evaluate)).attempt with
  | .ok _ => pure ()
  | .error _ => do
    let _ ← (append request "PROCESSING_FAILED" "OBSERVE_PROCESSING_ERROR" none).attempt

def processPolled : Action Bool := do
  Action.rejectIf (request.provenance ≠ .githubAppDeliveryApiV1) "POLLER_PROVENANCE_INVALID"
    "polled request provenance is invalid"
  locked do
    let _ ← Action.ledger (.recordDelivery request)
    if ← Action.ledger (.callbackSucceeded request) then pure true
    else do
      let _ ← enforce request evaluate
      Action.ledger (.callbackSucceeded request)

end

/-- The intake of a webhook, which the worker then takes from its queue. -/
def accept : Action Bool := Action.ledger (.recordDelivery request)

end

section

variable {P : {γ : Type} → Effect γ → Prop}

lemma only_approveStage (hmove : ∀ rid stage target reason at_, P (.registry (.transitionStage rid stage target reason at_)))
    (reservation : Option StageReservation) : (approveStage reservation).Only P := by
  cases reservation with
  | none => trivial
  | some r => exact Prog.only_perform.mpr (hmove _ _ _ _ _)

lemma only_refuseStage (hmove : ∀ rid stage target reason at_, P (.registry (.transitionStage rid stage target reason at_)))
    (callback : CallbackResult) (reservation : Option StageReservation) : (refuseStage callback reservation).Only P := by
  cases reservation with
  | none => trivial
  | some r =>
    simp only [refuseStage]
    split
    · exact Prog.only_perform.mpr (hmove _ _ _ _ _)
    · trivial

lemma only_rejectStage (hmove : ∀ rid stage target reason at_, P (.registry (.transitionStage rid stage target reason at_)))
    (code : String) (reservation : Option StageReservation) : (rejectStage code reservation).Only P := by
  cases reservation with
  | none => trivial
  | some r =>
    simp only [rejectStage]
    split
    · exact Prog.only_perform.mpr (hmove _ _ _ _ _)
    · trivial

lemma only_recordAccepted (hmove : ∀ rid stage target reason at_, P (.registry (.transitionStage rid stage target reason at_)))
    (hledger : ∀ {α : Type} (c : Ledger.Call α), P (.ledger c)) (request : DeploymentProtectionRequest) (v : Verdict)
    (reservation : Option StageReservation) (callback : CallbackResult) :
    (recordAccepted request v reservation callback).Only P :=
  Prog.only_bind (Prog.only_perform.mpr (hledger _)) fun _ =>
    Prog.only_bind (only_approveStage hmove reservation) fun _ => Prog.only_perform.mpr (hledger _)

lemma only_recordRefused (hmove : ∀ rid stage target reason at_, P (.registry (.transitionStage rid stage target reason at_)))
    (hledger : ∀ {α : Type} (c : Ledger.Call α), P (.ledger c)) (request : DeploymentProtectionRequest) (v : Verdict)
    (reservation : Option StageReservation) (callback : CallbackResult) :
    (recordRefused request v reservation callback).Only P :=
  Prog.only_bind (Prog.only_perform.mpr (hledger _)) fun _ =>
    Prog.only_bind (only_refuseStage hmove callback reservation) fun _ => Prog.only_perform.mpr (hledger _)

end

end PlatformGitops.CrossAi.Server

/-! The world around one enforcing service: its two databases, its process lock, and the decisions it posts. -/

namespace PlatformGitops.CrossAi.Service

open Library IntentStore Ledger Server

/-- A decision POST, with what the databases hold when it is made: the decision record of its run, and the row of
the stage that the cycle reserved. -/
structure Sent where
  decision : Decision
  record : Option DecisionRecord
  reservation : Option StageReservation
  row : Option StageRow

structure World where
  registry : Registry
  ledger : ObserveLedger
  lock : Option Nat
  reservation : Option StageReservation
  posts : List Sent

namespace World

def db (w : World) : Db := w.registry.db

def initial : World := ⟨Registry.empty, Ledger.empty, none, none, []⟩

def decision? (w : World) (k : DecisionKey) : Option DecisionRecord := w.ledger.decisions.find? k

def post (w : World) (d : Decision) : World :=
  { w with posts := w.posts ++ [⟨d, w.decision? d.key, w.reservation,
      w.reservation.bind fun r => w.db.stages.find? (r.requestId, r.stage)⟩] }

end World

/-- The reservation that the present cycle has been given, after one more call. -/
def given {β : Type} (c : IntentStore.Call β) (r : Except Failure β) (before : Option StageReservation) :
    Option StageReservation :=
  match c, r with
  | .reserveStage .., .ok reservation => some reservation
  | _, _ => before

/-- A call on a database fails before its transaction, or is committed; its answer may be lost. An evaluation may
give any result for the intent and the run of its request. -/
def answer (X : Externals) {β : Type} (t : Nat) (e : Effect β) (w w' : World) (r : Except Failure β) : Prop :=
  match e with
  | .registry c => (w' = w ∧ r = .error .unavailable) ∨ ∃ amb : Ambient,
      (r = (c.exec X amb w.registry).2 ∨ r = .error .unavailable) ∧
        w' = { w with registry := (c.exec X amb w.registry).1, reservation := given c r w.reservation }
  | .ledger c => (w' = w ∧ r = .error .unavailable) ∨ ∃ amb : Ambient,
      (r = (c.exec X amb w.ledger).2 ∨ r = .error .unavailable) ∧
        w' = { w with ledger := (c.exec X amb w.ledger).1 }
  | .evaluate request => w' = w ∧ ∀ result, r = .ok result →
      result.requestId = request.requestId ∧ result.runId = request.runId
  | .postDecision d => w' = w.post d
  | .acquire => w.lock = none ∧ w' = { w with lock := some t, reservation := none } ∧ r = .ok ()
  | .release => w' = { w with lock := none } ∧ r = .ok ()
  | _ => w' = w

def evaluator (request : DeploymentProtectionRequest) : Action EvaluationResult :=
  Prog.perform (Effect.evaluate request)

/-- What runs in the process: the intake, the worker, the poller, and the other users of the registry. -/
inductive Entry : Action Unit → Prop
  | accept (request : DeploymentProtectionRequest) : Entry (do let _ ← accept request)
  | worker (request : DeploymentProtectionRequest) : Entry (workerCycle request evaluator)
  | polled (request : DeploymentProtectionRequest) : Entry (do let _ ← processPolled request evaluator)
  | other {α : Type} (c : IntentStore.Call α) : Entry (do let _ ← Action.registry c)

/-- A restart stops every thread and frees the lock; the databases stay. -/
def system (X : Externals) : System Failure Effect World Nat where
  answer := answer X
  start _ p := Entry p
  restart w w' := w' = { w with lock := none, reservation := none }

namespace Sample

open IntentStore.Sample

/-- A stand-in for the digest function, which reads the event identifier of a rendered event. -/
def checksum (bytes : List UInt8) : String :=
  let offset := if bytes[3]? = some 101 then 82 else 53
  let value := ((bytes.drop offset).take 4).foldl (fun (acc : Nat) (b : UInt8) => acc * 256 + b.toNat) 0
  String.ofList ((List.range 64).map fun i => hexDigit (value / 16 ^ i % 16))

def externals : Externals := { IntentStore.Sample.externals with sha256 := checksum }

def ambientOf (w : World) : Ambient :=
  ⟨start + 2 * minute, fun i => toString (w.db.events.rows.length + w.ledger.events.rows.length) ++ "." ++ toString i⟩

def result : EvaluationResult :=
  ⟨true, "SIGNED_EVIDENCE_AND_GITHUB_TRUTH_VALID", "req", .apply, 11, 1, 5, "sha256:ab", "P", []⟩

/-- A polled delivery of the run of the apply stage. -/
def request (deliveryId : String) : DeploymentProtectionRequest :=
  ⟨deliveryId, 42, "acik/platform", 3, "production", "a", "refs/heads/intent/1", "req", 11, 9, deliveryId,
    .githubAppDeliveryApiV1⟩

/-- A world in which the evaluation succeeds and every callback gets the same answer. -/
def world (callback : CallbackResult) {γ : Type} (e : Effect γ) (w : World) : Option (World × Except Failure γ) :=
  match e with
  | .registry c =>
    let out := c.exec externals (ambientOf w) w.registry
    some ({ w with registry := out.1, reservation := given c out.2 w.reservation }, out.2)
  | .ledger c =>
    let out := c.exec externals (ambientOf w) w.ledger
    some ({ w with ledger := out.1 }, out.2)
  | .evaluate request =>
    if request.requestId = "req" ∧ request.runId = 11 then some (w, .ok result) else none
  | .postDecision d => some (w.post d, .ok callback)
  | .acquire => if w.lock = none then some ({ w with lock := some 0, reservation := none }, .ok ()) else none
  | .release => some ({ w with lock := none }, .ok ())
  | _ => none

lemma world_answers (callback : CallbackResult) : Answers (system externals).toMachine 0 (world callback) := by
  intro γ e w w' r h
  cases e with
  | registry c =>
    cases h
    exact Or.inr ⟨ambientOf w, Or.inl rfl, rfl⟩
  | ledger c =>
    cases h
    exact Or.inr ⟨ambientOf w, Or.inl rfl, rfl⟩
  | evaluate request =>
    simp only [world] at h
    split at h
    · rename_i hsubject
      cases h
      refine ⟨rfl, fun result h => ?_⟩
      cases h
      exact ⟨hsubject.1.symm, hsubject.2.symm⟩
    · cases h
  | acquire =>
    by_cases hfree : w.lock = none
    · simp only [world, if_pos hfree, Option.some.injEq, Prod.mk.injEq] at h
      exact ⟨hfree, h.1.symm, h.2.symm⟩
    · simp [world, hfree] at h
  | release =>
    cases h
    exact ⟨rfl, rfl⟩
  | _ => cases h <;> rfl

def accepted204 : CallbackResult := ⟨true, false, some 204, "CALLBACK_ACCEPTED_204"⟩
def timeout : CallbackResult := ⟨false, true, none, "CALLBACK_TRANSPORT_AMBIGUOUS"⟩

def cycle (callback : CallbackResult) (deliveryId : String) (w : World) : Option World :=
  (Prog.interp (world callback) (do let _ ← processPolled (request deliveryId) evaluator) w).map (·.1)

def call {α : Type} (c : IntentStore.Call α) (w : World) : Option World :=
  (Prog.interp (world timeout) (do let _ ← Action.registry c) w).map (·.1)

/-- An intent is registered and finalized. -/
def ready : Option World := do
  let w ← call (.register envelope verified principal none) World.initial
  call (.finalizeRef "req" "aaaaaaaaaaaaaaaaaaaaaaaaaaaaaaaaaaaaaaaa" "a" none) w

/-- A first callback whose outcome is not known, and a second one that is accepted. -/
def retried : Option World := do
  let w ← ready
  let w ← cycle timeout "d1" w
  cycle accepted204 "d2" w

/-- The verdicts posted with the reservations of their cycles, the status of the decision and the state of the stage. -/
def view (w : World) : List (DecisionState × Option StageState) × Option CallbackStatus × Option StageState :=
  (w.posts.map fun p => (p.decision.state, p.reservation.map (·.state)),
    (w.decision? (42, "production", 11)).map (·.callbackStatus), (w.db.stages.find? ("req", .apply)).map (·.state))

lemma retried_view : retried.map view = some ([(.approved, some .reserved), (.approved, some .outcomeOverdue)],
    some .succeeded, some .outcomeOverdue) := by
  decide +kernel

lemma exec_cycle {callback : CallbackResult} {deliveryId : String} {w w' : World}
    (h : cycle callback deliveryId w = some w') :
    ∃ out, Exec (system externals).toMachine 0 (do let _ ← processPolled (request deliveryId) evaluator) w w' out := by
  obtain ⟨⟨w₁, out⟩, hrun, rfl⟩ := Option.map_eq_some_iff.mp h
  exact ⟨out, exec_interp (world_answers callback) hrun⟩

lemma exec_call {α : Type} {c : IntentStore.Call α} {w w' : World} (h : call c w = some w') :
    ∃ out, Exec (system externals).toMachine 0 (do let _ ← Action.registry c) w w' out := by
  obtain ⟨⟨w₁, out⟩, hrun, rfl⟩ := Option.map_eq_some_iff.mp h
  exact ⟨out, exec_interp (world_answers timeout) hrun⟩

lemma run_cycle {callback : CallbackResult} {deliveryId : String} {w w' : World}
    (h : cycle callback deliveryId w = some w') :
    (system externals).Run (w, fun _ => none) (w', fun _ => none) := by
  obtain ⟨out, hexec⟩ := exec_cycle h
  exact System.run_alone (.polled _) hexec

lemma run_ready {w : World} (h : ready = some w) :
    (system externals).Run (World.initial, fun _ => none) (w, fun _ => none) := by
  simp only [ready, Option.bind_eq_bind, Option.bind_eq_some_iff] at h
  obtain ⟨w₁, h₁, h₂⟩ := h
  obtain ⟨out₁, hexec₁⟩ := exec_call h₁
  obtain ⟨out₂, hexec₂⟩ := exec_call h₂
  exact .trans (System.run_alone (.other _) hexec₁) (System.run_alone (.other _) hexec₂)

lemma run_retried {w : World} (h : retried = some w) :
    (system externals).Run (World.initial, fun _ => none) (w, fun _ => none) := by
  simp only [retried, Option.bind_eq_bind, Option.bind_eq_some_iff] at h
  obtain ⟨w₁, h₁, w₂, h₂, h₃⟩ := h
  exact ((run_ready h₁).trans (run_cycle h₂)).trans (run_cycle h₃)

end Sample

end PlatformGitops.CrossAi.Service
