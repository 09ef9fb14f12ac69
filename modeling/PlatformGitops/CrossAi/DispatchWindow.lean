import PlatformGitops.CrossAi.Evaluator

/-! The window in which the dispatcher binds a run, against the window in which the evaluator accepts it. -/

namespace PlatformGitops.CrossAi.DispatchWindow

open Library IntentStore Evaluator

section

variable {α β : Type} {code : String}

/-- The computation is not rejected with this code. -/
def Avoids (code : String) (r : Except Failure α) : Prop := ∀ message, r ≠ reject code message

lemma avoids_ok {a : α} : Avoids code (.ok a : Except Failure α) := by
  intro message h
  cases h

lemma avoids_bind {x : Except Failure α} {f : α → Except Failure β} (hx : Avoids code x)
    (hf : ∀ a, x = .ok a → Avoids code (f a)) : Avoids code (x >>= f) := by
  cases x with
  | ok a => exact hf a rfl
  | error e =>
    intro message h
    have he : (.error e : Except Failure β) = reject code message := h
    cases he
    exact hx message rfl

lemma avoids_rejectIf {bad : Prop} [Decidable bad] {other message : String} (h : other ≠ code ∨ ¬ bad) :
    Avoids code (rejectIf bad other message) := by
  intro m heq
  by_cases hbad : bad
  · simp only [rejectIf, Fallible.rejectIf, if_pos hbad, reject, policyError, Except.error.injEq,
      Failure.policy.injEq, PolicyError.mk.injEq] at heq
    exact h.elim (fun hne => hne heq.1) (fun hn => hn hbad)
  · simp [rejectIf, Fallible.rejectIf, hbad, reject] at heq

lemma avoids_expect {x : Option α} {other message : String} (h : other ≠ code) :
    Avoids code (expect x other message) := by
  cases x with
  | some a => exact avoids_ok
  | none =>
    intro m heq
    simp only [expect, Fallible.expect, reject, policyError, Except.error.injEq, Failure.policy.injEq,
      PolicyError.mk.injEq] at heq
    exact h heq.1

lemma avoids_object {value : Json} {field : String} (h : "GITHUB_TRUTH_INVALID" ≠ code) :
    Avoids code (object value field) :=
  avoids_bind (avoids_rejectIf (.inl h)) fun _ _ => avoids_ok

lemma avoids_positiveInt {value : Json} {field : String} (h : "GITHUB_TRUTH_INVALID" ≠ code) :
    Avoids code (positiveInt value field) :=
  avoids_expect h

end

def windowCode : String := "RUN_DISPATCH_WINDOW_INVALID"

lemma runIdentity_avoids (policy : DeploymentPolicy) (request : DeploymentProtectionRequest) (run : Json) :
    Avoids windowCode (runIdentity policy request run) := by
  refine avoids_bind (avoids_positiveInt (by decide)) fun _ _ => ?_
  refine avoids_bind (avoids_rejectIf (.inl (by decide))) fun _ _ => ?_
  refine avoids_bind (avoids_rejectIf (.inl (by decide))) fun _ _ => ?_
  refine avoids_bind (avoids_rejectIf (.inl (by decide))) fun _ _ => ?_
  refine avoids_bind (avoids_rejectIf (.inl (by decide))) fun _ _ => ?_
  refine avoids_bind (avoids_object (by decide)) fun _ _ => ?_
  refine avoids_bind (avoids_object (by decide)) fun _ _ => ?_
  refine avoids_bind (avoids_rejectIf (.inl (by decide))) fun _ _ => ?_
  refine avoids_bind (avoids_object (by decide)) fun _ _ => ?_
  refine avoids_bind (avoids_positiveInt (by decide)) fun _ _ => ?_
  refine avoids_bind (avoids_rejectIf (.inl (by decide))) fun _ _ => ?_
  refine avoids_bind (avoids_positiveInt (by decide)) fun _ _ => ?_
  refine avoids_bind (avoids_rejectIf (.inl (by decide))) fun _ _ => ?_
  exact avoids_bind (avoids_expect (by decide)) fun _ _ => avoids_ok

lemma parseUtc_avoids (X : Externals) (value : Json) (field : String) :
    Avoids windowCode (parseUtc X value field) := by
  have hne : ∀ m, Avoids windowCode (reject "TIMESTAMP_INVALID" m : Except Failure Datetime) := by
    intro m m' h
    simp only [reject, policyError, Except.error.injEq, Failure.policy.injEq, PolicyError.mk.injEq] at h
    exact absurd h.1 (by decide)
  unfold parseUtc
  split
  · split
    · split
      · split
        · exact avoids_ok
        · exact hne _
      · exact hne _
    · exact hne _
  · exact hne _

/-- A reconciliation of the dispatch at `current` binds this run. -/
def Binds (X : Externals) (job : DispatchJob) (record : IntentRecord) (current : Datetime) (run : Json) : Prop :=
  ∃ claimedAt watermark, job.claimedAt = some claimedAt ∧ job.preDispatchRunIdWatermark = some watermark ∧
    claimedAt.instant < Dispatcher.windowEnd claimedAt.instant record.expiresAt ∧
    Dispatcher.matchingRun X run job record claimedAt.instant
      (Dispatcher.windowEnd claimedAt.instant record.expiresAt) current watermark = true

/-- A call that binds a run to a dispatch carries the identifier of a run as in `Binds`. -/
def Binding (X : Externals) : {γ : Type} → Effect γ → Prop
  | _, .registry (.reconcileDispatch _ _ runId (some current)) =>
    ∃ job record run, Binds X job record current run ∧ runId = (run.get "id").asInt?.getD 0
  | _, .registry (.reconcileDispatch _ _ _ none) => False
  | _, _ => True

lemma verifiedRecord_binding (X : Externals) (requestId : String) :
    (Dispatcher.verifiedRecord requestId).Only (Binding X) := by
  refine Prog.only_bind (Prog.only_perform.mpr trivial) fun found => ?_
  refine Prog.only_bind (Prog.only_perform.mpr trivial) fun verified => ?_
  refine Prog.only_bind ?_ fun _ => Prog.only_pure
  unfold Action.rejectIf
  split <;> trivial

lemma reconcileDispatch_binding (X : Externals) (requestId : String) (stage : Stage) :
    (Dispatcher.reconcileDispatch X requestId stage).Only (Binding X) := by
  refine Prog.only_bind (Prog.only_perform.mpr trivial) fun current => ?_
  refine Prog.only_bind (Prog.only_perform.mpr trivial) fun job => ?_
  refine Action.only_bind_rejectIf fun _ => ?_
  refine Prog.only_bind_ofExcept fun claimedAt hclaimed => ?_
  refine Action.only_bind_rejectIf fun _ => ?_
  refine Prog.only_bind_ofExcept fun watermark hwatermark => ?_
  refine Prog.only_bind (verifiedRecord_binding X requestId) fun record => ?_
  refine Action.only_bind_rejectIf fun hopen => ?_
  refine Prog.only_bind (Prog.only_perform.mpr trivial) fun runs => ?_
  rw [expect_eq_ok] at hclaimed hwatermark
  split
  · split
    · exact Prog.only_perform.mpr trivial
    · exact Prog.only_pure
  · rename_i run hrun
    refine Prog.only_bind (Prog.only_perform.mpr trivial) fun liveRef => ?_
    refine Action.only_bind_rejectIf fun _ => Prog.only_perform.mpr ?_
    have hmem : run ∈ runs.filter (Dispatcher.matchingRun X · job record claimedAt.instant
        (Dispatcher.windowEnd claimedAt.instant record.expiresAt) current watermark) := by
      rw [hrun]
      exact List.mem_singleton_self run
    exact ⟨job, record, run, ⟨claimedAt, watermark, hclaimed, hwatermark, not_le.mp hopen,
      (List.mem_filter.mp hmem).2⟩, rfl⟩
  · split
    · exact Prog.only_bind (Prog.only_perform.mpr trivial) fun _ => trivial
    · trivial

/-- No run bound before the intent expires is later rejected for its creation time. -/
def WindowsAgree (X : Externals) (job : DispatchJob) (record : IntentRecord) : Prop :=
  ∀ (policy : DeploymentPolicy) (request : DeploymentProtectionRequest) (run : Json) (current now : Datetime),
    current < record.expiresAt.instant → Binds X job record current run → current ≤ now →
      Avoids windowCode (runBinding X policy request run record.registeredAt record.finalizedAt now)

/-- The instant from which the evaluator counts. -/
def anchor (record : IntentRecord) : Datetime := (record.finalizedAt.getD record.registeredAt).instant

/-- Every instant of the dispatcher's window lies in the evaluator's, for a delay `d`. -/
lemma window_within {c e f d t : Int} (hopen : c < min (c + d) e) (hfrom : c ≤ t) (hto : t ≤ min (c + d) e)
    (h : e ≤ c ∨ (f ≤ c ∧ (c = f ∨ e ≤ f + d))) : f ≤ t ∧ t ≤ f + d := by
  omega

/-- Otherwise one of its two ends lies outside. -/
lemma window_escapes {c e f d : Int} (h : ¬ (e ≤ c ∨ (f ≤ c ∧ (c = f ∨ e ≤ f + d)))) (hd : 0 < d) :
    c < min (c + d) e ∧ (c < f ∨ f + d < min (c + d) e) := by
  omega

section

variable {X : Externals} {job : DispatchJob} {record : IntentRecord} {claimedAt : Stamp} {watermark : Int}

lemma windowsAgree_of_le (hclaimed : job.claimedAt = some claimedAt)
    (h : record.expiresAt.instant ≤ claimedAt.instant ∨ (anchor record ≤ claimedAt.instant ∧
      (claimedAt.instant = anchor record ∨ record.expiresAt.instant ≤ anchor record + maxDispatchDelay))) :
    WindowsAgree X job record := by
  rintro policy request run current now - ⟨claimedAt', watermark, hc, -, hopen, hmatch⟩ hnow
  obtain rfl : claimedAt = claimedAt' := by simpa [hclaimed] using hc
  rw [Dispatcher.matchingRun] at hmatch
  split at hmatch
  · split at hmatch
    · rename_i createdAt hcreated
      obtain ⟨hfrom, hto, hclock⟩ : claimedAt.instant ≤ createdAt ∧
          createdAt ≤ Dispatcher.windowEnd claimedAt.instant record.expiresAt ∧ createdAt ≤ current + 60 * second := by
        simpa using hmatch
      have hinside := window_within hopen hfrom hto h
      refine avoids_bind (runIdentity_avoids _ _ _) fun _ _ => ?_
      refine avoids_bind (parseUtc_avoids _ _ _) fun created' hcreated' => ?_
      obtain rfl : createdAt = created' := by simpa [hcreated] using hcreated'
      refine avoids_bind (avoids_rejectIf (.inr ?_)) fun _ _ => ?_
      · exact not_or.mpr ⟨not_lt.mpr hinside.1, not_lt.mpr hinside.2⟩
      · have hlate : createdAt ≤ now + 60 * second := le_trans hclock (Int.add_le_add_right hnow _)
        exact avoids_bind (avoids_rejectIf (.inr (not_lt.mpr hlate))) fun _ _ => avoids_ok
    · cases hmatch
  · cases hmatch

/-- The ISO parser reads the text of a stored timestamp back. -/
def ReadsBack (X : Externals) (s : Stamp) : Prop :=
  ∀ text, s.text = text ++ "Z" → X.fromisoformat (text ++ "+00:00") = some ⟨s.instant, some 0⟩

lemma ReadsBack.parseUtc_text {s : Stamp} (h : ReadsBack X s) (field : String) :
    parseUtc X (.str s.text) field = .ok s.instant := by
  obtain ⟨text, htext⟩ : ∃ text, s.text = text ++ "Z" := ⟨_, rfl⟩
  have hz : "Z".toList = ['Z'] := by decide
  have hends : endsWithZ (text ++ "Z") = true := by simp [endsWithZ, hz]
  have hdrop : String.ofList (text ++ "Z").toList.dropLast = text := by simp [hz]
  simp only [parseUtc, htext, hends, if_true, hdrop, h text htext]

lemma ReadsBack.of_text {s : Stamp} {text : String} (htext : s.text = text ++ "Z")
    (h : X.fromisoformat (text ++ "+00:00") = some ⟨s.instant, some 0⟩) : ReadsBack X s := by
  intro text' htext'
  have hlist := congrArg String.toList (htext.symm.trans htext')
  rw [String.toList_append, String.toList_append] at hlist
  rwa [← String.toList_inj.mp (List.append_cancel_right hlist)]

def lastSecond (claimedAt expiresAt : Stamp) : Stamp := ⟨min (claimedAt.seconds + 600) expiresAt.seconds⟩

lemma lastSecond_instant (claimedAt expiresAt : Stamp) :
    (lastSecond claimedAt expiresAt).instant = Dispatcher.windowEnd claimedAt.instant expiresAt := by
  have hscale : ∀ a b : Int, min (a + 600) b * 1000000 = min (a * 1000000 + 10 * (60 * 1000000)) (b * 1000000) := by
    intro a b
    omega
  exact hscale _ _

/-- A queued run of the dispatch, created at a given second. -/
def dispatchedRun (job : DispatchJob) (record : IntentRecord) (id : Int) (createdAt : Stamp) : Json :=
  .obj [("id", .int id), ("run_attempt", .int 1), ("event", .str "workflow_dispatch"), ("status", .str "queued"),
    ("head_branch", .str (branchOf record.intentRef)), ("head_sha", .str record.headSha),
    ("path", .str job.workflowPath), ("created_at", .str createdAt.text),
    ("triggering_actor", .obj [("id", .int job.expectedActorId)]),
    ("repository", .obj [("id", .int record.repositoryId), ("full_name", .str record.repository)]),
    ("head_repository", .obj [("id", .int record.repositoryId), ("full_name", .str record.repository)])]

def deliveryOf (record : IntentRecord) (runId : Int) : DeploymentProtectionRequest where
  deliveryId := ""
  repositoryId := record.repositoryId
  repository := record.repository
  installationId := 1
  environment := record.environment
  headSha := record.headSha
  intentRef := record.intentRef
  requestId := record.requestId
  runId := runId
  senderId := 1
  payloadSha256 := ""
  provenance := .githubWebhookHmacSha256V1

/-- A policy for the repository of the intent and the actor of its dispatch. -/
def policyFor (job : DispatchJob) (record : IntentRecord) : DeploymentPolicy where
  digest := ""
  phase := .dualGate
  machineOnlyEnabled := false
  repositoryId := record.repositoryId
  repository := record.repository
  environment := record.environment
  runnerBootstrapUrl := ""
  allowedInstallationIds := [1]
  allowedDispatcherInstallationIds := [job.installationId]
  allowedDispatcherActorIds := [job.expectedActorId]
  allowedDeploymentClasses := []
  maxGrantTtlMinutes := 120
  requiredCustomRuleAppIds := []
  stages := []

variable {id : Int} {createdAt : Stamp}

lemma runIdentity_dispatchedRun (hactor : 1 ≤ job.expectedActorId) (hid : 1 ≤ id) :
    runIdentity (policyFor job record) (deliveryOf record id) (dispatchedRun job record id createdAt) =
      .ok (job.workflowPath, 1) := by
  have hpos : Dispatcher.positiveInt? (.int id) = some id := by simp [Dispatcher.positiveInt?, Json.asStrictInt?, hid]
  have hpos' : Dispatcher.positiveInt? (.int job.expectedActorId) = some job.expectedActorId := by
    simp [Dispatcher.positiveInt?, Json.asStrictInt?, hactor]
  have hone : Dispatcher.positiveInt? (.int 1) = some 1 := by decide
  simp [runIdentity, dispatchedRun, positiveInt, object, Json.get, List.lookup, deliveryOf, policyFor, Json.asStr?,
    Json.asInt?, Json.asObj?, hpos, hpos', hone, liveStatuses]
  rfl

lemma matchingRun_dispatchedRun (hid : 1 ≤ id) (hnew : watermark < id)
    (hread : ReadsBack X createdAt) {windowStart windowEnd now : Datetime} (hfrom : windowStart ≤ createdAt.instant)
    (hto : createdAt.instant ≤ windowEnd) (hnow : createdAt.instant ≤ now + 60 * second) :
    Dispatcher.matchingRun X (dispatchedRun job record id createdAt) job record windowStart windowEnd now watermark =
      true := by
  have hmatches : Dispatcher.runMatches (dispatchedRun job record id createdAt) job record watermark := by
    simp [Dispatcher.runMatches, dispatchedRun, Json.get, List.lookup, Json.asStr?, Json.asInt?, Json.asObj?,
      Dispatcher.positiveInt?, Json.asStrictInt?, hid, hnew]
  have hcreated : (dispatchedRun job record id createdAt).get "created_at" = .str createdAt.text := by
    simp [dispatchedRun, Json.get, List.lookup]
  simp [Dispatcher.matchingRun, hmatches, hcreated, hread.parseUtc_text, hfrom, hto, hnow]

lemma runBinding_dispatchedRun (hactor : 1 ≤ job.expectedActorId) (hid : 1 ≤ id) (hread : ReadsBack X createdAt)
    (hout : createdAt.instant < anchor record ∨ anchor record + maxDispatchDelay < createdAt.instant)
    (now : Datetime) :
    runBinding X (policyFor job record) (deliveryOf record id) (dispatchedRun job record id createdAt)
      record.registeredAt record.finalizedAt now = reject windowCode "workflow run is outside dispatch window" := by
  have hcreated : (dispatchedRun job record id createdAt).get "created_at" = .str createdAt.text := by
    simp [dispatchedRun, Json.get, List.lookup]
  rw [runBinding, runIdentity_dispatchedRun hactor hid, hcreated, hread.parseUtc_text]
  change (rejectIf (createdAt.instant < anchor record ∨ createdAt.instant > anchor record + maxDispatchDelay) windowCode
    "workflow run is outside dispatch window" >>= fun _ => _) = _
  rw [rejectIf, Fallible.rejectIf, if_pos hout]
  rfl

/-- The run created at `createdAt` is bound, and then rejected. -/
lemma not_windowsAgree (hclaimed : job.claimedAt = some claimedAt)
    (hwatermark : job.preDispatchRunIdWatermark = some watermark) (hactor : 1 ≤ job.expectedActorId)
    (hread : ReadsBack X createdAt)
    (hopen : claimedAt.instant < Dispatcher.windowEnd claimedAt.instant record.expiresAt)
    (hfrom : claimedAt.instant ≤ createdAt.instant)
    (hto : createdAt.instant ≤ Dispatcher.windowEnd claimedAt.instant record.expiresAt)
    (hout : createdAt.instant < anchor record ∨ anchor record + maxDispatchDelay < createdAt.instant) :
    ¬ WindowsAgree X job record := by
  intro hagree
  have hid : (1 : Int) ≤ max watermark 0 + 1 := by omega
  have hnew : watermark < max watermark 0 + 1 := by omega
  have hend : createdAt.instant ≤ record.expiresAt.instant := le_trans hto (min_le_right _ _)
  have hlive : createdAt.instant - second < record.expiresAt.instant := by
    have hs : (0 : Int) < second := by decide
    exact lt_of_lt_of_le (Int.sub_lt_self _ hs) hend
  have hclock : ∀ t : Int, t ≤ t - 1000000 + 60 * 1000000 := by
    intro t
    omega
  refine hagree (policyFor job record) (deliveryOf record (max watermark 0 + 1))
    (dispatchedRun job record (max watermark 0 + 1) createdAt) _ _ hlive
    ⟨claimedAt, watermark, hclaimed, hwatermark, hopen, ?_⟩ le_rfl _ (runBinding_dispatchedRun hactor hid hread hout _)
  exact matchingRun_dispatchedRun hid hnew hread hfrom hto (hclock _)

/-- The positive actor is what queueing a dispatch checks; the two texts are those of the ends of the window. -/
theorem windowsAgree_iff (hclaimed : job.claimedAt = some claimedAt)
    (hwatermark : job.preDispatchRunIdWatermark = some watermark) (hactor : 1 ≤ job.expectedActorId)
    (hstart : ReadsBack X claimedAt) (hend : ReadsBack X (lastSecond claimedAt record.expiresAt)) :
    WindowsAgree X job record ↔
      record.expiresAt.instant ≤ claimedAt.instant ∨ (anchor record ≤ claimedAt.instant ∧
        (claimedAt.instant = anchor record ∨ record.expiresAt.instant ≤ anchor record + maxDispatchDelay)) := by
  refine ⟨fun hagree => ?_, windowsAgree_of_le hclaimed⟩
  by_contra hcond
  obtain ⟨hopen, hout⟩ := window_escapes hcond (by decide)
  rcases hout with hearly | hlate
  · exact not_windowsAgree hclaimed hwatermark hactor hstart hopen le_rfl (le_of_lt hopen) (.inl hearly) hagree
  · have hinstant := lastSecond_instant claimedAt record.expiresAt
    refine not_windowsAgree hclaimed hwatermark hactor hend hopen ?_ (le_of_eq hinstant) (.inr ?_) hagree
    · rw [hinstant]
      exact le_of_lt hopen
    · rw [hinstant]
      exact hlate

end

namespace Sample

/-- Eight in the evening of 16 July 2026, and a number of minutes after it. -/
def at_ (minutes : Int) : Stamp := ⟨1784232000 + 60 * minutes⟩

def externals : Externals where
  sha256 _ := ""
  fromisoformat s :=
    match s with
    | "2026-07-16T20:00:00+00:00" => some ⟨(at_ 0).instant, some 0⟩
    | "2026-07-16T20:10:00+00:00" => some ⟨(at_ 10).instant, some 0⟩
    | "2026-07-16T20:20:00+00:00" => some ⟨(at_ 20).instant, some 0⟩
    | "2026-07-16T20:21:00+00:00" => some ⟨(at_ 21).instant, some 0⟩
    | _ => none
  b64decode _ := none
  jsonLoads _ := none
  ed25519Verify _ _ _ := false
  schemaValid _ _ := false

/-- An intent finalized at the start and valid for an hour. -/
def record : IntentRecord :=
  ⟨"req", "B", "U", "G", 42, "acik/platform", "testai-remote-bridge-activation", "a", "refs/tags/cross-ai-intent/req", "S", "A", "R",
    "V", at_ 60, "spiffe://acik/intent-registrar", 7, at_ 0, some "tag", some (at_ 0), .finalized⟩

/-- The dispatch of browser evidence, claimed some minutes later. -/
def job (minutes : Int) : DispatchJob :=
  ⟨"req", .browserEvidence, 3, 42, "acik/platform", "browser.yml", "refs/tags/cross-ai-intent/req", "a", 7, "K",
    .sending, at_ minutes, some (at_ minutes), some (at_ minutes), some 11, none, some 204, none, none⟩

def run : Json := dispatchedRun (job 20) record 12 (at_ 21)

end Sample

/-- Browser evidence dispatched twenty minutes after finalization: its run is bound, and then rejected. -/
theorem windowsAgree_late_dispatch :
    Binds Sample.externals (Sample.job 20) Sample.record (Sample.at_ 22).instant Sample.run ∧
    runBinding Sample.externals (policyFor (Sample.job 20) Sample.record) (deliveryOf Sample.record 12) Sample.run
      Sample.record.registeredAt Sample.record.finalizedAt (Sample.at_ 22).instant =
        reject "RUN_DISPATCH_WINDOW_INVALID" "workflow run is outside dispatch window" ∧
    ¬ WindowsAgree Sample.externals (Sample.job 20) Sample.record := by
  have hbinds : Binds Sample.externals (Sample.job 20) Sample.record (Sample.at_ 22).instant Sample.run :=
    ⟨Sample.at_ 20, 11, rfl, rfl, by decide, by decide⟩
  have htext : (Sample.at_ 21).text = "2026-07-16T20:21:00" ++ "Z" := by decide
  have hread : ReadsBack Sample.externals (Sample.at_ 21) := .of_text htext rfl
  have hreject : runBinding Sample.externals (policyFor (Sample.job 20) Sample.record) (deliveryOf Sample.record 12)
      Sample.run Sample.record.registeredAt Sample.record.finalizedAt (Sample.at_ 22).instant = reject windowCode _ :=
    runBinding_dispatchedRun (by decide) (by decide) hread (.inr (by decide)) _
  refine ⟨hbinds, hreject, fun hagree => ?_⟩
  exact hagree _ _ _ _ _ (by decide) hbinds le_rfl _ hreject

/-- A dispatch claimed at the second of the finalization. -/
theorem windowsAgree_iff_immediate : WindowsAgree Sample.externals (Sample.job 0) Sample.record := by
  have hstart : (Sample.at_ 0).text = "2026-07-16T20:00:00" ++ "Z" := by decide
  have hend : (Sample.at_ 10).text = "2026-07-16T20:10:00" ++ "Z" := by decide
  have hlast : ReadsBack Sample.externals (lastSecond (Sample.at_ 0) Sample.record.expiresAt) := by
    have heq : lastSecond (Sample.at_ 0) Sample.record.expiresAt = Sample.at_ 10 := by decide
    rw [heq]
    exact .of_text hend rfl
  have hwatermark : (Sample.job 0).preDispatchRunIdWatermark = some 11 := rfl
  exact (windowsAgree_iff rfl hwatermark (by decide) (.of_text hstart rfl) hlast).mpr (.inr ⟨le_rfl, .inl rfl⟩)

end PlatformGitops.CrossAi.DispatchWindow
