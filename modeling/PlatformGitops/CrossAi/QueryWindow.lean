import PlatformGitops.CrossAi.DispatchSafety

/-! The window of the run list that is read before a POST, against the check of the reader that reads it. -/

namespace PlatformGitops.CrossAi.QueryWindow

open Library IntentStore Dispatcher

namespace GitHubReader

def nameChar (c : Char) : Bool := c.isAlphanum || c = '_' || c = '.' || c = '-'

/-- A text that fully matches `[A-Za-z0-9_.-]+/[A-Za-z0-9_.-]+`. -/
def isRepositoryName (s : String) : Bool :=
  match s.toList.splitOn '/' with
  | [owner, name] => owner ≠ [] ∧ owner.all nameChar ∧ name ≠ [] ∧ name.all nameChar
  | _ => false

/-- A text that fully matches `[.]github/workflows/[A-Za-z0-9_.-]+[.]ya?ml`. -/
def isWorkflowPath (s : String) : Bool :=
  [".yml", ".yaml"].any fun ending =>
    let stem := (s.toList.drop ".github/workflows/".toList.length).take
      (s.toList.length - ".github/workflows/".toList.length - ending.toList.length)
    stem ≠ [] ∧ stem.all nameChar ∧ s.toList = ".github/workflows/".toList ++ stem ++ ending.toList

def lowerHex (c : Char) : Bool := c ∈ "0123456789abcdef".toList

/-- The characters that `[0-9a-f]{8}-[0-9a-f]{4}-[1-8][0-9a-f]{3}-[89ab][0-9a-f]{3}-[0-9a-f]{12}` allows. -/
def intentIdClasses : List (Char → Bool) :=
  List.replicate 8 lowerHex ++ [(· == '-')] ++ List.replicate 4 lowerHex ++ [(· == '-')] ++
    ["12345678".toList.contains] ++ List.replicate 3 lowerHex ++ [(· == '-')] ++ ["89ab".toList.contains] ++
    List.replicate 3 lowerHex ++ [(· == '-')] ++ List.replicate 12 lowerHex

def isIntentBranch (s : String) : Bool :=
  let intentId := s.toList.drop "cross-ai-intent/".toList.length
  "cross-ai-intent/".toList <+: s.toList ∧ intentId.length = intentIdClasses.length ∧
    (List.zipWith (· ·) intentIdClasses intentId).all id

def maxQueryWindow : Int := 15 * minute

def runsOfPage (page : Json) : Except Failure (List Json) := do
  let runs ← expect (page.get "workflow_runs").asList? "GITHUB_DISPATCH_RUNS_INVALID"
    "dispatch run list is incomplete or invalid"
  let total ← expect (page.get "total_count").asStrictInt? "GITHUB_DISPATCH_RUNS_INVALID"
    "dispatch run list is incomplete or invalid"
  rejectIf (total ≠ runs.length ∨ ¬ (0 ≤ total ∧ total ≤ 100) ∨ ∃ run ∈ runs, run.asObj?.isNone)
    "GITHUB_DISPATCH_RUNS_INVALID" "dispatch run list is incomplete or invalid"
  pure runs

def workflowRunsForDispatch (repository workflowPath intentBranch : String) (createdFrom createdTo : Stamp)
    (page : Json) : Except Failure (List Json) := do
  rejectIf (¬ (isRepositoryName repository ∧ isWorkflowPath workflowPath ∧ isIntentBranch intentBranch))
    "GITHUB_DISPATCH_QUERY_INVALID" "dispatch run query is invalid"
  let start := createdFrom.instant
  let end_ := createdTo.instant
  rejectIf (end_ ≤ start ∨ maxQueryWindow < end_ - start) "GITHUB_DISPATCH_QUERY_INVALID"
    "dispatch run query window is invalid"
  runsOfPage page

end GitHubReader

/-- A page of a run list, complete, whose runs have positive identifiers. -/
def WellFormed (page : Json) : Prop := ∃ runs, GitHubReader.runsOfPage page = .ok runs ∧ (watermarkOf runs).isSome

/-- The registry, the readings of the clock so far, and the POSTs. -/
structure World where
  registry : Registry
  readings : List Datetime
  posts : List StageKey

def World.db (w : World) : Db := w.registry.db

/-- The clock does not go back, the registry commits its calls, and GitHub answers a query that is sent with a
well-formed page. -/
def answer (X : Externals) {β : Type} (e : Effect β) (w w' : World) (r : Except Failure β) : Prop :=
  match e with
  | .now => ∃ t, (∀ s ∈ w.readings, s ≤ t) ∧ w' = { w with readings := w.readings ++ [t] } ∧ r = .ok t
  | .registry c => ∃ amb : Ambient, w' = { w with registry := (c.exec X amb w.registry).1 } ∧
      r = (c.exec X amb w.registry).2
  | .github (.workflowRunsForDispatch _ repository workflowPath intentBranch createdFrom createdTo) =>
      w' = w ∧ ∃ page, WellFormed page ∧
        r = GitHubReader.workflowRunsForDispatch repository workflowPath intentBranch createdFrom createdTo page
  | .dispatchWorkflow stage _ _ _ requestId => w' = { w with posts := w.posts ++ [(requestId, stage)] }
  | _ => w' = w

def server (X : Externals) : Machine Failure Effect World Unit := ⟨fun _ => answer X⟩

/-- The names of the query are what the reader takes. -/
def NamesAccepted (record : IntentRecord) (workflowPath : String) : Prop :=
  GitHubReader.isRepositoryName record.repository ∧ GitHubReader.isWorkflowPath workflowPath ∧
    GitHubReader.isIntentBranch (branchOf record.intentRef)

/-- The snapshot is in a later second than the finalization, and at most 15 minutes after it. -/
def WindowAccepted (record : IntentRecord) (snapshotAt : Datetime) : Prop :=
  (record.finalizedAt.getD record.registeredAt).seconds < (utcSeconds snapshotAt).seconds ∧
    (utcSeconds snapshotAt).seconds - (record.finalizedAt.getD record.registeredAt).seconds ≤ 15 * 60

section

variable {X : Externals} {O : IntentDispatchOrchestrator} {requestId : String} {stage : Stage}

lemma windowAccepted_iff {a b : Stamp} :
    ¬ (b.instant ≤ a.instant ∨ GitHubReader.maxQueryWindow < b.instant - a.instant) ↔
      a.seconds < b.seconds ∧ b.seconds - a.seconds ≤ 15 * 60 := by
  change ¬ ((b.seconds * 1000000 : Int) ≤ a.seconds * 1000000 ∨
    (15 * (60 * 1000000) : Int) < b.seconds * 1000000 - a.seconds * 1000000) ↔ _
  omega

/-- The reader answers exactly where it takes the names and the window. -/
lemma workflowRunsForDispatch_wellFormed {record : IntentRecord} {workflowPath : String} {snapshotAt : Datetime}
    {page : Json} {r : Except Failure (List Json)} (hp : WellFormed page)
    (h : r = GitHubReader.workflowRunsForDispatch record.repository workflowPath (branchOf record.intentRef)
      (record.finalizedAt.getD record.registeredAt) (utcSeconds snapshotAt) page) :
    (NamesAccepted record workflowPath ∧ WindowAccepted record snapshotAt ∧
      ∃ runs, r = .ok runs ∧ (watermarkOf runs).isSome) ∨
    (¬ (NamesAccepted record workflowPath ∧ WindowAccepted record snapshotAt) ∧ ∃ e, r = .error e) := by
  obtain ⟨runs, hruns, hsome⟩ := hp
  cases r with
  | ok out =>
    have h := h.symm
    simp only [GitHubReader.workflowRunsForDispatch, Fallible.bind_eq_ok, rejectIf_eq_ok, not_not] at h
    obtain ⟨_, hnames, _, hwindow, hout⟩ := h
    obtain rfl := Except.ok.inj (hruns.symm.trans hout)
    exact .inl ⟨hnames, windowAccepted_iff.mp hwindow, runs, rfl, hsome⟩
  | error e =>
    refine .inr ⟨fun hacc => ?_, e, rfl⟩
    have hok : GitHubReader.workflowRunsForDispatch record.repository workflowPath (branchOf record.intentRef)
        (record.finalizedAt.getD record.registeredAt) (utcSeconds snapshotAt) page = .ok runs := by
      simp only [GitHubReader.workflowRunsForDispatch, Fallible.bind_eq_ok, rejectIf_eq_ok, not_not]
      exact ⟨(), hacc.1, (), windowAccepted_iff.mpr hacc.2, hruns⟩
    rw [hok] at h
    cases h

lemma watermarkOf_nonneg {runs : List Json} {m : Int} (h : watermarkOf runs = some m) : 0 ≤ m := by
  obtain ⟨ids, hids, rfl⟩ := Option.map_eq_some_iff.mp h
  cases hmax : ids.max? with
  | none => exact le_refl _
  | some top =>
    obtain ⟨run, -, hrun⟩ := Fallible.mapM_eq_some hids top (List.max?_mem hmax)
    have hpos : (1 : Int) ≤ top := of_decide_eq_true (Option.filter_eq_some_iff.mp hrun).2
    exact Int.le_trans (by decide) hpos

/-- A dispatch in the state Sending that has no watermark takes one. -/
lemma exists_recordDispatchWatermark (amb : Ambient) {db : Db} {job : DispatchJob} {m : Int} {at_ : Option Datetime}
    (hj : db.dispatches.find? (requestId, stage) = some job) (hs : job.state = .sending)
    (hn : job.preDispatchRunIdWatermark = none) (hm : 0 ≤ m) :
    ∃ db' job', recordDispatchWatermark amb requestId stage m at_ db = .ok (db', job') := by
  let update : DispatchJob → DispatchJob := fun r =>
    { r with snapshotAt := some (utcSeconds (at_.getD amb.now)), preDispatchRunIdWatermark := some m }
  have hvalid : DispatchesValid (db.dispatches.rows.map (Table.setRow DispatchJob.key (requestId, stage) update)) := by
    obtain ⟨hrun, hrepository, hactive⟩ := db.dispatches.valid
    exact ⟨hrun.map (Table.setRow_eq (f := update) (fun _ => rfl) _),
      hrepository.map (Table.setRow_eq (f := update) (fun _ => rfl) _),
      hactive.map (Table.setRow_eq (f := update) (fun _ => rfl) _)⟩
  obtain ⟨dispatches, hmod⟩ : ∃ t, db.dispatches.modify? (requestId, stage) update (fun _ => rfl) = some t :=
    ⟨_, dif_pos hvalid⟩
  have hguard : job.state = .sending ∧ job.preDispatchRunIdWatermark = none := ⟨hs, hn⟩
  have hmodify := (Table.modifyWhere?_eq_some (p := fun r => r.state = .sending ∧ r.preDispatchRunIdWatermark = none)
    hj hguard).mpr ⟨hmod, rfl⟩
  have hfind := Table.find?_modifyWhere? hj hguard hmodify (requestId, stage)
  refine ⟨{ db with dispatches }, update job, ?_⟩
  simp only [recordDispatchWatermark, Fallible.bind_eq_ok, rejectIf_eq_ok, not_lt]
  refine ⟨(), hm, job, expect_eq_ok.mpr hj, (), not_not.mpr hs, ?_⟩
  simp only [hn, updateDispatch, Fallible.bind_eq_ok, stored_eq_ok, Fallible.expect_eq_ok, Fallible.pure_eq_ok]
  exact ⟨(dispatches, 1), hmodify, (), by simp, update job, hfind.trans (if_pos rfl), rfl⟩

/-- A pending dispatch has no watermark. -/
lemma pending_bare {db : Db} (h : Changes Db.empty db) {k : StageKey} {j : DispatchJob}
    (hj : db.dispatches.find? k = some j) (hs : j.state = .pending) : j.preDispatchRunIdWatermark = none := by
  induction h generalizing j with
  | refl => cases hj
  | tail _ hstep ih =>
    rcases hstep.dispatch k with he | ⟨-, hadded, -, hbare, -⟩ | ⟨-, hmoved, hmove⟩
    · exact ih (he ▸ hj) hs
    · obtain rfl := Option.some.inj (hadded.symm.trans hj)
      exact hbare
    · obtain rfl := Option.some.inj (hmoved.symm.trans hj)
      exact (hmove.claimed_after hs).elim

lemma queueDispatch_row {amb : Ambient} {db db' : Db} {installationId : Int} {repository : String}
    {at_ : Option Datetime} {job : DispatchJob}
    (h : queueDispatch X amb requestId stage installationId repository at_ db = .ok (db', job)) :
    ∃ intent row, db.intents.find? requestId = some intent ∧ db.stages.find? (requestId, stage) = some row ∧
      job.repository = intent.repository ∧ job.workflowPath = row.workflowPath ∧
      db'.dispatches.find? (requestId, stage) = some job ∧
      (db' = db ∨ (job.state = .pending ∧ job.preDispatchRunIdWatermark = none)) := by
  simp only [queueDispatch, Fallible.bind_eq_ok, rejectIf_eq_ok, expect_eq_ok] at h
  obtain ⟨_, -, intent, hintent, _, -, _, -, _, -, _, -, row, hrow, _, -, key, -, h⟩ := h
  cases hd : db.dispatches.find? (requestId, stage) with
  | some existing =>
    simp only [hd, Fallible.bind_eq_ok, rejectIf_eq_ok, Fallible.pure_eq_ok, Prod.mk.injEq, not_not] at h
    obtain ⟨_, htarget, rfl, rfl⟩ := h
    simp only [DispatchJob.target, pendingJob, DispatchTarget.mk.injEq] at htarget
    obtain ⟨-, -, hrepository, hpath, -⟩ := htarget
    exact ⟨intent, row, hintent, hrow, hrepository.symm, hpath.symm, hd, .inl rfl⟩
  | none =>
    simp only [hd, Fallible.bind_eq_ok, stored_eq_ok, Fallible.pure_eq_ok, Prod.mk.injEq] at h
    obtain ⟨_, -, _, -, dispatches, hi, last, he, rfl, rfl⟩ := h
    obtain ⟨events, rfl, -⟩ := event_eq_ok he
    have hkey : intent.requestId = requestId := Table.find?_key hintent
    refine ⟨intent, row, hintent, hrow, rfl, rfl, (Table.find?_insert? hi _).trans (if_pos ?_), .inr ⟨rfl, rfl⟩⟩
    rw [← hkey]
    rfl

/-- What a call of `dispatchStage` does once it has claimed the dispatch. -/
def snapshotAndPost (requestId : String) (stage : Stage) (record : IntentRecord) (claimed : DispatchJob) :
    Action DispatchJob := do
  let snapshotAt ← Action.now
  let preexisting ← Action.github (.workflowRunsForDispatch claimed.installationId claimed.repository
    claimed.workflowPath (branchOf record.intentRef) (record.finalizedAt.getD record.registeredAt)
    (utcSeconds snapshotAt))
  let watermark ← Action.expect (watermarkOf preexisting) "DISPATCH_WATERMARK_INVALID"
    "pre-dispatch run snapshot is invalid"
  let _ ← Action.registry (.recordDispatchWatermark requestId stage watermark (some snapshotAt))
  let result ← Prog.perform (Effect.dispatchWorkflow stage claimed.installationId claimed.repository
    claimed.workflowPath claimed.requestId)
  if result.accepted then
    let status ← Action.expect result.status "DISPATCH_STATUS_INVALID" "accepted dispatch lacks HTTP status"
    let recordedAt ← Action.now
    Action.registry (.markDispatchPosted requestId stage result.reasonCode status (some recordedAt))
  else
    let resolvedAt ← Action.now
    Action.registry (.resolveDispatch requestId stage (if result.ambiguous then "Uncertain" else "Rejected")
      result.reasonCode result.status (some resolvedAt))

section

variable {w w' : World} {out : Except Failure DispatchJob}

lemma exec_now {w w' : World} {out : Except Failure Datetime} (h : Exec (server X) () Action.now w w' out) :
    ∃ t, (∀ s ∈ w.readings, s ≤ t) ∧ w' = { w with readings := w.readings ++ [t] } ∧ out = .ok t :=
  exec_perform.mp h

lemma exec_rejectIf {bad : Prop} [Decidable bad] {code message : String} {w w' : World} {out : Except Failure Unit}
    (h : Exec (server X) () (Action.rejectIf bad code message) w w' out) : w' = w := by
  unfold Action.rejectIf at h
  split at h
  · exact (exec_fail.mp h).1
  · exact (exec_pure.mp h).1

lemma exec_verifiedRecord {w w' : World} {out : Except Failure IntentRecord}
    (h : Exec (server X) () (verifiedRecord requestId) w w' out) :
    w' = w ∧ ∀ record, out = .ok record → w.db.intents.find? requestId = some record := by
  rw [verifiedRecord, exec_bind] at h
  rcases h with ⟨w₁, ⟨record, envelope⟩, hget, h⟩ | ⟨e, hget, rfl⟩
  · obtain ⟨amb, hw₁, hr⟩ := exec_perform.mp hget
    obtain rfl : w₁ = w := hw₁
    have hrecord : w₁.db.intents.find? requestId = some record := by
      have hr := hr.symm
      simp only [Call.exec, getFinalized, IntentStore.get, Fallible.bind_eq_ok, expect_eq_ok, Fallible.pure_eq_ok,
        Prod.mk.injEq] at hr
      obtain ⟨⟨_, _⟩, ⟨_, hfind, _, -, rfl, rfl⟩, _, -, rfl, rfl⟩ := hr
      exact hfind
    rw [exec_bind] at h
    rcases h with ⟨w₂, verified, hverify, h⟩ | ⟨e, hverify, rfl⟩
    · obtain rfl : w₂ = w₁ := exec_perform.mp hverify
      rw [exec_bind] at h
      rcases h with ⟨w₃, _, hreject, h⟩ | ⟨e, hreject, rfl⟩
      · obtain rfl := exec_rejectIf hreject
        obtain ⟨rfl, rfl⟩ := exec_pure.mp h
        exact ⟨rfl, fun r hr => Except.ok.inj hr ▸ hrecord⟩
      · exact ⟨exec_rejectIf hreject, fun _ he => by cases he⟩
    · obtain rfl : w' = w₁ := exec_perform.mp hverify
      exact ⟨rfl, fun _ he => by cases he⟩
  · obtain ⟨amb, hw', -⟩ := exec_perform.mp hget
    exact ⟨hw', fun _ he => by cases he⟩

/-- A call on the registry that is one transaction commits it, or leaves the world as it was. -/
lemma exec_transact {α : Type} {c : Call α} {f : Ambient → Db → Except Failure (Db × α)} {w w' : World}
    {out : Except Failure α} (hc : ∀ amb reg, c.exec X amb reg = transact reg (f amb))
    (h : Exec (server X) () (Action.registry c) w w' out) :
    (∃ amb db a, f amb w.db = .ok (db, a) ∧ out = .ok a ∧ w' = { w with registry := ⟨db, w.registry.cas⟩ }) ∨
      (∃ amb e, f amb w.db = .error e ∧ out = .error e ∧ w' = w) := by
  obtain ⟨amb, rfl, rfl⟩ := exec_perform.mp h
  rw [hc, transact]
  cases hf : f amb w.registry.db with
  | ok v => exact .inl ⟨amb, v.1, v.2, hf, rfl, rfl⟩
  | error e => exact .inr ⟨amb, e, hf, rfl, rfl⟩

/-- A call that wins the claim has read the record and the stage, and goes on from the claimed row. -/
lemma exec_claimed (hreach : Changes Db.empty w.db) (h : Exec (server X) () (dispatchStage O requestId stage) w w' out)
    (hfree : ¬ Claimed w.db (requestId, stage)) (hwon : Claimed w'.db (requestId, stage)) :
    ∃ record row claimed current w₁, w.db.intents.find? requestId = some record ∧
      w.db.stages.find? (requestId, stage) = some row ∧ claimed.repository = record.repository ∧
      claimed.workflowPath = row.workflowPath ∧ claimed.requestId = requestId ∧
      w₁.readings = w.readings ++ [current] ∧ w₁.posts = w.posts ∧
      w₁.db.dispatches.find? (requestId, stage) = some claimed ∧ claimed.state = .sending ∧
      claimed.preDispatchRunIdWatermark = none ∧
      Exec (server X) () (snapshotAndPost requestId stage record claimed) w₁ w' out := by
  rw [dispatchStage, exec_bind] at h
  rcases h with ⟨w₁, current, hnow, h⟩ | ⟨e, hnow, -⟩
  swap
  · obtain ⟨t, -, -, he⟩ := exec_now hnow
    cases he
  obtain ⟨t, -, rfl, ht⟩ := exec_now hnow
  obtain rfl := Except.ok.inj ht
  rw [exec_bind] at h
  rcases h with ⟨w₁, record, hrecord, h⟩ | ⟨e, hrecord, -⟩
  swap
  · obtain ⟨rfl, -⟩ := exec_verifiedRecord hrecord
    exact (hfree hwon).elim
  obtain ⟨rfl, hfound⟩ := exec_verifiedRecord hrecord
  have hfound : w.db.intents.find? requestId = some record := hfound record rfl
  rw [exec_bind] at h
  rcases h with ⟨w₁, job, hqueue, h⟩ | ⟨e, hqueue, -⟩
  swap
  · rcases exec_transact (fun _ _ => rfl) hqueue with ⟨_, _, _, -, he, -⟩ | ⟨_, _, -, -, rfl⟩
    · cases he
    · exact (hfree hwon).elim
  rcases exec_transact (fun _ _ => rfl) hqueue with ⟨amb, db, job', hbody, he, rfl⟩ | ⟨_, _, -, he, -⟩
  swap
  · cases he
  obtain rfl := Except.ok.inj he
  obtain ⟨intent, row, hintent, hrow, hrepository, hpath, hjob, hqueued⟩ := queueDispatch_row hbody
  obtain rfl := Option.some.inj (hfound.symm.trans hintent)
  have hopen : job.state = .pending := by
    by_contra hne
    rcases hqueued with rfl | ⟨hs, -⟩
    · exact hfree ⟨job, hjob, hne⟩
    · exact hne hs
  have hbare : job.preDispatchRunIdWatermark = none := by
    rcases hqueued with rfl | ⟨-, hn⟩
    · exact pending_bare hreach hjob hopen
    · exact hn
  have hunclaimed : ¬ Claimed db (requestId, stage) := by
    rintro ⟨j, hj, hne⟩
    obtain rfl := Option.some.inj (hjob.symm.trans hj)
    exact hne hopen
  simp only [hopen, ne_eq, not_true_eq_false, if_false] at h
  rw [exec_bind] at h
  rcases h with ⟨w₁, claimed, hclaim, h⟩ | ⟨e, hclaim, -⟩
  swap
  · rcases exec_transact (fun _ _ => rfl) hclaim with ⟨_, _, _, -, he, -⟩ | ⟨_, _, -, -, rfl⟩
    · cases he
    · exact (hunclaimed hwon).elim
  rcases exec_transact (fun _ _ => rfl) hclaim with ⟨amb', db', claimed', hbody', he, rfl⟩ | ⟨_, _, -, he, -⟩
  swap
  · cases he
  obtain rfl := Except.ok.inj he
  obtain ⟨j, hj, -, hset, hclaimed, -⟩ := claimDispatch_eq_ok hbody'
  obtain rfl := Option.some.inj (hjob.symm.trans hj)
  have hkey : job.key = (requestId, stage) := Table.find?_key hjob
  let world : World := ⟨⟨db', w.registry.cas⟩, w.readings ++ [current], w.posts⟩
  refine ⟨record, row, claimed, current, world, hfound, hrow, ?_, ?_, ?_, rfl, rfl, hclaimed, ?_, ?_, h⟩ <;> rw [hset]
  · exact hrepository
  · exact hpath
  · exact (Prod.mk.inj hkey).1
  · exact hbare

/-- What is kept between two POSTs: the watermark, and what was read and posted before. -/
structure Kept (w w' : World) (k : StageKey) (m : Int) : Prop where
  watermark : Watermarked w'.db k m
  posts : w'.posts = w.posts
  readings : ∃ later, w'.readings = w.readings ++ later

lemma Kept.quiet {k : StageKey} {m : Int} {v v' : World} {γ : Type} {e : Effect γ} {r : Except Failure γ}
    (he : DispatchSafety.Quiet e) (hk : Kept w v k m) (h : (server X).answer () e v v' r) : Kept w v' k m := by
  obtain ⟨later, hlater⟩ := hk.readings
  cases e with
  | now =>
    obtain ⟨t, -, rfl, -⟩ := h
    exact ⟨hk.watermark, hk.posts, later ++ [t], by rw [← List.append_assoc, ← hlater]⟩
  | registry c =>
    obtain ⟨amb, rfl, -⟩ := h
    exact ⟨hk.watermark.changes (exec_changes c v.registry), hk.posts, later, hlater⟩
  | dispatchWorkflow => exact he.elim
  | github query =>
    cases query with
    | workflowRunsForDispatch => exact h.1 ▸ hk
    | _ => exact (show v' = v from h) ▸ hk
  | _ => exact (show v' = v from h) ▸ hk

/-- The part of the call from its second reading of the clock on. -/
lemma exec_snapshotAndPost {record : IntentRecord} {claimed : DispatchJob}
    (hrow : w.db.dispatches.find? (requestId, stage) = some claimed) (hs : claimed.state = .sending)
    (hbare : claimed.preDispatchRunIdWatermark = none) (hrepository : claimed.repository = record.repository)
    (hid : claimed.requestId = requestId)
    (h : Exec (server X) () (snapshotAndPost requestId stage record claimed) w w' out) :
    ∃ snapshotAt later, w'.readings = w.readings ++ snapshotAt :: later ∧ (∀ s ∈ w.readings, s ≤ snapshotAt) ∧
      ((NamesAccepted record claimed.workflowPath ∧ WindowAccepted record snapshotAt ∧
          (∃ m, Watermarked w'.db (requestId, stage) m) ∧ w'.posts = w.posts ++ [(requestId, stage)]) ∨
        (¬ (NamesAccepted record claimed.workflowPath ∧ WindowAccepted record snapshotAt) ∧
          w'.db = w.db ∧ w'.posts = w.posts)) := by
  rw [snapshotAndPost, exec_bind] at h
  rcases h with ⟨w₁, snapshotAt, hnow, h⟩ | ⟨e, hnow, -⟩
  swap
  · obtain ⟨t, -, -, he⟩ := exec_now hnow
    cases he
  obtain ⟨t, hle, rfl, ht⟩ := exec_now hnow
  obtain rfl := Except.ok.inj ht
  rw [hrepository, exec_bind] at h
  rcases h with ⟨w₁, runs, hquery, h⟩ | ⟨e, hquery, -⟩
  swap
  · obtain ⟨rfl, page, hpage, hr⟩ := exec_perform.mp hquery
    rcases workflowRunsForDispatch_wellFormed hpage hr with ⟨-, -, _, he, -⟩ | ⟨hrefused, -⟩
    · cases he
    · exact ⟨snapshotAt, [], rfl, hle, .inr ⟨hrefused, rfl, rfl⟩⟩
  obtain ⟨rfl, page, hpage, hr⟩ := exec_perform.mp hquery
  rcases workflowRunsForDispatch_wellFormed hpage hr with ⟨hnames, hwindow, runs', he, hsome⟩ | ⟨-, e, he⟩
  swap
  · cases he
  obtain rfl := Except.ok.inj he
  obtain ⟨m, hm⟩ := Option.isSome_iff_exists.mp hsome
  rw [exec_bind] at h
  rcases h with ⟨w₁, watermark, hexpect, h⟩ | ⟨e, hexpect, -⟩
  swap
  · obtain ⟨-, he⟩ := exec_ofExcept.mp hexpect
    rw [hm] at he
    cases he
  obtain ⟨rfl, he⟩ := exec_ofExcept.mp hexpect
  rw [hm] at he
  obtain rfl := Except.ok.inj he
  rw [exec_bind] at h
  rcases h with ⟨w₁, updated, hrecord, h⟩ | ⟨e, hrecord, -⟩
  swap
  · rcases exec_transact (fun _ _ => rfl) hrecord with ⟨_, _, _, -, he, -⟩ | ⟨amb, _, hbody, -, -⟩
    · cases he
    · obtain ⟨_, _, hok⟩ := exists_recordDispatchWatermark amb hrow hs hbare (watermarkOf_nonneg hm)
      cases hok.symm.trans hbody
  rcases exec_transact (fun _ _ => rfl) hrecord with ⟨amb, db, updated', hbody, -, rfl⟩ | ⟨_, _, -, he, -⟩
  swap
  · cases he
  obtain ⟨hfind, -, hwatermark, -⟩ := recordDispatchWatermark_eq_ok hbody
  have hmarked : Watermarked db (requestId, stage) watermark := ⟨updated', hfind, hwatermark⟩
  rw [exec_bind] at h
  have hposted : ∀ {r w₁}, Exec (server X) () (.perform (Effect.dispatchWorkflow stage claimed.installationId
      record.repository claimed.workflowPath claimed.requestId))
      ⟨⟨db, w.registry.cas⟩, w.readings ++ [snapshotAt], w.posts⟩ w₁ r →
      w₁ = ⟨⟨db, w.registry.cas⟩, w.readings ++ [snapshotAt], w.posts ++ [(requestId, stage)]⟩ := fun hpost =>
    hid ▸ exec_perform.mp hpost
  rcases h with ⟨w₁, result, hpost, h⟩ | ⟨e, hpost, -⟩
  swap
  · obtain rfl := hposted hpost
    exact ⟨snapshotAt, [], rfl, hle, .inl ⟨hnames, hwindow, ⟨watermark, hmarked⟩, rfl⟩⟩
  obtain rfl := hposted hpost
  let posted : World := ⟨⟨db, w.registry.cas⟩, w.readings ++ [snapshotAt], w.posts ++ [(requestId, stage)]⟩
  have hstart : Kept posted posted (requestId, stage) watermark := ⟨hmarked, rfl, [], (List.append_nil _).symm⟩
  have hkept := triple_only (DispatchSafety.only_afterPost requestId stage result)
    (fun _ he _ _ _ hk hans => Kept.quiet he hk hans) hstart w' out h
  obtain ⟨later, hlater⟩ := hkept.readings
  refine ⟨snapshotAt, later, ?_, hle, .inl ⟨hnames, hwindow, ⟨watermark, hkept.watermark⟩, hkept.posts⟩⟩
  rw [hlater, List.append_assoc, List.singleton_append]

end

/-- A call that wins the claim records its watermark and posts exactly where the reader takes the names of its query,
and the snapshot is in a later second than the finalization and at most 15 minutes after it. -/
theorem dispatchStage_posts_iff {w w' : World} {out : Except Failure DispatchJob} (hreach : Changes Db.empty w.db)
    (h : Exec (server X) () (dispatchStage O requestId stage) w w' out)
    (hfree : ¬ Claimed w.db (requestId, stage)) (hwon : Claimed w'.db (requestId, stage)) :
    ∃ record row current snapshotAt later, w.db.intents.find? requestId = some record ∧
      w.db.stages.find? (requestId, stage) = some row ∧
      w'.readings = w.readings ++ current :: snapshotAt :: later ∧ current ≤ snapshotAt ∧
      ((∃ m, Watermarked w'.db (requestId, stage) m) ∧ w'.posts = w.posts ++ [(requestId, stage)] ↔
        NamesAccepted record row.workflowPath ∧ WindowAccepted record snapshotAt) := by
  obtain ⟨record, row, claimed, current, w₁, hrecord, hrow, hrepository, hpath, hid, hreadings, hposts, hclaimed, hs,
    hbare, h⟩ := exec_claimed hreach h hfree hwon
  obtain ⟨snapshotAt, later, hlater, hle, hcase⟩ := exec_snapshotAndPost hclaimed hs hbare hrepository hid h
  rw [hreadings] at hlater hle
  rw [hposts, hpath] at hcase
  refine ⟨record, row, current, snapshotAt, later, hrecord, hrow, ?_, hle current (by simp), ?_⟩
  · rw [hlater, List.append_assoc, List.singleton_append]
  rcases hcase with ⟨hnames, hwindow, hmarked, hposted⟩ | ⟨hrefused, -, hsame⟩
  · exact iff_of_true ⟨hmarked, hposted⟩ ⟨hnames, hwindow⟩
  · refine iff_of_false (fun hposted => ?_) hrefused
    rw [hsame] at hposted
    simp at hposted

end

namespace Sample

open IntentStore.Sample DispatchSafety.Sample

def intentId : String := "3f2c8a10-5b6d-4e7f-8a9b-0c1d2e3f4a5b"

def verified : VerifiedBundle :=
  let bundle := IntentStore.Sample.verified
  { bundle with
    requestId := intentId
    payload := { bundle.payload with
      subject := { subject with intentRef := "refs/tags/cross-ai-intent/" ++ intentId }
      workflowStages := bundle.payload.workflowStages.map fun s =>
        { s with workflowPath := ".github/workflows/" ++ s.stage ++ ".yml" }
      grant := { bundle.payload.grant with requestId := intentId } } }

def ambient (n : Nat) : Ambient := ⟨start, fun i => toString n ++ "." ++ toString i⟩

def registration : Call Bool := .register envelope verified principal (some (start + 2 * minute))

def finalization : Call Bool :=
  .finalizeRef intentId "aaaaaaaaaaaaaaaaaaaaaaaaaaaaaaaaaaaaaaaa" "a" (some (start + 2 * minute))

def registered : Registry := (registration.exec externals (ambient 0) Registry.empty).1

/-- An intent that is registered and finalized at one reading of the clock. -/
def finalized : World := ⟨(finalization.exec externals (ambient 1) registered).1, [], []⟩

def emptyPage : Json := .obj [("workflow_runs", .list []), ("total_count", .int 0)]

/-- A world whose clock starts at `first` and goes on by `step` at each reading. -/
def world (first step : Datetime) {γ : Type} (e : Effect γ) (w : World) : Option (World × Except Failure γ) :=
  match e with
  | .now =>
    let t := first + w.readings.length * step
    if ∀ s ∈ w.readings, s ≤ t then some ({ w with readings := w.readings ++ [t] }, .ok t) else none
  | .registry c =>
    let out := c.exec externals (ambientOf w.registry) w.registry
    some ({ w with registry := out.1 }, out.2)
  | .verifyEnvelope _ => some (w, .ok verified)
  | .github (.workflowRunsForDispatch _ repository path branch createdFrom createdTo) =>
    some (w, GitHubReader.workflowRunsForDispatch repository path branch createdFrom createdTo emptyPage)
  | .dispatchWorkflow stage _ _ _ requestId =>
    some ({ w with posts := w.posts ++ [(requestId, stage)] }, .ok ⟨true, false, some 204, "DISPATCH_ACCEPTED_204"⟩)
  | _ => none

lemma emptyPage_wellFormed : WellFormed emptyPage := ⟨[], rfl, by decide⟩

lemma world_answers (first step : Datetime) : Answers (server externals) () (world first step) := by
  intro γ e w w' r h
  cases e with
  | now =>
    obtain ⟨hle, h⟩ := Option.ite_none_right_eq_some.mp h
    cases h
    exact ⟨_, hle, rfl, rfl⟩
  | registry c =>
    cases h
    exact ⟨ambientOf w.registry, rfl, rfl⟩
  | github query =>
    cases query with
    | workflowRunsForDispatch =>
      cases h
      exact ⟨rfl, emptyPage, emptyPage_wellFormed, rfl⟩
    | _ => cases h
  | _ => cases h <;> rfl

def dispatched (first step : Datetime) : Option (World × Except Failure DispatchJob) :=
  (dispatchStage orchestrator intentId .apply).interp (world first step) finalized

lemma finalized_reached : Changes Db.empty finalized.db := by
  simp only [finalized, registered, World.db]
  exact (@exec_changes externals (ambient 0) _ registration Registry.empty).trans
    (@exec_changes externals (ambient 1) _ finalization _)

/-- The row that a call leaves, the POSTs and the readings of the clock. -/
structure Summary where
  state : Option DispatchState
  watermark : Option Int
  posts : List StageKey
  readings : List Datetime
deriving DecidableEq

def summary (first step : Datetime) : Option Summary :=
  (dispatched first step).map fun out =>
    let row := out.1.db.dispatches.find? (intentId, .apply)
    ⟨row.map (·.state), row.bind (·.preDispatchRunIdWatermark), out.1.posts, out.1.readings⟩

/-- A run of the call on the finalized intent that claims the dispatch. -/
structure Ends (w' : World) (watermark : Option Int) (posts : List StageKey) (readings : List Datetime) : Prop where
  exec : ∃ out, Exec (server externals) () (dispatchStage orchestrator intentId .apply) finalized w' out
  claimed : Claimed w'.db (intentId, .apply)
  row : ∃ j, w'.db.dispatches.find? (intentId, .apply) = some j ∧ j.state = .sending ∧
    j.preDispatchRunIdWatermark = watermark
  posts : w'.posts = posts
  readings : w'.readings = readings

lemma exists_ends {first step : Datetime} {watermark : Option Int} {posts : List StageKey} {readings : List Datetime}
    (h : summary first step = some ⟨some .sending, watermark, posts, readings⟩) :
    ∃ w', Ends w' watermark posts readings := by
  obtain ⟨⟨w', out⟩, hrun, hsummary⟩ := Option.map_eq_some_iff.mp h
  simp only [Summary.mk.injEq, Option.map_eq_some_iff] at hsummary
  obtain ⟨⟨j, hj, hs⟩, hm, hposts, hreadings⟩ := hsummary
  rw [hj, Option.bind_some] at hm
  have hexec := exec_interp (world_answers first step) hrun
  exact ⟨w', ⟨out, hexec⟩, ⟨j, hj, by simp [hs]⟩, ⟨j, hj, hs, hm⟩, hposts, hreadings⟩

/-- The calls whose snapshot is in the second of the finalization, in the next one, and late. -/
lemma summaries : summary (start + 2 * minute) 100000 =
      some ⟨some .sending, none, [], [start + 2 * minute, start + 2 * minute + 100000]⟩ ∧
    summary (start + 2 * minute) second = some ⟨some .sending, some 0, [(intentId, .apply)],
      [start + 2 * minute, start + 2 * minute + second, start + 2 * minute + 2 * second]⟩ ∧
    summary (start + 20 * minute) second =
      some ⟨some .sending, none, [], [start + 20 * minute, start + 20 * minute + second]⟩ := by
  decide +kernel

lemma finalized_facts : (finalized.db.intents.find? intentId).map (fun r =>
      (r.state, r.finalizedAt, r.expiresAt.instant, r.repository, branchOf r.intentRef)) =
      some (.finalized, some (utcSeconds (start + 2 * minute)), start + 60 * minute, "acik/platform",
        "cross-ai-intent/" ++ intentId) ∧
    (finalized.db.stages.find? (intentId, .apply)).map (·.workflowPath) = some ".github/workflows/apply.yml" ∧
    ¬ Claimed finalized.db (intentId, .apply) := by
  decide +kernel

end Sample

theorem dispatchStage_posts_iff_next_second : ∃ w', Sample.Ends w' (some 0) [(Sample.intentId, .apply)]
    [IntentStore.Sample.start + 2 * minute, IntentStore.Sample.start + 2 * minute + second,
      IntentStore.Sample.start + 2 * minute + 2 * second] ∧
    (∃ m, Watermarked w'.db (Sample.intentId, .apply) m) ∧ w'.posts = [(Sample.intentId, .apply)] := by
  obtain ⟨w', hends⟩ := Sample.exists_ends Sample.summaries.2.1
  obtain ⟨out, hexec⟩ := hends.exec
  obtain ⟨record, row, current, snapshotAt, later, hrecord, hrow, hreadings, -, hiff⟩ :=
    dispatchStage_posts_iff Sample.finalized_reached hexec Sample.finalized_facts.2.2 hends.claimed
  obtain ⟨hfacts, hpath, -⟩ := Sample.finalized_facts
  rw [hrecord] at hfacts
  simp only [Option.map_some, Option.some.injEq, Prod.mk.injEq] at hfacts
  obtain ⟨-, hfinalized, -, hrepository, hbranch⟩ := hfacts
  rw [hrow] at hpath
  have hpath : row.workflowPath = ".github/workflows/apply.yml" := Option.some.inj hpath
  have hsnapshot : snapshotAt = IntentStore.Sample.start + 2 * minute + second := by
    rw [hends.readings] at hreadings
    exact (List.cons.inj (List.cons.inj hreadings).2).1.symm
  have hnames : NamesAccepted record row.workflowPath := by
    rw [NamesAccepted, hrepository, hbranch, hpath]
    decide +kernel
  have hwindow : WindowAccepted record snapshotAt := by
    rw [WindowAccepted, hfinalized, hsnapshot, Option.getD_some]
    decide
  have hposted := (hiff.mpr ⟨hnames, hwindow⟩).1
  exact ⟨w', hends, hposted, hends.posts⟩

/-- The dispatch of a finalized intent whose snapshot is in the second of the finalization, or more than 15 minutes
after it, is claimed and then has no watermark and no POST. -/
theorem dispatchStage_stranded :
    (∃ record, Sample.finalized.db.intents.find? Sample.intentId = some record ∧ record.state = .finalized ∧
      IntentStore.Sample.start + 20 * minute + second < record.expiresAt.instant) ∧
    ¬ Claimed Sample.finalized.db (Sample.intentId, .apply) ∧
    (∃ w', Sample.Ends w' none [] [IntentStore.Sample.start + 2 * minute,
      IntentStore.Sample.start + 2 * minute + 100000]) ∧
    ∃ w', Sample.Ends w' none [] [IntentStore.Sample.start + 20 * minute,
      IntentStore.Sample.start + 20 * minute + second] := by
  refine ⟨?_, Sample.finalized_facts.2.2, Sample.exists_ends Sample.summaries.1,
    Sample.exists_ends Sample.summaries.2.2⟩
  obtain ⟨record, hrecord, hfacts⟩ := Option.map_eq_some_iff.mp Sample.finalized_facts.1
  simp only [Prod.mk.injEq] at hfacts
  obtain ⟨hstate, -, hexpires, -⟩ := hfacts
  exact ⟨record, hrecord, hstate, by rw [hexpires]; decide⟩

end PlatformGitops.CrossAi.QueryWindow
