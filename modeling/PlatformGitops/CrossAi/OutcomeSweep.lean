import PlatformGitops.CrossAi.IntentStore.StageChanges
import PlatformGitops.CrossAi.Reconciler
import Mathlib

/-! Which of the pending stages one cycle of the outcome sweeper attempts. -/

namespace PlatformGitops.CrossAi.Reconciler

open Library IntentStore

/-- The registry carries out its calls; what the rest of the world answers is left open. -/
def service (X : Externals) : Machine Failure Effect Registry Unit where
  answer {_} _ e s s' r := match e, r with
    | .registry c, r => ∃ amb, (s', r) = c.exec X amb s
    | _, _ => s' = s

section

variable (X : Externals) (R : GitHubOutcomeReconciler)

/-- The reconciler runs once for each reservation, and goes on whatever comes of it. -/
inductive Attempts : List StageReservation → Registry → Registry → Prop
  | nil {s : Registry} : Attempts [] s s
  | cons {a : StageReservation} {rest : List StageReservation} {s s₁ s₂ : Registry}
      {r : Except Failure Outcome.VerifiedStageOutcome} :
      Exec (service X) () (R.reconcile X a.requestId a.stage) s s₁ r → Attempts rest s₁ s₂ →
      Attempts (a :: rest) s s₂

/-- One cycle: what is overdue expires, and what is then listed is attempted. -/
structure Cycle (reg reg₁ reg' : Registry) (attempts : List StageReservation) : Prop where
  expired : ∃ amb n, (Call.expirePendingStages none).exec X amb reg = (reg₁, .ok n)
  listed : pendingStages 100 reg₁.db = .ok attempts
  attempted : Attempts X R attempts reg₁ reg'

end

def StageReservation.key (a : StageReservation) : StageKey := (a.requestId, a.stage)

/-- The pending stages in the order of the sweep. -/
def queue (db : Db) : List StageRow := (db.stages.rows.filter (isPending db)).insertionSort (rowLe · ·)

/-- The number of pending stages ahead of one. -/
def ahead (db : Db) (k : StageKey) : Nat := ((queue db).map StageRow.key).idxOf k

/-- A pending stage of an intent that has not expired. -/
def Live (db : Db) (now : Datetime) (k : StageKey) : Prop :=
  k ∈ (queue db).map StageRow.key ∧ ∃ intent, db.intents.find? k.1 = some intent ∧ now < intent.expiresAt.instant

section

variable {X : Externals} {R : GitHubOutcomeReconciler} {reg reg₁ reg' : Registry} {db db' : Db}
  {attempts : List StageReservation}

lemma exec_registry {α : Type} {c : Call α} {r : Except Failure α} :
    Exec (service X) () (Action.registry c) reg reg' r ↔ ∃ amb, (reg', r) = c.exec X amb reg :=
  exec_perform

lemma reconcileEach_attempts {counts out : Nat × Nat}
    (h : Exec (service X) () (R.reconcileEach X attempts counts) reg reg' (.ok out)) :
    Attempts X R attempts reg reg' ∧ out.1 = counts.1 + attempts.length := by
  induction attempts generalizing reg counts with
  | nil =>
    obtain ⟨rfl, hout⟩ := exec_pure.mp h
    obtain rfl := Except.ok.inj hout
    exact ⟨.nil, rfl⟩
  | cons a rest ih =>
    obtain ⟨attempted, completed⟩ := counts
    rw [GitHubOutcomeReconciler.reconcileEach, exec_bind] at h
    rcases h with ⟨s₁, result, hattempt, hrest⟩ | ⟨e, -, he⟩
    · obtain ⟨r, hr, hok⟩ := exec_attempt.mp hattempt
      obtain rfl := Except.ok.inj hok
      have hnext : ∃ completed', Exec (service X) () (R.reconcileEach X rest (attempted + 1, completed')) s₁ reg'
          (.ok out) := by
        cases result with
        | ok outcome => exact ⟨_, hrest⟩
        | error e => exact ⟨_, hrest⟩
      obtain ⟨completed', hnext⟩ := hnext
      obtain ⟨htried, hcount⟩ := ih hnext
      refine ⟨.cons hr htried, ?_⟩
      rw [hcount, List.length_cons]
      omega
    · cases he

lemma runOnce_cycle {out : Nat × Nat} (h : Exec (service X) () (R.runOnce X) reg reg' (.ok out)) :
    ∃ reg₁ attempts, Cycle X R reg reg₁ reg' attempts ∧ out.1 = attempts.length := by
  rw [GitHubOutcomeReconciler.runOnce, exec_bind] at h
  rcases h with ⟨reg₁, n, hexpired, h⟩ | ⟨e, -, he⟩
  swap
  · cases he
  rw [exec_bind] at h
  rcases h with ⟨reg₂, pending, hlisted, h⟩ | ⟨e, -, he⟩
  swap
  · cases he
  obtain ⟨amb, hexpired⟩ := exec_registry.mp hexpired
  obtain ⟨_, hlisted⟩ := exec_registry.mp hlisted
  obtain ⟨rfl, hpending⟩ := Prod.mk.inj hlisted
  obtain ⟨htried, hcount⟩ := reconcileEach_attempts h
  exact ⟨reg₂, pending, ⟨⟨amb, n, hexpired.symm⟩, hpending.symm, htried⟩, by simpa using hcount⟩

/-- The expiry moves stages from one pending state to another, in place. -/
structure Restates (g : StageRow → StageRow) (db db' : Db) : Prop where
  intents : db'.intents = db.intents
  rows : db'.stages.rows = db.stages.rows.map g
  key : ∀ r, (g r).key = r.key
  order : ∀ r, (g r).stageOrder = r.stageOrder
  pending : ∀ r ∈ db.stages.rows, isPending db' (g r) = isPending db r

lemma Expires.restates (h : Expires db db') : ∃ g, Restates g db db' := by
  obtain ⟨row, stages, events, rfl, hrow, hmove, hm, -⟩ := h
  refine ⟨_, rfl, Table.rows_modify? hm, fun r => ?_, fun r => ?_, fun r hr => ?_⟩
  · rw [Table.setRow]
    split <;> rfl
  · rw [Table.setRow]
    split <;> rfl
  · by_cases hk : r.key = row.key
    · have heq : r = row := Option.some.inj ((Table.mem_iff_find?.mp hr).symm.trans (hk ▸ hrow))
      subst heq
      have hstate : r.state = .reserved ∨ r.state = .approvedPendingOutcome := by
        generalize r.state = state at hmove
        cases hmove
        · exact .inl rfl
        · exact .inr rfl
      rcases hstate with hs | hs <;> simp [Table.setRow, isPending, hs]
    · simp [Table.setRow, hk, isPending]

lemma expires_restates (h : Relation.ReflTransGen Expires db db') : ∃ g, Restates g db db' := by
  induction h with
  | refl => exact ⟨id, rfl, by simp, fun _ => rfl, fun _ => rfl, fun _ _ => rfl⟩
  | tail _ hstep ih =>
    obtain ⟨g, hg⟩ := ih
    obtain ⟨f, hf⟩ := Expires.restates hstep
    refine ⟨f ∘ g, hf.intents.trans hg.intents, by rw [hf.rows, hg.rows, List.map_map], fun r => ?_, fun r => ?_,
      fun r hr => ?_⟩
    · exact (hf.key _).trans (hg.key r)
    · exact (hf.order _).trans (hg.order r)
    · exact (hf.pending _ (hg.rows ▸ List.mem_map_of_mem hr)).trans (hg.pending r hr)

lemma Restates.queue {g : StageRow → StageRow} (h : Restates g db db') : queue db' = (queue db).map g := by
  have hle : ∀ r s, rowLe (g r) (g s) = rowLe r s := by
    intro r s
    have hr := (Prod.mk.inj (h.key r)).1
    have hs := (Prod.mk.inj (h.key s)).1
    simp only [rowLe, hr, hs, h.order]
  have hfilter : db'.stages.rows.filter (isPending db') = (db.stages.rows.filter (isPending db)).map g := by
    rw [h.rows, List.filter_map]
    exact congrArg _ (List.filter_congr h.pending)
  rw [Reconciler.queue, hfilter, Reconciler.queue]
  exact (List.map_insertionSort (rowLe · ·) (rowLe · ·) g _ fun a _ b _ => by rw [hle]).symm

lemma Restates.keys {g : StageRow → StageRow} (h : Restates g db db') :
    (Reconciler.queue db').map StageRow.key = (Reconciler.queue db).map StageRow.key := by
  rw [h.queue, List.map_map]
  exact List.map_congr_left fun r _ => h.key r

lemma Restates.live {g : StageRow → StageRow} (h : Restates g db db') {now : Datetime} {k : StageKey} :
    Live db' now k ↔ Live db now k := by
  rw [Live, Live, h.keys, h.intents]

lemma Cycle.restates (h : Cycle X R reg reg₁ reg' attempts) : ∃ g, Restates g reg.db reg₁.db := by
  obtain ⟨amb, n, hexpired⟩ := h.expired
  obtain ⟨db, hdb, hreg⟩ := transact_eq_ok (congrArg Prod.snd hexpired)
  obtain rfl := (congrArg Prod.fst hexpired).symm.trans hreg
  exact expires_restates (expirePendingStages_expires hdb)

lemma Cycle.keys (h : Cycle X R reg reg₁ reg' attempts) :
    attempts.map StageReservation.key = ((queue reg.db).map StageRow.key).take 100 := by
  obtain ⟨g, hg⟩ := h.restates
  have hlisted := h.listed
  simp only [pendingStages, Fallible.bind_eq_ok, Fallible.pure_eq_ok] at hlisted
  obtain ⟨_, -, rfl⟩ := hlisted
  rw [← hg.keys, List.map_map, ← List.map_take]
  rfl

lemma Cycle.attempts_iff (h : Cycle X R reg reg₁ reg' attempts) {k : StageKey}
    (hk : k ∈ (queue reg.db).map StageRow.key) : k ∈ attempts.map StageReservation.key ↔ ahead reg.db k < 100 := by
  rw [h.keys, List.mem_take_iff_idxOf_lt hk, ahead]

/-- A cycle attempts every live stage exactly when fewer than a hundred pending stages are ahead of each. -/
theorem runOnce_attempts_live_iff {out : Nat × Nat} (hrun : Exec (service X) () (R.runOnce X) reg reg' (.ok out)) :
    ∃ reg₁ attempts, Cycle X R reg reg₁ reg' attempts ∧ out.1 = attempts.length ∧ ∀ now,
      (∀ k, Live reg₁.db now k → k ∈ attempts.map StageReservation.key) ↔
        ∀ k, Live reg.db now k → ahead reg.db k < 100 := by
  obtain ⟨reg₁, attempts, hcycle, hcount⟩ := runOnce_cycle hrun
  obtain ⟨g, hg⟩ := hcycle.restates
  refine ⟨reg₁, attempts, hcycle, hcount, fun now => ?_⟩
  simp only [hg.live]
  exact forall_congr' fun k => forall_congr' fun hk => hcycle.attempts_iff hk.1

/-- Whatever a call is answered, the program goes on, so there is a run to its end. -/
lemma exists_exec {α : Type} (p : Action α) (s : Registry) : ∃ s' r, Exec (service X) () p s s' r := by
  induction p generalizing s with
  | done a => exact ⟨s, _, .done⟩
  | fail e => exact ⟨s, _, .fail⟩
  | call e next ih =>
    have hanswer : ∃ s₁ r, (service X).answer () e s s₁ r := by
      cases e with
      | registry c => exact ⟨_, _, ⟨0, fun _ => ""⟩, rfl⟩
      | _ => exact ⟨s, .error (policyError "" ""), rfl⟩
    obtain ⟨s₁, r, hans⟩ := hanswer
    obtain ⟨s', out, hrest⟩ := ih r s₁
    exact ⟨s', out, .call hans hrest⟩

lemma exists_reconcileEach (attempts : List StageReservation) (counts : Nat × Nat) (s : Registry) :
    ∃ s' out, Exec (service X) () (R.reconcileEach X attempts counts) s s' (.ok out) := by
  induction attempts generalizing counts s with
  | nil => exact ⟨s, counts, .done⟩
  | cons a rest ih =>
    obtain ⟨attempted, completed⟩ := counts
    obtain ⟨s₁, r, hr⟩ := exists_exec (X := X) (R.reconcile X a.requestId a.stage) s
    cases r with
    | ok outcome =>
      obtain ⟨s', out, hnext⟩ := ih (attempted + 1, completed + 1) s₁
      refine ⟨s', out, ?_⟩
      rw [GitHubOutcomeReconciler.reconcileEach, exec_bind]
      exact .inl ⟨s₁, .ok outcome, exec_attempt.mpr ⟨_, hr, rfl⟩, hnext⟩
    | error e =>
      obtain ⟨s', out, hnext⟩ := ih (attempted + 1, completed) s₁
      refine ⟨s', out, ?_⟩
      rw [GitHubOutcomeReconciler.reconcileEach, exec_bind]
      exact .inl ⟨s₁, .error e, exec_attempt.mpr ⟨_, hr, rfl⟩, hnext⟩

lemma exists_runOnce {amb : Ambient} {n : Nat}
    (hexpired : (Call.expirePendingStages none).exec X amb reg = (reg₁, .ok n)) :
    ∃ reg' out, Exec (service X) () (R.runOnce X) reg reg' (.ok out) := by
  have hlisted : ∃ attempts, pendingStages 100 reg₁.db = .ok attempts := by
    simp only [pendingStages, Fallible.bind_eq_ok, rejectIf_eq_ok, Fallible.pure_eq_ok]
    exact ⟨_, (), by decide, rfl⟩
  obtain ⟨attempts, hlisted⟩ := hlisted
  obtain ⟨reg', out, heach⟩ := exists_reconcileEach (X := X) (R := R) attempts (0, 0) reg₁
  refine ⟨reg', out, ?_⟩
  rw [GitHubOutcomeReconciler.runOnce, exec_bind]
  refine .inl ⟨reg₁, n, exec_registry.mpr ⟨amb, hexpired.symm⟩, ?_⟩
  rw [exec_bind]
  exact .inl ⟨reg₁, attempts, exec_registry.mpr ⟨amb, by rw [← hlisted]; rfl⟩, heach⟩

end

namespace Sweep

open IntentStore.Sample (start)

/-- A text that ends in the two hexadecimal digits of a number. -/
def named (head : String) (j : Nat) : String := String.ofList (head.toList ++ [hexDigit (j / 16), hexDigit (j % 16)])

def requestId : Nat → String := named "00000000-0000-4000-8000-0000000000"

/-- The last of the intents has not expired, and its stage awaits the outcome of its run. -/
def intent (j : Nat) : IntentRecord where
  requestId := requestId j
  bundleDigest := named "sha256:00000000000000000000000000000000000000000000000000000000000000" j
  subjectDigest := ""
  grantDigest := ""
  repositoryId := 42
  repository := "acik/platform"
  environment := "production"
  headSha := ""
  intentRef := "refs/tags/cross-ai-intent/" ++ requestId j
  sessionDigest := ""
  artifactSetDigest := ""
  rollbackPlanDigest := ""
  postDeployVerifierDigest := ""
  expiresAt := utcSeconds (if j = 255 then start + 60 * minute else start - 60 * minute)
  registrationPrincipal := "spiffe://acik/intent-registrar"
  triggeringActorId := 7
  registeredAt := utcSeconds (start - 120 * minute)
  refObjectId := none
  finalizedAt := some (utcSeconds (start - 120 * minute))
  state := .finalized

def stage (j : Nat) : StageRow where
  requestId := requestId j
  repositoryId := 42
  environment := "production"
  stage := .apply
  stageOrder := 1
  nonceDigest := ""
  workflowPath := ".github/workflows/apply.yml"
  workflowBlobDigest := ""
  state := if j = 255 then .reserved else .outcomeOverdue
  runId := some (1000 + j)
  runAttempt := some 1
  appRuleId := some 9
  reservationId := some (named "11111111-1111-4111-8111-1111111111" j)
  reservationExpiresAt := some (utcSeconds (if j = 255 then start + 30 * minute else start - 90 * minute))

def indices (n : Nat) : List Nat := List.range n ++ [255]

lemma hexDigit_injective {i j : Nat} (hi : i < 16) (hj : j < 16) (h : hexDigit i = hexDigit j) : i = j := by
  have hall : ∀ a b : Fin 16, hexDigit a = hexDigit b → a = b := by decide
  exact congrArg Fin.val (hall ⟨i, hi⟩ ⟨j, hj⟩ h)

lemma named_injective {head : String} {i j : Nat} (hi : i < 256) (hj : j < 256) (h : named head i = named head j) :
    i = j := by
  have hlist := List.append_cancel_left (String.ofList_injective h)
  simp only [List.cons.injEq, and_true] at hlist
  have hhigh := hexDigit_injective (by omega) (by omega) hlist.1
  have hlow := hexDigit_injective (by omega) (by omega) hlist.2
  omega

lemma indices_lt {n j : Nat} (hn : n ≤ 255) (hj : j ∈ indices n) : j < 256 := by
  simp only [indices, List.mem_append, List.mem_range, List.mem_singleton] at hj
  omega

lemma indices_nodup {n : Nat} (hn : n ≤ 255) : (indices n).Nodup := by
  refine List.nodup_range.append (List.nodup_singleton _) fun j hj h255 => ?_
  have := List.mem_range.mp hj
  have := List.mem_singleton.mp h255
  omega

lemma indices_map_nodup {n : Nat} (hn : n ≤ 255) {α : Type} {f : Nat → α}
    (hf : ∀ i < 256, ∀ j < 256, f i = f j → i = j) : ((indices n).map f).Nodup :=
  (indices_nodup hn).map_on fun i hi j hj => hf i (indices_lt hn hi) j (indices_lt hn hj)

lemma uniqueOn_map {n : Nat} (hn : n ≤ 255) {α β : Type} {row : Nat → α} {f : α → Option β} {g : Nat → β}
    (hrow : ∀ j, f (row j) = some (g j)) (hg : ∀ i < 256, ∀ j < 256, g i = g j → i = j) :
    UniqueOn f ((indices n).map row) := by
  have hmap : ((indices n).map row).filterMap f = (indices n).map g := by
    rw [List.filterMap_map, ← List.filterMap_eq_map]
    exact congrArg (fun p => List.filterMap p _) (funext hrow)
  rw [UniqueOn, hmap]
  exact indices_map_nodup hn hg

lemma requestId_injective (i : Nat) (hi : i < 256) (j : Nat) (hj : j < 256) (h : requestId i = requestId j) : i = j :=
  named_injective hi hj h

/-- As many intents as `n` that have expired, and one that has not. -/
def crowded (n : Nat) (hn : n ≤ 255) : Registry where
  db :=
    { Db.empty with
      intents := ⟨(indices n).map intent, by
        rw [List.map_map]
        exact indices_map_nodup hn requestId_injective, by
        refine ⟨uniqueOn_map hn (fun _ => rfl) fun i hi j hj => named_injective hi hj,
          uniqueOn_map hn (fun _ => rfl) fun i hi j hj h => requestId_injective i hi j hj ?_, fun r hr => ?_⟩
        · exact String.append_right_inj _ |>.mp h
        · obtain ⟨j, -, rfl⟩ := List.mem_map.mp hr
          exact (by decide : (1 : Int) ≤ 7)⟩
      stages := ⟨(indices n).map stage, by
        rw [List.map_map]
        exact indices_map_nodup hn fun i hi j hj h => requestId_injective i hi j hj (Prod.mk.inj h).1, by
        refine ⟨uniqueOn_map hn (fun _ => rfl) fun i hi j hj => named_injective hi hj,
          uniqueOn_map hn (fun _ => rfl) fun i hi j hj h => ?_, fun r hr => ?_⟩
        · simp only [Prod.mk.injEq] at h
          omega
        · obtain ⟨j, -, rfl⟩ := List.mem_map.mp hr
          exact ⟨trivial, (by decide : ".github/workflows/apply.yml" ≠ "")⟩⟩ }
  cas := []

variable {n : Nat} {hn : n ≤ 255}

lemma mem_stages {r : StageRow} : r ∈ (crowded n hn).db.stages.rows ↔ ∃ j ∈ indices n, stage j = r := List.mem_map

lemma find?_intent {j : Nat} (hj : j ∈ indices n) : (crowded n hn).db.intents.find? (requestId j) = some (intent j) := by
  have hmem : intent j ∈ (crowded n hn).db.intents.rows := List.mem_map_of_mem hj
  exact Table.mem_iff_find?.mp hmem

lemma expires_none {X : Externals} : (Call.expirePendingStages none).exec X ⟨start, fun _ => ""⟩ (crowded n hn) =
    (crowded n hn, .ok 0) := by
  have hnone : overdueRows (utcSeconds start) (crowded n hn).db = [] := by
    rw [overdueRows]
    have hfilter : (crowded n hn).db.stages.rows.filter (fun r => (r.state = .reserved ∨
        r.state = .approvedPendingOutcome) ∧ ∃ e ∈ r.reservationExpiresAt, e.seconds ≤ (utcSeconds start).seconds) = [] := by
      refine List.filter_eq_nil_iff.mpr fun r hr => ?_
      obtain ⟨j, -, rfl⟩ := mem_stages.mp hr
      by_cases hj : j = 255
      · subst hj
        decide
      · simp [stage, hj]
    rw [hfilter, List.insertionSort_nil]
  rw [Call.exec, transact, expirePendingStages]
  simp only [Option.getD_none, hnone]
  rfl

lemma pending_all : (crowded n hn).db.stages.rows.filter (isPending (crowded n hn).db) = (indices n).map stage := by
  refine List.filter_eq_self.mpr fun r hr => ?_
  obtain ⟨j, hj, rfl⟩ := mem_stages.mp hr
  have hintent : ((crowded n hn).db.intents.find? (stage j).requestId).map (·.state) = some .finalized := by
    rw [show (stage j).requestId = requestId j from rfl, find?_intent hj]
    rfl
  rw [isPending, hintent]
  by_cases h255 : j = 255
  · simp [stage, h255]
  · simp [stage, h255]

lemma append_lt {head u v : List Char} (h : u < v) : head ++ u < head ++ v := by
  induction head with
  | nil => exact h
  | cons c head ih => exact List.cons_lt_cons_iff.mpr (.inr ⟨rfl, ih⟩)

lemma requestId_lt {j : Nat} (hj : j < 100) : requestId j < requestId 255 := by
  have hall : ∀ j < 100, [hexDigit (j / 16), hexDigit (j % 16)] < [hexDigit (255 / 16), hexDigit (255 % 16)] := by decide
  change (requestId j).toList < (requestId 255).toList
  rw [requestId, named, named, String.toList_ofList, String.toList_ofList]
  exact append_lt (hall j hj)

/-- A row that is not before any of the others stays at the end. -/
lemma insertionSort_concat {α : Type} {r : α → α → Prop} [DecidableRel r] {xs : List α} {x : α}
    (h : ∀ a ∈ xs, r a x) : (xs ++ [x]).insertionSort r = xs.insertionSort r ++ [x] := by
  induction xs with
  | nil => rfl
  | cons a xs ih =>
    have hinsert : ∀ ys : List α, (ys ++ [x]).orderedInsert r a = ys.orderedInsert r a ++ [x] := by
      intro ys
      induction ys with
      | nil => simp [h a (by simp)]
      | cons b ys ihs => by_cases hab : r a b <;> simp [hab, ihs]
    rw [List.cons_append, List.insertionSort_cons, ih fun b hb => h b (by simp [hb]), hinsert, List.insertionSort_cons]

lemma queue_eq (hn' : n ≤ 100) : queue (crowded n hn).db =
    (((List.range n).map stage).insertionSort (rowLe · ·)) ++ [stage 255] := by
  rw [queue, pending_all, indices, List.map_append, List.map_singleton, insertionSort_concat]
  intro r hr
  obtain ⟨j, hj, rfl⟩ := List.mem_map.mp hr
  have hlt := requestId_lt (show j < 100 by have := List.mem_range.mp hj; omega)
  simp only [rowLe, decide_eq_true_eq]
  exact .inl hlt

lemma live : Live (crowded n hn).db start (requestId 255, .apply) := by
  refine ⟨?_, intent 255, find?_intent (by simp [indices]), by decide⟩
  have hmem : stage 255 ∈ queue (crowded n hn).db := by
    rw [queue, pending_all, List.mem_insertionSort]
    exact List.mem_map_of_mem (by simp [indices])
  exact List.mem_map_of_mem hmem

lemma installation_one : (1 : ℤ) ≤ 3 := by decide

def reconciler : GitHubOutcomeReconciler := ⟨3, .null, "", installation_one⟩

end Sweep

open Sweep IntentStore.Sample

/-- A hundred stages of expired intents are ahead of the only live one, which is not attempted. -/
theorem runOnce_starves_live_stage :
    ∃ reg' out reg₁ attempts, Exec (service externals) () (reconciler.runOnce externals) (crowded 100 (by decide)) reg'
      (.ok out) ∧ Cycle externals reconciler (crowded 100 (by decide)) reg₁ reg' attempts ∧ out.1 = attempts.length ∧
      Live reg₁.db start (Sweep.requestId 255, .apply) ∧
      (Sweep.requestId 255, Stage.apply) ∉ attempts.map StageReservation.key := by
  obtain ⟨reg', out, hrun⟩ := exists_runOnce (R := reconciler) (@expires_none 100 (by decide) externals)
  obtain ⟨reg₁, attempts, hcycle, hcount⟩ := runOnce_cycle hrun
  obtain ⟨g, hg⟩ := hcycle.restates
  refine ⟨reg', out, reg₁, attempts, hrun, hcycle, hcount, hg.live.mpr live, ?_⟩
  have hlength : ((((List.range 100).map Sweep.stage).insertionSort (rowLe · ·)).map StageRow.key).length = 100 := by
    rw [List.length_map, List.length_insertionSort, List.length_map, List.length_range]
  rw [hcycle.keys, queue_eq (by decide), List.map_append, List.take_left' hlength]
  intro hmem
  obtain ⟨r, hr, hkey⟩ := List.mem_map.mp hmem
  obtain ⟨j, hj, rfl⟩ := List.mem_map.mp (List.mem_insertionSort _ |>.mp hr)
  have hj : j < 100 := List.mem_range.mp hj
  have := requestId_injective j (by omega) 255 (by decide) (Prod.mk.inj hkey).1
  omega

/-- Two stages of expired intents are ahead of a live one. -/
theorem runOnce_attempts_live_iff_behind_two :
    ∃ reg' out reg₁ attempts, Exec (service externals) () (reconciler.runOnce externals) (crowded 2 (by decide)) reg'
      (.ok out) ∧ Cycle externals reconciler (crowded 2 (by decide)) reg₁ reg' attempts ∧
      ∀ k, Live reg₁.db start k → k ∈ attempts.map StageReservation.key := by
  obtain ⟨reg', out, hrun⟩ := exists_runOnce (R := reconciler) (@expires_none 2 (by decide) externals)
  obtain ⟨reg₁, attempts, hcycle, -, hiff⟩ := runOnce_attempts_live_iff hrun
  refine ⟨reg', out, reg₁, attempts, hrun, hcycle, (hiff start).mpr fun k hk => ?_⟩
  refine (List.idxOf_lt_length_of_mem hk.1).trans_le ?_
  rw [List.length_map, queue, pending_all, List.length_insertionSort, List.length_map]
  decide

end PlatformGitops.CrossAi.Reconciler
