import PlatformGitops.CrossAi.IntentStore.StageChanges

/-! Which stages of an intent may be in progress together, and when a stage has an outcome. -/

namespace PlatformGitops.CrossAi.IntentStore

open Library

section

variable {X : Externals} {db db' : Db}

/-- What one change may do to the stage with key `k` and to its outcome. -/
inductive RowStep (db db' : Db) (k : StageKey) : Prop
  | same : db'.stages.find? k = db.stages.find? k → db'.outcomes.find? k = db.outcomes.find? k →
      RowStep db db' k
  | added {r : StageRow} : db.stages.find? k = none → db'.stages.find? k = some r → r.Unbound →
      db'.outcomes.find? k = db.outcomes.find? k → RowStep db db' k
  | reserved {r r' : StageRow} : db.stages.find? k = some r → r.state = .available →
      prerequisiteSatisfied db k.1 k.2 = true → db'.stages.find? k = some r' → r'.state = .reserved →
      db'.outcomes.find? k = db.outcomes.find? k → RowStep db db' k
  | moved {r : StageRow} {s : StageState} : db.stages.find? k = some r → StageMove r.state s →
      db'.stages.find? k = some { r with state := s } → db'.outcomes.find? k = db.outcomes.find? k →
      RowStep db db' k
  | settled {r : StageRow} {o : StageOutcome} : db.stages.find? k = some r →
      r.state = .approvedPendingOutcome → r.runId = some o.runId → r.runAttempt = some o.runAttempt →
      o.targetState ∈ allowedTargets k.2 →
      (k.2 = .apply → o.targetState = .succeeded →
        ∃ r ∈ db.stages.find? (k.1, .compensatingRollback), r.state = .available) →
      db'.stages.find? k = some { r with state := o.targetState } → db.outcomes.find? k = none →
      db'.outcomes.find? k = some o → RowStep db db' k

lemma Change.row (h : Change db db') (k : StageKey) : RowStep db db' k := by
  cases h with
  | registered _ _ hk _ =>
    rcases hk k with hs | ⟨-, hn, r, hr, hu⟩
    · exact .same hs rfl
    · exact .added hn hr hu rfl
  | @stageReserved row _ _ _ _ _ _ hrow hs hp hs' _ _ _ hk _ =>
    by_cases he : k = row.key
    · subst he
      exact .reserved hrow hs hp ((hk _).trans (if_pos rfl)) hs' rfl
    · exact .same ((hk k).trans (if_neg he)) rfl
  | @stageMoved row _ _ _ hrow hmove hm _ =>
    have hk := find?_moved hrow hm k
    by_cases he : k = row.key
    · subst he
      exact .moved hrow hmove (hk.trans (if_pos rfl)) rfl
    · exact .same (hk.trans (if_neg he)) rfl
  | @outcomeSealed row _ _ _ _ hrow hs ho hrun hattempt ht hg hi hm _ =>
    have hk := find?_moved hrow hm k
    have hout := Table.find?_insert? hi k
    by_cases he : k = row.key
    · subst he
      rw [ho, if_pos rfl] at hout
      exact .settled hrow hs hrun hattempt ht hg (hk.trans (if_pos rfl)) (ho ▸ Table.insert?_fresh hi) hout
    · exact .same (hk.trans (if_neg he)) (hout.trans (if_neg (ho ▸ he)))
  | _ => exact .same rfl rfl

/-- A stage is in a sealed state exactly when its outcome is recorded, and they agree. -/
def Settled (db : Db) : Prop :=
  ∀ k, match db.outcomes.find? k with
    | none => ∀ r ∈ db.stages.find? k, ¬ r.state.Sealed
    | some o => ∃ r ∈ db.stages.find? k, r.state = o.targetState ∧ r.runId = some o.runId ∧
        r.runAttempt = some o.runAttempt

lemma settled_empty : Settled Db.empty := by
  intro k r hr
  cases hr

lemma outcome_sealed {k : StageKey} {o : StageOutcome} (h : db.outcomes.find? k = some o) :
    o.targetState.Sealed :=
  db.outcomes.valid.2 o (Table.find?_mem h)

lemma StageMove.not_sealed {s t : StageState} (h : StageMove s t) : ¬ s.Sealed ∧ ¬ t.Sealed := by
  cases h <;> decide

/-- A change keeps a row and its outcome, moves it between open states, or records its outcome. -/
lemma RowStep.outcome {k : StageKey} (h : RowStep db db' k) :
    (db'.stages.find? k = db.stages.find? k ∧ db'.outcomes.find? k = db.outcomes.find? k) ∨
    (db'.outcomes.find? k = db.outcomes.find? k ∧ (∀ r ∈ db.stages.find? k, ¬ r.state.Sealed) ∧
      ∀ r ∈ db'.stages.find? k, ¬ r.state.Sealed) ∨
    (db.outcomes.find? k = none ∧ ∃ (r : StageRow) (o : StageOutcome), db'.outcomes.find? k = some o ∧
      db'.stages.find? k = some { r with state := o.targetState } ∧ r.runId = some o.runId ∧
      r.runAttempt = some o.runAttempt) := by
  rcases h with ⟨hs, ho⟩ | ⟨hn, hr, hu, ho⟩ | ⟨hr, hs, -, hr', hs', ho⟩ | ⟨hr, hmove, hr', ho⟩ |
    ⟨-, -, hrun, hattempt, -, -, hr', hn, ho⟩
  · exact Or.inl ⟨hs, ho⟩
  · refine Or.inr (Or.inl ⟨ho, by simp [hn], ?_⟩)
    rw [hr]
    rintro r ⟨⟩
    rw [hu.state]
    decide
  · refine Or.inr (Or.inl ⟨ho, ?_, ?_⟩)
    · rw [hr]
      rintro r ⟨⟩
      rw [hs]
      decide
    · rw [hr']
      rintro r ⟨⟩
      rw [hs']
      decide
  · refine Or.inr (Or.inl ⟨ho, ?_, ?_⟩)
    · rw [hr]
      rintro r ⟨⟩
      exact hmove.not_sealed.1
    · rw [hr']
      rintro r ⟨⟩
      exact hmove.not_sealed.2
  · exact Or.inr (Or.inr ⟨hn, _, _, ho, hr', hrun, hattempt⟩)

lemma Settled.row {k : StageKey} {o : StageOutcome} (hi : Settled db) (ho : db.outcomes.find? k = some o) :
    ∃ r ∈ db.stages.find? k, r.state = o.targetState ∧ r.runId = some o.runId ∧
      r.runAttempt = some o.runAttempt := by
  have h := hi k
  rwa [ho] at h

lemma Settled.open {k : StageKey} (hi : Settled db) (ho : db.outcomes.find? k = none) :
    ∀ r ∈ db.stages.find? k, ¬ r.state.Sealed := by
  have h := hi k
  rwa [ho] at h

/-- The row and the outcome of a stage with an outcome are the same after any change. -/
lemma Settled.frozen {k : StageKey} {o : StageOutcome} (hi : Settled db) (h : Change db db')
    (ho : db.outcomes.find? k = some o) :
    db'.stages.find? k = db.stages.find? k ∧ db'.outcomes.find? k = some o := by
  obtain ⟨r, hr, he, -⟩ := hi.row ho
  rcases (h.row k).outcome with hsame | ⟨-, hopen, -⟩ | ⟨hn, -⟩
  · exact ⟨hsame.1, hsame.2.trans ho⟩
  · exact (hopen r hr (he ▸ outcome_sealed ho)).elim
  · rw [hn] at ho
    cases ho

lemma settled_change (h : Change db db') (hi : Settled db) : Settled db' := by
  intro k
  cases ho : db.outcomes.find? k with
  | some o =>
    obtain ⟨hs, ho'⟩ := hi.frozen h ho
    rw [ho', hs]
    exact hi.row ho
  | none =>
    rcases (h.row k).outcome with ⟨hs, hsame⟩ | ⟨hsame, -, hopen⟩ | ⟨-, r, o, ho', hr, hrun, hattempt⟩
    · rw [hsame, ho, hs]
      exact hi.open ho
    · rw [hsame, ho]
      exact hopen
    · rw [ho']
      exact ⟨_, hr, rfl, hrun, hattempt⟩

lemma settled_changes (h : Changes db db') (hi : Settled db) : Settled db' := by
  induction h with
  | refl => exact hi
  | tail _ hstep ih => exact settled_change hstep ih

lemma Settled.frozen_changes {k : StageKey} {o : StageOutcome} (hi : Settled db) (h : Changes db db')
    (ho : db.outcomes.find? k = some o) :
    db'.stages.find? k = db.stages.find? k ∧ db'.outcomes.find? k = some o := by
  induction h with
  | refl => exact ⟨rfl, ho⟩
  | tail hpre hstep ih =>
    obtain ⟨hs, ho'⟩ := (settled_changes hpre hi).frozen hstep ih.2
    exact ⟨hs.trans ih.1, ho'⟩

lemma Reachable.changes {reg : Registry} (h : Reachable X reg) : Changes Db.empty reg.db := Runs.changes h

lemma Reachable.settled {reg : Registry} (h : Reachable X reg) : Settled reg.db :=
  settled_changes h.changes settled_empty

theorem stage_sealed_iff_outcome {reg : Registry} (h : Reachable X reg) (k : StageKey) (row : StageRow)
    (hrow : reg.db.stages.find? k = some row) :
    (row.state.Sealed ↔ (reg.db.outcomes.find? k).isSome) ∧
    ∀ o, reg.db.outcomes.find? k = some o →
      o.targetState = row.state ∧ some o.runId = row.runId ∧ some o.runAttempt = row.runAttempt ∧
      ∀ reg', Runs X reg reg' → reg'.db.stages.find? k = some row ∧ reg'.db.outcomes.find? k = some o := by
  have hi := h.settled
  constructor
  · cases ho : reg.db.outcomes.find? k with
    | none => simpa using hi.open ho row hrow
    | some o =>
      obtain ⟨r, hr, he, -⟩ := hi.row ho
      obtain rfl := Option.some.inj (hrow.symm.trans hr)
      simpa [he] using outcome_sealed ho
  · intro o ho
    obtain ⟨r, hr, he, hrun, hattempt⟩ := hi.row ho
    obtain rfl := Option.some.inj (hrow.symm.trans hr)
    refine ⟨he.symm, hrun.symm, hattempt.symm, fun reg' hruns => ?_⟩
    obtain ⟨hs, ho'⟩ := hi.frozen_changes hruns.changes ho
    exact ⟨hs.trans hrow, ho'⟩

lemma Sample.browsing_states :
    stateIn browsing .apply = some .succeeded ∧ stateIn browsing .browserEvidence = some .reserved := by
  decide +kernel

theorem stage_sealed_iff_outcome_browsing : ∃ row, Sample.browsing.db.stages.find? ("req", .apply) = some row ∧
    row.state = .succeeded ∧ ∃ o, Sample.browsing.db.outcomes.find? ("req", .apply) = some o ∧
      o.targetState = .succeeded ∧ some o.runId = row.runId := by
  obtain ⟨row, hrow, hs⟩ := Option.map_eq_some_iff.mp Sample.browsing_states.1
  obtain ⟨hiff, hall⟩ := stage_sealed_iff_outcome Sample.reachable_browsing ("req", .apply) row hrow
  obtain ⟨o, ho⟩ := Option.isSome_iff_exists.mp (hiff.mp (Or.inl hs))
  exact ⟨row, hrow, hs, o, ho, (hall o ho).1.trans hs, (hall o ho).2.1⟩

/-- The stage has a row that is out of `Available`. -/
def Left (db : Db) (k : StageKey) : Prop := ∃ r ∈ db.stages.find? k, r.state ≠ .available

def InState (db : Db) (k : StageKey) (s : StageState) : Prop := ∃ r ∈ db.stages.find? k, r.state = s

lemma StageState.Sealed.ne_available {s : StageState} (h : s.Sealed) : s ≠ .available := by
  rintro rfl
  exact absurd h (by decide)

lemma StageMove.ne_available {s t : StageState} (h : StageMove s t) : s ≠ .available ∧ t ≠ .available := by
  cases h <;> decide

/-- A stage leaves `Available` only by a reservation, under its prerequisite. -/
lemma Change.left_of_left {k : StageKey} (h : Change db db') (hl : Left db' k) :
    Left db k ∨ prerequisiteSatisfied db k.1 k.2 = true := by
  obtain ⟨r', hr', hne⟩ := hl
  rcases h.row k with ⟨hs, -⟩ | ⟨-, hr, hu, -⟩ | ⟨-, -, hp, -⟩ | ⟨hr, hmove, -⟩ | ⟨hr, hs, -⟩
  · exact Or.inl ⟨r', hs ▸ hr', hne⟩
  · obtain rfl := Option.some.inj (hr.symm.trans hr')
    exact (hne hu.state).elim
  · exact Or.inr hp
  · exact Or.inl ⟨_, hr, hmove.ne_available.1⟩
  · exact Or.inl ⟨_, hr, by simp [hs]⟩

lemma Change.left {k : StageKey} (h : Change db db') (hl : Left db k) : Left db' k := by
  obtain ⟨r, hr, hne⟩ := hl
  rcases h.row k with ⟨hs, -⟩ | ⟨hn, -⟩ | ⟨-, -, -, hr', hs', -⟩ | ⟨-, hmove, hr', -⟩ |
    ⟨-, -, -, -, -, -, hr', -, ho⟩
  · exact ⟨r, hs ▸ hr, hne⟩
  · rw [hn] at hr
    cases hr
  · exact ⟨_, hr', by simp [hs']⟩
  · exact ⟨_, hr', hmove.ne_available.2⟩
  · exact ⟨_, hr', (outcome_sealed ho).ne_available⟩

/-- A stage comes to `Succeeded` only by its outcome, and apply only while no rollback is activated. -/
lemma Change.succeeded {rid : String} (h : Change db db') (hs : InState db' (rid, .apply) .succeeded) :
    InState db (rid, .apply) .succeeded ∨
      (InState db (rid, .apply) .approvedPendingOutcome ∧ InState db (rid, .compensatingRollback) .available) := by
  obtain ⟨r', hr', he⟩ := hs
  rcases h.row (rid, .apply) with ⟨hs, -⟩ | ⟨-, hr, hu, -⟩ | ⟨-, -, -, hr, hs, -⟩ | ⟨-, hmove, hr, -⟩ |
    ⟨hrow, hs, -, -, -, hg, hr, -, -⟩
  · exact Or.inl ⟨r', hs ▸ hr', he⟩
  all_goals obtain rfl := Option.some.inj (hr.symm.trans hr')
  · exact absurd (hu.state.symm.trans he) (by decide)
  · exact absurd (hs.symm.trans he) (by decide)
  · exact (hmove.not_sealed.2 (Or.inl he)).elim
  · exact Or.inr ⟨⟨_, hrow, hs⟩, hg rfl he⟩

/-- The stages that write to the target and the one that reads it do not overlap. -/
structure Exclusive (db : Db) : Prop where
  settled : Settled db
  rollback : ∀ rid, Left db (rid, .compensatingRollback) → ¬ InState db (rid, .apply) .succeeded
  browser : ∀ rid, Left db (rid, .browserEvidence) → InState db (rid, .apply) .succeeded

lemma InState.unique {k : StageKey} {s t : StageState} (h : InState db k s) (h' : InState db k t) : s = t := by
  obtain ⟨r, hr, rfl⟩ := h
  obtain ⟨r', hr', rfl⟩ := h'
  rw [Option.some.inj (hr.symm.trans hr')]

lemma Left.not_available {k : StageKey} (hl : Left db k) : ¬ InState db k .available := by
  rintro ⟨r, hr, he⟩
  obtain ⟨r', hr', hne⟩ := hl
  obtain rfl := Option.some.inj (hr.symm.trans hr')
  exact hne he

lemma prerequisite_browser {rid : String} (h : prerequisiteSatisfied db rid .browserEvidence = true) :
    InState db (rid, .apply) .succeeded := by
  simp only [prerequisiteSatisfied, reduceCtorEq, if_false] at h
  cases ha : db.stages.find? (rid, .apply) with
  | none => simp [ha] at h
  | some r =>
    simp only [ha, if_true, decide_eq_true_eq] at h
    exact ⟨r, ha, h.1⟩

lemma prerequisite_rollback {rid : String} (h : prerequisiteSatisfied db rid .compensatingRollback = true) :
    InState db (rid, .apply) .callbackUnknown ∨ InState db (rid, .apply) .failed := by
  simp only [prerequisiteSatisfied, reduceCtorEq, if_false] at h
  cases ha : db.stages.find? (rid, .apply) with
  | none => simp [ha] at h
  | some r =>
    simp only [ha, decide_eq_true_eq] at h
    rcases h with h | ⟨h, -⟩
    · exact Or.inl ⟨r, ha, h⟩
    · exact Or.inr ⟨r, ha, h⟩

lemma Settled.succeeded {k : StageKey} (hi : Settled db) (h : InState db k .succeeded) :
    ∃ o, db.outcomes.find? k = some o ∧ o.targetState = .succeeded := by
  obtain ⟨r, hr, hs⟩ := h
  cases ho : db.outcomes.find? k with
  | none => exact (hi.open ho r hr (Or.inl hs)).elim
  | some o =>
    obtain ⟨r', hr', he, -⟩ := hi.row ho
    obtain rfl := Option.some.inj (hr.symm.trans hr')
    exact ⟨o, rfl, he.symm.trans hs⟩

lemma Settled.succeeded_changes {k : StageKey} (hi : Settled db) (h : Changes db db')
    (hs : InState db k .succeeded) : InState db' k .succeeded := by
  obtain ⟨o, ho, -⟩ := hi.succeeded hs
  obtain ⟨r, hr, he⟩ := hs
  exact ⟨r, (hi.frozen_changes h ho).1.trans hr, he⟩

lemma exclusive_empty : Exclusive Db.empty := by
  refine ⟨settled_empty, ?_, ?_⟩ <;> rintro rid ⟨r, hr, -⟩ <;> cases hr

lemma exclusive_change (h : Change db db') (hi : Exclusive db) : Exclusive db' := by
  refine ⟨settled_change h hi.settled, fun rid hl hs => ?_, fun rid hl => ?_⟩
  · rcases h.left_of_left hl with hl' | hp
    · rcases h.succeeded hs with hs | ⟨-, hav⟩
      · exact hi.rollback rid hl' hs
      · exact hl'.not_available hav
    · rcases h.succeeded hs with hs | ⟨hs, -⟩ <;> rcases prerequisite_rollback hp with ha | ha <;>
        exact absurd (ha.unique hs) (by decide)
  · have hs : InState db (rid, .apply) .succeeded := by
      rcases h.left_of_left hl with hl' | hp
      · exact hi.browser rid hl'
      · exact prerequisite_browser hp
    exact hi.settled.succeeded_changes (.single h) hs

lemma exclusive_changes (h : Changes db db') (hi : Exclusive db) : Exclusive db' := by
  induction h with
  | refl => exact hi
  | tail _ hstep ih => exact exclusive_change hstep ih

lemma Left.changes {k : StageKey} (hl : Left db k) (h : Changes db db') : Left db' k := by
  induction h with
  | refl => exact hl
  | tail _ hstep ih => exact hstep.left ih

theorem rollback_and_browser_exclusive {reg : Registry} (h : Reachable X reg) (rid : String) :
    ¬ (Left reg.db (rid, .browserEvidence) ∧ Left reg.db (rid, .compensatingRollback)) ∧
    (Left reg.db (rid, .compensatingRollback) →
      ∀ reg', Runs X reg reg' → ¬ InState reg'.db (rid, .apply) .succeeded) ∧
    (Left reg.db (rid, .browserEvidence) → ∀ reg', Runs X reg reg' →
      InState reg'.db (rid, .apply) .succeeded ∧
        ∃ o, reg'.db.outcomes.find? (rid, .apply) = some o ∧ o.targetState = .succeeded) := by
  have hi := exclusive_changes h.changes exclusive_empty
  refine ⟨fun ⟨hb, hr⟩ => hi.rollback rid hr (hi.browser rid hb), fun hl reg' hruns => ?_,
    fun hl reg' hruns => ?_⟩
  · exact (exclusive_changes hruns.changes hi).rollback rid (hl.changes hruns.changes)
  · have hi' := exclusive_changes hruns.changes hi
    have hs := hi'.browser rid (hl.changes hruns.changes)
    exact ⟨hs, hi'.settled.succeeded hs⟩

theorem rollback_and_browser_exclusive_browsing : Left Sample.browsing.db ("req", .browserEvidence) ∧
    ¬ Left Sample.browsing.db ("req", .compensatingRollback) ∧
    InState Sample.browsing.db ("req", .apply) .succeeded := by
  obtain ⟨row, hrow, hs⟩ := Option.map_eq_some_iff.mp Sample.browsing_states.2
  have hl : Left Sample.browsing.db ("req", .browserEvidence) := ⟨row, hrow, by simp [hs]⟩
  obtain ⟨hex, -, hb⟩ := rollback_and_browser_exclusive Sample.reachable_browsing "req"
  exact ⟨hl, fun hr => hex ⟨hl, hr⟩, (hb hl _ .refl).1⟩

end

/-! What stays true of the dispatch of a stage: it is claimed once, and bound to one later run. -/

section

variable {X : Externals} {db db' : Db}

inductive DispatchStep (db db' : Db) (k : StageKey) : Prop
  | same : db'.dispatches.find? k = db.dispatches.find? k → DispatchStep db db' k
  | added {j : DispatchJob} : db.dispatches.find? k = none → db'.dispatches.find? k = some j →
      j.state = .pending → j.preDispatchRunIdWatermark = none → j.runId = none → DispatchStep db db' k
  | moved {j j' : DispatchJob} : db.dispatches.find? k = some j → db'.dispatches.find? k = some j' →
      DispatchMove j j' → DispatchStep db db' k

lemma Change.dispatch (h : Change db db') (k : StageKey) : DispatchStep db db' k := by
  cases h with
  | @dispatchQueued job _ _ _ hi _ hs hw hr _ =>
    have hk := Table.find?_insert? hi k
    by_cases he : k = job.key
    · subst he
      exact .added (Table.insert?_fresh hi) (hk.trans (if_pos rfl)) hs hw hr
    · exact .same (hk.trans (if_neg he))
  | @dispatchMoved j j' _ _ hj hmove hk _ =>
    by_cases he : k = j.key
    · subst he
      exact .moved hj ((hk _).trans (if_pos rfl)) hmove
    · exact .same ((hk k).trans (if_neg he))
  | _ => exact .same rfl

lemma DispatchMove.claimed_after {j j' : DispatchJob} (h : DispatchMove j j') : j'.state ≠ .pending := by
  cases h with
  | claimed => simp
  | resolved _ ht => rcases ht with rfl | rfl <;> simp
  | watermarked hs => simp [hs]
  | posted hs => simp [hs]
  | reconciled => simp

lemma DispatchMove.watermark {j j' : DispatchJob} (h : DispatchMove j j') {w : Int}
    (hw : j.preDispatchRunIdWatermark = some w) : j'.preDispatchRunIdWatermark = some w := by
  cases h with
  | watermarked _ hn => simp [hn] at hw
  | _ => exact hw

/-- The row has been claimed: it is there and no longer pending. -/
def Claimed (db : Db) (k : StageKey) : Prop := ∃ j ∈ db.dispatches.find? k, j.state ≠ .pending

instance (db : Db) (k : StageKey) : Decidable (Claimed db k) :=
  decidable_of_iff ((db.dispatches.find? k).any (fun j => j.state ≠ .pending) = true)
    (by simp [Claimed, Option.any_eq_true])

def Watermarked (db : Db) (k : StageKey) (w : Int) : Prop :=
  ∃ j ∈ db.dispatches.find? k, j.preDispatchRunIdWatermark = some w

lemma Claimed.change {k : StageKey} (hc : Claimed db k) (h : Change db db') : Claimed db' k := by
  obtain ⟨j, hj, hs⟩ := hc
  rcases h.dispatch k with he | ⟨hn, -⟩ | ⟨-, hj', hmove⟩
  · exact ⟨j, he ▸ hj, hs⟩
  · rw [hn] at hj
    cases hj
  · exact ⟨_, hj', hmove.claimed_after⟩

lemma Claimed.changes {k : StageKey} (hc : Claimed db k) (h : Changes db db') : Claimed db' k := by
  induction h with
  | refl => exact hc
  | tail _ hstep ih => exact ih.change hstep

lemma Watermarked.change {k : StageKey} {w : Int} (hw : Watermarked db k w) (h : Change db db') :
    Watermarked db' k w := by
  obtain ⟨j, hj, hjw⟩ := hw
  rcases h.dispatch k with he | ⟨hn, -⟩ | ⟨hj₀, hj', hmove⟩
  · exact ⟨j, he ▸ hj, hjw⟩
  · rw [hn] at hj
    cases hj
  · obtain rfl := Option.some.inj (hj₀.symm.trans hj)
    exact ⟨_, hj', hmove.watermark hjw⟩

lemma Watermarked.changes {k : StageKey} {w : Int} (hw : Watermarked db k w) (h : Changes db db') :
    Watermarked db' k w := by
  induction h with
  | refl => exact hw
  | tail _ hstep ih => exact ih.change hstep

/-- A run is bound exactly to an accepted dispatch, and it is later than the watermark. -/
def DispatchJob.Bound (j : DispatchJob) : Prop :=
  (j.runId = none ∧ j.state ≠ .accepted) ∨
    ∃ r w, j.runId = some r ∧ j.preDispatchRunIdWatermark = some w ∧ w < r ∧ j.state = .accepted

def RunsBound (db : Db) : Prop := ∀ k, ∀ j ∈ db.dispatches.find? k, j.Bound

lemma DispatchMove.bound {j j' : DispatchJob} (h : DispatchMove j j') (hb : j.Bound) : j'.Bound := by
  have hopen : ∀ {s : DispatchState}, j.state = s → s ≠ .accepted → j.runId = none := by
    intro s hs hne
    rcases hb with ⟨hr, -⟩ | ⟨r, w, -, -, -, ha⟩
    · exact hr
    · exact (hne (hs.symm.trans ha)).elim
  cases h with
  | claimed hs => exact Or.inl ⟨hopen hs (by decide), by simp⟩
  | resolved hs ht =>
    refine Or.inl ⟨hopen hs (by decide), ?_⟩
    rcases ht with rfl | rfl <;> simp
  | watermarked hs => exact Or.inl ⟨hopen hs (by decide), by simp [hs]⟩
  | posted hs => exact Or.inl ⟨hopen hs (by decide), by simp [hs]⟩
  | reconciled _ hw hlt => exact Or.inr ⟨_, _, rfl, hw, hlt, rfl⟩

lemma DispatchMove.runId {j j' : DispatchJob} (h : DispatchMove j j') (hb : j.Bound) {r : Int}
    (hr : j.runId = some r) : j'.runId = some r := by
  rcases hb with ⟨hn, -⟩ | ⟨r', w, -, -, -, ha⟩
  · simp [hn] at hr
  · cases h with
    | reconciled hs => rcases hs with hs | hs <;> simp [hs] at ha
    | _ => exact hr

lemma runsBound_change (h : Change db db') (hi : RunsBound db) : RunsBound db' := by
  intro k j' hj'
  rcases h.dispatch k with he | ⟨-, hj, hs, -, hr⟩ | ⟨hj, hj'', hmove⟩
  · exact hi k j' (he ▸ hj')
  · obtain rfl := Option.some.inj (hj.symm.trans hj')
    exact Or.inl ⟨hr, by simp [hs]⟩
  · obtain rfl := Option.some.inj (hj''.symm.trans hj')
    exact hmove.bound (hi k _ hj)

lemma runsBound_changes (h : Changes db db') (hi : RunsBound db) : RunsBound db' := by
  induction h with
  | refl => exact hi
  | tail _ hstep ih => exact runsBound_change hstep ih

lemma runsBound_empty : RunsBound Db.empty := by
  rintro k j ⟨⟩

lemma runId_changes {k : StageKey} {j : DispatchJob} {r : Int} (h : Changes db db') (hi : RunsBound db)
    (hj : db.dispatches.find? k = some j) (hr : j.runId = some r) :
    ∃ j', db'.dispatches.find? k = some j' ∧ j'.runId = some r := by
  induction h with
  | refl => exact ⟨j, hj, hr⟩
  | tail hpre hstep ih =>
    obtain ⟨j₁, hj₁, hr₁⟩ := ih
    have hb := runsBound_changes hpre hi k j₁ hj₁
    rcases hstep.dispatch k with he | ⟨hn, -⟩ | ⟨hj₀, hj', hmove⟩
    · exact ⟨j₁, he.trans hj₁, hr₁⟩
    · rw [hn] at hj₁
      cases hj₁
    · obtain rfl := Option.some.inj (hj₀.symm.trans hj₁)
      exact ⟨_, hj', hmove.runId hb hr₁⟩

/-- No other dispatch of the repository has the run. -/
lemma runId_unique {k k' : StageKey} {j j' : DispatchJob} {r : Int} (hj : db.dispatches.find? k = some j)
    (hj' : db.dispatches.find? k' = some j') (hr : j.runId = some r) (hr' : j'.runId = some r)
    (hrepo : j'.repository = j.repository ∨ j'.repositoryId = j.repositoryId) : k' = k := by
  have he : j' = j := by
    rcases hrepo with h | h
    · have hrun : j'.dispatchRun = some (j.repository, r) := by simp [DispatchJob.dispatchRun, hr', h]
      exact db.dispatches.valid.1.eq (Table.find?_mem hj') (Table.find?_mem hj) hrun
        (by simp [DispatchJob.dispatchRun, hr])
    · have hrun : j'.dispatchRepositoryRun = some (j.repositoryId, r) := by
        simp [DispatchJob.dispatchRepositoryRun, hr', h]
      exact db.dispatches.valid.2.1.eq (Table.find?_mem hj') (Table.find?_mem hj) hrun
        (by simp [DispatchJob.dispatchRepositoryRun, hr])
  rw [← Table.find?_key hj', ← Table.find?_key hj, he]

end

end PlatformGitops.CrossAi.IntentStore
