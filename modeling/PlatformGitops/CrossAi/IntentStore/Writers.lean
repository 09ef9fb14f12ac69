import PlatformGitops.CrossAi.IntentStore.StageInvariants

/-! Which calls may start or resume the work of a stage, and what all the others leave alone. -/

namespace PlatformGitops.CrossAi.IntentStore

open Library

section

variable {X : Externals} {amb : Ambient} {db db' db'' : Db}

/-- A stage that has a run keeps it, and an intent keeps its repository. -/
structure Kept (db db' : Db) : Prop where
  rows : ∀ k row, db.stages.find? k = some row → row.state ≠ .available → ∃ row', db'.stages.find? k = some row' ∧
    row'.state ≠ .available ∧ row'.runId = row.runId ∧ row'.runAttempt = row.runAttempt
  intents : ∀ rid record, db.intents.find? rid = some record → ∃ record', db'.intents.find? rid = some record' ∧
    record'.repository = record.repository

lemma Change.kept (h : Change db db') : Kept db db' := by
  refine ⟨fun k row hrow hne => ?_, fun rid record hrecord => ?_⟩
  · rcases h.row k with ⟨hs, -⟩ | ⟨hn, -⟩ | ⟨hr, hav, -⟩ | ⟨hr, hmove, hr', -⟩ | ⟨hr, -, -, -, ht, -, hr', -, ho⟩
    · exact ⟨row, hs.trans hrow, hne, rfl, rfl⟩
    · rw [hn] at hrow
      cases hrow
    · obtain rfl := Option.some.inj (hr.symm.trans hrow)
      exact (hne hav).elim
    · obtain rfl := Option.some.inj (hr.symm.trans hrow)
      exact ⟨_, hr', hmove.ne_available.2, rfl, rfl⟩
    · obtain rfl := Option.some.inj (hr.symm.trans hrow)
      exact ⟨_, hr', (outcome_sealed ho).ne_available, rfl, rfl⟩
  · cases h with
    | @registered row _ _ _ _ hi _ _ =>
      have hk : rid ≠ row.requestId := by
        rintro rfl
        rw [Table.insert?_fresh hi] at hrecord
        cases hrecord
      exact ⟨record, ((Table.find?_insert? hi rid).trans (if_neg hk)).trans hrecord, rfl⟩
    | @finalized row _ _ _ _ hrow _ hm _ =>
      have hfind := Table.find?_modify? hm rid
      by_cases hk : rid = row.requestId
      · subst hk
        rw [if_pos rfl, hrecord] at hfind
        exact ⟨_, hfind, rfl⟩
      · exact ⟨record, (hfind.trans (if_neg hk)).trans hrecord, rfl⟩
    | _ => exact ⟨record, hrecord, rfl⟩

lemma Kept.refl (db : Db) : Kept db db :=
  ⟨fun _ row hrow hne => ⟨row, hrow, hne, rfl, rfl⟩, fun _ record hrecord => ⟨record, hrecord, rfl⟩⟩

lemma Kept.trans (h : Kept db db') (h' : Kept db' db'') : Kept db db'' := by
  refine ⟨fun k row hrow hne => ?_, fun rid record hrecord => ?_⟩
  · obtain ⟨row₁, hrow₁, hne₁, hrun₁, hattempt₁⟩ := h.rows k row hrow hne
    obtain ⟨row₂, hrow₂, hne₂, hrun₂, hattempt₂⟩ := h'.rows k row₁ hrow₁ hne₁
    exact ⟨row₂, hrow₂, hne₂, hrun₂.trans hrun₁, hattempt₂.trans hattempt₁⟩
  · obtain ⟨record₁, hrecord₁, hrepository₁⟩ := h.intents rid record hrecord
    obtain ⟨record₂, hrecord₂, hrepository₂⟩ := h'.intents rid record₁ hrecord₁
    exact ⟨record₂, hrecord₂, hrepository₂.trans hrepository₁⟩

lemma Changes.kept (h : Changes db db') : Kept db db' := by
  induction h with
  | refl => exact .refl _
  | tail _ hstep ih => exact ih.trans hstep.kept

/-- A failed stage stays failed. -/
lemma Change.failed {k : StageKey} (h : Change db db') (hf : InState db k .failed) : InState db' k .failed := by
  obtain ⟨row, hrow, hs⟩ := hf
  rcases h.row k with ⟨hsame, -⟩ | ⟨hn, -⟩ | ⟨hr, hav, -⟩ | ⟨hr, hmove, -⟩ | ⟨hr, happroved, -⟩
  · exact ⟨row, hsame.trans hrow, hs⟩
  · rw [hn] at hrow
    cases hrow
  all_goals obtain rfl := Option.some.inj (hr.symm.trans hrow)
  · exact absurd (hs.symm.trans hav) (by decide)
  · rw [hs] at hmove
    cases hmove
  · exact absurd (hs.symm.trans happroved) (by decide)

lemma Changes.failed {k : StageKey} (h : Changes db db') (hf : InState db k .failed) : InState db' k .failed := by
  induction h with
  | refl => exact hf
  | tail _ hstep ih => exact hstep.failed ih

/-- No stage is reserved, and apply does not resume once its rollback has a run. -/
structure Calm (db db' : Db) : Prop where
  changes : Changes db db'
  left : ∀ k, Left db' k → Left db k
  unknown : ∀ rid, InState db (rid, .apply) .callbackUnknown → Left db (rid, .compensatingRollback) →
    InState db' (rid, .apply) .callbackUnknown ∨ InState db' (rid, .apply) .failed

/-- Calm, and no stage becomes `CallbackUnknown`. -/
structure Tame (db db' : Db) : Prop extends Calm db db' where
  fresh : ∀ k, InState db' k .callbackUnknown → InState db k .callbackUnknown

lemma Tame.refl (db : Db) : Tame db db :=
  ⟨⟨.refl, fun _ h => h, fun _ h _ => .inl h⟩, fun _ h => h⟩

lemma Tame.trans (h : Tame db db') (h' : Tame db' db'') : Tame db db'' := by
  refine ⟨⟨h.changes.trans h'.changes, fun k hl => h.left k (h'.left k hl), fun rid hu hl => ?_⟩,
    fun k hu => h.fresh k (h'.fresh k hu)⟩
  rcases h.unknown rid hu hl with hu' | hf
  · exact h'.unknown rid hu' (hl.changes h.changes)
  · exact .inr (h'.changes.failed hf)

lemma Aside.tame (h : Aside db db') : Tame db db' := by
  have hrow : ∀ k r, r ∈ db'.stages.find? k → r.state = .available ∨ r ∈ db.stages.find? k := by
    intro k r hr
    rcases h.stages k with hs | ⟨-, r', hr', hu⟩
    · exact .inr (hs ▸ hr)
    · obtain rfl := Option.some.inj (hr'.symm.trans hr)
      exact .inl hu.state
  refine ⟨⟨h.changes, ?_, ?_⟩, ?_⟩
  · rintro k ⟨r, hr, hne⟩
    exact ⟨r, (hrow k r hr).resolve_left hne, hne⟩
  · rintro rid ⟨r, hr, hs⟩ _
    rcases h.stages (rid, .apply) with hsame | ⟨hn, -⟩
    · exact .inl ⟨r, hsame ▸ hr, hs⟩
    · rw [hn] at hr
      cases hr
  · rintro k ⟨r, hr, hs⟩
    exact ⟨r, (hrow k r hr).resolve_left (by simp [hs]), hs⟩

/-- One stage is moved, and no other. -/
def Moves (db db' : Db) (k : StageKey) (row : StageRow) (target : StageState) : Prop :=
  ∀ j, db'.stages.find? j = if j = k then some { row with state := target } else db.stages.find? j

section

variable {k : StageKey} {row : StageRow} {target : StageState}

lemma Moves.left (h : Moves db db' k row target) (hrow : db.stages.find? k = some row) (hne : row.state ≠ .available)
    {j : StageKey} (hl : Left db' j) : Left db j := by
  obtain ⟨r, hr, hr'⟩ := hl
  by_cases hj : j = k
  · subst hj
    exact ⟨row, hrow, hne⟩
  · exact ⟨r, ((h j).trans (if_neg hj)).symm.trans hr, hr'⟩

lemma Moves.inState (h : Moves db db' k row target) {j : StageKey} {s : StageState} (hs : InState db' j s) :
    (j = k ∧ s = target) ∨ InState db j s := by
  obtain ⟨r, hr, hrs⟩ := hs
  by_cases hj : j = k
  · rw [h j, if_pos hj] at hr
    obtain rfl := Option.some.inj hr
    exact .inl ⟨hj, hrs.symm⟩
  · exact .inr ⟨r, ((h j).trans (if_neg hj)).symm.trans hr, hrs⟩

lemma Moves.inState_of_ne (h : Moves db db' k row target) {j : StageKey} {s : StageState} (hj : j ≠ k)
    (hs : InState db j s) : InState db' j s := by
  obtain ⟨r, hr, hrs⟩ := hs
  exact ⟨r, ((h j).trans (if_neg hj)).trans hr, hrs⟩

lemma Moves.calm (h : Moves db db' k row target) (hc : Changes db db') (hrow : db.stages.find? k = some row)
    (hne : row.state ≠ .available)
    (happly : k.2 = .apply → row.state = .callbackUnknown → Left db (k.1, .compensatingRollback) →
      target = .failed) : Calm db db' := by
  refine ⟨hc, fun j hl => h.left hrow hne hl, fun rid hu hl => ?_⟩
  by_cases hj : (rid, Stage.apply) = k
  · subst hj
    obtain ⟨r, hr, hrs⟩ := hu
    obtain rfl := Option.some.inj (hrow.symm.trans hr)
    exact .inr ⟨_, (h _).trans (if_pos rfl), happly rfl hrs hl⟩
  · exact .inl (h.inState_of_ne hj hu)

lemma Moves.tame (h : Moves db db' k row target) (hc : Changes db db') (hrow : db.stages.find? k = some row)
    (hne : row.state ≠ .available) (htarget : target ≠ .callbackUnknown)
    (happly : k.2 = .apply → row.state = .callbackUnknown → Left db (k.1, .compensatingRollback) →
      target = .failed) : Tame db db' := by
  refine ⟨h.calm hc hrow hne happly, fun j hu => ?_⟩
  rcases h.inState hu with ⟨-, htarget'⟩ | hu
  · exact (htarget htarget'.symm).elim
  · exact hu

end

lemma Expires.tame (h : Expires db db') : Tame db db' := by
  have hc := h.change
  obtain ⟨row, stages, events, rfl, hrow, hmove, hm, -⟩ := h
  refine Moves.tame (find?_moved hrow hm) (.single hc) hrow hmove.ne_available.1 (by decide) fun _ hs => ?_
  rw [hs] at hmove
  cases hmove

lemma Seals.tame {c : OutcomeCall} {row : StageRow} {target : StageState} (h : Seals db db' c row target) :
    Tame db db' := by
  have hallowed : target = .succeeded ∨ target = .failed ∨ target = .rolledBack := by
    have hmem := h.allowed
    cases hstage : c.stage <;> simp only [hstage, allowedTargets, List.mem_cons, List.not_mem_nil, or_false] at hmem
    · exact hmem.imp_right .inl
    · exact hmem.imp_right .inl
    · exact hmem.elim (fun h => .inr (.inr h)) fun h => .inr (.inl h)
  refine Moves.tame h.stages h.changes h.found ?_ ?_ fun happly _ hl => ?_
  · rcases h.waiting with hs | hs | hs <;> simp [hs]
  · rcases hallowed with rfl | rfl | rfl <;> decide
  · have hmem := h.allowed
    rw [show c.stage = .apply from happly] at hmem
    simp only [allowedTargets, List.mem_cons, List.not_mem_nil, or_false] at hmem
    rcases hmem with hs | hf
    · exact (hl.not_available (h.guarded happly hs)).elim
    · exact hf

lemma ofText_eq_some {text : String} {s : StageState} (h : StageState.ofText? text = some s) : s.text = text := by
  simpa using List.find?_some h

/-- A transition that returned moved one stage, if it moved any. -/
lemma transitionStage_moves {requestId toState reason : String} {stage : Stage} {at_ : Option Datetime} {u : Unit}
    (h : transitionStage X amb requestId stage toState reason at_ db = .ok (db', u)) :
    db' = db ∨ ∃ row target, db.stages.find? (requestId, stage) = some row ∧ target.text = toState ∧
      StageMove row.state target ∧ Change db db' ∧ Moves db db' (requestId, stage) row target := by
  obtain ⟨row, target, hrow, htarget, ⟨-, rfl⟩ | ⟨hmove, hc, stages, events, rfl, hm⟩⟩ := transitionStage_eq_ok h
  · exact .inl rfl
  · refine .inr ⟨row, target, hrow, ofText_eq_some htarget, hmove, hc, fun j => ?_⟩
    rw [Table.find?_modify? hm j, hrow]
    rfl

/-- The calls that neither start nor resume the work of a stage, nor find its run ended. -/
def Call.Plain {α : Type} : Call α → Prop
  | .reserveStage .. => False
  | .transitionStage _ _ toState _ _ => toState ≠ "ApprovedPendingOutcome" ∧ toState ≠ "CallbackUnknown"
  | _ => True

lemma exec_tame {α : Type} {c : Call α} (hc : c.Plain) (reg : Registry) : Tame reg.db (c.exec X amb reg).1.db := by
  cases c with
  | reserveStage => exact hc.elim
  | transitionStage requestId stage toState reason at_ =>
    refine transact_db .refl reg fun db' _ h => ?_
    rcases transitionStage_moves h with rfl | ⟨row, target, hrow, htext, hmove, hchange, hmoves⟩
    · exact .refl _
    · have hne : target ≠ .callbackUnknown := by
        rintro rfl
        exact hc.2 htext.symm
      refine hmoves.tame (.single hchange) hrow hmove.ne_available.1 hne fun _ hs => ?_
      rw [hs] at hmove
      cases hmove
      exact (hc.1 htext.symm).elim
  | expirePendingStages now =>
    refine transact_db .refl reg fun db' _ h => ?_
    have hruns := expirePendingStages_expires h
    clear h
    induction hruns with
    | refl => exact .refl _
    | tail _ hstep ih => exact ih.trans hstep.tame
  | recordStageOutcome call at_ =>
    rcases recordStageOutcome_seals call at_ reg with h | h
    · exact h ▸ .refl _
    · obtain ⟨_, _, -, hseal⟩ := h
      exact hseal.tame
  | _ => exact (exec_aside id reg).tame

end

end PlatformGitops.CrossAi.IntentStore
