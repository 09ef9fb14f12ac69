import PlatformGitops.CrossAi.IntentStore.StageInvariants

/-! What the calls of the registry do to the recorded result of a dispatch. -/

namespace PlatformGitops.CrossAi.IntentStore

open Library

/-- The recorded HTTP status of a dispatch. -/
def status (db : Db) (k : StageKey) : Option Int := (db.dispatches.find? k).bind (·.httpStatus)

/-- A pending dispatch has no result. -/
def Unset (db : Db) : Prop := ∀ k, ∀ j ∈ db.dispatches.find? k, j.state = .pending → j.httpStatus = none

/-- A change of the dispatch rows that writes no result. -/
structure Unresolved (db db' : Db) : Prop where
  status : ∀ k, status db' k = status db k
  unset : Unset db → Unset db'

/-- A change of one row that is no longer pending, to a result. -/
structure Resolves (db db' : Db) (k : StageKey) (result : Option Int) : Prop where
  status : ∀ j, IntentStore.status db' j = if j = k then result else IntentStore.status db j
  unset : Unset db → Unset db'

section

variable {X : Externals} {amb : Ambient} {db db' : Db}

lemma Unresolved.refl (db : Db) : Unresolved db db := ⟨fun _ => rfl, id⟩

lemma unresolved_of_eq (h : db'.dispatches = db.dispatches) : Unresolved db db' :=
  ⟨fun k => by rw [status, status, h], fun hu k => by rw [h]; exact hu k⟩

lemma Resolves.of_rows {j j' : DispatchJob} (hrow : ∀ k, db'.dispatches.find? k = if k = j.key then some j' else
    db.dispatches.find? k) (hstate : j'.state ≠ .pending) : Resolves db db' j.key j'.httpStatus := by
  refine ⟨fun k => ?_, fun hu k r hr hs => ?_⟩
  · rw [IntentStore.status, hrow]
    split <;> rfl
  · rw [hrow] at hr
    split at hr
    · obtain rfl := Option.some.inj hr
      exact (hstate hs).elim
    · exact hu k r hr hs

/-- A row that keeps its result keeps every result. -/
lemma Unresolved.of_rows {j j' : DispatchJob} (hj : db.dispatches.find? j.key = some j)
    (hrow : ∀ k, db'.dispatches.find? k = if k = j.key then some j' else db.dispatches.find? k)
    (hstate : j'.state ≠ .pending) (hsame : j'.httpStatus = j.httpStatus) : Unresolved db db' := by
  have h := Resolves.of_rows hrow hstate
  refine ⟨fun k => ?_, h.unset⟩
  rw [h.status]
  split
  · next hk => rw [hk, IntentStore.status, hj, hsame, Option.bind_some]
  · rfl

lemma insertStages_dispatches {verified : VerifiedBundle} {stages : List WorkflowStage}
    (h : stages.foldlM (insertStage verified) db = .ok db') : db'.dispatches = db.dispatches := by
  obtain ⟨⟨_, rfl⟩, -⟩ := insertStages_find? h
  rfl

lemma registerRows_unresolved {verified : VerifiedBundle} {principal : String} {timestamp : Stamp} {b : Bool}
    (h : registerRows X amb verified principal timestamp db = .ok (db', b)) : Unresolved db db' := by
  simp only [registerRows, Fallible.bind_eq_ok] at h
  obtain ⟨_, -, h⟩ := h
  cases hf : db.intents.find? verified.requestId with
  | some existing =>
    simp only [hf, Fallible.bind_eq_ok, Fallible.pure_eq_ok, Prod.mk.injEq] at h
    obtain ⟨_, -, rfl, -⟩ := h
    exact .refl _
  | none =>
    simp only [hf, Fallible.bind_eq_ok, stored_eq_ok, Fallible.pure_eq_ok, Prod.mk.injEq] at h
    obtain ⟨intents, -, mid, hs, last, he, rfl, -⟩ := h
    obtain ⟨events, rfl, -⟩ := event_eq_ok he
    have hd := insertStages_dispatches hs
    exact unresolved_of_eq hd

lemma finalizeRef_unresolved {requestId refObjectId headSha : String} {at_ : Option Datetime} {b : Bool}
    (h : finalizeRef X amb requestId refObjectId headSha at_ db = .ok (db', b)) : Unresolved db db' := by
  simp only [finalizeRef, Fallible.bind_eq_ok, rejectIf_eq_ok, expect_eq_ok] at h
  obtain ⟨_, -, row, -, _, -, h⟩ := h
  split at h
  · simp only [Fallible.bind_eq_ok, Fallible.pure_eq_ok, Prod.mk.injEq] at h
    obtain ⟨_, -, rfl, -⟩ := h
    exact .refl _
  · simp only [Fallible.bind_eq_ok, rejectIf_eq_ok, stored_eq_ok, Fallible.pure_eq_ok, Prod.mk.injEq] at h
    obtain ⟨_, -, ⟨intents, n⟩, -, last, he, rfl, -⟩ := h
    obtain ⟨events, rfl, -⟩ := event_eq_ok he
    exact unresolved_of_eq rfl

lemma queueDispatch_unresolved {requestId : String} {stage : Stage} {installationId : Int}
    {repository : String} {at_ : Option Datetime} {job : DispatchJob}
    (h : queueDispatch X amb requestId stage installationId repository at_ db = .ok (db', job)) :
    Unresolved db db' := by
  simp only [queueDispatch, Fallible.bind_eq_ok, rejectIf_eq_ok, expect_eq_ok] at h
  obtain ⟨_, -, intent, hintent, _, -, _, -, _, -, _, -, row, -, _, -, key, -, h⟩ := h
  cases hd : db.dispatches.find? (requestId, stage) with
  | some existing =>
    simp only [hd, Fallible.bind_eq_ok, Fallible.pure_eq_ok, Prod.mk.injEq] at h
    obtain ⟨_, -, rfl, -⟩ := h
    exact .refl _
  | none =>
    simp only [hd, Fallible.bind_eq_ok, stored_eq_ok, Fallible.pure_eq_ok, Prod.mk.injEq] at h
    obtain ⟨_, -, _, -, dispatches, hi, last, he, rfl, -⟩ := h
    obtain ⟨events, rfl, -⟩ := event_eq_ok he
    have hrow := Table.find?_insert? hi
    have hfresh := Table.insert?_fresh hi
    refine ⟨fun k => ?_, fun hu k r hr hs => ?_⟩
    · rw [status, hrow]
      split
      · next hk => rw [hk, status, hfresh]; rfl
      · rfl
    · rw [hrow] at hr
      split at hr
      · obtain rfl := Option.some.inj hr
        rfl
      · exact hu k r hr hs

lemma claimDispatch_unresolved {requestId : String} {stage : Stage} {at_ : Option Datetime} {job : DispatchJob}
    (h : claimDispatch X amb requestId stage at_ db = .ok (db', job)) : Unresolved db db' := by
  simp only [claimDispatch, Fallible.bind_eq_ok, rejectIf_eq_ok, Fallible.pure_eq_ok, Prod.mk.injEq] at h
  obtain ⟨j, hj, _, hs, ⟨mid, updated⟩, hu, last, he, rfl, -⟩ := h
  obtain ⟨hfind, hkey⟩ := getDispatch_eq_ok hj
  rw [← hkey] at hu
  obtain ⟨dispatches, rfl, rfl, hrow⟩ := updateDispatch_eq_ok hfind (not_not.mp hs) hu
  obtain ⟨events, rfl, -⟩ := event_eq_ok he
  exact .of_rows hfind hrow (by simp) rfl

lemma recordDispatchWatermark_unresolved {requestId : String} {stage : Stage} {watermark : Int}
    {at_ : Option Datetime} {job : DispatchJob}
    (h : recordDispatchWatermark amb requestId stage watermark at_ db = .ok (db', job)) : Unresolved db db' := by
  simp only [recordDispatchWatermark, Fallible.bind_eq_ok, rejectIf_eq_ok] at h
  obtain ⟨_, -, j, hj, _, hs, h⟩ := h
  obtain ⟨hfind, hkey⟩ := getDispatch_eq_ok hj
  have hstate : j.state = .sending := not_not.mp hs
  cases hw : j.preDispatchRunIdWatermark with
  | some existing =>
    simp only [hw, Fallible.bind_eq_ok, rejectIf_eq_ok, Fallible.pure_eq_ok, Prod.mk.injEq] at h
    obtain ⟨_, -, rfl, -⟩ := h
    exact .refl _
  | none =>
    simp only [hw] at h
    rw [← hkey] at h
    obtain ⟨dispatches, rfl, rfl, hrow⟩ := updateDispatch_eq_ok hfind ⟨hstate, hw⟩ h
    exact .of_rows hfind hrow (by simp [hstate]) rfl

lemma reconcileDispatch_unresolved {requestId : String} {stage : Stage} {runId : Int}
    {at_ : Option Datetime} {job : DispatchJob}
    (h : reconcileDispatch X amb requestId stage runId at_ db = .ok (db', job)) : Unresolved db db' := by
  have h : reconcileDispatchRow X amb requestId stage runId at_ db = .ok (db', job) := by
    unfold reconcileDispatch at h
    split at h
    · simp at h
    · exact h
  simp only [reconcileDispatchRow, Fallible.bind_eq_ok, rejectIf_eq_ok] at h
  obtain ⟨_, -, j, hj, h⟩ := h
  obtain ⟨hfind, hkey⟩ := getDispatch_eq_ok hj
  split at h
  · simp only [Fallible.pure_eq_ok, Prod.mk.injEq] at h
    exact h.1 ▸ .refl _
  · simp only [Fallible.bind_eq_ok, rejectIf_eq_ok, Fallible.pure_eq_ok, Prod.mk.injEq] at h
    obtain ⟨_, hs, _, -, ⟨mid, updated⟩, hu, last, he, rfl, -⟩ := h
    have hstate : j.state = .sending ∨ j.state = .uncertain := by
      by_contra hne
      exact hs (not_or.mp hne)
    rw [← hkey] at hu
    obtain ⟨dispatches, rfl, rfl, hrow⟩ := updateDispatch_eq_ok hfind hstate hu
    obtain ⟨events, rfl, -⟩ := event_eq_ok he
    exact .of_rows hfind hrow (by simp) rfl

lemma resolveDispatch_resolves {requestId : String} {stage : Stage} {state reason : String} {result : Option Int}
    {at_ : Option Datetime} {job : DispatchJob}
    (h : resolveDispatch X amb requestId stage state reason result at_ db = .ok (db', job)) :
    db' = db ∨ ((∃ j ∈ db.dispatches.find? (requestId, stage), j.state = .sending) ∧
      Resolves db db' (requestId, stage) result) := by
  simp only [resolveDispatch, Fallible.bind_eq_ok, rejectIf_eq_ok, expect_eq_ok] at h
  obtain ⟨target, -, _, ht, _, -, _, -, j, hj, h⟩ := h
  obtain ⟨hfind, hkey⟩ := getDispatch_eq_ok hj
  split at h
  · simp only [Fallible.bind_eq_ok, Fallible.pure_eq_ok, Prod.mk.injEq] at h
    obtain ⟨_, -, rfl, -⟩ := h
    exact .inl rfl
  · next hs =>
    have hstate : j.state = .sending := not_not.mp hs
    simp only [Fallible.bind_eq_ok, Fallible.pure_eq_ok, Prod.mk.injEq] at h
    obtain ⟨⟨mid, updated⟩, hu, last, he, rfl, -⟩ := h
    rw [← hkey] at hu
    obtain ⟨dispatches, rfl, rfl, hrow⟩ := updateDispatch_eq_ok hfind hstate hu
    obtain ⟨events, rfl, -⟩ := event_eq_ok he
    have hne : target ≠ .pending := by
      rintro rfl
      exact ht ⟨by decide, by decide⟩
    rw [← hkey]
    exact .inr ⟨⟨j, hfind, hstate⟩, @Resolves.of_rows db { db with dispatches, events } j _ hrow hne⟩

lemma markDispatchPosted_resolves {requestId : String} {stage : Stage} {reason : String} {result : Int}
    {at_ : Option Datetime} {job : DispatchJob}
    (h : markDispatchPosted amb requestId stage reason result at_ db = .ok (db', job)) :
    db' = db ∨ (status db (requestId, stage) = none ∧ Resolves db db' (requestId, stage) (some result)) := by
  simp only [markDispatchPosted, Fallible.bind_eq_ok, rejectIf_eq_ok, expect_eq_ok] at h
  obtain ⟨_, -, j, hj, h⟩ := h
  have hkey : j.key = (requestId, stage) := Table.find?_key hj
  split at h
  · simp only [Fallible.pure_eq_ok, Prod.mk.injEq] at h
    exact .inl h.1.symm
  · simp only [Fallible.bind_eq_ok, rejectIf_eq_ok] at h
    obtain ⟨_, hs, _, -, h⟩ := h
    have hstate : j.state = .sending := not_not.mp hs
    split at h
    · simp only [Fallible.bind_eq_ok, Fallible.pure_eq_ok, Prod.mk.injEq] at h
      obtain ⟨_, -, rfl, -⟩ := h
      exact .inl rfl
    · next hn =>
      simp only [Fallible.bind_eq_ok, stored_eq_ok, Fallible.pure_eq_ok, Prod.mk.injEq] at h
      obtain ⟨⟨dispatches, n⟩, hm, _, -, rfl, -⟩ := h
      rw [← hkey] at hj hm ⊢
      have hrow := Table.find?_modifyWhere? hj hstate hm
      have hnone : j.httpStatus = none := not_not.mp (not_or.mp hn).1
      refine .inr ⟨by rw [status, hj, Option.bind_some, hnone], ?_⟩
      have hne : j.state ≠ .pending := by simp [hstate]
      exact @Resolves.of_rows db { db with dispatches } j _ hrow hne

lemma expires_dispatches (h : Relation.ReflTransGen Expires db db') : db'.dispatches = db.dispatches := by
  induction h with
  | refl => rfl
  | tail _ hstep ih =>
    obtain ⟨row, stages, events, rfl, -⟩ := hstep
    exact ih

/-- The calls that write the result of a dispatch. -/
def Call.WritesResult {α : Type} : Call α → Prop
  | .resolveDispatch .. => True
  | .markDispatchPosted .. => True
  | _ => False

lemma exec_unresolved {α : Type} {c : Call α} (hc : ¬ c.WritesResult) (reg : Registry) :
    Unresolved reg.db (c.exec X amb reg).1.db := by
  cases c with
  | register =>
    rw [Call.exec, register]
    split
    · exact .refl _
    · split
      · exact .refl _
      · next cas _ => exact transact_db .refl ⟨reg.db, cas⟩ fun _ _ h => registerRows_unresolved h
  | finalizeRef => exact transact_db .refl reg fun _ _ h => finalizeRef_unresolved h
  | queueDispatch => exact transact_db .refl reg fun _ _ h => queueDispatch_unresolved h
  | claimDispatch => exact transact_db .refl reg fun _ _ h => claimDispatch_unresolved h
  | resolveDispatch => exact (hc trivial).elim
  | recordDispatchWatermark => exact transact_db .refl reg fun _ _ h => recordDispatchWatermark_unresolved h
  | markDispatchPosted => exact (hc trivial).elim
  | reconcileDispatch => exact transact_db .refl reg fun _ _ h => reconcileDispatch_unresolved h
  | consumeBootstrap =>
    refine transact_db .refl reg fun db' _ h => ?_
    simp only [consumeBootstrap, Fallible.bind_eq_ok, rejectIf_eq_ok, expect_eq_ok, stored_eq_ok,
      Fallible.pure_eq_ok, Prod.mk.injEq] at h
    obtain ⟨_, -, _, -, _, -, _, -, _, -, _, -, last, he, rfl, -⟩ := h
    obtain ⟨events, rfl, -⟩ := event_eq_ok he
    exact unresolved_of_eq rfl
  | expirePendingStages =>
    refine transact_db .refl reg fun db' _ h => ?_
    exact unresolved_of_eq (expires_dispatches (expirePendingStages_expires h))
  | reserveStage =>
    refine transact_db .refl reg fun db' _ h => ?_
    obtain ⟨-, -, -, -, -, row, hres⟩ := reserveStage_eq_ok h
    rcases hres.outcome with ⟨-, -, -, -, rfl, -⟩ | ⟨-, -, -, -, -, -, hd, -⟩
    · exact .refl _
    · exact unresolved_of_eq hd
  | transitionStage =>
    refine transact_db .refl reg fun db' _ h => ?_
    obtain ⟨_, _, -, -, ⟨-, rfl⟩ | ⟨-, -, _, _, rfl, -⟩⟩ := transitionStage_eq_ok h
    · exact .refl _
    · exact unresolved_of_eq rfl
  | recordStageOutcome call at_ =>
    rcases recordStageOutcome_seals call at_ reg with h | ⟨_, _, -, hseal⟩
    · exact unresolved_of_eq (congrArg Db.dispatches h)
    · exact unresolved_of_eq hseal.dispatches
  | _ => exact .refl _

end

end PlatformGitops.CrossAi.IntentStore
