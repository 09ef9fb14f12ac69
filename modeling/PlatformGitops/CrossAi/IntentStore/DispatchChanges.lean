import PlatformGitops.CrossAi.IntentStore.Calls

/-! What registration, finalization and the dispatch calls do when they return. -/

namespace PlatformGitops.CrossAi.IntentStore

open Library

section

variable {X : Externals} {amb : Ambient} {db db' : Db}

lemma insertStage_find? {verified : VerifiedBundle} {stage : WorkflowStage}
    (h : insertStage verified db stage = .ok db') :
    (∃ stages, db' = { db with stages }) ∧ ∀ k, db'.stages.find? k = db.stages.find? k ∨
      (k.1 = verified.requestId ∧ db.stages.find? k = none ∧ ∃ r ∈ db'.stages.find? k, r.Unbound) := by
  simp only [insertStage, Fallible.bind_eq_ok, Fallible.expect_eq_ok, stored_eq_ok,
    Fallible.pure_eq_ok] at h
  obtain ⟨nonce, -, stages, hi, rfl⟩ := h
  refine ⟨⟨stages, rfl⟩, fun k => ?_⟩
  have hk := Table.find?_insert? hi k
  by_cases he : k = (stageRow verified stage nonce).key
  · refine Or.inr ⟨by rw [he]; rfl, he ▸ Table.insert?_fresh hi, stageRow verified stage nonce, ?_, rfl, rfl⟩
    exact hk.trans (if_pos he)
  · exact Or.inl (by simpa [he] using hk)

lemma insertStages_find? {verified : VerifiedBundle} {stages : List WorkflowStage}
    (h : stages.foldlM (insertStage verified) db = .ok db') :
    (∃ stages, db' = { db with stages }) ∧ ∀ k, db'.stages.find? k = db.stages.find? k ∨
      (k.1 = verified.requestId ∧ db.stages.find? k = none ∧ ∃ r ∈ db'.stages.find? k, r.Unbound) := by
  induction stages generalizing db with
  | nil =>
    obtain rfl : db = db' := by simpa [pure, Except.pure] using h
    exact ⟨⟨_, rfl⟩, fun k => Or.inl rfl⟩
  | cons stage stages ih =>
    rw [List.foldlM_cons, Fallible.bind_eq_ok] at h
    obtain ⟨mid, hm, h⟩ := h
    obtain ⟨⟨_, rfl⟩, hmid⟩ := insertStage_find? hm
    obtain ⟨⟨_, rfl⟩, hend⟩ := ih h
    refine ⟨⟨_, rfl⟩, fun k => ?_⟩
    rcases hmid k with h₁ | ⟨hk, hnone, r, hr, hu⟩
    · rcases hend k with h₂ | ⟨hk, hnone, h₂⟩
      · exact Or.inl (h₂.trans h₁)
      · exact Or.inr ⟨hk, h₁ ▸ hnone, h₂⟩
    · rcases hend k with h₂ | ⟨_, hnone', _⟩
      · exact Or.inr ⟨hk, hnone, r, by rw [h₂]; exact hr, hu⟩
      · rw [hnone'] at hr
        exact (Option.not_mem_none _ hr).elim

lemma registerRows_aside {verified : VerifiedBundle} {principal : String} {timestamp : Stamp} {b : Bool}
    (h : registerRows X amb verified principal timestamp db = .ok (db', b)) : Aside db db' := by
  simp only [registerRows, Fallible.bind_eq_ok] at h
  obtain ⟨grantDigest, -, h⟩ := h
  cases hf : db.intents.find? verified.requestId with
  | some existing =>
    simp only [hf, Fallible.bind_eq_ok, Fallible.pure_eq_ok, Prod.mk.injEq] at h
    obtain ⟨_, -, rfl, -⟩ := h
    exact .refl _
  | none =>
    simp only [hf, Fallible.bind_eq_ok, stored_eq_ok, Fallible.pure_eq_ok, Prod.mk.injEq] at h
    obtain ⟨intents, hi, mid, hs, last, he, rfl, -⟩ := h
    obtain ⟨⟨stages, rfl⟩, hk⟩ := insertStages_find? hs
    obtain ⟨events, rfl, hr⟩ := event_eq_ok he
    refine ⟨.single (.registered rfl hi hk hr), fun k => ?_⟩
    rcases hk k with hsame | ⟨-, hnone, hadded⟩
    · exact .inl hsame
    · exact .inr ⟨hnone, hadded⟩

lemma finalizeRef_aside {requestId refObjectId headSha : String} {at_ : Option Datetime} {b : Bool}
    (h : finalizeRef X amb requestId refObjectId headSha at_ db = .ok (db', b)) : Aside db db' := by
  simp only [finalizeRef, Fallible.bind_eq_ok, rejectIf_eq_ok, expect_eq_ok] at h
  obtain ⟨_, -, row, hrow, _, -, h⟩ := h
  split at h
  · simp only [Fallible.bind_eq_ok, Fallible.pure_eq_ok, Prod.mk.injEq] at h
    obtain ⟨_, -, rfl, -⟩ := h
    exact .refl _
  · simp only [Fallible.bind_eq_ok, rejectIf_eq_ok, stored_eq_ok, Fallible.pure_eq_ok, Prod.mk.injEq] at h
    obtain ⟨_, hs, ⟨intents, n⟩, hm, last, he, rfl, -⟩ := h
    obtain ⟨events, rfl, hr⟩ := event_eq_ok he
    have hkey : row.requestId = requestId := Table.find?_key hrow
    have hstate : row.state = .registered := not_not.mp hs
    subst hkey
    exact .single (.finalized hrow hstate ((Table.modifyWhere?_eq_some hrow hstate).mp hm).1 hr) rfl

lemma queueDispatch_aside {requestId : String} {stage : Stage} {installationId : Int}
    {repository : String} {at_ : Option Datetime} {job : DispatchJob}
    (h : queueDispatch X amb requestId stage installationId repository at_ db = .ok (db', job)) :
    Aside db db' := by
  simp only [queueDispatch, Fallible.bind_eq_ok, rejectIf_eq_ok, expect_eq_ok] at h
  obtain ⟨_, -, intent, hintent, _, -, _, -, _, -, _, -, row, hrow, _, -, key, -, h⟩ := h
  cases hd : db.dispatches.find? (requestId, stage) with
  | some existing =>
    simp only [hd, Fallible.bind_eq_ok, Fallible.pure_eq_ok, Prod.mk.injEq] at h
    obtain ⟨_, -, rfl, -⟩ := h
    exact .refl _
  | none =>
    simp only [hd, Fallible.bind_eq_ok, stored_eq_ok, Fallible.pure_eq_ok, Prod.mk.injEq] at h
    obtain ⟨_, -, _, -, dispatches, hi, last, he, rfl, -⟩ := h
    obtain ⟨events, rfl, hr⟩ := event_eq_ok he
    have hkey : intent.requestId = requestId := Table.find?_key hintent
    subst hkey
    exact .single (.dispatchQueued hi hrow rfl rfl rfl hr) rfl

lemma updateDispatch_eq_ok {j updated : DispatchJob} {p : DispatchJob → Prop} [DecidablePred p]
    {f : DispatchJob → DispatchJob} {hf : ∀ r, (f r).key = r.key} {code message : String}
    (hj : db.dispatches.find? j.key = some j) (hp : p j)
    (h : updateDispatch db j.key p f hf code message = .ok (db', updated)) :
    ∃ dispatches, db' = { db with dispatches } ∧ updated = f j ∧
      ∀ k, dispatches.find? k = if k = j.key then some (f j) else db.dispatches.find? k := by
  simp only [updateDispatch, Fallible.bind_eq_ok, stored_eq_ok, Fallible.expect_eq_ok,
    Fallible.pure_eq_ok, Prod.mk.injEq] at h
  obtain ⟨⟨dispatches, n⟩, hm, _, -, u, hu, rfl, rfl⟩ := h
  have hrow := Table.find?_modifyWhere? hj hp hm
  refine ⟨dispatches, rfl, ?_, hrow⟩
  rw [hrow, if_pos rfl] at hu
  exact (Option.some.inj hu).symm

lemma getDispatch_eq_ok {requestId : String} {stage : Stage} {j : DispatchJob}
    (h : getDispatch requestId stage db = .ok j) :
    db.dispatches.find? j.key = some j ∧ j.key = (requestId, stage) := by
  have hf : db.dispatches.find? (requestId, stage) = some j := expect_eq_ok.mp h
  have hk : j.key = (requestId, stage) := Table.find?_key hf
  exact ⟨hk ▸ hf, hk⟩

lemma claimDispatch_eq_ok {requestId : String} {stage : Stage} {at_ : Option Datetime} {job : DispatchJob}
    (h : claimDispatch X amb requestId stage at_ db = .ok (db', job)) :
    ∃ j, db.dispatches.find? (requestId, stage) = some j ∧ j.state = .pending ∧
      job = { j with state := .sending, claimedAt := some (utcSeconds (at_.getD amb.now)) } ∧
      db'.dispatches.find? (requestId, stage) = some job ∧ Aside db db' := by
  simp only [claimDispatch, Fallible.bind_eq_ok, rejectIf_eq_ok, Fallible.pure_eq_ok, Prod.mk.injEq] at h
  obtain ⟨j, hj, _, hs, ⟨mid, updated⟩, hu, last, he, rfl, rfl⟩ := h
  obtain ⟨hfind, hkey⟩ := getDispatch_eq_ok hj
  have hstate : j.state = .pending := not_not.mp hs
  rw [← hkey] at hu
  obtain ⟨dispatches, rfl, rfl, hrow⟩ := updateDispatch_eq_ok hfind hstate hu
  obtain ⟨events, rfl, hr⟩ := event_eq_ok he
  obtain ⟨rfl, rfl⟩ := Prod.mk.inj hkey
  refine ⟨j, hfind, hstate, rfl, (hrow _).trans (if_pos rfl),
    .single (.dispatchMoved hfind (.claimed hstate) hrow ?_) rfl⟩
  exact Or.inr ⟨by simp [hstate], by rw [hstate]; exact hr⟩

lemma resolveDispatch_aside {requestId : String} {stage : Stage} {state reason : String}
    {status : Option Int} {at_ : Option Datetime} {job : DispatchJob}
    (h : resolveDispatch X amb requestId stage state reason status at_ db = .ok (db', job)) :
    Aside db db' := by
  simp only [resolveDispatch, Fallible.bind_eq_ok, rejectIf_eq_ok, expect_eq_ok] at h
  obtain ⟨target, -, _, ht, _, -, _, -, j, hj, h⟩ := h
  obtain ⟨hfind, hkey⟩ := getDispatch_eq_ok hj
  split at h
  · simp only [Fallible.bind_eq_ok, Fallible.pure_eq_ok, Prod.mk.injEq] at h
    obtain ⟨_, -, rfl, -⟩ := h
    exact .refl _
  · next hs =>
    have hstate : j.state = .sending := not_not.mp hs
    simp only [Fallible.bind_eq_ok, Fallible.pure_eq_ok, Prod.mk.injEq] at h
    obtain ⟨⟨mid, updated⟩, hu, last, he, rfl, -⟩ := h
    rw [← hkey] at hu
    obtain ⟨dispatches, rfl, rfl, hrow⟩ := updateDispatch_eq_ok hfind hstate hu
    obtain ⟨events, rfl, hr⟩ := event_eq_ok he
    obtain ⟨rfl, rfl⟩ := Prod.mk.inj hkey
    have ht' : target = .uncertain ∨ target = .rejected := by
      by_contra hne
      exact ht (not_or.mp hne)
    refine .single (.dispatchMoved hfind (.resolved hstate ht') hrow (Or.inr ⟨?_, ?_⟩)) rfl
    · rcases ht' with rfl | rfl <;> simp [hstate]
    · rw [hstate]; exact hr

lemma recordDispatchWatermark_eq_ok {requestId : String} {stage : Stage} {watermark : Int}
    {at_ : Option Datetime} {job : DispatchJob}
    (h : recordDispatchWatermark amb requestId stage watermark at_ db = .ok (db', job)) :
    db'.dispatches.find? (requestId, stage) = some job ∧ job.state = .sending ∧
      job.preDispatchRunIdWatermark = some watermark ∧ Aside db db' := by
  simp only [recordDispatchWatermark, Fallible.bind_eq_ok, rejectIf_eq_ok] at h
  obtain ⟨_, -, j, hj, _, hs, h⟩ := h
  obtain ⟨hfind, hkey⟩ := getDispatch_eq_ok hj
  have hstate : j.state = .sending := not_not.mp hs
  cases hw : j.preDispatchRunIdWatermark with
  | some existing =>
    simp only [hw, Fallible.bind_eq_ok, rejectIf_eq_ok, Fallible.pure_eq_ok, Prod.mk.injEq] at h
    obtain ⟨_, he, rfl, rfl⟩ := h
    exact ⟨hkey ▸ hfind, hstate, by rw [hw, not_not.mp (not_or.mp he).1], .refl _⟩
  | none =>
    simp only [hw] at h
    rw [← hkey] at h
    obtain ⟨dispatches, rfl, rfl, hrow⟩ := updateDispatch_eq_ok hfind ⟨hstate, hw⟩ h
    obtain ⟨rfl, rfl⟩ := Prod.mk.inj hkey
    refine ⟨(hrow _).trans (if_pos rfl), hstate, rfl, .single ?_ rfl⟩
    exact .dispatchMoved hfind (.watermarked hstate hw) hrow (Or.inl ⟨rfl, rfl⟩)

lemma markDispatchPosted_aside {requestId : String} {stage : Stage} {reason : String} {status : Int}
    {at_ : Option Datetime} {job : DispatchJob}
    (h : markDispatchPosted amb requestId stage reason status at_ db = .ok (db', job)) :
    Aside db db' := by
  simp only [markDispatchPosted, Fallible.bind_eq_ok, rejectIf_eq_ok, expect_eq_ok] at h
  obtain ⟨_, -, j, hj, h⟩ := h
  have hkey : j.key = (requestId, stage) := Table.find?_key hj
  split at h
  · simp only [Fallible.pure_eq_ok, Prod.mk.injEq] at h
    exact h.1 ▸ .refl _
  · simp only [Fallible.bind_eq_ok, rejectIf_eq_ok] at h
    obtain ⟨_, hs, _, -, h⟩ := h
    have hstate : j.state = .sending := not_not.mp hs
    split at h
    · simp only [Fallible.bind_eq_ok, Fallible.pure_eq_ok, Prod.mk.injEq] at h
      obtain ⟨_, -, rfl, -⟩ := h
      exact .refl _
    · next hn =>
      simp only [Fallible.bind_eq_ok, stored_eq_ok, Fallible.pure_eq_ok, Prod.mk.injEq] at h
      obtain ⟨⟨dispatches, n⟩, hm, _, -, rfl, -⟩ := h
      rw [← hkey] at hj hm
      have hrow := Table.find?_modifyWhere? hj hstate hm
      have hnone : j.httpStatus = none := not_not.mp (not_or.mp hn).1
      exact .single (.dispatchMoved hj (.posted hstate hnone) hrow (Or.inl ⟨rfl, rfl⟩)) rfl

lemma reconcileDispatch_aside {requestId : String} {stage : Stage} {runId : Int}
    {at_ : Option Datetime} {job : DispatchJob}
    (h : reconcileDispatch X amb requestId stage runId at_ db = .ok (db', job)) : Aside db db' := by
  have h : reconcileDispatchRow X amb requestId stage runId at_ db = .ok (db', job) := by
    unfold reconcileDispatch at h
    split at h
    · simp at h
    · exact h
  simp only [reconcileDispatchRow, Fallible.bind_eq_ok, rejectIf_eq_ok] at h
  obtain ⟨_, -, j, hj, h⟩ := h
  obtain ⟨hfind, hkey⟩ := getDispatch_eq_ok hj
  split at h
  · simp only [Fallible.pure_eq_ok, Prod.mk.injEq] at h
    exact h.1 ▸ .refl _
  · simp only [Fallible.bind_eq_ok, rejectIf_eq_ok, Fallible.pure_eq_ok, Prod.mk.injEq] at h
    obtain ⟨_, hs, _, hw, ⟨mid, updated⟩, hu, last, he, rfl, -⟩ := h
    have hstate : j.state = .sending ∨ j.state = .uncertain := by
      by_contra hne
      exact hs (not_or.mp hne)
    rw [← hkey] at hu
    obtain ⟨dispatches, rfl, rfl, hrow⟩ := updateDispatch_eq_ok hfind hstate hu
    obtain ⟨events, rfl, hr⟩ := event_eq_ok he
    obtain ⟨rfl, rfl⟩ := Prod.mk.inj hkey
    simp only [not_or, not_forall] at hw
    obtain ⟨-, watermark, hwm, hlt⟩ := hw
    refine .single (.dispatchMoved hfind (.reconciled hstate hwm (not_le.mp hlt)) hrow (Or.inr ⟨?_, hr⟩)) rfl
    rcases hstate with h | h <;> simp [h]

end

end PlatformGitops.CrossAi.IntentStore
