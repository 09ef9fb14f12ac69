import PlatformGitops.EtlWorker.Runs

/-! What is known after a batch of the extractor has been worked on. -/

namespace PlatformGitops.EtlWorker

open Library

variable {C : {γ : Type} → Effect γ → World → Except PyError γ → Prop} {X : Externals} {cfg : RunnerConfig}
  {mode : String} {tableMeta : TableMeta} {w w' : World}

/-- The run is only looked at at its ends. -/
abbrev Ends {α : Type} (C : {γ : Type} → Effect γ → World → Except PyError γ → Prop) (p : Action α)
    (Q : Except PyError α → World → Prop) (w : World) : Prop :=
  Guarded (outside.restrict C) () (fun _ => True) p Q w

section Audits

variable (hC : ∀ {γ : Type} (e : Effect γ) (w : World) (r : Except PyError γ), C e w r → AuditsSucceed e w r)

include hC

lemma upsertTableState_ends {key : TableKey} {u : TableState} :
    Ends C (Action.upsertTableState key u) (fun r w' => r = .ok () ∧
      w' = { w with tables := upsertTableState w.tables key u }) w := by
  refine guarded_perform fun w' r hans => ⟨trivial, ?_⟩
  obtain ⟨⟨⟩, rfl⟩ := hC _ _ _ hans.2 trivial
  exact ⟨rfl, hans.1⟩

lemma insertReject_ends {record : RejectRecord} :
    Ends C (.perform (.insertReject record)) (fun r w' => r = .ok () ∧
      w' = { w with rejects := w.rejects ++ [record] }) w := by
  refine guarded_perform fun w' r hans => ⟨trivial, ?_⟩
  obtain ⟨⟨⟩, rfl⟩ := hC _ _ _ hans.2 trivial
  exact ⟨rfl, hans.1⟩

lemma insertRejects_ends {records : List RejectRecord} :
    Ends C (Action.insertRejects records) (fun r w' => r = .ok () ∧
      w' = { w with rejects := w.rejects ++ records.map RejectRecord.stored }) w := by
  have hloop := @guarded_foldlM _ _ _ _ _ _ (outside.restrict C) () (fun _ => True)
    (fun _ record => .perform (.insertReject record.stored))
    (fun done _ w' => w' = { w with rejects := w.rejects ++ done.map RejectRecord.stored })
    (fun _ _ => False) records (fun done record rest _ w' _ hdone => by
      refine guarded_mono (insertReject_ends hC) ?_
      rintro r w'' ⟨rfl, rfl⟩
      simp [hdone]) () (s := w) (by simp)
  refine guarded_mono hloop ?_
  rintro (e | u) w' h
  · exact h.elim
  · exact ⟨rfl, h⟩

end Audits

lemma safeAuditStatus_fails {status : RunStatus} {summary : String} {e : PyError} {α : Type}
    {Q : Except PyError α → World → Prop} (h : ∀ w', Q (.error e) w') :
    Ends C (do Action.safeAuditStatus status summary; .fail e : Action α) Q w := by
  refine guarded_bind (Q := fun r _ => r = .ok ()) ?_ (fun _ _ _ => guarded_fail (h _)) (by simp)
  refine guarded_attempt (Q := fun _ _ => True) (guarded_perform fun _ _ _ => ⟨trivial, trivial⟩) ?_
  exact fun _ _ _ => guarded_pure rfl

lemma checkThreshold_ends {counters : Counters} :
    Ends C (checkThreshold cfg mode counters) (fun r w' => r = .ok () →
      w' = w ∧ ThresholdPolicy.shouldAbort ⟨mode, cfg.maxRejectRatio⟩ counters.rejected counters.processed = .ok false)
      w := by
  refine guarded_bind (guarded_ofExcept (Q := fun r w' => w' = w ∧
    r = ThresholdPolicy.shouldAbort ⟨mode, cfg.maxRejectRatio⟩ counters.rejected counters.processed) ⟨rfl, rfl⟩) ?_ ?_
  · rintro abort w' ⟨rfl, habort⟩
    cases abort with
    | true => exact safeAuditStatus_fails fun _ => by simp
    | false => exact guarded_pure fun _ => ⟨rfl, habort.symm⟩
  · intro e w' _ h
    cases h

section Load

variable {includeRawPayload : Bool}

/-- The rows of a batch are in the target or among the rejects of the batch. -/
def BatchSettled (tableMeta : TableMeta) (includeRawPayload : Bool) (rows : List Row) (stats : LoadStats)
    (w : World) : Prop :=
  stats.rejects.length = stats.rejected ∧
    ∀ row ∈ rows, Holds tableMeta w.target row ∨ ∃ e, loadReject tableMeta includeRawPayload row e ∈ stats.rejects

/-- An error that leaves a batch is none that rejects rows. -/
def Escapes (err : PyError) : Prop := ∀ e, err = .pg e → classifyError e ≠ .noRetry

lemma loadRow_ends {stats : LoadStats} {row : Row} {done : List Row}
    (hnew : ∀ other ∈ done, targetKey tableMeta other ≠ targetKey tableMeta row)
    (h : BatchSettled tableMeta includeRawPayload done stats w) :
    Ends C (loadRow tableMeta includeRawPayload stats row) (Post (BatchSettled tableMeta includeRawPayload (done ++ [row]))
      fun err _ => Escapes err) w := by
  refine guarded_attempt (Q := Post (fun n w' => Succeeds (.load tableMeta [row]) w w' n) fun _ w' => w' = w)
    (guarded_perform fun w' r hans => ⟨trivial, ?_⟩) ?_
  · cases r with
    | ok n => exact hans.1
    | error e => exact hans.1.2
  · rintro (err | n) w' hans
    · obtain rfl := hans
      cases err with
      | pg e =>
        change Guarded _ _ _ (if classifyError e = .noRetry then _ else _) _ _
        split
        · refine guarded_pure ⟨by simp [h.1], fun other hother => ?_⟩
          rcases List.mem_append.mp hother with hmem | hmem
          · rcases h.2 other hmem with hholds | ⟨e', he'⟩
            · exact Or.inl hholds
            · exact Or.inr ⟨e', List.mem_append_left _ he'⟩
          · obtain rfl := List.mem_singleton.mp hmem
            exact Or.inr ⟨e, by simp⟩
        · rename_i hclass
          refine guarded_fail fun e' he' => ?_
          cases he'
          exact hclass
      | _ =>
        refine guarded_fail fun e' he' => ?_
        cases he'
    · obtain ⟨haccepted, -, rfl⟩ := hans
      refine guarded_pure ⟨h.1, fun other hother => ?_⟩
      rcases List.mem_append.mp hother with hmem | hmem
      · rcases h.2 other hmem with hholds | hrejected
        · refine Or.inl (hholds.of_eq (executeMany_other fun row' hrow' => ?_))
          obtain rfl := List.mem_singleton.mp hrow'
          exact (hnew other hmem).symm
        · exact Or.inr hrejected
      · obtain rfl := List.mem_singleton.mp hmem
        exact Or.inl (executeMany_holds haccepted (by simp) other (by simp))

lemma loadBatch_ends {rows : List Row} (hkeys : (rows.map (targetKey tableMeta)).Nodup) :
    Ends C (loadBatch tableMeta includeRawPayload rows) (Post (BatchSettled tableMeta includeRawPayload rows) fun err _ => Escapes err)
      w := by
  unfold loadBatch
  split
  · rename_i hnil
    exact guarded_pure ⟨rfl, by simp [hnil]⟩
  · refine guarded_attempt (Q := Post (fun n w' => Succeeds (.load tableMeta rows) w w' n) fun _ _ => True)
      (guarded_perform fun w' r hans => ⟨trivial, ?_⟩) ?_
    · cases r with
      | ok n => exact hans.1
      | error e => trivial
    · rintro (err | n) w' hans
      · cases err with
        | pg e =>
          change Guarded _ _ _ (if classifyError e = .critical then _ else _) _ _
          split
          · rename_i hclass
            refine guarded_fail fun e' he' => ?_
            cases he'
            simp [hclass]
          · have hstart : BatchSettled tableMeta includeRawPayload [] { bulkFallback := true } w' := ⟨rfl, by simp⟩
            refine guarded_foldlM (fun done row rest stats w hsplit hdone => ?_) hstart
            refine loadRow_ends (fun other hmem hsame => ?_) hdone
            rw [hsplit, List.map_append, List.map_cons] at hkeys
            have hdisjoint := List.disjoint_of_nodup_append hkeys
            exact hdisjoint (List.mem_map_of_mem hmem) (hsame ▸ List.mem_cons_self)
        | _ =>
          refine guarded_fail fun e' he' => ?_
          cases he'
      · obtain ⟨haccepted, -, rfl⟩ := hans
        exact guarded_pure ⟨rfl, fun row hrow => Or.inl (executeMany_holds haccepted hkeys row hrow)⟩

end Load

/-- The rows of the batch are in the target or were written to the rejects; all are in the target if none was rejected. -/
def Accounts (tableMeta : TableMeta) (cfg : RunnerConfig) (rows : List Row) (rejected : Nat) (w : World) : Prop :=
  (∀ row ∈ rows, Holds tableMeta w.target row ∨
      ∃ e, (enrichReject (loadReject tableMeta cfg.includeRawPayload row e)).stored ∈ w.rejects) ∧
    (rejected = 0 → ∀ row ∈ rows, Holds tableMeta w.target row)

lemma BatchSettled.accounts {rows : List Row} {stats : LoadStats}
    (h : BatchSettled tableMeta cfg.includeRawPayload rows stats w) (htarget : w'.target = w.target)
    (hrejects : ∀ reject ∈ stats.rejects, (enrichReject reject).stored ∈ w'.rejects) :
    Accounts tableMeta cfg rows stats.rejected w' := by
  unfold Accounts
  rw [htarget]
  refine ⟨fun row hrow => ?_, fun hzero row hrow => ?_⟩
  · rcases h.2 row hrow with hholds | ⟨e, he⟩
    · exact Or.inl hholds
    · exact Or.inr ⟨e, hrejects _ he⟩
  · rcases h.2 row hrow with hholds | ⟨e, he⟩
    · exact hholds
    · rw [List.length_eq_zero_iff.mp (h.1.trans hzero)] at he
      cases he

section Batch

variable (hC : ∀ {γ : Type} (e : Effect γ) (w : World) (r : Except PyError γ), C e w r → AuditsSucceed e w r)

include hC

lemma recordRejected_ends {batchNo rejected : Nat} :
    Ends C (recordRejected tableMeta batchNo rejected) (fun r w' => r = .ok () ∧
      ∃ tables, w' = { w with tables := tables }) w := by
  unfold recordRejected
  split
  · exact guarded_pure ⟨rfl, w.tables, rfl⟩
  · refine guarded_mono (upsertTableState_ends hC) ?_
    rintro r w' ⟨rfl, rfl⟩
    exact ⟨rfl, _, rfl⟩

lemma tryBatch_ends {batchNo : Nat} {typedBatch : List Row} (hkeys : (typedBatch.map (targetKey tableMeta)).Nodup) :
    Ends C (tryBatch cfg tableMeta batchNo typedBatch) (Post
      (fun stats w' => Accounts tableMeta cfg typedBatch stats.rejected w') fun err _ => Escapes err) w := by
  refine guarded_then (loadBatch_ends hkeys) fun stats w₁ hstats => ?_
  refine guarded_bind (insertRejects_ends hC) ?_ (by simp)
  rintro ⟨⟩ w₂ ⟨-, rfl⟩
  refine guarded_bind (upsertTableState_ends hC) ?_ (by simp)
  rintro ⟨⟩ w₃ ⟨-, rfl⟩
  refine guarded_bind (recordRejected_ends hC) ?_ (by simp)
  rintro ⟨⟩ w₄ ⟨-, tables, rfl⟩
  refine guarded_pure (hstats.accounts rfl fun reject hreject => ?_)
  exact List.mem_append_right _ (List.mem_map_of_mem (List.mem_map_of_mem hreject))

lemma retryTurn_ends {batchNo : Nat} {typedBatch : List Row} {again : PgError → Action Counters}
    (hkeys : (typedBatch.map (targetKey tableMeta)).Nodup)
    (hagain : ∀ e w, Ends C (again e) (Post (fun c w' => Accounts tableMeta cfg typedBatch c.rejected w')
      fun _ _ => True) w) :
    Ends C (retryTurn cfg tableMeta batchNo typedBatch again) (Post
      (fun c w' => Accounts tableMeta cfg typedBatch c.rejected w') fun _ _ => True) w := by
  refine guarded_attempt (tryBatch_ends hC hkeys) ?_
  rintro (err | stats) w' h
  · cases err with
    | pg e =>
      have hescapes : classifyError e ≠ .noRetry := h e rfl
      cases hclass : classifyError e with
      | critical =>
        simp only [hclass]
        exact safeAuditStatus_fails fun _ => trivial
      | noRetry => exact absurd hclass hescapes
      | transient =>
        simp only [hclass]
        exact hagain e w'
    | _ => exact guarded_fail trivial
  · exact guarded_pure h

lemma loadWithRetry_ends {batchNo left : Nat} {typedBatch : List Row}
    (hkeys : (typedBatch.map (targetKey tableMeta)).Nodup) :
    Ends C (loadWithRetry cfg tableMeta batchNo typedBatch left) (Post
      (fun c w' => Accounts tableMeta cfg typedBatch c.rejected w') fun _ _ => True) w := by
  induction left generalizing w with
  | zero => exact retryTurn_ends hC hkeys fun _ _ => safeAuditStatus_fails fun _ => trivial
  | succ left ih => exact retryTurn_ends hC hkeys fun _ _ => ih

omit hC in
/-- The rejects that are written stay. -/
lemma rejects_kept {α : Type} {p : Action α} {typedBatch : List Row} (hp : p.Only (BatchEffect tableMeta typedBatch)) :
    Guarded (outside.restrict C) () (fun w' => ∃ more, w'.rejects = w.rejects ++ more) p
      (fun _ w' => ∃ more, w'.rejects = w.rejects ++ more) w := by
  refine guarded_only hp (fun e he w₁ w₂ r h hans => ?_) ⟨[], by simp⟩
  obtain ⟨more, hmore⟩ := h
  cases r with
  | error err =>
    obtain ⟨⟨-, rfl⟩, -⟩ := hans
    exact ⟨more, hmore⟩
  | ok a =>
    obtain ⟨hans, -⟩ := hans
    cases he with
    | @insertReject record =>
      obtain rfl := hans
      exact ⟨more ++ [record], by simp [hmore]⟩
    | load =>
      obtain ⟨-, -, rfl⟩ := hans
      exact ⟨more, hmore⟩
    | _ =>
      obtain rfl := hans
      exact ⟨more, hmore⟩

/-- What a batch leaves: its rejects are written, its other rows accounted for, and the run may go on. -/
structure BatchDone (cfg : RunnerConfig) (mode : String) (tableMeta : TableMeta) (before : Counters)
    (results : List (Row × TransformResult)) (after : Counters) (w : World) : Prop where
  transformed : ∀ record ∈ results.filterMap (transformReject? cfg tableMeta), record.stored ∈ w.rejects
  loaded : ∃ rejected, Accounts tableMeta cfg (results.filterMap typedRow?) rejected w ∧
    after.rejected = before.rejected + (results.filterMap (transformReject? cfg tableMeta)).length + rejected
  threshold : ThresholdPolicy.shouldAbort ⟨mode, cfg.maxRejectRatio⟩ after.rejected after.processed = .ok false

lemma processResults_ends {progress : Nat × Counters} {results : List (Row × TransformResult)}
    (hkeys : ((results.filterMap typedRow?).map (targetKey tableMeta)).Nodup) :
    Ends C (processResults cfg mode tableMeta progress results) (Post
      (fun out w' => BatchDone cfg mode tableMeta progress.2 results out.2 w') fun _ _ => True) w := by
  refine guarded_bind (insertRejects_ends hC) ?_ (by simp)
  rintro ⟨⟩ w₁ ⟨-, rfl⟩
  refine guarded_bind (recordRejected_ends hC) ?_ (by simp)
  rintro ⟨⟩ w₂ ⟨-, tables, rfl⟩
  have hwritten : ∀ record ∈ results.filterMap (transformReject? cfg tableMeta), record.stored ∈
      w.rejects ++ (results.filterMap (transformReject? cfg tableMeta)).map RejectRecord.stored := fun record hrecord =>
    List.mem_append_right _ (List.mem_map_of_mem hrecord)
  split
  · rename_i hnone
    refine guarded_bind checkThreshold_ends ?_ fun _ _ _ => trivial
    intro _ w₃ h
    obtain ⟨rfl, hthreshold⟩ := h rfl
    refine guarded_pure ⟨hwritten, ⟨0, ?_, rfl⟩, hthreshold⟩
    simp [Accounts, hnone]
  · refine guarded_bind (guarded_weaken (guarded_and (loadWithRetry_ends hC hkeys) (rejects_kept only_loadWithRetry))
      fun _ _ => trivial) ?_ fun _ _ _ => trivial
    rintro loaded w₃ ⟨haccounts, more, hmore⟩
    refine guarded_bind checkThreshold_ends ?_ fun _ _ _ => trivial
    intro _ w₄ h
    obtain ⟨rfl, hthreshold⟩ := h rfl
    refine guarded_pure ⟨fun record hrecord => ?_, ⟨loaded.rejected, haccounts, rfl⟩, hthreshold⟩
    rw [hmore]
    exact List.mem_append_left _ (hwritten record hrecord)

end Batch

end PlatformGitops.EtlWorker
