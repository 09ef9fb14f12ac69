import PlatformGitops.EtlWorker.Batches
import PlatformGitops.EtlWorker.Runs

/-! A row that the extractor yields for a table is in the target or among the rejects once the table is validated. -/

namespace PlatformGitops.EtlWorker

open Library

variable {X : Externals} {tableMeta : TableMeta} {key : TableKey} {w w' : World} {raw : Row}

/-- The records of a row that was rejected, by the transformation or by the target. -/
inductive RecordOf (X : Externals) (tableMeta : TableMeta) (raw : Row) : RejectRecord → Prop
  | transformed {cfg : RunnerConfig} {reject : Reject} : transformRow X raw tableMeta = .ok (.reject reject) →
      RecordOf X tableMeta raw (transformReject cfg tableMeta raw reject).stored
  | loaded {includeRawPayload : Bool} {row : Row} {hash pk : String} {e : PgError} :
      transformRow X raw tableMeta = .ok (.typed row hash pk) →
      RecordOf X tableMeta raw (enrichReject (loadReject tableMeta includeRawPayload row e)).stored

/-- The target holds the row under its conflict key with its digest. -/
def Stored (X : Externals) (tableMeta : TableMeta) (w : World) (raw : Row) : Prop :=
  ∃ row hash pk, transformRow X raw tableMeta = .ok (.typed row hash pk) ∧ Holds tableMeta w.target row

def Accounted (X : Externals) (tableMeta : TableMeta) (w : World) (raw : Row) : Prop :=
  Stored X tableMeta w raw ∨ ∃ record ∈ w.rejects, RecordOf X tableMeta raw record

def Settled (X : Externals) (tableMeta : TableMeta) (w : World) (raw : Row) : Prop :=
  Accounted X tableMeta w raw ∧ (runMode w = some "final_delta" → Stored X tableMeta w raw)

/-- No row that the extractor yielded for a validated table is lost. -/
def NoRowLost (X : Externals) (w : World) : Prop :=
  ∀ key, Validated w key → ∃ tableMeta batches, lastExtraction w key = some (tableMeta, batches) ∧
    ∀ raw ∈ batches.flatten, Settled X tableMeta w raw

lemma Settled.mono (h : Settled X tableMeta w raw) (hmode : runMode w' = runMode w)
    (hrejects : ∃ more, w'.rejects = w.rejects ++ more)
    (hstored : Stored X tableMeta w raw → Stored X tableMeta w' raw) : Settled X tableMeta w' raw := by
  obtain ⟨more, hmore⟩ := hrejects
  refine ⟨?_, fun hfinal => hstored (h.2 (hmode ▸ hfinal))⟩
  rcases h.1 with h | ⟨record, hrecord, hof⟩
  · exact Or.inl (hstored h)
  · refine Or.inr ⟨record, ?_, hof⟩
    rw [hmore]
    exact List.mem_append_left _ hrecord

/-- Work on one table leaves the rows of the others. -/
lemma Settled.within (h : Settled X tableMeta w raw) (hkey : tableMeta.key ≠ key) (hwithin : Within key w w') :
    Settled X tableMeta w' raw := by
  refine h.mono hwithin.mode hwithin.rejects ?_
  rintro ⟨row, hash, pk, htyped, hholds⟩
  refine ⟨row, hash, pk, htyped, hholds.of_eq (hwithin.target _ fun hin => hkey ?_)⟩
  exact hin.eq (TypedFor.inTable ⟨raw, hash, pk, htyped⟩ hholds.1)

lemma NoRowLost.within (h : NoRowLost X w) (hwithin : Within key w w') (hkey : ¬ Validated w' key) :
    NoRowLost X w' := by
  intro other hother
  have hne : other ≠ key := by
    rintro rfl
    exact hkey hother
  obtain ⟨tableMeta, rows, hlast, hrows⟩ := h other ((hwithin.validated_iff hne).mp hother)
  refine ⟨tableMeta, rows, (hwithin.extractions other hne).trans hlast, fun raw hraw => ?_⟩
  exact (hrows raw hraw).within (lastExtraction_key hlast ▸ hne) hwithin

/-- The table in the middle of its attempt, with the rows that are settled. -/
structure Working (X : Externals) (tableMeta : TableMeta) (batches : List (List Row)) (mode : Option String) (done : List Row)
    (w : World) : Prop where
  kept : NoRowLost X w
  underway : Underway w tableMeta.key
  extracted : lastExtraction w tableMeta.key = some (tableMeta, batches)
  mode : runMode w = mode
  settled : ∀ raw ∈ done, Settled X tableMeta w raw

/-- The rows of the batch have other keys than the row. -/
def Apart (X : Externals) (tableMeta : TableMeta) (typedBatch : List Row) (raw : Row) : Prop :=
  ∀ row hash pk, transformRow X raw tableMeta = .ok (.typed row hash pk) →
    ∀ other ∈ typedBatch, targetKey tableMeta other ≠ targetKey tableMeta row

section Step

variable {α : Type} {e : Effect α} {a : α} {batches : List (List Row)} {typedBatch done : List Row} {mode : Option String}

lemma Settled.batch (h : Settled X tableMeta w raw) (hapart : Apart X tableMeta typedBatch raw)
    (he : BatchEffect tableMeta typedBatch e) (hwithin : Within tableMeta.key w w') (hans : Succeeds e w w' a) :
    Settled X tableMeta w' raw := by
  refine h.mono hwithin.mode hwithin.rejects ?_
  rintro ⟨row, hash, pk, htyped, hholds⟩
  refine ⟨row, hash, pk, htyped, hholds.of_eq ?_⟩
  cases he with
  | load hrows =>
    obtain ⟨-, -, rfl⟩ := hans
    exact executeMany_other fun other hother => hapart row hash pk htyped other (hrows other hother)
  | _ =>
    obtain rfl := hans
    rfl

lemma Working.batch (h : Working X tableMeta batches mode done w)
    (htyped : ∀ row ∈ typedBatch, TypedFor X tableMeta row) (hapart : ∀ raw ∈ done, Apart X tableMeta typedBatch raw)
    (he : BatchEffect tableMeta typedBatch e) (hans : Succeeds e w w' a) : Working X tableMeta batches mode done w' := by
  have hwithin := within_of_succeeds (he.table htyped) hans
  have hunderway := underway_of_succeeds (he.table htyped) hans h.underway
  refine ⟨h.kept.within hwithin hunderway.not_validated, hunderway, ?_, hwithin.mode.trans h.mode, ?_⟩
  · have hsame : w'.extractions = w.extractions := by
      cases he with
      | load =>
        obtain ⟨-, -, rfl⟩ := hans
        rfl
      | _ =>
        obtain rfl := hans
        rfl
    rw [lastExtraction, hsame]
    exact h.extracted
  · exact fun raw hraw => (h.settled raw hraw).batch (hapart raw hraw) he hwithin hans

end Step

section Calls

/-- The audit tables take every write, and the rows of an extraction differ in their keys. -/
def Sound {α : Type} (e : Effect α) (w : World) (r : Except PyError α) : Prop := AuditsSucceed e w r ∧ DistinctRows e w r

lemma transformBatch_eq_ok {rawBatch : List Row} {results : List (Row × TransformResult)}
    (h : transformBatch X tableMeta rawBatch = .ok results) :
    results.map (·.1) = rawBatch ∧ ∀ p ∈ results, transformRow X p.1 tableMeta = .ok p.2 := by
  induction rawBatch generalizing results with
  | nil =>
    cases h
    exact ⟨rfl, by simp⟩
  | cons raw rawBatch ih =>
    simp only [transformBatch, List.mapM_cons, Fallible.bind_eq_ok, Fallible.pure_eq_ok] at h
    obtain ⟨p, hp, rest, hrest, rfl⟩ := h
    obtain ⟨result, hresult, rfl⟩ := Fallible.map_eq_ok.mp hp
    obtain ⟨hmap, hall⟩ := ih hrest
    exact ⟨by simp [hmap], List.forall_mem_cons.mpr ⟨hresult, hall⟩⟩

variable {results : List (Row × TransformResult)}

lemma mem_typedRows {row : Row} (hall : ∀ p ∈ results, transformRow X p.1 tableMeta = .ok p.2)
    (h : row ∈ results.filterMap typedRow?) :
    ∃ raw hash pk, (raw, .typed row hash pk) ∈ results ∧ transformRow X raw tableMeta = .ok (.typed row hash pk) := by
  obtain ⟨⟨raw, result⟩, hmem, hrow⟩ := List.mem_filterMap.mp h
  cases result with
  | typed row' hash pk =>
    obtain rfl := Option.some.inj hrow
    exact ⟨raw, hash, pk, hmem, hall _ hmem⟩
  | reject reject => cases hrow

lemma nodup_typedRows (hall : ∀ p ∈ results, transformRow X p.1 tableMeta = .ok p.2)
    (hkeys : (results.map fun p => makeSourcePk p.1 tableMeta.idempotencyKey).Nodup) :
    ((results.filterMap typedRow?).map (targetKey tableMeta)).Nodup := by
  induction results with
  | nil => exact List.nodup_nil
  | cons p results ih =>
    obtain ⟨hp, hresults⟩ := List.forall_mem_cons.mp hall
    obtain ⟨hnew, hrest⟩ := List.nodup_cons.mp hkeys
    obtain ⟨raw, result⟩ := p
    cases result with
    | reject reject => exact ih hresults hrest
    | typed row hash pk =>
      refine List.nodup_cons.mpr ⟨fun hmem => hnew ?_, ih hresults hrest⟩
      obtain ⟨other, hother, hsame⟩ := List.mem_map.mp hmem
      obtain ⟨raw', hash', pk', hmem', htyped'⟩ := mem_typedRows hresults hother
      rw [targetKey_typed htyped', targetKey_typed hp] at hsame
      have hpk : makeSourcePk raw' tableMeta.idempotencyKey = makeSourcePk raw tableMeta.idempotencyKey := by
        simpa using hsame
      exact List.mem_map.mpr ⟨_, hmem', hpk⟩

lemma BatchDone.settled {cfg : RunnerConfig} {mode : String} {before after : Counters}
    (h : BatchDone cfg mode tableMeta before results after w)
    (hall : ∀ p ∈ results, transformRow X p.1 tableMeta = .ok p.2)
    (hmode : runMode w = some "final_delta" → normalizeMode mode = .ok "final_delta") :
    ∀ p ∈ results, Settled X tableMeta w p.1 := by
  obtain ⟨rejected, ⟨haccounts, hnone⟩, hcount⟩ := h.loaded
  rintro ⟨raw, result⟩ hmem
  have hresult := hall _ hmem
  cases result with
  | typed row hash pk =>
    have hrow : row ∈ results.filterMap typedRow? := List.mem_filterMap.mpr ⟨_, hmem, rfl⟩
    refine ⟨?_, fun hfinal => ?_⟩
    · rcases haccounts row hrow with hholds | ⟨e, he⟩
      · exact Or.inl ⟨row, hash, pk, hresult, hholds⟩
      · exact Or.inr ⟨_, he, .loaded hresult⟩
    · have hpassed := h.threshold
      rw [shouldAbort_final (hmode hfinal)] at hpassed
      have hzero : after.rejected = 0 := by simpa using hpassed
      exact ⟨row, hash, pk, hresult, hnone (by omega) row hrow⟩
  | reject reject =>
    have hrecord : transformReject cfg tableMeta raw reject ∈ results.filterMap (transformReject? cfg tableMeta) :=
      List.mem_filterMap.mpr ⟨_, hmem, rfl⟩
    refine ⟨Or.inr ⟨_, h.transformed _ hrecord, .transformed hresult⟩, fun hfinal => ?_⟩
    have hpassed := h.threshold
    rw [shouldAbort_final (hmode hfinal)] at hpassed
    have hzero : after.rejected = 0 := by simpa using hpassed
    have hlength := List.length_pos_of_mem hrecord
    omega

/-- The rows of a batch differ in their keys from the rows of the attempt before them. -/
lemma apart_of_nodup {done rows : List Row} {rest : List Row}
    (hall : ∀ p ∈ results, transformRow X p.1 tableMeta = .ok p.2)
    (hsplit : rows = done ++ results.map (·.1) ++ rest)
    (hkeys : (rows.map (makeSourcePk · tableMeta.idempotencyKey)).Nodup) :
    ∀ raw ∈ done, Apart X tableMeta (results.filterMap typedRow?) raw := by
  intro raw hraw row hash pk htyped other hother hsame
  obtain ⟨raw', hash', pk', hmem, htyped'⟩ := mem_typedRows hall hother
  rw [targetKey_typed htyped', targetKey_typed htyped] at hsame
  have hpk : makeSourcePk raw' tableMeta.idempotencyKey = makeSourcePk raw tableMeta.idempotencyKey := by
    simpa using hsame
  rw [hsplit, List.append_assoc, List.map_append] at hkeys
  refine List.disjoint_of_nodup_append hkeys (List.mem_map_of_mem hraw) (List.mem_map.mpr ⟨raw', ?_, hpk⟩)
  exact List.mem_append_left _ (List.mem_map_of_mem hmem)

variable {cfg : RunnerConfig} {mode : String} {runsMode : Option String}

/-- Whatever a batch does, wherever it is stopped, keeps the rows that are settled. -/
lemma working_guarded {β : Type} {p : Action β} {batches : List (List Row)} {typedBatch done : List Row}
    (hp : p.Only (BatchEffect tableMeta typedBatch)) (htyped : ∀ row ∈ typedBatch, TypedFor X tableMeta row)
    (hapart : ∀ raw ∈ done, Apart X tableMeta typedBatch raw) (h : Working X tableMeta batches runsMode done w) :
    Guarded (outside.restrict Sound) () (Working X tableMeta batches runsMode done) p
      (fun _ => Working X tableMeta batches runsMode done) w := by
  refine guarded_only hp (fun e he w₁ w₂ r hw₁ hans => ?_) h
  cases r with
  | error err =>
    obtain ⟨⟨-, rfl⟩, -⟩ := hans
    exact hw₁
  | ok a => exact hw₁.batch htyped hapart he hans.1

lemma processBatch_guarded {batches : List (List Row)} {done rawBatch rest : List Row} {progress : Nat × Counters}
    (hsplit : batches.flatten = done ++ rawBatch ++ rest)
    (hkeys : (batches.flatten.map (makeSourcePk · tableMeta.idempotencyKey)).Nodup)
    (hmode : runsMode = some "final_delta" → normalizeMode mode = .ok "final_delta")
    (h : Working X tableMeta batches runsMode done w) :
    Guarded (outside.restrict Sound) () (NoRowLost X) (processBatch X cfg mode tableMeta progress rawBatch)
      (Post (fun _ => Working X tableMeta batches runsMode (done ++ rawBatch)) fun _ => NoRowLost X) w := by
  refine guarded_bind (guarded_ofExcept (Q := fun r w' => w' = w ∧ r = transformBatch X tableMeta rawBatch)
    ⟨rfl, rfl⟩) ?_ ?_
  · rintro results w' ⟨rfl, hresults⟩
    obtain ⟨rfl, hall⟩ := transformBatch_eq_ok hresults.symm
    have hkeysBatch : ((results.filterMap typedRow?).map (targetKey tableMeta)).Nodup := by
      refine nodup_typedRows hall ?_
      rw [hsplit, List.map_append, List.map_append] at hkeys
      simpa [Function.comp_def] using (List.Nodup.of_append_right (List.Nodup.of_append_left hkeys))
    have htyped : ∀ row ∈ results.filterMap typedRow?, TypedFor X tableMeta row := by
      intro row hrow
      obtain ⟨raw, hash, pk, -, htyped⟩ := mem_typedRows hall hrow
      exact ⟨raw, hash, pk, htyped⟩
    have honly : (processResults cfg mode tableMeta progress results).Only _ := only_processResults
    have hkept := working_guarded honly htyped (apart_of_nodup hall hsplit hkeys) h
    have hends : Ends Sound (processResults cfg mode tableMeta progress results) _ w' :=
      processResults_ends (fun _ _ _ h => h.1) hkeysBatch
    refine guarded_mono (guarded_weaken (guarded_and hkept hends) fun _ hw => hw.1.kept) ?_
    rintro (err | out) w'' ⟨hworking, hdone⟩
    · exact hworking.kept
    · refine ⟨hworking.kept, hworking.underway, hworking.extracted, hworking.mode, fun raw hraw => ?_⟩
      rcases List.mem_append.mp hraw with hraw | hraw
      · exact hworking.settled raw hraw
      · obtain ⟨p, hp, rfl⟩ := List.mem_map.mp hraw
        exact hdone.settled hall (hworking.mode ▸ hmode) p hp
  · rintro e w' ⟨rfl, -⟩
    exact h.kept

/-- The run in one mode, with no row lost. -/
def Steady (X : Externals) (runsMode : Option String) (w : World) : Prop := NoRowLost X w ∧ runMode w = runsMode

lemma startTable_guarded (h : Steady X runsMode w) :
    Guarded (outside.restrict Sound) () (NoRowLost X)
      (Action.upsertTableState tableMeta.key { status := .extracting })
      (fun r w' => r = .ok () ∧ Steady X runsMode w' ∧ Underway w' tableMeta.key) w := by
  refine guarded_perform fun w' r hans => ?_
  obtain ⟨⟨⟩, rfl⟩ := hans.2.1 trivial
  have hstarts : Succeeds (.upsertTableState tableMeta.key { status := .extracting }) w w' () := hans.1
  have hwithin : Within tableMeta.key w w' :=
    within_of_succeeds (.upsertTableState (X := X) (u := { status := .extracting }) (by decide)) hstarts
  have hunderway : Underway w' tableMeta.key := by
    obtain rfl := hans.1
    refine ⟨_, by rw [lookup_upsertTableState, if_pos rfl], ?_⟩
    cases w.tables.lookup tableMeta.key <;> simp [TableState.updated]
  have hkept := h.1.within hwithin hunderway.not_validated
  exact ⟨hkept, rfl, ⟨hkept, hwithin.mode.trans h.2⟩, hunderway⟩

lemma extract_guarded {lastPk : Option String} (h : Steady X runsMode w) (hunderway : Underway w tableMeta.key) :
    Guarded (outside.restrict Sound) () (NoRowLost X) (.perform (.extract tableMeta lastPk cfg.limit))
      (Post (fun extraction w' => (extraction.batches.flatten.map (makeSourcePk · tableMeta.idempotencyKey)).Nodup ∧
        Working X tableMeta extraction.batches runsMode [] w') fun _ => NoRowLost X) w := by
  refine guarded_perform fun w' r hans => ?_
  cases r with
  | error err =>
    obtain ⟨⟨-, rfl⟩, -⟩ := hans
    exact ⟨h.1, h.1⟩
  | ok extraction =>
    have hyields : Succeeds (.extract tableMeta lastPk cfg.limit) w w' extraction := hans.1
    have hwithin : Within tableMeta.key w w' := within_of_succeeds (.extract (X := X)) hyields
    have hunderway' : Underway w' tableMeta.key := underway_of_succeeds (.extract (X := X)) hyields hunderway
    have hkept := h.1.within hwithin hunderway'.not_validated
    refine ⟨hkept, hans.2.2, hkept, hunderway', ?_, hwithin.mode.trans h.2, by simp⟩
    obtain rfl := hans.1
    rw [lastExtraction_append, if_pos rfl]

lemma Working.validated {batches : List (List Row)} {u : TableState}
    (h : Working X tableMeta batches runsMode batches.flatten w) :
    NoRowLost X { w with tables := upsertTableState w.tables tableMeta.key u } := by
  intro key hkey
  by_cases hsame : key = tableMeta.key
  · subst hsame
    exact ⟨tableMeta, batches, h.extracted, fun raw hraw => (h.settled raw hraw).mono rfl ⟨[], by simp⟩ id⟩
  · obtain ⟨row, hrow, hvalid⟩ := hkey
    rw [lookup_upsertTableState, if_neg hsame] at hrow
    obtain ⟨other, otherRows, hlast, hrows⟩ := h.kept key ⟨row, hrow, hvalid⟩
    exact ⟨other, otherRows, hlast, fun raw hraw => (hrows raw hraw).mono rfl ⟨[], by simp⟩ id⟩

lemma finishTable_guarded {extraction : Extraction} {progress : Nat × Counters}
    (h : Working X tableMeta extraction.batches runsMode extraction.batches.flatten w) :
    Guarded (outside.restrict Sound) () (NoRowLost X) (finishTable tableMeta extraction progress)
      (Post (fun _ => Steady X runsMode) fun _ => NoRowLost X) w := by
  unfold finishTable
  split
  · exact guarded_fail h.kept
  · refine guarded_bind (Q := fun r w' => r = .ok () ∧ Steady X runsMode w')
      (guarded_perform fun w' r hans => ?_) (fun _ _ hsteady => guarded_pure hsteady.2) (by simp)
    obtain ⟨⟨⟩, rfl⟩ := hans.2.1 trivial
    obtain rfl := hans.1
    exact ⟨h.validated, rfl, h.validated, h.mode⟩

lemma processTable_guarded {state : Dict String TableState} {counters : Counters}
    (hmode : runsMode = some "final_delta" → normalizeMode mode = .ok "final_delta") (h : Steady X runsMode w) :
    Guarded (outside.restrict Sound) () (NoRowLost X) (processTable X cfg mode state counters tableMeta)
      (Post (fun _ => Steady X runsMode) fun _ => NoRowLost X) w := by
  unfold processTable
  split
  · exact guarded_pure h
  · refine guarded_bind (startTable_guarded h) ?_ (by simp)
    rintro ⟨⟩ w₁ ⟨-, hsteady, hunderway⟩
    refine guarded_then (extract_guarded hsteady hunderway) ?_
    rintro extraction w₂ ⟨hkeys, hworking⟩
    refine guarded_then (guarded_foldlM (J := fun done _ =>
      Working X tableMeta extraction.batches runsMode done.flatten) ?_ hworking) fun progress w₃ hdone =>
        finishTable_guarded hdone
    intro done rawBatch rest progress w' hsplit hdone
    have hrows : extraction.batches.flatten = done.flatten ++ rawBatch ++ rest.flatten := by
      simp [hsplit]
    simpa using processBatch_guarded hrows hkeys hmode hdone

/-- A change of the status of the run. -/
lemma updateRunStatus_guarded {status : RunStatus} {summary : Option String} (h : NoRowLost X w) :
    Guarded (outside.restrict Sound) () (NoRowLost X) (.perform (.updateRunStatus status summary))
      (fun _ => NoRowLost X) w := by
  refine guarded_perform fun w' r hans => ?_
  obtain ⟨⟨⟩, rfl⟩ := hans.2.1 trivial
  obtain rfl := hans.1
  have hmode : runMode { w with run := w.run.map (·.updated status summary) } = runMode w := by
    simp [runMode, Function.comp_def, MigrationRun.updated]
  have hkept : NoRowLost X { w with run := w.run.map (·.updated status summary) } := fun key hkey => by
    obtain ⟨tableMeta, rows, hlast, hrows⟩ := h key hkey
    exact ⟨tableMeta, rows, hlast, fun raw hraw => (hrows raw hraw).mono hmode ⟨[], by simp⟩ id⟩
  exact ⟨hkept, hkept⟩

lemma safeAuditStatus_guarded {status : RunStatus} {summary : String} (h : NoRowLost X w) :
    Guarded (outside.restrict Sound) () (NoRowLost X) (Action.safeAuditStatus status summary)
      (fun _ => NoRowLost X) w :=
  guarded_attempt (updateRunStatus_guarded h) fun _ _ hkept => guarded_pure hkept

lemma runOwned_guarded {state : Dict String TableState}
    (hmode : runsMode = some "final_delta" → normalizeMode mode = .ok "final_delta") (h : Steady X runsMode w) :
    Guarded (outside.restrict Sound) () (NoRowLost X) (runOwned X cfg mode state) (fun _ => NoRowLost X) w := by
  refine guarded_attempt (Q := fun _ => NoRowLost X) ?_ ?_
  · refine guarded_bind (guarded_foldlM (J := fun _ _ => Steady X runsMode) (R := fun _ => NoRowLost X)
      (fun _ _ _ _ _ _ hsteady => processTable_guarded hmode hsteady) h) ?_ fun _ _ he => he
    exact fun _ _ hsteady => updateRunStatus_guarded hsteady.1
  · rintro ((e | e | e | e | e) | ⟨⟩) w' hkept
    · exact guarded_bind (safeAuditStatus_guarded hkept) (fun _ _ h => guarded_pure h) fun _ _ h => h
    · exact guarded_pure hkept
    · exact guarded_pure hkept
    · exact guarded_pure hkept
    · exact guarded_bind (safeAuditStatus_guarded hkept) (fun _ _ h => guarded_pure h) fun _ _ h => h
    · exact guarded_pure hkept

/-- A call that leaves the database alone. -/
lemma quiet_guarded {β : Type} {e : Effect β} (hquiet : ∀ w w' b, Succeeds e w w' b → w' = w) (h : NoRowLost X w) :
    Guarded (outside.restrict Sound) () (NoRowLost X) (.perform e) (fun _ w' => w' = w) w := by
  refine guarded_perform fun w' r hans => ?_
  cases r with
  | error err =>
    obtain ⟨⟨-, rfl⟩, -⟩ := hans
    exact ⟨h, rfl⟩
  | ok b =>
    obtain rfl := hquiet w w' b hans.1
    exact ⟨h, rfl⟩

/-- The run is this call's to drive, in the mode that is written for it. -/
def Claimed (X : Externals) (claim : Except RunOutcome (String × Dict String TableState)) (w : World) : Prop :=
  NoRowLost X w ∧ ∀ p ∈ claim.toOption, runMode w = some "final_delta" → normalizeMode p.1 = .ok "final_delta"

lemma resumeRun_guarded (h : NoRowLost X w) (hresume : cfg.resume = true) :
    Guarded (outside.restrict Sound) () (NoRowLost X) (claimRun cfg) (Post (Claimed X) fun _ => NoRowLost X) w := by
  unfold claimRun
  rw [if_pos hresume]
  refine guarded_bind (Q := Post (fun run w' => w' = w ∧ run = w.run) fun _ => NoRowLost X) (guarded_perform
    fun w' r hans => ?_) ?_ fun _ _ he => he
  · cases r with
    | error err =>
      obtain ⟨⟨-, rfl⟩, -⟩ := hans
      exact ⟨h, h⟩
    | ok run =>
      obtain ⟨⟨rfl, rfl⟩, -⟩ := hans
      exact ⟨h, rfl, rfl⟩
  · rintro run w' ⟨rfl, hrun⟩
    cases run with
    | none => exact guarded_pure ⟨h, by simp [Except.toOption]⟩
    | some run =>
      refine guarded_bind (quiet_guarded (fun _ _ _ hs => hs.1) h) ?_ fun _ _ he => he ▸ h
      rintro state w₁ rfl
      refine guarded_pure ⟨h, ?_⟩
      simp only [Except.toOption, Option.mem_def, Option.some.injEq, forall_eq']
      intro hfinal
      have hmode : run.mode = "final_delta" := by simpa [runMode, ← hrun] using hfinal
      rw [hmode]
      rfl

lemma createRun_guarded (h : NoRowLost X w) (hempty : w.tables = []) (hresume : cfg.resume = false) :
    Guarded (outside.restrict Sound) () (NoRowLost X) (claimRun cfg) (Post (Claimed X) fun _ => NoRowLost X) w := by
  unfold claimRun
  rw [if_neg (by simp [hresume])]
  cases hmode : cfg.mode with
  | none => exact guarded_pure ⟨h, by simp [Except.toOption]⟩
  | some mode =>
    refine guarded_bind (guarded_ofExcept (Q := fun r w' => w' = w ∧ r = normalizeMode mode) ⟨rfl, rfl⟩) ?_ ?_
    · rintro dbMode w' ⟨rfl, hdb⟩
      refine guarded_attempt (Q := Post (fun _ w₁ => NoRowLost X w₁ ∧ runMode w₁ = some dbMode) fun _ => NoRowLost X)
        (guarded_perform fun w₁ r hans => ?_) ?_
      · cases r with
        | error err =>
          obtain ⟨⟨-, rfl⟩, -⟩ := hans
          exact ⟨h, h⟩
        | ok u =>
          obtain ⟨⟨-, rfl⟩, -⟩ := hans
          have hkept : NoRowLost X { w' with run := some (newRun cfg dbMode) } := by
            rintro key ⟨row, hrow, -⟩
            simp [hempty] at hrow
          exact ⟨hkept, hkept, rfl⟩
      · rintro ((e | e | e | e | e) | ⟨⟩) w₁ hclaim
        · change Guarded _ _ _ (if e.typeName = "UniqueViolation" then _ else _) _ _
          split
          · exact guarded_pure ⟨hclaim, by simp [Except.toOption]⟩
          · exact guarded_fail hclaim
        · exact guarded_fail hclaim
        · exact guarded_fail hclaim
        · exact guarded_fail hclaim
        · exact guarded_fail hclaim
        · refine guarded_pure ⟨hclaim.1, ?_⟩
          simp only [Except.toOption, Option.mem_def, Option.some.injEq, forall_eq']
          intro hfinal
          obtain rfl : dbMode = "final_delta" := by simpa [hclaim.2] using hfinal
          exact hdb.symm
    · rintro e w' ⟨rfl, -⟩
      exact h

/-- No call of the worker loses a row, however it claims its run. -/
lemma runOrchestrator_guarded (h : NoRowLost X w) (hclaim : Guarded (outside.restrict Sound) () (NoRowLost X)
    (claimRun cfg) (Post (Claimed X) fun _ => NoRowLost X) w) :
    Guarded (outside.restrict Sound) () (NoRowLost X) (runOrchestrator X cfg) (fun _ => NoRowLost X) w := by
  have hlocked : Guarded (outside.restrict Sound) () (NoRowLost X) (runLocked X cfg) (fun _ => NoRowLost X) w := by
    refine guarded_bind (quiet_guarded (fun _ _ _ hs => hs) h) ?_ fun _ _ he => he ▸ h
    rintro _ w₁ rfl
    refine guarded_bind (quiet_guarded (fun _ _ _ hs => hs) h) ?_ fun _ _ he => he ▸ h
    rintro _ w₂ rfl
    refine guarded_bind (quiet_guarded (fun _ _ _ hs => hs) h) ?_ fun _ _ he => he ▸ h
    rintro _ w₃ rfl
    refine guarded_bind hclaim ?_ fun _ _ he => he
    rintro (outcome | ⟨mode, state⟩) w₄ hclaimed
    · exact guarded_pure hclaimed.1
    · exact runOwned_guarded (hclaimed.2 _ rfl) ⟨hclaimed.1, rfl⟩
  refine guarded_attempt (Q := fun _ w' => w' = w) ?_ ?_
  · refine guarded_bind (quiet_guarded (fun _ _ _ hs => hs) h) ?_ fun _ _ he => he
    rintro _ w₁ rfl
    exact quiet_guarded (fun _ _ _ hs => hs) h
  · rintro (err | acquired) w₁ rfl
    · exact guarded_pure h
    · cases acquired with
      | false => exact guarded_pure h
      | true =>
        refine guarded_attempt hlocked fun outcome w₂ hkept => ?_
        refine guarded_attempt (quiet_guarded (fun _ _ _ hs => hs) hkept) ?_
        rintro _ w₃ rfl
        exact guarded_pure hkept

end Calls

/-- Whatever fails and wherever a call is stopped, no row is lost. -/
theorem no_row_lost {manifest : List TableMeta} {w₀ : World} (hfresh : Fresh w₀)
    (hcalls : Calls (outside.restrict Sound) X manifest w₀ w) : NoRowLost X w := by
  induction hcalls with
  | @first cfg w w' _ hresume hcall =>
    have hstart : NoRowLost X w := by
      rintro key ⟨row, hrow, -⟩
      simp [hfresh.tables] at hrow
    have hguarded := runOrchestrator_guarded hstart (createRun_guarded hstart hfresh.tables hresume)
    rcases hcall with ⟨out, hexec⟩ | hstops
    · exact (hguarded.exec hstart hexec).1
    · exact hguarded.stops hstart hstops
  | resumed _ _ hresume hcall ih =>
    have hguarded := runOrchestrator_guarded (ih hfresh) (resumeRun_guarded (ih hfresh) hresume)
    rcases hcall with ⟨out, hexec⟩ | hstops
    · exact (hguarded.exec (ih hfresh) hexec).1
    · exact hguarded.stops (ih hfresh) hstops

namespace Sample

def initial : RunnerConfig where
  mode := some "initial"
  manifest := [company]
  maxRejectRatio := .finite 1

/-- Two rows of one table, of which the target refuses the second. -/
def refusing : Script :=
  yields [(company, [[row 1, row 2]])] fun _ _ rows =>
    if rows.any (fun typed => typed.get "company_id" = .int 2) then some ⟨"NotNullViolation", .integrity, some "23502", none, ""⟩
    else none

lemma sound_refusing {γ : Type} (e : Effect γ) (w w' : World) (r : Except PyError γ)
    (h : refusing.world e w = some (w', r)) : Sound e w r := by
  refine ⟨(refusing.answers e w w' r h).2, ?_⟩
  cases e with
  | extract tableMeta lastPk limit =>
    cases h
    by_cases htable : tableMeta = company
    · subst htable
      have hrows : (refusing.extraction company lastPk limit).batches = [[row 1, row 2]] := by
        simp [refusing, yields, List.lookup]
      change ((refusing.extraction company lastPk limit).batches.flatten.map _).Nodup
      rw [hrows]
      decide +kernel
    · have hnone : (refusing.extraction tableMeta lastPk limit).batches = [] := by
        simp [refusing, yields, List.lookup, beq_eq_false_iff_ne.mpr htable]
      simp [DistinctRows, hnone]
  | _ => trivial

end Sample

open Sample in
/-- A run with a row that the target takes and one that it refuses. -/
theorem no_row_lost_refusing :
    ∃ w, Validated w company.key ∧ lastExtraction w company.key = some (company, [[row 1, row 2]]) ∧
      NoRowLost externals w := by
  have hends : (((runOrchestrator externals initial).interp refusing.world fresh).any fun p =>
      (p.1.tables.lookup company.key).any (fun state => state.status = .validated) &&
        decide (lastExtraction p.1 company.key = some (company, [[row 1, row 2]]))) = true := by decide +kernel
  obtain ⟨⟨w, out⟩, hrun, hend⟩ := result_of_any hends
  simp only [Bool.and_eq_true, decide_eq_true_eq] at hend
  obtain ⟨state, hstate, hvalid⟩ := result_of_any hend.1
  refine ⟨w, ⟨state, hstate, by simpa using hvalid⟩, hend.2, ?_⟩
  exact no_row_lost fresh_fresh (.first rfl rfl (Or.inl ⟨out, refusing.call sound_refusing hrun⟩))

end PlatformGitops.EtlWorker
