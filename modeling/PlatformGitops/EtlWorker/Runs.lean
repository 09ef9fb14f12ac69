import PlatformGitops.EtlWorker.Runner

/-! Calls of the worker on one run, and what the work on one table leaves alone. -/

namespace PlatformGitops.EtlWorker

open Library

/-- The audit tables take every write. -/
def AuditsSucceed {α : Type} (e : Effect α) (_ : World) (r : Except PyError α) : Prop := e.Audits → ∃ a, r = .ok a

/-- No two rows that an extraction yields have one key. -/
def DistinctRows {α : Type} : Effect α → World → Except PyError α → Prop
  | .extract tableMeta _ _, _, .ok extraction =>
    (extraction.batches.flatten.map (makeSourcePk · tableMeta.idempotencyKey)).Nodup
  | _, _, _ => True

section

variable (M : Machine PyError Effect World Unit) (X : Externals)

/-- A call of the worker, to its end or to any point at which it is stopped. -/
def Call (cfg : RunnerConfig) (w w' : World) : Prop :=
  (∃ out, Exec M () (runOrchestrator X cfg) w w' out) ∨ Stops M () (runOrchestrator X cfg) w w'

/-- A new run of the manifest, and any number of times that it is resumed. -/
inductive Calls (manifest : List TableMeta) : World → World → Prop
  | first {cfg : RunnerConfig} {w w' : World} : cfg.manifest = manifest → cfg.resume = false → Call M X cfg w w' →
      Calls manifest w w'
  | resumed {cfg : RunnerConfig} {w w₁ w₂ : World} : Calls manifest w w₁ → cfg.manifest = manifest →
      cfg.resume = true → Call M X cfg w₁ w₂ → Calls manifest w w₂

end

/-- Nothing of the run has been written. -/
structure Fresh (w : World) : Prop where
  run : w.run = none
  tables : w.tables = []
  rejects : w.rejects = []
  extractions : w.extractions = []
  statements : w.statements = []

def runMode (w : World) : Option String := w.run.map (·.mode)

def Validated (w : World) (key : TableKey) : Prop := ∃ row, w.tables.lookup key = some row ∧ row.status = .validated

/-- The table is there and not yet validated. -/
def Underway (w : World) (key : TableKey) : Prop := ∃ row, w.tables.lookup key = some row ∧ row.status ≠ .validated

lemma Underway.not_validated {w : World} {key : TableKey} (h : Underway w key) : ¬ Validated w key := by
  rintro ⟨row, hrow, hvalid⟩
  obtain ⟨row', hrow', hopen⟩ := h
  rw [hrow] at hrow'
  cases hrow'
  exact hopen hvalid

/-- What the extractor yielded for the table when it was last called for it. -/
def lastExtraction (w : World) (key : TableKey) : Option (TableMeta × List (List Row)) :=
  (w.extractions.filter (·.1.key = key)).getLast?

lemma lastExtraction_key {w : World} {key : TableKey} {tableMeta : TableMeta} {batches : List (List Row)}
    (h : lastExtraction w key = some (tableMeta, batches)) : tableMeta.key = key := by
  simpa using (List.mem_filter.mp (List.mem_of_getLast? h)).2

/-- The conflict key of a row may belong to the table. -/
def InTable (key : TableKey) (k : TargetKey) : Prop :=
  key.sourceYear = none ∧ k.sourceSchema = .str key.sourceSchema ∧ k.sourceTable = .str key.name

/-- Work on one table: what it leaves as it was. -/
structure Within (key : TableKey) (w w' : World) : Prop where
  mode : runMode w' = runMode w
  tables : ∀ other, other ≠ key → w'.tables.lookup other = w.tables.lookup other
  rejects : ∃ more, w'.rejects = w.rejects ++ more
  extractions : ∀ other, other ≠ key → lastExtraction w' other = lastExtraction w other
  target : ∀ k, ¬ InTable key k → w'.target k = w.target k

section

variable {X : Externals} {tableMeta : TableMeta} {key : TableKey} {w w' : World}

/-- A row that the transformation of the table made. -/
def TypedFor (X : Externals) (tableMeta : TableMeta) (row : Row) : Prop :=
  ∃ raw hash pk, transformRow X raw tableMeta = .ok (.typed row hash pk)

lemma targetKey_typed {raw row : Row} {hash pk : String}
    (h : transformRow X raw tableMeta = .ok (.typed row hash pk)) :
    targetKey tableMeta row = ⟨lower tableMeta.name, .str tableMeta.sourceSchema, .str tableMeta.name,
      .str (makeSourcePk raw tableMeta.idempotencyKey)⟩ := by
  obtain ⟨hschema, htable, hpk, -⟩ := transformRow_typed h
  simp [targetKey, hschema, htable, hpk]

lemma TypedFor.inTable {row : Row} (h : TypedFor X tableMeta row) (haccepted : upsertRefused tableMeta = none) :
    InTable tableMeta.key (targetKey tableMeta row) := by
  obtain ⟨raw, hash, pk, htyped⟩ := h
  rw [targetKey_typed htyped]
  exact ⟨sourceYear_of_accepted haccepted, rfl, rfl⟩

/-- Tables that differ share no conflict key. -/
lemma InTable.eq {key other : TableKey} {k : TargetKey} (h : InTable key k) (hother : InTable other k) :
    other = key := by
  obtain ⟨hyear, hschema, hname⟩ := h
  obtain ⟨hyear', hschema', hname'⟩ := hother
  rw [hschema] at hschema'
  rw [hname] at hname'
  cases key
  cases other
  simp_all

/-- The effects of a call while it works on a table, the mark that the table is valid apart. -/
inductive TableEffect (X : Externals) (tableMeta : TableMeta) : {α : Type} → Effect α → Prop
  | updateRunStatus {status : RunStatus} {summary : Option String} :
      TableEffect X tableMeta (.updateRunStatus status summary)
  | upsertTableState {u : TableState} : u.status ≠ .validated →
      TableEffect X tableMeta (.upsertTableState tableMeta.key u)
  | insertReject {record : RejectRecord} : TableEffect X tableMeta (.insertReject record)
  | extract {lastPk : Option String} {limit : Option Int} : TableEffect X tableMeta (.extract tableMeta lastPk limit)
  | load {rows : List Row} : (∀ row ∈ rows, TypedFor X tableMeta row) → TableEffect X tableMeta (.load tableMeta rows)

lemma lastExtraction_append {other : TableKey} {batches : List (List Row)} :
    lastExtraction { w with extractions := w.extractions ++ [(tableMeta, batches)] } other =
      if other = tableMeta.key then some (tableMeta, batches) else lastExtraction w other := by
  unfold lastExtraction
  rw [List.filter_append]
  by_cases hkey : other = tableMeta.key
  · simp [hkey]
  · simp [hkey, Ne.symm hkey]

lemma Within.refl : Within key w w := ⟨rfl, fun _ _ => rfl, ⟨[], by simp⟩, fun _ _ => rfl, fun _ _ => rfl⟩

lemma within_of_succeeds {α : Type} {e : Effect α} {a : α} (he : TableEffect X tableMeta e) (h : Succeeds e w w' a) :
    Within tableMeta.key w w' := by
  cases he with
  | updateRunStatus =>
    obtain rfl := h
    refine ⟨?_, fun _ _ => rfl, ⟨[], by simp⟩, fun _ _ => rfl, fun _ _ => rfl⟩
    simp [runMode, Function.comp_def, MigrationRun.updated]
  | upsertTableState =>
    obtain rfl := h
    refine ⟨rfl, fun other hother => ?_, ⟨[], by simp⟩, fun _ _ => rfl, fun _ _ => rfl⟩
    rw [lookup_upsertTableState, if_neg hother]
  | insertReject =>
    obtain rfl := h
    exact ⟨rfl, fun _ _ => rfl, ⟨_, rfl⟩, fun _ _ => rfl, fun _ _ => rfl⟩
  | extract =>
    obtain rfl := h
    refine ⟨rfl, fun _ _ => rfl, ⟨[], by simp⟩, fun other hother => ?_, fun _ _ => rfl⟩
    rw [lastExtraction_append, if_neg hother]
  | load hrows =>
    obtain ⟨haccepted, -, rfl⟩ := h
    refine ⟨rfl, fun _ _ => rfl, ⟨[], by simp⟩, fun _ _ => rfl, fun k hk => ?_⟩
    exact executeMany_other fun row hrow heq => hk (heq ▸ (hrows row hrow).inTable haccepted)

lemma underway_of_succeeds {α : Type} {e : Effect α} {a : α} (he : TableEffect X tableMeta e) (h : Succeeds e w w' a)
    (hw : Underway w tableMeta.key) : Underway w' tableMeta.key := by
  cases he with
  | upsertTableState hstatus =>
    obtain rfl := h
    refine ⟨_, by rw [lookup_upsertTableState, if_pos rfl], ?_⟩
    obtain ⟨row, hrow, -⟩ := hw
    simpa [hrow, TableState.updated] using hstatus
  | load =>
    obtain ⟨-, -, rfl⟩ := h
    exact hw
  | _ =>
    obtain rfl := h
    exact hw

lemma Within.validated_iff {other : TableKey} (h : Within key w w') (hother : other ≠ key) :
    Validated w' other ↔ Validated w other := by
  simp only [Validated, h.tables other hother]

/-- The effects of a call while it works on a batch with these typed rows. -/
inductive BatchEffect (tableMeta : TableMeta) (typedBatch : List Row) : {α : Type} → Effect α → Prop
  | updateRunStatus {status : RunStatus} {summary : Option String} :
      BatchEffect tableMeta typedBatch (.updateRunStatus status summary)
  | upsertTableState {u : TableState} : u.status = .loading →
      BatchEffect tableMeta typedBatch (.upsertTableState tableMeta.key u)
  | insertReject {record : RejectRecord} : BatchEffect tableMeta typedBatch (.insertReject record)
  | load {rows : List Row} : (∀ row ∈ rows, row ∈ typedBatch) → BatchEffect tableMeta typedBatch (.load tableMeta rows)

lemma BatchEffect.table {typedBatch : List Row} {α : Type} {e : Effect α} (h : BatchEffect tableMeta typedBatch e)
    (htyped : ∀ row ∈ typedBatch, TypedFor X tableMeta row) : TableEffect X tableMeta e := by
  cases h with
  | updateRunStatus => exact .updateRunStatus
  | upsertTableState hstatus => exact .upsertTableState (by simp [hstatus])
  | insertReject => exact .insertReject
  | load hrows => exact .load fun row hrow => htyped row (hrows row hrow)

section Only

variable {cfg : RunnerConfig} {mode : String} {typedBatch : List Row} {batchNo : Nat}

lemma only_safeAuditStatus {status : RunStatus} {summary : String} :
    (Action.safeAuditStatus status summary).Only (BatchEffect tableMeta typedBatch) :=
  Prog.only_bind (Prog.only_attempt (Prog.only_perform.mpr .updateRunStatus)) fun _ => Prog.only_pure

lemma only_insertRejects {records : List RejectRecord} :
    (Action.insertRejects records).Only (BatchEffect tableMeta typedBatch) :=
  Prog.only_foldlM (fun _ _ _ => Prog.only_perform.mpr .insertReject) ()

lemma only_recordRejected {rejected : Nat} :
    (recordRejected tableMeta batchNo rejected).Only (BatchEffect tableMeta typedBatch) := by
  unfold recordRejected
  split
  · exact Prog.only_pure
  · exact Prog.only_perform.mpr (.upsertTableState rfl)

lemma only_checkThreshold {counters : Counters} :
    (checkThreshold cfg mode counters).Only (BatchEffect tableMeta typedBatch) := by
  refine Prog.only_bind Prog.only_ofExcept fun abort => ?_
  cases abort with
  | true => exact Prog.only_bind only_safeAuditStatus fun _ => Prog.only_fail
  | false => exact Prog.only_pure

lemma only_loadRow {includeRawPayload : Bool} {stats : LoadStats} {row : Row} (hrow : row ∈ typedBatch) :
    (loadRow tableMeta includeRawPayload stats row).Only (BatchEffect tableMeta typedBatch) := by
  refine Prog.only_bind (Prog.only_attempt (Prog.only_perform.mpr (.load (by simpa using hrow)))) fun r => ?_
  rcases r with (e | e | e | e | e) | n
  · change Prog.Only _ (if classifyError e = .noRetry then _ else _)
    split
    · exact Prog.only_pure
    · exact Prog.only_fail
  · exact Prog.only_fail
  · exact Prog.only_fail
  · exact Prog.only_fail
  · exact Prog.only_fail
  · exact Prog.only_pure

lemma only_loadBatch {includeRawPayload : Bool} :
    (loadBatch tableMeta includeRawPayload typedBatch).Only (BatchEffect tableMeta typedBatch) := by
  unfold loadBatch
  split
  · exact Prog.only_pure
  · refine Prog.only_bind (Prog.only_attempt (Prog.only_perform.mpr (.load fun _ h => h))) fun r => ?_
    rcases r with (e | e | e | e | e) | n
    · change Prog.Only _ (if classifyError e = .critical then _ else _)
      split
      · exact Prog.only_fail
      · exact Prog.only_foldlM (fun _ _ hrow => only_loadRow hrow) _
    · exact Prog.only_fail
    · exact Prog.only_fail
    · exact Prog.only_fail
    · exact Prog.only_fail
    · exact Prog.only_pure

lemma only_tryBatch : (tryBatch cfg tableMeta batchNo typedBatch).Only (BatchEffect tableMeta typedBatch) :=
  Prog.only_bind only_loadBatch fun _ => Prog.only_bind only_insertRejects fun _ =>
    Prog.only_bind (Prog.only_perform.mpr (.upsertTableState rfl)) fun _ =>
      Prog.only_bind only_recordRejected fun _ => Prog.only_pure

lemma only_retryTurn {again : PgError → Action Counters}
    (hagain : ∀ e, (again e).Only (BatchEffect tableMeta typedBatch)) :
    (retryTurn cfg tableMeta batchNo typedBatch again).Only (BatchEffect tableMeta typedBatch) := by
  refine Prog.only_bind (Prog.only_attempt only_tryBatch) fun r => ?_
  rcases r with (e | e | e | e | e) | stats
  · cases hclass : classifyError e with
    | critical =>
      simp only [hclass]
      exact Prog.only_bind only_safeAuditStatus fun _ => Prog.only_fail
    | noRetry =>
      simp only [hclass]
      exact Prog.only_bind (Prog.only_perform.mpr .insertReject) fun _ =>
        Prog.only_bind (Prog.only_perform.mpr (.upsertTableState rfl)) fun _ => Prog.only_pure
    | transient =>
      simp only [hclass]
      exact hagain e
  · exact Prog.only_fail
  · exact Prog.only_fail
  · exact Prog.only_fail
  · exact Prog.only_fail
  · exact Prog.only_pure

lemma only_loadWithRetry {left : Nat} :
    (loadWithRetry cfg tableMeta batchNo typedBatch left).Only (BatchEffect tableMeta typedBatch) := by
  induction left with
  | zero => exact only_retryTurn fun _ => Prog.only_bind only_safeAuditStatus fun _ => Prog.only_fail
  | succ left ih => exact only_retryTurn fun _ => ih

lemma only_processResults {progress : Nat × Counters} {results : List (Row × TransformResult)} :
    (processResults cfg mode tableMeta progress results).Only
      (BatchEffect tableMeta (results.filterMap typedRow?)) := by
  refine Prog.only_bind only_insertRejects fun _ => Prog.only_bind only_recordRejected fun _ => ?_
  split
  · exact Prog.only_bind only_checkThreshold fun _ => Prog.only_pure
  · exact Prog.only_bind only_loadWithRetry fun _ => Prog.only_bind only_checkThreshold fun _ => Prog.only_pure

end Only

end

/-! A world outside of the worker that answers by a script. -/

/-- What the extractor yields, and the errors of the load statements after those that were committed. -/
structure Script where
  extraction : TableMeta → Option String → Option Int → Extraction
  loadError : List Statement → TableMeta → List Row → Option PgError

def refusal (sqlstate : String) : PgError := ⟨"ProgrammingError", .programming, some sqlstate, none, "refused"⟩

def uniqueViolation : PgError := ⟨"UniqueViolation", .integrity, some "23505", none, "duplicate key value"⟩

def Script.load (S : Script) (tableMeta : TableMeta) (rows : List Row) (w : World) : World × Except PyError Nat :=
  match ((upsertRefused tableMeta).map refusal).or (S.loadError w.statements tableMeta rows) with
  | some e => (w, .error (.pg e))
  | none =>
    let (target, changed) := executeMany tableMeta rows w.target
    ({ w with target := target, statements := w.statements ++ [⟨tableMeta, rows, changed⟩] }, .ok changed.length)

/-- Every call but a load succeeds, and a run is created once. -/
def Script.world (S : Script) : {γ : Type} → Effect γ → World → Option (World × Except PyError γ)
  | _, .getRun, w => some (w, .ok w.run)
  | _, .getResumeState, w => some (w, .ok (resumeState w.tables))
  | _, .createRun run, w =>
    if w.run = none then some ({ w with run := some run }, .ok ()) else some (w, .error (.pg uniqueViolation))
  | _, .updateRunStatus status summary, w => some ({ w with run := w.run.map (·.updated status summary) }, .ok ())
  | _, .upsertTableState key u, w => some ({ w with tables := EtlWorker.upsertTableState w.tables key u }, .ok ())
  | _, .insertReject record, w => some ({ w with rejects := w.rejects ++ [record] }, .ok ())
  | _, .extract tableMeta lastPk limit, w =>
    some ({ w with extractions := w.extractions ++ [(tableMeta, (S.extraction tableMeta lastPk limit).batches)] },
      .ok (S.extraction tableMeta lastPk limit))
  | _, .load tableMeta rows, w => some (S.load tableMeta rows w)
  | _, .tryAdvisoryLock, w => some (w, .ok true)
  | _, .connectControl, w => some (w, .ok ())
  | _, .preflightTableStatePk, w => some (w, .ok ())
  | _, .preflightTableLineage _, w => some (w, .ok ())
  | _, .connect, w => some (w, .ok ())
  | _, .releaseLock, w => some (w, .ok ())

lemma Script.answers_load {S : Script} {tableMeta : TableMeta} {rows : List Row} {w w' : World}
    {r : Except PyError Nat} (h : S.load tableMeta rows w = (w', r)) :
    outside.answer () (.load tableMeta rows) w w' r := by
  unfold Script.load at h
  cases hrefused : upsertRefused tableMeta with
  | some sqlstate =>
    simp only [hrefused, Option.map_some, Option.some_or] at h
    cases h
    exact ⟨trivial, rfl⟩
  | none =>
    simp only [hrefused, Option.map_none, Option.none_or] at h
    cases herror : S.loadError w.statements tableMeta rows with
    | some e =>
      simp only [herror] at h
      cases h
      exact ⟨trivial, rfl⟩
    | none =>
      simp only [herror] at h
      cases h
      exact ⟨hrefused, rfl, rfl⟩

/-- The script is a world that the worker may meet, and its audit tables take every write. -/
lemma Script.answers (S : Script) {γ : Type} (e : Effect γ) (w w' : World) (r : Except PyError γ)
    (h : S.world e w = some (w', r)) : outside.answer () e w w' r ∧ AuditsSucceed e w r := by
  cases e with
  | load tableMeta rows => exact ⟨S.answers_load (Option.some.inj h), fun hfalse => hfalse.elim⟩
  | createRun run =>
    simp only [Script.world] at h
    split at h
    · rename_i hnone
      cases h
      exact ⟨⟨hnone, rfl⟩, fun hfalse => hfalse.elim⟩
    · cases h
      exact ⟨⟨trivial, rfl⟩, fun hfalse => hfalse.elim⟩
  | getResumeState =>
    cases h
    exact ⟨⟨rfl, w.tables, .refl _, rfl⟩, fun _ => ⟨_, rfl⟩⟩
  | getRun =>
    cases h
    exact ⟨⟨rfl, rfl⟩, fun _ => ⟨_, rfl⟩⟩
  | _ =>
    cases h
    exact ⟨rfl, fun _ => ⟨_, rfl⟩⟩

/-- A finished call of the worker in this world. -/
lemma Script.call {S : Script} {X : Externals} {cfg : RunnerConfig} {w w' : World} {out : Except PyError RunOutcome}
    {C : {γ : Type} → Effect γ → World → Except PyError γ → Prop}
    (hC : ∀ {γ : Type} (e : Effect γ) (w w' : World) (r : Except PyError γ), S.world e w = some (w', r) → C e w r)
    (h : (runOrchestrator X cfg).interp S.world w = some (w', out)) :
    Exec (outside.restrict C) () (runOrchestrator X cfg) w w' out :=
  exec_interp (M := outside.restrict C) (fun e w w' r hans => ⟨(S.answers e w w' r hans).1, hC e w w' r hans⟩) h

namespace Sample

def externals : Externals where
  castValue value _ _ := .ok (value, none)
  contentHash row := String.intercalate "," (row.map fun p => p.2.text)

def company : TableMeta where
  name := "COMPANY"
  sourceSchema := "workcube_mikrolink"
  sourceYear := none
  columns := [{ name := "company_id", pgType := "BIGINT", nullable := false }]
  idempotencyKey := ["company_id"]

def row (n : Int) : Row := [("company_id", .int n)]

/-- Nothing of the run, and nothing in the target. -/
def fresh : World := ⟨none, [], [], fun _ => none, [], []⟩

def yields (tables : List (TableMeta × List (List Row))) (loadError : List Statement → TableMeta → List Row → Option PgError) :
    Script where
  extraction tableMeta _ _ := ⟨(tables.lookup tableMeta).getD [], none⟩
  loadError := loadError

lemma fresh_fresh : Fresh fresh := ⟨rfl, rfl, rfl, rfl, rfl⟩

lemma result_of_any {α : Type} {result : Option α} {p : α → Bool} (h : result.any p = true) :
    ∃ a, result = some a ∧ p a = true := by
  cases result with
  | none => cases h
  | some a => exact ⟨a, rfl, h⟩

end Sample

end PlatformGitops.EtlWorker
