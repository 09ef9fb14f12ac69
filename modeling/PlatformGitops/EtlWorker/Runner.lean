import PlatformGitops.EtlWorker.Effects

/-! A run of the worker from its lock to its outcome. -/

namespace PlatformGitops.EtlWorker

open Library

inductive RunOutcome
  | success
  | failed
  | aborted
  | lockContended
  | runExists
deriving DecidableEq, Repr

structure RunnerConfig where
  mode : Option String
  manifest : List TableMeta
  resume : Bool := false
  maxRejectRatio : PyFloat := .finite 0
  limit : Option Int := none
  sourceDatabase : String := "workcube_mikrolink"
  workerVersion : String := "0.1.0"
  gitSha : Option String := none
  contractVersion : Option String := none
  annexVersion : Option String := none
  startedBy : Option String := none
  includeRawPayload : Bool := false
  /-- The retries that the backoff policy allows; how long it waits before each has no effect on the database. -/
  maxAttempts : Nat := 5

/-- The rows of this call so far: those rejected, and all that were tried. -/
structure Counters where
  rejected : Nat := 0
  processed : Nat := 0
deriving DecidableEq, Repr

def Counters.add (counters more : Counters) : Counters :=
  ⟨counters.rejected + more.rejected, counters.processed + more.processed⟩

def lastPkFromBatch (batch : List Row) (tableMeta : TableMeta) : Option String :=
  batch.getLast?.map (makeSourcePk · tableMeta.idempotencyKey)

def enrichReject (r : LoadReject) : RejectRecord :=
  ⟨r.tableName, r.sourceSchema, r.sourceYear, r.sourcePk, r.columnName, r.rejectReason, r.severity, r.sourceValue,
    r.pgErrorCode, r.pgErrorMessage, r.rawPayload⟩

section

variable (X : Externals) (cfg : RunnerConfig) (mode : String) (tableMeta : TableMeta)

def transformReject (rawRow : Row) (reject : Reject) : RejectRecord where
  tableName := tableMeta.name
  sourceSchema := tableMeta.sourceSchema
  sourceYear := tableMeta.sourceYear
  sourcePk := none
  columnName := some reject.column
  rejectReason := reject.reason
  severity := .error
  sourceValue := some reject.value
  pgErrorCode := none
  pgErrorMessage := none
  rawPayload := if cfg.includeRawPayload then some rawRow else none

def typedRow? : Row × TransformResult → Option Row
  | (_, .typed row _ _) => some row
  | _ => none

def transformReject? : Row × TransformResult → Option RejectRecord
  | (rawRow, .reject reject) => some (transformReject cfg tableMeta rawRow reject)
  | _ => none

/-- A batch through the transformation: every row with its result, up to an exception. -/
def transformBatch (rawBatch : List Row) : Except PyError (List (Row × TransformResult)) :=
  rawBatch.mapM fun rawRow => (rawRow, ·) <$> transformRow X rawRow tableMeta

def checkThreshold (counters : Counters) : Action Unit := do
  let policy : ThresholdPolicy := ⟨mode, cfg.maxRejectRatio⟩
  if ← .ofExcept (policy.shouldAbort counters.rejected counters.processed) then
    Action.safeAuditStatus .aborted ("threshold breach mode=" ++ mode ++ " rejected=" ++ toString counters.rejected ++
      " processed=" ++ toString counters.processed)
    .fail (.thresholdBreach ("threshold breach mode=" ++ mode ++ " rejected=" ++ toString counters.rejected ++ "/" ++
      toString counters.processed))
  else pure ()

def recordRejected (batchNo rejected : Nat) : Action Unit :=
  if rejected = 0 then pure () else Action.recordBatchFailure tableMeta.key batchNo rejected

/-- One try of a batch, with the accounts of it. -/
def tryBatch (batchNo : Nat) (typedBatch : List Row) : Action LoadStats := do
  let stats ← loadBatch tableMeta cfg.includeRawPayload typedBatch
  Action.insertRejects (stats.rejects.map enrichReject)
  Action.recordBatchSuccess tableMeta.key (stats.inserted + stats.updated) (lastPkFromBatch typedBatch tableMeta) batchNo
  recordRejected tableMeta batchNo stats.rejected
  pure stats

def batchReject (e : PgError) : RejectRecord where
  tableName := tableMeta.name
  sourceSchema := tableMeta.sourceSchema
  sourceYear := tableMeta.sourceYear
  sourcePk := none
  columnName := none
  rejectReason := "BATCH_LEVEL_NO_RETRY"
  severity := .error
  sourceValue := none
  pgErrorCode := sqlstateOf e
  pgErrorMessage := some (described e)
  rawPayload := none

/-- One turn of the retry loop, with what comes after a transient error. -/
def retryTurn (batchNo : Nat) (typedBatch : List Row) (again : PgError → Action Counters) : Action Counters := do
  match ← (tryBatch cfg tableMeta batchNo typedBatch).attempt with
  | .ok stats => pure ⟨stats.rejected, typedBatch.length⟩
  | .error (.pg e) =>
    match classifyError e with
    | .critical =>
      Action.safeAuditStatus .aborted ("CRITICAL " ++ (sqlstateOf e).getD "None" ++ ": " ++ cut 300 (described e))
      .fail (.critical (described e))
    | .noRetry =>
      .perform (.insertReject (batchReject tableMeta e).stored)
      Action.recordBatchFailure tableMeta.key batchNo typedBatch.length
      pure ⟨typedBatch.length, typedBatch.length⟩
    | .transient => again e
  | .error e => .fail e

def retriesExhausted (e : PgError) : Action Counters := do
  Action.safeAuditStatus .aborted ("max retries exhausted: " ++ cut 300 (described e))
  .fail (.critical "max retries exhausted")

def loadWithRetry (batchNo : Nat) (typedBatch : List Row) : Nat → Action Counters
  | 0 => retryTurn cfg tableMeta batchNo typedBatch retriesExhausted
  | left + 1 => retryTurn cfg tableMeta batchNo typedBatch fun _ => loadWithRetry batchNo typedBatch left

/-- The rows of a batch as they were transformed, after the batches and rows that were counted so far. -/
def processResults (progress : Nat × Counters) (results : List (Row × TransformResult)) : Action (Nat × Counters) := do
  let batchNo := progress.1 + 1
  let typedBatch := results.filterMap typedRow?
  let transformRejects := results.filterMap (transformReject? cfg tableMeta)
  Action.insertRejects transformRejects
  recordRejected tableMeta batchNo transformRejects.length
  let counters := progress.2.add ⟨transformRejects.length, transformRejects.length⟩
  if typedBatch = [] then
    checkThreshold cfg mode counters
    pure (batchNo, counters)
  else do
    let loaded ← loadWithRetry cfg tableMeta batchNo typedBatch cfg.maxAttempts
    let counters := counters.add loaded
    checkThreshold cfg mode counters
    pure (batchNo, counters)

def processBatch (progress : Nat × Counters) (rawBatch : List Row) : Action (Nat × Counters) := do
  let results ← .ofExcept (transformBatch X tableMeta rawBatch)
  processResults cfg mode tableMeta progress results

end

section

variable (X : Externals) (cfg : RunnerConfig)

/-- The extractor ends with an exception, or the table is valid. -/
def finishTable (tableMeta : TableMeta) (extraction : Extraction) (progress : Nat × Counters) : Action Counters :=
  match extraction.failure with
  | some e => .fail e
  | none => do
    Action.upsertTableState tableMeta.key { status := .validated, batchNo := progress.1 }
    pure progress.2

def attemptTable (mode : String) (existing : Option TableState) (counters : Counters) (tableMeta : TableMeta) :
    Action Counters := do
  Action.upsertTableState tableMeta.key { status := .extracting }
  let extraction ← .perform (.extract tableMeta (existing.bind (·.lastPk)) cfg.limit)
  let progress ← extraction.batches.foldlM (processBatch X cfg mode tableMeta)
    ((existing.map (·.batchNo)).getD 0, counters)
  finishTable tableMeta extraction progress

def processTable (mode : String) (state : Dict String TableState) (counters : Counters) (tableMeta : TableMeta) :
    Action Counters :=
  if (state.lookup (stateKey tableMeta.key)).any (·.status = .validated) then pure counters
  else attemptTable X cfg mode (state.lookup (stateKey tableMeta.key)) counters tableMeta

def runTables (mode : String) (state : Dict String TableState) : Action Unit := do
  let _ ← cfg.manifest.foldlM (processTable X cfg mode state) {}
  .perform (.updateRunStatus .success none)

def newRun (dbMode : String) : MigrationRun where
  mode := dbMode
  sourceDatabase := cfg.sourceDatabase
  workerVersion := some cfg.workerVersion
  gitSha := cfg.gitSha
  contractVersion := cfg.contractVersion
  annexVersion := cfg.annexVersion
  startedBy := cfg.startedBy

/-- The mode of the run and what is known of its tables, or the outcome where the run is not this call's to drive. -/
def claimRun : Action (Except RunOutcome (String × Dict String TableState)) :=
  if cfg.resume then do
    match ← .perform .getRun with
    | none => pure (.error .failed)
    | some run =>
      let state ← .perform .getResumeState
      pure (.ok (run.mode, state))
  else
    match cfg.mode with
    | none => pure (.error .failed)
    | some mode => do
      let dbMode ← .ofExcept (normalizeMode mode)
      match ← (Prog.perform (.createRun (newRun cfg dbMode)) : Action Unit).attempt with
      | .ok () => pure (.ok (mode, []))
      | .error (.pg e) => if e.typeName = "UniqueViolation" then pure (.error .runExists) else .fail (.pg e)
      | .error e => .fail e

def PyError.text : PyError → String
  | .pg e => e.message
  | .schemaContract message => message
  | .critical message => message
  | .thresholdBreach message => message
  | .other message => message

/-- The tables of a run that is this call's own: only now a failure is written to it. -/
def runOwned (mode : String) (state : Dict String TableState) : Action RunOutcome := do
  match ← (runTables X cfg mode state).attempt with
  | .ok () => pure .success
  | .error (.critical _) => pure .aborted
  | .error (.thresholdBreach _) => pure .aborted
  | .error (.schemaContract _) => pure .failed
  | .error e =>
    Action.safeAuditStatus .failed (cut 500 e.text)
    pure .failed

def runLocked : Action RunOutcome := do
  .perform .preflightTableStatePk
  .perform (.preflightTableLineage (cfg.manifest.map (·.name)))
  .perform .connect
  match ← claimRun cfg with
  | .error outcome => pure outcome
  | .ok (mode, state) => runOwned X cfg mode state

def runOrchestrator : Action RunOutcome := do
  match ← (do
    Prog.perform .connectControl
    .perform .tryAdvisoryLock : Action Bool).attempt with
  | .error _ => pure .failed
  | .ok false => pure .lockContended
  | .ok true =>
    let outcome ← (runLocked X cfg).attempt
    let _ ← (Prog.perform .releaseLock : Action Unit).attempt
    pure (outcome.toOption.getD .failed)

end

end PlatformGitops.EtlWorker
