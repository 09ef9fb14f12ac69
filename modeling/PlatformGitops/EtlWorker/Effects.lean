import PlatformGitops.EtlWorker.Audit
import PlatformGitops.Library.Guarded
import PlatformGitops.EtlWorker.Retry
import Mathlib.Data.List.Perm.Basic
import Mathlib.Logic.Function.Basic

/-! The target tables, and everything a run of the worker calls outside of itself. -/

namespace PlatformGitops.EtlWorker

open Library

section

variable (tableMeta : TableMeta)

def auditColumns : List String :=
  "source_schema" :: (tableMeta.sourceYear.map fun _ => "source_year").toList ++ ["source_table", "source_pk", "content_hash"]

def conflictColumns : List String :=
  "source_schema" :: (tableMeta.sourceYear.map fun _ => "source_year").toList ++ ["source_table", "source_pk"]

def allColumns : List String := tableMeta.columns.map (·.name) ++ auditColumns tableMeta

def updateColumns : List String := (allColumns tableMeta).filter (· ∉ conflictColumns tableMeta)

/-- The SQLSTATE with which the upsert of the table is refused before it looks at a row: a column named twice, or conflict
columns with no unique index on them. The tables have one, over the schema, the table and the key of the source. -/
def upsertRefused : Option String :=
  if ¬ ((allColumns tableMeta).map lower).Nodup then some "42701"
  else if tableMeta.sourceYear.isSome then some "42P10"
  else none

/-- Where the unique index of the target tables keeps a row. -/
structure TargetKey where
  table : String
  sourceSchema : Value
  sourceTable : Value
  sourcePk : Value
deriving DecidableEq, Repr

/-- A row of a target table, by column. -/
abbrev StoredRow := String → Value

abbrev Target := TargetKey → Option StoredRow

def targetKey (row : Row) : TargetKey :=
  ⟨lower tableMeta.name, row.get "source_schema", row.get "source_table", row.get "source_pk"⟩

/-- The old row with the values of these columns of the new one. -/
def written (columns : List String) (row : Row) (old : StoredRow) : StoredRow := fun column =>
  match columns.find? (lower · = column) with
  | some name => row.get name
  | none => old column

/-- What the upsert stores where this row is found, if it stores anything. -/
def upsertedRow (row : Row) : Option StoredRow → Option StoredRow
  | none => some (written (allColumns tableMeta) row fun _ => .none)
  | some old => if old "content_hash" = row.get "content_hash" then none
      else some (written (updateColumns tableMeta) row old)

/-- The upserts of the rows one after the other, with the keys of those that changed the target. -/
def executeMany : List Row → Target → Target × List TargetKey
  | [], target => (target, [])
  | row :: rows, target =>
    match upsertedRow tableMeta row (target (targetKey tableMeta row)) with
    | none => executeMany rows target
    | some stored =>
      let (out, changed) := executeMany rows (Function.update target (targetKey tableMeta row) (some stored))
      (out, targetKey tableMeta row :: changed)

end

section

variable {tableMeta : TableMeta}

/-- No two columns of the statement are one column of the table. -/
lemma nodup_of_accepted (h : upsertRefused tableMeta = none) : ((allColumns tableMeta).map lower).Nodup := by
  by_contra hdup
  simp [upsertRefused, hdup] at h

lemma sourceYear_of_accepted (h : upsertRefused tableMeta = none) : tableMeta.sourceYear = none := by
  have hdup := nodup_of_accepted h
  cases hyear : tableMeta.sourceYear with
  | none => rfl
  | some year => simp [upsertRefused, hdup, hyear] at h

lemma written_column {columns : List String} {row : Row} {old : StoredRow} {column : String}
    (hcolumns : (columns.map lower).Nodup) (hmem : column ∈ columns) (hlower : lower column = column) :
    written columns row old column = row.get column := by
  unfold written
  cases hfind : columns.find? (lower · = column) with
  | none => exact absurd hlower (by simpa using List.find?_eq_none.mp hfind column hmem)
  | some name =>
    have hname : lower name = lower column := by simpa [hlower] using List.find?_some hfind
    rw [List.inj_on_of_nodup_map hcolumns (List.mem_of_find?_eq_some hfind) hmem hname]

lemma contentHash_mem : "content_hash" ∈ allColumns tableMeta ∧ "content_hash" ∈ updateColumns tableMeta := by
  have hall : "content_hash" ∈ allColumns tableMeta := by simp [allColumns, auditColumns]
  refine ⟨hall, List.mem_filter.mpr ⟨hall, ?_⟩⟩
  cases htable : tableMeta.sourceYear <;> simp [conflictColumns, htable]

/-- Whatever the upsert finds, the row that is there afterwards has the digest of the new one. -/
lemma upsertedRow_contentHash (h : upsertRefused tableMeta = none) (row : Row) (old : Option StoredRow) :
    ∃ stored, (upsertedRow tableMeta row old).or old = some stored ∧ stored "content_hash" = row.get "content_hash" := by
  have hcolumns := nodup_of_accepted h
  have hupdate : ((updateColumns tableMeta).map lower).Nodup :=
    hcolumns.sublist (List.filter_sublist.map _)
  have hlower : lower "content_hash" = "content_hash" := by decide
  cases old with
  | none => exact ⟨_, rfl, written_column hcolumns contentHash_mem.1 hlower⟩
  | some old =>
    by_cases hsame : old "content_hash" = row.get "content_hash"
    · exact ⟨old, by simp [upsertedRow, hsame], hsame⟩
    · exact ⟨written (updateColumns tableMeta) row old, by simp [upsertedRow, hsame], written_column hupdate contentHash_mem.2 hlower⟩

lemma executeMany_cons (row : Row) (rows : List Row) (target : Target) :
    (executeMany tableMeta (row :: rows) target).1 =
      (executeMany tableMeta rows (Function.update target (targetKey tableMeta row)
        ((upsertedRow tableMeta row (target (targetKey tableMeta row))).or (target (targetKey tableMeta row))))).1 := by
  rw [executeMany]
  cases hrow : upsertedRow tableMeta row (target (targetKey tableMeta row)) with
  | none => rw [Option.none_or, Function.update_eq_self]
  | some stored => rfl

lemma executeMany_other {rows : List Row} {target : Target} {k : TargetKey}
    (h : ∀ row ∈ rows, targetKey tableMeta row ≠ k) : (executeMany tableMeta rows target).1 k = target k := by
  induction rows generalizing target with
  | nil => rfl
  | cons row rows ih =>
    obtain ⟨hrow, hrows⟩ := List.forall_mem_cons.mp h
    rw [executeMany_cons, ih hrows, Function.update_of_ne hrow.symm]

/-- The target holds the row under its key, with its digest. -/
def Holds (tableMeta : TableMeta) (target : Target) (row : Row) : Prop :=
  upsertRefused tableMeta = none ∧
    ∃ stored, target (targetKey tableMeta row) = some stored ∧ stored "content_hash" = row.get "content_hash"

lemma Holds.of_eq {target target' : Target} {row : Row} (h : Holds tableMeta target row)
    (heq : target' (targetKey tableMeta row) = target (targetKey tableMeta row)) : Holds tableMeta target' row := by
  unfold Holds
  rw [heq]
  exact h

lemma executeMany_holds {rows : List Row} {target : Target} (h : upsertRefused tableMeta = none)
    (hkeys : (rows.map (targetKey tableMeta)).Nodup) :
    ∀ row ∈ rows, Holds tableMeta (executeMany tableMeta rows target).1 row := by
  induction rows generalizing target with
  | nil => simp
  | cons row rows ih =>
    obtain ⟨hrow, hrows⟩ := List.nodup_cons.mp hkeys
    rw [executeMany_cons]
    refine List.forall_mem_cons.mpr ⟨⟨h, ?_⟩, ih hrows⟩
    have hother : ∀ other ∈ rows, targetKey tableMeta other ≠ targetKey tableMeta row := fun other hmem hsame =>
      hrow (hsame ▸ List.mem_map_of_mem hmem)
    rw [executeMany_other hother, Function.update_self]
    exact upsertedRow_contentHash h row _

end

/-- What a call of the extractor yields: its batches, and the exception that ends them if one does. -/
structure Extraction where
  batches : List (List Row)
  failure : Option PyError
deriving DecidableEq, Repr

/-- A statement of the run that was committed on a target table. -/
structure Statement where
  tableMeta : TableMeta
  rows : List Row
  changed : List TargetKey

/-- The database as far as it is about one run, with a journal of what the run extracted and committed. -/
structure World where
  run : Option MigrationRun
  tables : Dict TableKey TableState
  rejects : List RejectRecord
  target : Target
  extractions : List (TableMeta × List (List Row))
  statements : List Statement

inductive Effect : Type → Type
  | connectControl : Effect Unit
  | tryAdvisoryLock : Effect Bool
  | preflightTableStatePk : Effect Unit
  | preflightTableLineage (tableNames : List String) : Effect Unit
  | connect : Effect Unit
  | getRun : Effect (Option MigrationRun)
  | getResumeState : Effect (Dict String TableState)
  | createRun (run : MigrationRun) : Effect Unit
  | updateRunStatus (status : RunStatus) (errorSummary : Option String) : Effect Unit
  | upsertTableState (key : TableKey) (u : TableState) : Effect Unit
  | insertReject (record : RejectRecord) : Effect Unit
  | extract (tableMeta : TableMeta) (lastPk : Option String) (limit : Option Int) : Effect Extraction
  | load (tableMeta : TableMeta) (rows : List Row) : Effect Nat
  | releaseLock : Effect Unit

abbrev Action := Prog PyError Effect

/-- The writes to the audit tables of a run that exists. -/
def Effect.Audits {α : Type} : Effect α → Prop
  | .updateRunStatus _ _ => True
  | .upsertTableState _ _ => True
  | .insertReject _ => True
  | _ => False

/-- The effect succeeds with this answer. A load is one transaction on the connection of its own. -/
def Succeeds {α : Type} : Effect α → World → World → α → Prop
  | .getRun, w, w', run => w' = w ∧ run = w.run
  | .getResumeState, w, w', state => w' = w ∧ ∃ rows, rows.Perm w.tables ∧ state = resumeState rows
  | .createRun run, w, w', _ => w.run = none ∧ w' = { w with run := some run }
  | .updateRunStatus status summary, w, w', _ => w' = { w with run := w.run.map (·.updated status summary) }
  | .upsertTableState key u, w, w', _ => w' = { w with tables := EtlWorker.upsertTableState w.tables key u }
  | .insertReject record, w, w', _ => w' = { w with rejects := w.rejects ++ [record] }
  | .extract tableMeta _ _, w, w', extraction =>
    w' = { w with extractions := w.extractions ++ [(tableMeta, extraction.batches)] }
  | .load tableMeta rows, w, w', rowcount =>
    upsertRefused tableMeta = none ∧ rowcount = (executeMany tableMeta rows w.target).2.length ∧
      w' = { w with
        target := (executeMany tableMeta rows w.target).1
        statements := w.statements ++ [⟨tableMeta, rows, (executeMany tableMeta rows w.target).2⟩] }
  | _, w, w', _ => w' = w

/-- The errors that come from outside of the worker. -/
def PyError.External : PyError → Prop
  | .pg _ => True
  | .schemaContract _ => True
  | .other _ => True
  | _ => False

/-- Every call may fail, and then it has changed nothing. -/
def outside : Machine PyError Effect World Unit where
  answer _ e w w' r := match r with
    | .ok a => Succeeds e w w' a
    | .error err => err.External ∧ w' = w

namespace Action

def upsertTableState (key : TableKey) (u : TableState) : Action Unit := .perform (.upsertTableState key u)

/-- A row each is a statement of its own on the autocommit connection. -/
def insertRejects (records : List RejectRecord) : Action Unit :=
  records.foldlM (fun _ record => .perform (.insertReject record.stored)) ()

def recordBatchSuccess (key : TableKey) (rowsLoaded : Nat) (lastPk : Option String) (batchNo : Nat) : Action Unit :=
  upsertTableState key { status := .loading, rowsLoaded := rowsLoaded, lastPk := lastPk, batchNo := batchNo }

def recordBatchFailure (key : TableKey) (batchNo rowsRejected : Nat) : Action Unit :=
  upsertTableState key { status := .loading, rowsRejected := rowsRejected, batchNo := batchNo }

/-- The status of the run is written on the way out of a failure, which an error of its own does not hide. -/
def safeAuditStatus (status : RunStatus) (errorSummary : String) : Action Unit := do
  let _ ← (Prog.perform (.updateRunStatus status (some errorSummary)) : Action Unit).attempt
  pure ()

end Action

end PlatformGitops.EtlWorker

/-! A batch of typed rows is loaded at once, and row by row where that fails. -/

namespace PlatformGitops.EtlWorker

open Library

/-- A rejected row, without the run it belongs to. -/
structure LoadReject where
  tableName : String
  sourceSchema : String
  sourceYear : Option Int
  sourcePk : Option String
  columnName : Option String
  rejectReason : String
  severity : Severity
  pgErrorCode : Option String
  pgErrorMessage : Option String
  sourceValue : Option String
  rawPayload : Option Row
deriving DecidableEq, Repr

structure LoadStats where
  inserted : Nat := 0
  updated : Nat := 0
  rejected : Nat := 0
  rejects : List LoadReject := []
  bulkFallback : Bool := false
deriving DecidableEq, Repr

def cut (n : Nat) (s : String) : String := String.ofList (s.toList.take n)

/-- The message that the description of an error keeps. -/
def described (e : PgError) : String := cut 500 e.message

section

variable (tableMeta : TableMeta) (includeRawPayload : Bool)

def loadReject (row : Row) (e : PgError) : LoadReject where
  tableName := tableMeta.name
  sourceSchema := tableMeta.sourceSchema
  sourceYear := tableMeta.sourceYear
  sourcePk := match row.get "source_pk" with
    | .none => none
    | v => some v.text
  columnName := none
  rejectReason := "LOAD_NO_RETRY"
  severity := .error
  pgErrorCode := sqlstateOf e
  pgErrorMessage := some (described e)
  sourceValue := none
  rawPayload := if includeRawPayload then some row else none

def loadRow (stats : LoadStats) (row : Row) : Action LoadStats := do
  match ← (Prog.perform (.load tableMeta [row]) : Action Nat).attempt with
  | .ok n => pure { stats with inserted := stats.inserted + n }
  | .error (.pg e) =>
    if classifyError e = .noRetry then
      pure { stats with
        rejects := stats.rejects ++ [loadReject tableMeta includeRawPayload row e]
        rejected := stats.rejected + 1 }
    else .fail (.pg e)
  | .error e => .fail e

def loadBatch (rows : List Row) : Action LoadStats :=
  if rows = [] then pure {}
  else do
    match ← (Prog.perform (.load tableMeta rows) : Action Nat).attempt with
    | .ok n => pure { inserted := n }
    | .error (.pg e) =>
      if classifyError e = .critical then .fail (.pg e)
      else rows.foldlM (loadRow tableMeta includeRawPayload) { bulkFallback := true }
    | .error e => .fail e

end

end PlatformGitops.EtlWorker
