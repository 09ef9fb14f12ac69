import PlatformGitops.EtlWorker.Transform

/-! What the audit tables hold of one run. The rows of other runs are left out: every statement names the run. -/

namespace PlatformGitops.EtlWorker

open Library

inductive RunStatus
  | running
  | success
  | failed
  | aborted
deriving DecidableEq, Repr

structure MigrationRun where
  mode : String
  status : RunStatus := .running
  sourceDatabase : String
  workerVersion : Option String
  gitSha : Option String
  contractVersion : Option String
  annexVersion : Option String
  startedBy : Option String
  errorSummary : Option String := none
deriving DecidableEq, Repr

def MigrationRun.updated (run : MigrationRun) (status : RunStatus) (errorSummary : Option String) : MigrationRun :=
  { run with status := status, errorSummary := errorSummary }

inductive TableStatus
  | pending
  | extracting
  | loading
  | validated
  | failed
deriving DecidableEq, Repr

structure TableState where
  status : TableStatus
  rowsExtracted : Nat := 0
  rowsLoaded : Nat := 0
  rowsRejected : Nat := 0
  lastPk : Option String := none
  batchNo : Nat := 0
deriving DecidableEq, Repr

/-- The row that an upsert leaves: counters are added up, and a last key that is not given stays. -/
def TableState.updated (row u : TableState) : TableState where
  status := u.status
  rowsExtracted := row.rowsExtracted + u.rowsExtracted
  rowsLoaded := row.rowsLoaded + u.rowsLoaded
  rowsRejected := row.rowsRejected + u.rowsRejected
  lastPk := u.lastPk.or row.lastPk
  batchNo := max row.batchNo u.batchNo

def upsertTableState (tables : Dict TableKey TableState) (key : TableKey) (u : TableState) : Dict TableKey TableState :=
  match tables.lookup key with
  | some row => tables.set key (row.updated u)
  | none => tables.set key u

inductive Severity
  | warn
  | error
  | critical
deriving DecidableEq, Repr

structure RejectRecord where
  tableName : String
  sourceSchema : String
  sourceYear : Option Int
  sourcePk : Option String
  columnName : Option String
  rejectReason : String
  severity : Severity
  sourceValue : Option String
  pgErrorCode : Option String
  pgErrorMessage : Option String
  rawPayload : Option Row
deriving DecidableEq, Repr

def RejectRecord.table (record : RejectRecord) : TableKey := ⟨record.tableName, record.sourceSchema, record.sourceYear⟩

/-- The record as it is stored: an empty payload is none. -/
def RejectRecord.stored (record : RejectRecord) : RejectRecord :=
  { record with rawPayload := record.rawPayload.filter (· ≠ []) }

/-- The tables of the run by the text that the worker keys them with; of two rows with one text the later stands. -/
def stateKey (key : TableKey) : String :=
  key.name ++ "|" ++ key.sourceSchema ++ "|" ++ (key.sourceYear.map toString).getD ""

def resumeState (rows : List (TableKey × TableState)) : Dict String TableState :=
  rows.foldl (fun out row => out.set (stateKey row.1) row.2) []

lemma lookup_upsertTableState (tables : Dict TableKey TableState) (key other : TableKey) (u : TableState) :
    (upsertTableState tables key u).lookup other =
      if other = key then some (((tables.lookup key).map (·.updated u)).getD u) else tables.lookup other := by
  unfold upsertTableState
  cases tables.lookup key <;> rw [Dict.lookup_set] <;> rfl

lemma unique_upsertTableState {tables : Dict TableKey TableState} (h : tables.Unique) (key : TableKey)
    (u : TableState) : (upsertTableState tables key u).Unique := by
  unfold upsertTableState
  split <;> exact h.set

/-- What the resume state tells of a text is the row of some table with that text. -/
lemma lookup_resumeState {rows : List (TableKey × TableState)} {text : String} {row : TableState}
    (h : (resumeState rows).lookup text = some row) : ∃ key, stateKey key = text ∧ (key, row) ∈ rows := by
  have hfold : ∀ (rows : List (TableKey × TableState)) (out : Dict String TableState),
      (rows.foldl (fun out row => out.set (stateKey row.1) row.2) out).lookup text = some row →
      (∃ key, stateKey key = text ∧ (key, row) ∈ rows) ∨ out.lookup text = some row := by
    intro rows
    induction rows with
    | nil => exact fun out h => Or.inr h
    | cons p rows ih =>
      intro out h
      rcases ih _ h with ⟨key, hkey, hmem⟩ | h
      · exact Or.inl ⟨key, hkey, List.mem_cons_of_mem _ hmem⟩
      · rw [Dict.lookup_set] at h
        split at h
        · rename_i hkey
          cases h
          exact Or.inl ⟨p.1, hkey.symm, List.mem_cons_self⟩
        · exact Or.inr h
  rcases hfold rows [] h with hmem | h
  · exact hmem
  · cases h

end PlatformGitops.EtlWorker
