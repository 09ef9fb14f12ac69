import Mathlib.Data.List.Lex
import PlatformGitops.EtlRows.TypedRow

/-! A table of the source is compared with the rows that the target keeps of it. -/

namespace PlatformGitops.EtlRows

open Library
open EtlWorker (ColumnMeta TableMeta)

inductive ScopeKind
  | full | limited | delta
deriving DecidableEq, Repr

structure ReconcileScope where
  kind : ScopeKind
  limit : Option Int
  orderBy : List String
  checkpointColumn : Option String
  limited_has_limit : kind = .limited → ∃ n ∈ limit, 0 < n
  delta_has_column : kind = .delta → ∃ column ∈ checkpointColumn, column ≠ ""

inductive Verdict
  | unknown | isMatch | rowCountMismatch | sampleMismatch | checksumMismatch | unsupportedDelta
deriving DecidableEq, Repr

structure Sample where
  sourcePk : PyText
  hashPg : Option String
  hashMssql : Option String
  isMatch : Bool
  note : Option String
deriving DecidableEq

structure TableReconcileResult where
  rowCountPg : Nat := 0
  rowCountMssql : Nat := 0
  sampleDiff : List Sample := []
  checksumPg : Option String := none
  checksumMssql : Option String := none
  verdict : Verdict := .unknown
  notes : List String := []
deriving DecidableEq

/-- What a row of the target is compared by. -/
structure StoredHash where
  sourceSchema : String
  sourceYear : Option Int
  sourcePk : String
  contentHash : Option String
deriving DecidableEq

/-- A table of the source; rows that an order does not tell apart may come in any order. -/
structure Source where
  rows : List Row
  ordered : List String → List Row
  ordered_perm : ∀ order, (ordered order).Perm rows

/-- What a comparison may raise: an exception of the transformation, or an error of the source. -/
inductive ReconcileExc
  | py (e : PyExc)
  | sql
deriving DecidableEq

def raising {α : Type} (x : Except PyExc α) : Except ReconcileExc α := x.mapError .py

section Queries

variable (md5 : List UInt8 → String) (source : Source) (target : List StoredHash) (tableMeta : TableMeta)

def fetchScopedRows (order : List String) (limit : Option Int) : Except ReconcileExc (List Row) :=
  -- an empty list of columns is a syntax error
  if tableMeta.columns = [] ∨ order = [] then .error .sql
  else
    match limit with
    | some n => .ok ((source.ordered order).take n.toNat)
    | none => .ok (source.ordered order)

def mssqlCount : Nat := source.rows.length

/-- A placeholder. -/
def mssqlAggregateChecksum : Option String := none

/-- The row is one of the schema, and of the year where the table has one. -/
def inScope (row : StoredHash) : Bool :=
  row.sourceSchema = tableMeta.sourceSchema ∧ (tableMeta.sourceYear.isSome → row.sourceYear = tableMeta.sourceYear)

def pgCountCanonical : Nat := (target.filter (inScope tableMeta)).length

local instance instLawfulBEqPyText : LawfulBEq PyText := inferInstance

/-- The rows in scope under these keys. -/
def foundRows (pks : List PyText) : List StoredHash :=
  target.filter fun row => inScope tableMeta row ∧ ofString row.sourcePk ∈ pks

def pgLookupHashes (pks : List PyText) : Except PyExc (Dict PyText (Option String)) :=
  if pks = [] then .ok []
  -- the keys are sent as UTF-8
  else if ∃ pk ∈ pks, chars? pk = none then .error .unicodeEncodeError
  else .ok (Dict.ofPairs ((foundRows target tableMeta pks).map fun row => (ofString row.sourcePk, row.contentHash)))

def md5Of (hashes : List String) : String := md5 (Text.encode (hashes.flatMap String.toList))

/-- The digest of the digests of these rows, in the order of their keys; one that is missing is skipped. -/
def aggregate (rows : List StoredHash) : Option String :=
  match (rows.insertionSort fun row row' => ofString row.sourcePk ≤ ofString row'.sourcePk).filterMap (·.contentHash) with
  | [] => none
  | hashes => some (md5Of md5 hashes)

def pgAggregateChecksum : Option (List PyText) → Option String
  | none => aggregate md5 (target.filter (inScope tableMeta))
  | some [] => none
  | some pks => aggregate md5 (foundRows target tableMeta pks)

end Queries

section Reconcile

variable (X : Externals) (md5 : List UInt8 → String) (source : Source) (target : List StoredHash) (tableMeta : TableMeta)

def orderOf (scope : ReconcileScope) : List String :=
  if scope.orderBy = [] then tableMeta.idempotencyKey else scope.orderBy

/-- The comparison of one row that is looked up under its key. -/
def limitedSample (pgHashes : Dict PyText (Option String)) (p : PyText × Row) : Except PyExc Sample := do
  let hashPg := (pgHashes.get? p.1).join
  match ← transformRow X p.2 tableMeta with
  | .reject reason _ _ => pure ⟨p.1, hashPg, none, false, some ("transform_reject=" ++ reason)⟩
  | .typed _ hash _ => pure ⟨p.1, hashPg, some hash, hashPg = some hash, none⟩

def hashOf (row : Row) : Except PyExc String := do
  match ← transformRow X row tableMeta with
  | .reject _ _ _ => pure "__transform_reject__"
  | .typed _ hash _ => pure hash

/-- The digests in the order of their keys, of one key the last. -/
def orderedHashes (pks : List PyText) (hashes : List String) : List String :=
  (pks.insertionSort (· ≤ ·)).filterMap fun pk => (Dict.ofPairs (pks.zip hashes)).get? pk

/-- Where there is no key, the rows are ordered by a column of the target. -/
def limitedOrder (scope : ReconcileScope) : List String :=
  if orderOf tableMeta scope = [] then ["source_pk"] else orderOf tableMeta scope

/-- The checksums of the expected rows, if there are any. -/
def withChecksums (expectedRows : List Row) (expectedPks : List PyText) (result : TableReconcileResult) :
    Except ReconcileExc TableReconcileResult :=
  if expectedPks = [] then pure result
  else do
    let hashes ← raising (expectedRows.mapM (hashOf X tableMeta))
    pure { result with
      checksumPg := pgAggregateChecksum md5 target tableMeta (some expectedPks)
      checksumMssql := some (md5Of md5 (orderedHashes expectedPks hashes)) }

def limitedNotes (scope : ReconcileScope) (expectedPks : List PyText) : List String :=
  (if orderOf tableMeta scope = [] then ["no idempotency_key — falling back to source_pk only"] else []) ++
    if expectedPks = [] then ["MSSQL scoped set is empty"] else []

def reconcileLimited (scope : ReconcileScope) : Except ReconcileExc TableReconcileResult := do
  let expectedRows ← fetchScopedRows source tableMeta (limitedOrder tableMeta scope) scope.limit
  let expectedPks ← raising (expectedRows.mapM fun row => makeSourcePk X row tableMeta.idempotencyKey)
  let pgHashes ← raising (pgLookupHashes target tableMeta expectedPks)
  let sampleDiff ← raising (((expectedPks.zip expectedRows).take 10).mapM (limitedSample X tableMeta pgHashes))
  withChecksums X md5 target tableMeta expectedRows expectedPks
    { rowCountPg := pgHashes.length
      rowCountMssql := expectedPks.length
      sampleDiff
      notes := limitedNotes tableMeta scope expectedPks }

def fullSample (pgHashes : Dict PyText (Option String)) (p : PyText × Row) : Except PyExc Sample := do
  let hashPg := (pgHashes.get? p.1).join
  match ← transformRow X p.2 tableMeta with
  | .reject _ _ _ => pure ⟨p.1, hashPg, none, hashPg = none, none⟩
  | .typed _ hash _ => pure ⟨p.1, hashPg, some hash, hashPg = some hash, none⟩

def reconcileFull (scope : ReconcileScope) : Except ReconcileExc TableReconcileResult := do
  let rows ← fetchScopedRows source tableMeta (orderOf tableMeta scope) (some 10)
  let pks ← raising (rows.mapM fun row => makeSourcePk X row tableMeta.idempotencyKey)
  let pgHashes ← raising (pgLookupHashes target tableMeta pks)
  let sampleDiff ← raising ((pks.zip rows).mapM (fullSample X tableMeta pgHashes))
  pure
    { rowCountMssql := mssqlCount source
      rowCountPg := pgCountCanonical target tableMeta
      checksumPg := pgAggregateChecksum md5 target tableMeta none
      checksumMssql := mssqlAggregateChecksum
      sampleDiff }

def reconcileDelta (scope : ReconcileScope) : TableReconcileResult :=
  if tableMeta.columns.any (some ·.name = scope.checkpointColumn) then
    { verdict := .unsupportedDelta, notes := ["delta scope is not implemented in Day 7 dry-run; defer to Day 8"] }
  else { verdict := .unsupportedDelta, notes := ["checkpoint_column='" ++ scope.checkpointColumn.getD "" ++ "' not in table_meta.columns"] }

def assignVerdict (result : TableReconcileResult) : TableReconcileResult :=
  if result.verdict = .unsupportedDelta then result
  else if result.rowCountPg ≠ result.rowCountMssql then { result with verdict := .rowCountMismatch }
  else if ∃ sample ∈ result.sampleDiff, sample.isMatch = false then { result with verdict := .sampleMismatch }
  else if result.checksumPg.isSome ∧ result.checksumMssql.isSome ∧ result.checksumPg ≠ result.checksumMssql then
    { result with verdict := .checksumMismatch }
  else { result with verdict := .isMatch }

def reconcileTable (scope : ReconcileScope) : Except ReconcileExc TableReconcileResult :=
  assignVerdict <$>
    match scope.kind with
    | .limited => reconcileLimited X md5 source target tableMeta scope
    | .full => reconcileFull X md5 source target tableMeta scope
    | .delta => .ok (reconcileDelta tableMeta scope)

end Reconcile

end PlatformGitops.EtlRows
