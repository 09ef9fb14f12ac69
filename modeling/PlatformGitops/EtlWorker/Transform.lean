import PlatformGitops.Library.Dict
import PlatformGitops.Library.Fallible
import PlatformGitops.Library.JsonText

/-! The rows of the source as they are typed for the target. -/

namespace PlatformGitops.EtlWorker

open Library

/-- A Python value of a row. Of anything but texts and integers the type and the text are kept. -/
inductive Value
  | none
  | str (text : String)
  | int (n : Int)
  | object (type text : String)
deriving DecidableEq, Repr

def Value.text : Value → String
  | .none => "None"
  | .str text => text
  | .int n => toString n
  | .object _ text => text

/-- Lower case, of the letters of ASCII only. -/
def lower (s : String) : String := String.ofList (s.toList.map Char.toLower)

abbrev Row := Dict String Value

def Row.get (row : Row) (column : String) : Value := (row.lookup column).getD .none

/-- The base class of an exception of psycopg. -/
inductive PgKind
  | operational
  | integrity
  | data
  | programming
  | internal
  | other
deriving DecidableEq, Repr

structure PgError where
  typeName : String
  kind : PgKind
  sqlstate : Option String
  diagSqlstate : Option String
  message : String
deriving DecidableEq, Repr

/-- What a run may raise: an error of PostgreSQL, one of the worker's own, or any other exception. -/
inductive PyError
  | pg (e : PgError)
  | schemaContract (message : String)
  | critical (message : String)
  | thresholdBreach (message : String)
  | other (message : String)
deriving DecidableEq, Repr

/-- The cast of a value to a type of PostgreSQL, with the reason for which it rejects the value, and the digest of a row. -/
structure Externals where
  castValue : Value → String → String → Except PyError (Value × Option String)
  contentHash : Row → String

structure ColumnMeta where
  name : String
  pgType : String
  nullable : Bool := true
  maxLength : Option Int := none
deriving DecidableEq, Repr

/-- What tells the tables of a run apart. -/
structure TableKey where
  name : String
  sourceSchema : String
  sourceYear : Option Int
deriving DecidableEq, Repr

structure TableMeta where
  name : String
  sourceSchema : String
  sourceYear : Option Int
  columns : List ColumnMeta
  idempotencyKey : List String
deriving DecidableEq, Repr

def TableMeta.key (tableMeta : TableMeta) : TableKey := ⟨tableMeta.name, tableMeta.sourceSchema, tableMeta.sourceYear⟩

structure Reject where
  reason : String
  column : String
  value : String
deriving DecidableEq, Repr

inductive TransformResult
  | typed (row : Row) (contentHash sourcePk : String)
  | reject (reject : Reject)
deriving DecidableEq, Repr

def makeSourcePk (row : Row) (idempotencyKey : List String) : String :=
  let values := idempotencyKey.map fun col => match row.get col with
    | .none => Json.null
    | v => .str v.text
  String.ofList (Json.joinItems (Json.dumpsItems (fun a b => a ≤ b) values))

section

variable (X : Externals)

def overflows (col : ColumnMeta) (casted : Value) : Option String :=
  match col.maxLength, casted with
  | some max, .str s =>
    if max ≠ 0 ∧ max < s.length then some ("len=" ++ toString s.length ++ " > max=" ++ toString max) else none
  | _, _ => none

def transformColumn (raw : Row) (col : ColumnMeta) : Except PyError (Except Reject Value) :=
  let value := raw.get col.name
  if value = .none ∨ value = .str "" then
    .ok (if col.nullable then .ok .none else .error ⟨"NOT_NULL_VIOLATION", col.name, value.text⟩)
  else do
    let (casted, reject) ← X.castValue value col.pgType col.name
    match reject.filter (· ≠ "") with
    | some reason => pure (.error ⟨reason, col.name, String.ofList (value.text.toList.take 200)⟩)
    | none =>
      match overflows col casted with
      | some text => pure (.error ⟨"LENGTH_OVERFLOW", col.name, text⟩)
      | none => pure (.ok casted)

/-- The columns one after the other, up to the first that is rejected. -/
def transformColumns (raw : Row) : List ColumnMeta → Row → Except PyError (Except Reject Row)
  | [], typed => .ok (.ok typed)
  | col :: cols, typed => do
    match ← transformColumn X raw col with
    | .error reject => pure (.error reject)
    | .ok value => transformColumns raw cols (typed.set col.name value)

def withYear (typed : Row) : Option Int → Row
  | some year => typed.set "source_year" (.int year)
  | none => typed

def transformRow (rawRow : Row) (tableMeta : TableMeta) : Except PyError TransformResult := do
  match ← transformColumns X rawRow tableMeta.columns [] with
  | .error reject => pure (.reject reject)
  | .ok typed =>
    let typed := (withYear (typed.set "source_schema" (.str tableMeta.sourceSchema)) tableMeta.sourceYear).set
      "source_table" (.str tableMeta.name)
    let sourcePk := makeSourcePk rawRow tableMeta.idempotencyKey
    let hash := X.contentHash typed
    pure (.typed ((typed.set "source_pk" (.str sourcePk)).set "content_hash" (.str hash)) hash sourcePk)

end

@[simp] lemma Row.get_set (row : Row) (column other : String) (value : Value) :
    Row.get (Dict.set row column value) other = if other = column then value else row.get other := by
  unfold Row.get
  rw [Dict.lookup_set]
  split <;> rfl

lemma Row.get_withYear {typed : Row} {year : Option Int} {column : String} (h : column ≠ "source_year") :
    (withYear typed year).get column = typed.get column := by
  cases year <;> simp [withYear, h]

/-- The columns by which the target tells a typed row apart, and its digest. -/
lemma transformRow_typed {X : Externals} {raw row : Row} {tableMeta : TableMeta} {hash pk : String}
    (h : transformRow X raw tableMeta = .ok (.typed row hash pk)) :
    row.get "source_schema" = .str tableMeta.sourceSchema ∧ row.get "source_table" = .str tableMeta.name ∧
      row.get "source_pk" = .str (makeSourcePk raw tableMeta.idempotencyKey) ∧ row.get "content_hash" = .str hash := by
  simp only [transformRow, Fallible.bind_eq_ok] at h
  obtain ⟨columns, -, h⟩ := h
  cases columns with
  | error reject => simp at h
  | ok typed =>
    obtain ⟨rfl, rfl, rfl⟩ := TransformResult.typed.inj (Fallible.pure_eq_ok.mp h)
    refine ⟨?_, ?_, ?_, ?_⟩ <;> simp [Row.get_withYear]

end PlatformGitops.EtlWorker
