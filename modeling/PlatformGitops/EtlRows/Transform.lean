import PlatformGitops.EtlRows.Values
import PlatformGitops.EtlWorker.Transform
import PlatformGitops.Library.JsonEncoding

/-! A row of the source is cast column by column to the types of the target, and gets a digest. -/

namespace PlatformGitops.EtlRows

open Library
open EtlWorker (ColumnMeta TableMeta Reject)

variable (X : Externals)

section Casts

/-- What a type of PostgreSQL is cast as. -/
inductive Kind
  | text | integer | numeric | double | boolean | timestamptz | date | uuid | bytea | other
deriving DecidableEq, Repr

def kindOf (targetType : String) : Kind :=
  let targetUpper := String.ofList ((X.upper targetType).toList.takeWhile (· ≠ '('))
  if targetUpper ∈ ["VARCHAR", "TEXT", "CHAR", "CITEXT"] then .text
  else if targetUpper ∈ ["INTEGER", "BIGINT", "SMALLINT"] then .integer
  else if targetUpper = "NUMERIC" then .numeric
  else if targetUpper ∈ ["DOUBLE PRECISION", "REAL"] then .double
  else if targetUpper = "BOOLEAN" then .boolean
  else if targetUpper = "TIMESTAMPTZ" then .timestamptz
  else if targetUpper = "DATE" then .date
  else if targetUpper = "UUID" then .uuid
  else if targetUpper = "BYTEA" then .bytea
  else .other

def byteOrderMark : CodePoint := 0xFEFF

def stripBom (s : PyText) : PyText := if s.head? = some byteOrderMark then s.tail else s

def read {α : Type} (parsed : Option α) (error : PyExc) : Except PyExc α := Fallible.expect parsed error

/-- `int(d)` of a finite decimal. -/
def truncDecimal (negative : Bool) (coefficient : Nat) (exponent : Int) : Int :=
  let magnitude : Int := if 0 ≤ exponent then coefficient * 10 ^ exponent.toNat else coefficient / 10 ^ (-exponent).toNat
  if negative then -magnitude else magnitude

def uuidInt (u : PyUuid) : Nat := u.digits.foldl (fun n digit => 16 * n + digit.val) 0

/-- `int(raw)`. -/
def toInt : PyValue → Except PyExc Int
  | .bool b => .ok (if b then 1 else 0)
  | .int n => .ok n
  | .decimal (.finite negative coefficient exponent) => .ok (truncDecimal negative coefficient exponent)
  | .decimal (.infinity _) => .error .overflowError
  | .decimal (.nan _ _ _) => .error .valueError
  | .float (.finite text) => .ok (X.truncFloat text).val
  | .float (.infinity _) => .error .overflowError
  | .float .nan => .error .valueError
  | .str t => (·.val) <$> read (X.intOfText t) .valueError
  | .bytes b => (·.val) <$> read (X.intOfBytes b) .valueError
  | .uuid u => .ok (uuidInt u)
  | _ => .error .typeError

/-- `Decimal(str(raw))`, and the decimal itself. -/
def toDecimal : PyValue → Except PyExc Decimal
  | .decimal d => .ok d
  | raw => do read (X.decimalOfText (← strOf X raw)) .invalidOperation

/-- The smallest integer that is rounded to a float out of range. -/
def floatLimit : Nat := 2 ^ 1024 - 2 ^ 970

/-- `float(raw)`. -/
def toFloat : PyValue → Except PyExc PyFloat
  | .bool b => .ok (X.floatOfInt (if b then 1 else 0))
  | .int n => if n.natAbs < floatLimit then .ok (X.floatOfInt n) else .error .overflowError
  | .decimal (.nan _ true _) => .error .valueError
  | .decimal d => .ok (X.floatOfDecimal d)
  | .float f => .ok f
  | .str t => read (X.floatOfText t) .valueError
  | .bytes b => read (X.floatOfBytes b) .valueError
  | _ => .error .typeError

/-- `bool(raw)`, but for texts. -/
def truthy : PyValue → Bool
  | .none => false
  | .bool b => b
  | .int n => n ≠ 0
  | .decimal (.finite _ coefficient _) => coefficient ≠ 0
  | .float (.finite text) => text.val ≠ "0.0" ∧ text.val ≠ "-0.0"
  | .str t => t ≠ []
  | .bytes b => b ≠ []
  | _ => true

def toBool : PyValue → Bool
  | .str t => X.lower t ∈ [ofString "true", ofString "1", ofString "yes", ofString "y"]
  | raw => truthy raw

/-- A datetime without a zone is one in UTC. -/
def attachUtc (t : PyDatetime) : PyDatetime := { t with utcoffset := some (t.utcoffset.getD 0) }

def dateOf (t : PyDatetime) : PyDate where
  ordinal := ⟨t.localTime / Calendar.day, Nat.div_lt_of_lt_mul (by rw [Nat.mul_comm]; exact t.localTime.isLt)⟩

/-- The cast to one of the types, or the reason for which the value is rejected. -/
def castTo : Kind → PyValue → Except PyExc (Except String PyValue)
  | .text, raw => do pure (.ok (.str (stripBom (← strOf X raw))))
  | .integer, raw => do pure (.ok (.int (← toInt X raw)))
  | .numeric, raw => do pure (.ok (.decimal (← toDecimal X raw)))
  | .double, raw => do pure (.ok (.float (← toFloat X raw)))
  | .boolean, raw => pure (.ok (.bool (toBool X raw)))
  | .timestamptz, .datetime t => pure (.ok (.datetime (attachUtc t)))
  | .timestamptz, .str t => do pure (.ok (.datetime (attachUtc (← read (X.datetimeOfText t) .valueError))))
  | .timestamptz, _ => pure (.error "TIMESTAMPTZ_PARSE_FAIL")
  | .date, .date d => pure (.ok (.date d))
  | .date, .datetime t => pure (.ok (.date (dateOf t)))
  | .date, raw => do pure (.ok (.date (← read (X.dateOfText (← strOf X raw)) .valueError)))
  | .uuid, raw => do pure (.ok (.uuid (← read (X.uuidOfText (← strOf X raw)) .valueError)))
  | .bytea, .bytes b => pure (.ok (.bytes b))
  | .bytea, .str t => do pure (.ok (.bytes (← utf8 t)))
  | .bytea, _ => pure (.error "BYTEA_CAST_FAIL")
  | .other, raw => do pure (.ok (.str (← strOf X raw)))

/-- The exceptions that `except (ValueError, InvalidOperation, TypeError)` catches. -/
def PyExc.caught : PyExc → Bool
  | valueError | unicodeEncodeError | typeError | invalidOperation => true
  | decimalOverflow | overflowError => false

def isBlank (raw : PyValue) : Bool := raw = .none ∨ raw = .str []

def castValue (raw : PyValue) (targetType : String) : Except PyExc (Except String PyValue) :=
  if isBlank raw then .ok (.ok .none)
  else
    match castTo X (kindOf X targetType) raw with
    | .error e => if e.caught then .ok (.error ("TYPE_CAST_FAIL:" ++ e.name)) else .error e
    | result => result

end Casts

section Digests

/-- The time in UTC; it may leave the years that there are. -/
def astimezone (t : PyDatetime) : Except PyExc Nat :=
  let utc : Int := t.localTime - t.utcoffset.getD 0
  if 0 ≤ utc ∧ utc < Calendar.maxTime then .ok utc.toNat else .error .overflowError

def hexText (b : List UInt8) : List Char := b.flatMap fun byte => [hexDigit (byte.toNat / 16), hexDigit (byte.toNat % 16)]

def uuidText (u : PyUuid) : List Char :=
  let digits := u.digits.map fun digit => hexDigit digit.val
  digits.take 8 ++ '-' :: ((digits.drop 8).take 4 ++ '-' :: ((digits.drop 12).take 4 ++ '-' ::
    ((digits.drop 16).take 4 ++ '-' :: digits.drop 20)))

def normalizeForHash : PyValue → Except PyExc PyValue
  | .decimal d =>
    match d.normalize .standard with
    | .ok normal => .ok (.str (ofChars normal.plain))
    | .error .overflow => .error .decimalOverflow
    | .error .invalidOperation => .error .invalidOperation
  | .datetime t => do pure (.str (ofChars (Calendar.isoUtc (← astimezone t))))
  | .date d => .ok (.str (ofChars (Calendar.isoDate (d.ordinal + 1))))
  | .bytes b => .ok (.str (ofChars (hexText b)))
  | .uuid u => .ok (.str (ofChars (uuidText u)))
  | v => .ok v

/-- The JSON text of a value. -/
def dumpsValue : PyValue → Except PyExc PyText
  | .none => .ok (ofString "null")
  | .bool true => .ok (ofString "true")
  | .bool false => .ok (ofString "false")
  | .int n => if Printable n then .ok (ofString (toString n)) else .error .valueError
  | .float (.finite text) => .ok (ofString text.val)
  | .float (.infinity false) => .ok (ofString "Infinity")
  | .float (.infinity true) => .ok (ofString "-Infinity")
  | .float .nan => .ok (ofString "NaN")
  | .str t => .ok (dumpsText t)
  -- default=str
  | v => .ok (dumpsText (ofString (X.text v)))

def dumpsField (p : String × PyValue) : Except PyExc PyText := do
  let value ← dumpsValue X p.2
  pure (dumpsText (ofString p.1) ++ ofString ": " ++ value)

def dumpsFields (fields : List (String × PyValue)) : Except PyExc PyText := do
  let texts ← fields.mapM (dumpsField X)
  pure (ofChar '\x7b' :: (ofString ", ").intercalate texts ++ [ofChar '\x7d'])

/-- The digest of a typed row, over the JSON text of its values in the order of their columns. -/
def contentHash (typedRow : Row) : Except PyExc String := do
  let normalized ← (Json.inOrder Json.codePointLe typedRow).mapM fun p => do pure (p.1, ← normalizeForHash p.2)
  let payload ← dumpsFields X normalized
  pure (X.sha256 (← utf8 payload))

end Digests

section Rows

def pkValue (v : PyValue) : Except PyExc PyText :=
  match v with
  | .none => .ok (ofString "null")
  | v => dumpsText <$> strOf X v

/-- The values of the key as a JSON array of texts. -/
def makeSourcePk (row : Row) (idempotencyKey : List String) : Except PyExc PyText := do
  let values ← idempotencyKey.mapM fun col => pkValue X (row.get col)
  pure (ofChar '[' :: (ofString ",").intercalate values ++ [ofChar ']'])

inductive TransformResult
  | typed (row : Row) (contentHash : String) (sourcePk : PyText)
  | reject (reason column : String) (value : PyText)
deriving DecidableEq

def overflows (col : ColumnMeta) : PyValue → Option String
  | .str s => match col.maxLength with
    | some max => if max ≠ 0 ∧ max < s.length then some ("len=" ++ toString s.length ++ " > max=" ++ toString max) else none
    | none => none
  | _ => none

/-- The typed value of a column, or how the row is rejected for it. -/
def transformColumn (rawRow : Row) (col : ColumnMeta) : Except PyExc (Except TransformResult PyValue) :=
  let raw := rawRow.get col.name
  if isBlank raw then do
    if col.nullable then pure (.ok .none)
    else pure (.error (.reject "NOT_NULL_VIOLATION" col.name (← strOf X raw)))
  else do
    match ← castValue X raw col.pgType with
    | .error reason => do pure (.error (.reject reason col.name ((← strOf X raw).take 200)))
    | .ok casted =>
      match overflows col casted with
      | some text => pure (.error (.reject "LENGTH_OVERFLOW" col.name (ofString text)))
      | none => pure (.ok casted)

/-- The columns one after the other, up to the first for which the row is rejected. -/
def transformColumns (rawRow : Row) : List ColumnMeta → Row → Except PyExc (Except TransformResult Row)
  | [], typed => .ok (.ok typed)
  | col :: cols, typed => do
    match ← transformColumn X rawRow col with
    | .error rejected => pure (.error rejected)
    | .ok value => transformColumns rawRow cols (typed.set col.name value)

def withYear (typed : Row) : Option Int → Row
  | some year => typed.set "source_year" (.int year)
  | none => typed

def withSource (tableMeta : TableMeta) (typed : Row) : Row :=
  (withYear (typed.set "source_schema" (.str (ofString tableMeta.sourceSchema))) tableMeta.sourceYear).set
    "source_table" (.str (ofString tableMeta.name))

def transformRow (rawRow : Row) (tableMeta : TableMeta) : Except PyExc TransformResult := do
  match ← transformColumns X rawRow tableMeta.columns [] with
  | .error rejected => pure rejected
  | .ok columns =>
    let typed := withSource tableMeta columns
    let sourcePk ← makeSourcePk X rawRow tableMeta.idempotencyKey
    let hash ← contentHash X typed
    pure (.typed ((typed.set "source_pk" (.str sourcePk)).set "content_hash" (.str (ofString hash))) hash sourcePk)

end Rows

end PlatformGitops.EtlRows
