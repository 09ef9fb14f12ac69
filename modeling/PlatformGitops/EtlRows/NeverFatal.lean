import PlatformGitops.EtlRows.TypedRow

/-! Which rows end the transformation with an exception instead of a typed row or a reject. -/

namespace PlatformGitops.EtlRows

open Library
open EtlWorker (ColumnMeta TableMeta)

variable {X : Externals} {raw : PyValue} {rawRow : Row} {tableMeta : TableMeta} {col : ColumnMeta}

section Columns

/-- `str` prints the value. -/
def Prints : PyValue → Prop
  | .int n => Printable n
  | _ => True

/-- The column raises: an infinite number for an integer, an integer beyond the floats, or a rejected integer that `str`
does not print. -/
def Raises : Kind → PyValue → Prop
  | .integer, .decimal (.infinity _) => True
  | .integer, .float (.infinity _) => True
  | .integer, _ => False
  | .double, .int n => floatLimit ≤ n.natAbs
  | .double, _ => False
  | .boolean, _ => False
  | _, .int n => ¬ Printable n
  | _, _ => False

lemma strOf_int {n : Int} : strOf X (.int n) = if Printable n then .ok (ofString (toString n)) else .error .valueError := rfl

lemma exists_strOf : (∃ t, strOf X raw = .ok t) ↔ Prints raw := by
  cases raw with
  | int n => by_cases h : Printable n <;> simp [strOf_int, Prints, h]
  | bool b => cases b <;> simp [strOf, Prints]
  | _ => simp [strOf, Prints]

lemma exists_strOf_error : (∃ e, strOf X raw = .error e) ↔ ¬ Prints raw := by
  rw [← exists_strOf (X := X)]
  cases strOf X raw <;> simp

/-- The exceptions of a computation are caught. -/
def Caught {α : Type} (x : Except PyExc α) : Prop := ∀ e, x = .error e → e.caught = true

section Caught

variable {α β : Type}

lemma caught_ok {a : α} : Caught (.ok a) := nofun

lemma caught_pure {a : α} : Caught (pure a) := nofun

lemma caught_bind {x : Except PyExc α} {f : α → Except PyExc β} (hx : Caught x) (hf : ∀ a, Caught (f a)) :
    Caught (x >>= f) := by
  intro e h
  rcases Fallible.bind_eq_error.mp h with h | ⟨a, -, h⟩
  · exact hx e h
  · exact hf a e h

lemma caught_read {parsed : Option α} {error : PyExc} (h : error.caught = true) : Caught (read parsed error) := by
  intro e he
  cases parsed with
  | none =>
    cases he
    exact h
  | some a => cases he

lemma caught_strOf : Caught (strOf X raw) := by
  intro e h
  cases raw with
  | int n =>
    rw [strOf_int] at h
    split at h <;> cases h
    rfl
  | bool b => cases b <;> cases h
  | _ => cases h

lemma caught_utf8 (t : PyText) : Caught (utf8 t) := by
  intro e h
  unfold utf8 at h
  split at h <;> cases h
  rfl

lemma caught_toDecimal : Caught (toDecimal X raw) := by
  cases raw with
  | decimal d => exact caught_ok
  | _ => exact caught_bind caught_strOf fun _ => caught_read rfl

end Caught

lemma toInt_uncaught {e : PyExc} (h : toInt X raw = .error e) :
    e.caught = false ↔ (∃ s, raw = .decimal (.infinity s)) ∨ ∃ s, raw = .float (.infinity s) := by
  cases raw with
  | decimal d =>
    cases d <;> cases h
    · simp [PyExc.caught]
    · simp [PyExc.caught]
  | float f =>
    cases f <;> cases h
    · simp [PyExc.caught]
    · simp [PyExc.caught]
  | str t =>
    have hcaught : Caught ((·.val) <$> read (X.intOfText t) .valueError) := caught_bind (caught_read rfl) fun _ => caught_pure
    simp [hcaught e h]
  | bytes b =>
    have hcaught : Caught ((·.val) <$> read (X.intOfBytes b) .valueError) := caught_bind (caught_read rfl) fun _ => caught_pure
    simp [hcaught e h]
  | _ =>
    cases h
    try simp [PyExc.caught]

lemma toFloat_uncaught {e : PyExc} (h : toFloat X raw = .error e) :
    e.caught = false ↔ ∃ n, raw = .int n ∧ floatLimit ≤ n.natAbs := by
  have hvalue : PyExc.valueError.caught = true := rfl
  cases raw with
  | int n =>
    simp only [toFloat] at h
    split at h
    · cases h
    · rename_i hlarge
      cases h
      simpa [PyExc.caught] using hlarge
  | decimal d =>
    cases d with
    | nan _ signaling =>
      cases signaling <;> cases h
      simp [PyExc.caught]
    | _ => cases h
  | str t => simp [caught_read hvalue e h]
  | bytes b => simp [caught_read hvalue e h]
  | _ =>
    cases h
    try simp [PyExc.caught]

/-- The casts but for those to integers and floats raise only what is caught. -/
lemma caught_castTo {kind : Kind} (hinteger : kind ≠ .integer) (hdouble : kind ≠ .double) : Caught (castTo X kind raw) := by
  cases kind with
  | integer => exact absurd rfl hinteger
  | double => exact absurd rfl hdouble
  | text => exact caught_bind caught_strOf fun _ => caught_pure
  | other => exact caught_bind caught_strOf fun _ => caught_pure
  | numeric => exact caught_bind caught_toDecimal fun _ => caught_pure
  | boolean => exact caught_pure
  | uuid => exact caught_bind caught_strOf fun _ => caught_bind (caught_read rfl) fun _ => caught_pure
  | timestamptz =>
    cases raw with
    | str t => exact caught_bind (caught_read rfl) fun _ => caught_pure
    | _ => exact caught_pure
  | bytea =>
    cases raw with
    | str t => exact caught_bind (caught_utf8 t) fun _ => caught_pure
    | _ => exact caught_pure
  | date =>
    cases raw with
    | date d => exact caught_pure
    | datetime t => exact caught_pure
    | _ => exact caught_bind caught_strOf fun _ => caught_bind (caught_read rfl) fun _ => caught_pure

lemma not_blank {n : Int} : isBlank (.int n) = false := by simp [isBlank]

/-- An exception of the cast of a value: of an infinite number to an integer, or of a large integer to a float. -/
def Escapes (kind : Kind) (raw : PyValue) : Prop :=
  (kind = .integer ∧ ((∃ s, raw = .decimal (.infinity s)) ∨ ∃ s, raw = .float (.infinity s))) ∨
    kind = .double ∧ ∃ n, raw = .int n ∧ floatLimit ≤ n.natAbs

lemma castTo_escapes {kind : Kind} :
    (∃ e, castTo X kind raw = .error e ∧ e.caught = false) ↔ Escapes kind raw := by
  by_cases hinteger : kind = .integer
  · subst hinteger
    simp only [Escapes, reduceCtorEq, false_and, or_false, true_and]
    constructor
    · rintro ⟨e, he, hcaught⟩
      rcases Fallible.bind_eq_error.mp he with he | ⟨n, -, he⟩
      · exact (toInt_uncaught he).mp hcaught
      · cases he
    · rintro (⟨s, rfl⟩ | ⟨s, rfl⟩) <;> exact ⟨.overflowError, rfl, rfl⟩
  by_cases hdouble : kind = .double
  · subst hdouble
    simp only [Escapes, reduceCtorEq, false_and, false_or, true_and]
    constructor
    · rintro ⟨e, he, hcaught⟩
      rcases Fallible.bind_eq_error.mp he with he | ⟨f, -, he⟩
      · exact (toFloat_uncaught he).mp hcaught
      · cases he
    · rintro ⟨n, rfl, hlarge⟩
      refine ⟨.overflowError, ?_, rfl⟩
      simp only [castTo, toFloat, if_neg (Nat.not_lt.mpr hlarge)]
      rfl
  · have hcaught : Caught (castTo X kind raw) := caught_castTo hinteger hdouble
    refine iff_of_false ?_ (by simp [Escapes, hinteger, hdouble])
    rintro ⟨e, he, hfalse⟩
    rw [hcaught e he] at hfalse
    cases hfalse

lemma castValue_escapes {targetType : String} :
    (∃ e, castValue X raw targetType = .error e) ↔ Escapes (kindOf X targetType) raw := by
  rw [← castTo_escapes (X := X), castValue]
  cases hblank : isBlank raw with
  | true =>
    refine iff_of_false (by simp) fun hescapes => ?_
    rw [castTo_escapes] at hescapes
    simp only [isBlank, decide_eq_true_eq] at hblank
    rcases hblank with rfl | rfl <;> simp [Escapes] at hescapes
  | false =>
    simp only [Bool.false_eq_true, if_false]
    cases hcast : castTo X (kindOf X targetType) raw with
    | ok result => simp
    | error e => cases hcaught : e.caught <;> simp [hcaught]

/-- The exceptions of one column. -/
lemma transformColumn_raises :
    (∃ e, transformColumn X rawRow col = .error e) ↔
      isBlank (rawRow.get col.name) = false ∧ (Escapes (kindOf X col.pgType) (rawRow.get col.name) ∨
        (∃ reason, castValue X (rawRow.get col.name) col.pgType = .ok (.error reason)) ∧ ¬ Prints (rawRow.get col.name)) := by
  rw [← castValue_escapes (X := X), ← exists_strOf_error (X := X), transformColumn]
  cases hblank : isBlank (rawRow.get col.name) with
  | true =>
    refine iff_of_false ?_ (by simp)
    simp only [if_true]
    split
    · rintro ⟨e, he⟩
      cases he
    · rintro ⟨e, he⟩
      simp only [isBlank, decide_eq_true_eq] at hblank
      rcases hblank with h | h <;> rw [h] at he <;> cases he
  | false =>
    simp only [Bool.false_eq_true, if_false, true_and]
    cases hcast : castValue X (rawRow.get col.name) col.pgType with
    | error e => exact iff_of_true ⟨e, rfl⟩ (Or.inl ⟨e, rfl⟩)
    | ok result =>
      cases result with
      | error reason =>
        simp only [reduceCtorEq, exists_false, false_or, Except.ok.injEq, Except.error.injEq, exists_eq', true_and]
        cases hstr : strOf X (rawRow.get col.name) with
        | error e => exact iff_of_true ⟨e, rfl⟩ ⟨e, rfl⟩
        | ok t => exact iff_of_false (by rintro ⟨e, he⟩; cases he) (by rintro ⟨e, he⟩; cases he)
      | ok casted =>
        refine iff_of_false ?_ (by simp)
        rintro ⟨e, he⟩
        simp only [bind, Except.bind] at he
        split at he <;> cases he

lemma floatLimit_le : floatLimit ≤ 10 ^ 4300 := by decide +kernel

/-- An integer that `str` does not print is typed as an integer or a boolean, raises as a float, and is rejected as
anything else. -/
lemma castValue_unprintable {n : Int} (h : ¬ Printable n) {targetType : String} :
    (∃ reason, castValue X (.int n) targetType = .ok (.error reason)) ↔
      kindOf X targetType ∉ [Kind.integer, .boolean, .double] := by
  have hlarge : ¬ n.natAbs < floatLimit := fun hsmall => h (Nat.lt_of_lt_of_le hsmall floatLimit_le)
  have hstr : strOf X (.int n) = .error .valueError := by rw [strOf_int, if_neg h]
  rw [castValue, not_blank]
  cases kindOf X targetType <;>
    simp [castTo, toInt, toFloat, toDecimal, toBool, hstr, hlarge, PyExc.caught, pure, Except.pure, bind, Except.bind]

lemma raises_iff : (∃ e, transformColumn X rawRow col = .error e) ↔ Raises (kindOf X col.pgType) (rawRow.get col.name) := by
  rw [transformColumn_raises]
  cases rawRow.get col.name with
  | int n =>
    by_cases hprint : Printable n
    · cases kindOf X col.pgType <;> simp [not_blank, Escapes, Prints, Raises, hprint]
    · rw [castValue_unprintable hprint]
      have hlarge : floatLimit ≤ n.natAbs := Nat.le_trans floatLimit_le (Nat.le_of_not_lt hprint)
      cases kindOf X col.pgType <;> simp [not_blank, Escapes, Prints, Raises, hprint, hlarge]
  | decimal d => cases d <;> cases kindOf X col.pgType <;> simp [isBlank, Escapes, Prints, Raises]
  | float f => cases f <;> cases kindOf X col.pgType <;> simp [isBlank, Escapes, Prints, Raises]
  | _ => cases kindOf X col.pgType <;> simp [Escapes, Prints, Raises]

end Columns

section Digests

/-- The kind casts the value to one without a text to hash: a text with half of a surrogate pair, an integer that `str`
does not print, a decimal without a normal form, or a time out of the years in UTC. -/
def Undigestible (X : Externals) : Kind → PyValue → Prop
  | .text, .str t => chars? t = none
  | .other, .str t => chars? t = none
  | .integer, .int n => ¬ Printable n
  | .integer, .decimal (.finite negative coefficient exponent) => ¬ Printable (truncDecimal negative coefficient exponent)
  | .numeric, raw => ∃ d, toDecimal X raw = .ok d ∧ ∃ e, d.normalize .standard = .error e
  | .timestamptz, .datetime t => ∃ e, astimezone t = .error e
  | .timestamptz, .str t => ∃ read e, X.datetimeOfText t = some read ∧ astimezone read = .error e
  | _, _ => False

lemma uuidInt_lt (u : PyUuid) : uuidInt u < 16 ^ 32 := by
  have hfold : ∀ (digits : List (Fin 16)) (n : Nat),
      digits.foldl (fun n digit => 16 * n + digit.val) n < (n + 1) * 16 ^ digits.length := by
    intro digits
    induction digits with
    | nil => simp
    | cons digit digits ih =>
      intro n
      calc (digit :: digits).foldl (fun n digit => 16 * n + digit.val) n
          < (16 * n + digit.val + 1) * 16 ^ digits.length := ih _
        _ ≤ ((n + 1) * 16) * 16 ^ digits.length := Nat.mul_le_mul_right _ (by omega)
        _ = (n + 1) * 16 ^ (digit :: digits).length := by rw [List.length_cons, Nat.pow_succ]; ring
  have h := hfold u.digits 0
  rwa [u.length_digits, Nat.zero_add, Nat.one_mul] at h

lemma printable_of_lt {n : Int} (h : n.natAbs < 16 ^ 32) : Printable n :=
  Nat.lt_of_lt_of_le h (by decide +kernel)

lemma strOf_cases {t : PyText} (h : strOf X raw = .ok t) : raw = .str t ∨ (∀ s, raw ≠ .str s) ∧ ∃ s, t = ofString s := by
  cases raw with
  | str s =>
    cases h
    exact Or.inl rfl
  | int n =>
    rw [strOf_int] at h
    split at h <;> cases h
    exact Or.inr ⟨nofun, _, rfl⟩
  | bool b => cases b <;> cases h <;> exact Or.inr ⟨nofun, _, rfl⟩
  | _ =>
    cases h
    exact Or.inr ⟨nofun, _, rfl⟩

lemma digestible_str {t : PyText} : ¬ Digestible (.str t) ↔ chars? t = none := by
  rw [Digestible, Bool.not_eq_true, Option.isSome_eq_false_iff, Option.isNone_iff_eq_none]

lemma chars?_stripBom {t : PyText} : chars? (stripBom t) = none ↔ chars? t = none := by
  unfold stripBom
  split
  · rename_i h
    cases t with
    | nil => rfl
    | cons p t =>
      cases h
      have hmark : toChar? byteOrderMark = some (Char.ofNat 0xFEFF) := by decide
      rw [List.tail_cons, chars?_cons, hmark]
      simp
  · rfl

lemma astimezone_attachUtc {t : PyDatetime} : astimezone (attachUtc t) = astimezone t := rfl

lemma digestible_datetime {t : PyDatetime} : ¬ Digestible (.datetime t) ↔ ∃ e, astimezone t = .error e := by
  rw [Digestible]
  cases astimezone t <;> simp

lemma digestible_decimal {d : Decimal} : ¬ Digestible (.decimal d) ↔ ∃ e, d.normalize .standard = .error e := by
  rw [Digestible]
  cases d.normalize .standard <;> simp

lemma undigestible_toInt {n : Int} (h : toInt X raw = .ok n) : ¬ Digestible (.int n) ↔ Undigestible X .integer raw := by
  rw [Digestible]
  cases raw with
  | bool b =>
    cases h
    refine iff_of_false (not_not.mpr (printable_of_lt ?_)) (by simp [Undigestible])
    cases b <;> decide
  | int m =>
    cases h
    rfl
  | decimal d =>
    cases d <;> cases h
    rfl
  | float f =>
    cases f <;> cases h
    exact iff_of_false (not_not.mpr (Subtype.property _)) (by simp [Undigestible])
  | str t =>
    obtain ⟨m, -, rfl⟩ := Fallible.map_eq_ok.mp h
    exact iff_of_false (not_not.mpr m.property) (by simp [Undigestible])
  | bytes b =>
    obtain ⟨m, -, rfl⟩ := Fallible.map_eq_ok.mp h
    exact iff_of_false (not_not.mpr m.property) (by simp [Undigestible])
  | uuid u =>
    cases h
    exact iff_of_false (not_not.mpr (printable_of_lt (uuidInt_lt u))) (by simp [Undigestible])
  | _ => cases h

lemma undigestible_castTo {kind : Kind} {v : PyValue} (h : castTo X kind raw = .ok (.ok v)) :
    ¬ Digestible v ↔ Undigestible X kind raw := by
  cases kind with
  | text =>
    obtain ⟨t, ht, hv⟩ := Fallible.bind_eq_ok.mp h
    cases hv
    rw [digestible_str, chars?_stripBom]
    rcases strOf_cases ht with rfl | ⟨hraw, s, rfl⟩
    · rfl
    · refine iff_of_false (by simp) ?_
      cases raw <;> simp_all [Undigestible]
  | other =>
    obtain ⟨t, ht, hv⟩ := Fallible.bind_eq_ok.mp h
    cases hv
    rw [digestible_str]
    rcases strOf_cases ht with rfl | ⟨hraw, s, rfl⟩
    · rfl
    · refine iff_of_false (by simp) ?_
      cases raw <;> simp_all [Undigestible]
  | integer =>
    obtain ⟨n, hn, hv⟩ := Fallible.bind_eq_ok.mp h
    cases hv
    exact undigestible_toInt hn
  | numeric =>
    obtain ⟨d, hd, hv⟩ := Fallible.bind_eq_ok.mp h
    cases hv
    simp [digestible_decimal, Undigestible, hd]
  | double =>
    obtain ⟨f, -, hv⟩ := Fallible.bind_eq_ok.mp h
    cases hv
    simp [Digestible, Undigestible]
  | boolean =>
    cases h
    simp [Digestible, Undigestible]
  | uuid =>
    obtain ⟨t, -, h⟩ := Fallible.bind_eq_ok.mp h
    obtain ⟨u, -, hv⟩ := Fallible.bind_eq_ok.mp h
    cases hv
    simp [Digestible, Undigestible]
  | timestamptz =>
    cases raw with
    | datetime t =>
      cases h
      rw [digestible_datetime, astimezone_attachUtc, Undigestible]
    | str t =>
      obtain ⟨u, hu, hv⟩ := Fallible.bind_eq_ok.mp h
      cases hv
      rw [read, Fallible.expect_eq_ok] at hu
      simp [digestible_datetime, astimezone_attachUtc, Undigestible, hu]
    | _ => cases h
  | date =>
    obtain ⟨d, rfl⟩ := castTo_date h
    simp [Digestible, Undigestible]
  | bytea =>
    obtain ⟨b, rfl⟩ := castTo_bytea h
    simp [Digestible, Undigestible]

/-- The columns that are typed: no exception and no reject. -/
def Refused (X : Externals) (col : ColumnMeta) (raw : PyValue) : Prop :=
  if isBlank raw then col.nullable = false
  else (∃ reason, castValue X raw col.pgType = .ok (.error reason)) ∨
    ∃ value, castValue X raw col.pgType = .ok (.ok value) ∧ overflows col value ≠ none

lemma typed_iff : (∃ value, Typed X rawRow col value) ↔
    ¬ Raises (kindOf X col.pgType) (rawRow.get col.name) ∧ ¬ Refused X col (rawRow.get col.name) := by
  rw [← @raises_iff X rawRow col, Refused]
  simp only [Typed, transformColumn]
  cases hblank : isBlank (rawRow.get col.name) with
  | true =>
    simp only [if_true]
    cases hnullable : col.nullable with
    | true => simp [pure, Except.pure]
    | false =>
      simp only [Bool.false_eq_true, if_false, not_true_eq_false, and_false, iff_false]
      rintro ⟨value, hvalue⟩
      obtain ⟨t, -, ht⟩ := Fallible.bind_eq_ok.mp hvalue
      cases ht
  | false =>
    simp only [Bool.false_eq_true, if_false]
    cases hcast : castValue X (rawRow.get col.name) col.pgType with
    | error e => exact iff_of_false (by rintro ⟨value, hvalue⟩; cases hvalue) fun h => h.1 ⟨e, rfl⟩
    | ok result =>
      cases result with
      | error reason =>
        refine iff_of_false ?_ fun h => h.2 (Or.inl ⟨reason, rfl⟩)
        rintro ⟨value, hvalue⟩
        obtain ⟨_, hresult, hvalue⟩ := Fallible.bind_eq_ok.mp hvalue
        cases hresult
        obtain ⟨t, -, ht⟩ := Fallible.bind_eq_ok.mp hvalue
        cases ht
      | ok casted =>
        simp only [bind, Except.bind]
        cases hlength : overflows col casted <;> simp [hlength, pure, Except.pure]

end Digests

section Rows

/-- The transformation of the row ends with an exception: at a column, or, where all columns are typed, at its key, its
year or its digest. -/
def Fatal (X : Externals) (rawRow : Row) (tableMeta : TableMeta) : Prop :=
  (∃ before col after, tableMeta.columns = before ++ col :: after ∧
    (∀ c ∈ before, ¬ Raises (kindOf X c.pgType) (rawRow.get c.name) ∧ ¬ Refused X c (rawRow.get c.name)) ∧
    Raises (kindOf X col.pgType) (rawRow.get col.name)) ∨
  (∀ c ∈ tableMeta.columns, ¬ Raises (kindOf X c.pgType) (rawRow.get c.name) ∧ ¬ Refused X c (rawRow.get c.name)) ∧
    ((∃ name ∈ tableMeta.idempotencyKey, ¬ Prints (rawRow.get name)) ∨
      (∃ year, tableMeta.sourceYear = some year ∧ ¬ Printable year) ∨
      ∃ before col after, tableMeta.columns = before ++ col :: after ∧ (∀ c ∈ after, c.name ≠ col.name) ∧
        Kept tableMeta col.name ∧ isBlank (rawRow.get col.name) = false ∧
        Undigestible X (kindOf X col.pgType) (rawRow.get col.name))

lemma exists_pkValue {v : PyValue} : (∃ t, pkValue X v = .ok t) ↔ Prints v := by
  rw [← exists_strOf (X := X)]
  cases v with
  | none => simp [pkValue, strOf]
  | _ => simp [pkValue, Fallible.map_eq_ok]

lemma exists_makeSourcePk {key : List String} :
    (∃ pk, makeSourcePk X rawRow key = .ok pk) ↔ ∀ name ∈ key, Prints (rawRow.get name) := by
  calc (∃ pk, makeSourcePk X rawRow key = .ok pk)
      ↔ ∃ values, List.Forall₂ (fun name value => pkValue X (rawRow.get name) = .ok value) key values := by
        simp only [makeSourcePk, Fallible.bind_eq_ok, Fallible.pure_eq_ok, Fallible.mapM_eq_ok_iff]
        constructor
        · rintro ⟨-, values, hvalues, -⟩
          exact ⟨values, hvalues⟩
        · rintro ⟨values, hvalues⟩
          exact ⟨_, values, hvalues, rfl⟩
    _ ↔ ∀ name ∈ key, Prints (rawRow.get name) := by simp only [exists_forall₂, exists_pkValue]

/-- The values of the row that have a text to hash. -/
lemma digestible_row {columns : Row} (h : transformColumns X rawRow tableMeta.columns [] = .ok (.ok columns)) :
    (∀ p ∈ withSource tableMeta columns, Digestible p.2) ↔
      (∀ year, tableMeta.sourceYear = some year → Printable year) ∧
      ∀ before col after, tableMeta.columns = before ++ col :: after → (∀ c ∈ after, c.name ≠ col.name) →
        Kept tableMeta col.name → isBlank (rawRow.get col.name) = false →
        ¬ Undigestible X (kindOf X col.pgType) (rawRow.get col.name) := by
  have hunique : Dict.Unique (withSource tableMeta columns) :=
    unique_withSource (transformColumns_unique h List.nodup_nil)
  constructor
  · intro hdigestible
    refine ⟨fun year hyear => ?_, fun before col after hsplit hlast hkept hblank => ?_⟩
    · refine hdigestible ("source_year", .int year) (hunique.mem_iff.mpr ?_)
      rw [lookup_withSource, if_neg (by decide), if_pos ⟨rfl, by simp [hyear]⟩, hyear]
      rfl
    · rw [hsplit] at h
      obtain ⟨value, htyped, hvalue⟩ := transformColumns_last h hlast
      have hlookup : (withSource tableMeta columns).lookup col.name = columns.lookup col.name := lookup_of_kept hkept
      rw [← hlookup] at hvalue
      rcases castValue_of_typed htyped with ⟨hnone, -⟩ | ⟨-, hcast⟩
      · rw [hblank] at hnone
        cases hnone
      · rw [← undigestible_castTo hcast, not_not]
        exact hdigestible _ (hunique.mem_iff.mpr hvalue)
  · rintro ⟨hyear, hcolumns⟩ ⟨name, value⟩ hmem
    have hlookup := hunique.mem_iff.mp hmem
    rw [lookup_withSource] at hlookup
    split at hlookup
    · cases hlookup
      simp [Digestible]
    · rename_i htable
      split at hlookup
      · obtain ⟨year, hsome, hvalue⟩ := Option.map_eq_some_iff.mp hlookup
        cases hvalue
        exact hyear year hsome
      · rename_i hnoyear
        split at hlookup
        · cases hlookup
          simp [Digestible]
        · rename_i hschema
          by_cases hname : ∃ c ∈ tableMeta.columns, c.name = name
          · obtain ⟨before, col, after, hsplit, rfl, hlast⟩ := exists_last hname
            rw [hsplit] at h
            obtain ⟨value', htyped, hvalue⟩ := transformColumns_last h hlast
            obtain rfl : value' = value := Option.some.inj (hvalue.symm.trans hlookup)
            have hkept : Kept tableMeta col.name := ⟨htable, hschema, fun hcol => by simpa [hcol] using hnoyear⟩
            rcases castValue_of_typed htyped with ⟨-, rfl⟩ | ⟨hblank, hcast⟩
            · trivial
            · exact not_not.mp fun hdigest =>
                hcolumns before col after hsplit hlast hkept hblank ((undigestible_castTo hcast).mp hdigest)
          · simp only [not_exists, not_and] at hname
            rw [transformColumns_absent h hname] at hlookup
            cases hlookup

lemma transformRow_columns {columns : Row} (h : transformColumns X rawRow tableMeta.columns [] = .ok (.ok columns)) :
    (∃ result, transformRow X rawRow tableMeta = .ok result) ↔
      (∀ name ∈ tableMeta.idempotencyKey, Prints (rawRow.get name)) ∧ ∀ p ∈ withSource tableMeta columns, Digestible p.2 := by
  simp only [← exists_makeSourcePk (X := X), ← exists_valueText (X := X), ← exists_contentHash]
  rw [transformRow, h]
  simp only [Fallible.bind_eq_ok, Fallible.pure_eq_ok, Except.ok.injEq, exists_eq_left']
  constructor
  · rintro ⟨result, pk, hpk, hash, hhash, -⟩
    exact ⟨⟨pk, hpk⟩, hash, hhash⟩
  · rintro ⟨⟨pk, hpk⟩, hash, hhash⟩
    exact ⟨_, pk, hpk, hash, hhash, rfl⟩

/-- A row gives a typed row or a reject except where its transformation ends with an exception. -/
theorem transform_row_answers : (∃ result, transformRow X rawRow tableMeta = .ok result) ↔ ¬ Fatal X rawRow tableMeta := by
  have hraises : (∃ e, transformColumns X rawRow tableMeta.columns [] = .error e) ↔ _ := transformColumns_raises
  have htyped : (∃ out, transformColumns X rawRow tableMeta.columns [] = .ok (.ok out)) ↔ _ := exists_transformColumns
  simp only [typed_iff, raises_iff] at hraises htyped
  rw [Fatal, ← hraises, ← htyped]
  cases hcolumns : transformColumns X rawRow tableMeta.columns [] with
  | error e =>
    refine iff_of_false ?_ fun h => h (Or.inl ⟨e, rfl⟩)
    rintro ⟨result, h⟩
    rw [transformRow, hcolumns] at h
    cases h
  | ok result =>
    cases result with
    | error rejected =>
      refine iff_of_true ⟨rejected, by rw [transformRow, hcolumns]; rfl⟩ ?_
      rintro (⟨e, h⟩ | ⟨⟨out, h⟩, -⟩) <;> cases h
    | ok columns =>
      rw [transformRow_columns hcolumns, digestible_row hcolumns]
      constructor
      · rintro ⟨hkey, hyear, hcols⟩ (⟨e, h⟩ | ⟨-, ⟨name, hname, h⟩ | ⟨year, hsome, h⟩ | hundigestible⟩)
        · cases h
        · exact h (hkey name hname)
        · exact h (hyear year hsome)
        · obtain ⟨before, col, after, hsplit, hlast, hkept, hblank, h⟩ := hundigestible
          exact hcols before col after hsplit hlast hkept hblank h
      · intro h
        refine ⟨fun name hname => ?_, fun year hyear => ?_, fun before col after hsplit hlast hkept hblank hbad => ?_⟩
        · exact by_contra fun hbad => h (Or.inr ⟨⟨columns, rfl⟩, Or.inl ⟨name, hname, hbad⟩⟩)
        · exact by_contra fun hbad => h (Or.inr ⟨⟨columns, rfl⟩, Or.inr (Or.inl ⟨year, hyear, hbad⟩)⟩)
        · exact h (Or.inr ⟨⟨columns, rfl⟩, Or.inr (Or.inr ⟨before, col, after, hsplit, hlast, hkept, hblank, hbad⟩)⟩)

/-- An infinite float in an integer column, the first hour of the year 1 in a zone east of UTC, and a text with half of a
surrogate pair. -/
theorem transform_row_raises :
    transformRow (plainExternals fun _ => "") [("balance", .float (.infinity false))]
      ⟨"COMPANY", "workcube_mikrolink", none, [⟨"balance", "INTEGER", true, none⟩], []⟩ = .error .overflowError ∧
    transformRow (plainExternals fun _ => "") [("recorded_at", .datetime ⟨⟨0, by decide⟩, some 10800000000⟩)]
      ⟨"COMPANY", "workcube_mikrolink", none, [⟨"recorded_at", "TIMESTAMPTZ", true, none⟩], []⟩ = .error .overflowError ∧
    transformRow (plainExternals fun _ => "") [("title", .str [0xD800])]
      ⟨"COMPANY", "workcube_mikrolink", none, [⟨"title", "TEXT", true, none⟩], []⟩ = .error .unicodeEncodeError := by
  refine ⟨by decide +kernel, by decide +kernel, by decide +kernel⟩

end Rows

end PlatformGitops.EtlRows
