import PlatformGitops.Library.Calendar
import PlatformGitops.Library.Dict
import PlatformGitops.Library.JsonRoundTrip
import PlatformGitops.Library.TextFile
import Mathlib

/-! The values that the drivers give and take, as Python has them. -/

namespace PlatformGitops.EtlRows

open Library

section Texts

/-- A code point of a Python text; half of a surrogate pair is one. -/
abbrev CodePoint := Fin 0x110000

abbrev PyText := List CodePoint

def ofChar (c : Char) : CodePoint := ⟨c.toNat, c.valid.elim (fun h => by unfold Char.toNat; omega) And.right⟩

def toChar? (p : CodePoint) : Option Char := if p.val.isValidChar then some (Char.ofNat p.val) else none

abbrev ofChars (s : List Char) : PyText := s.map ofChar

abbrev ofString (s : String) : PyText := ofChars s.toList

/-- The characters of a text without halves of surrogate pairs. -/
def chars? (t : PyText) : Option (List Char) := t.mapM toChar?

lemma toChar?_ofChar (c : Char) : toChar? (ofChar c) = some c := by
  have hvalid : c.toNat.isValidChar := c.valid
  simp [toChar?, ofChar, hvalid, Char.ofNat_toNat]

lemma ofChar_of_toChar? {p : CodePoint} {c : Char} (h : toChar? p = some c) : ofChar c = p := by
  unfold toChar? at h
  split at h
  · rename_i hvalid
    cases h
    exact Fin.ext (by simp [ofChar, Char.toNat, Char.ofNat, Char.ofNatAux, hvalid])
  · cases h

lemma ofChar_injective {c d : Char} (h : ofChar c = ofChar d) : c = d := by
  have hsame := congrArg toChar? h
  rw [toChar?_ofChar, toChar?_ofChar] at hsame
  exact Option.some.inj hsame

@[simp] lemma chars?_nil : chars? [] = some [] := rfl

@[simp] lemma chars?_cons (p : CodePoint) (t : PyText) :
    chars? (p :: t) = (toChar? p).bind fun c => (chars? t).map (c :: ·) := by
  unfold chars?
  rw [List.mapM_cons]
  cases toChar? p with
  | none => rfl
  | some c => cases List.mapM toChar? t <;> rfl

@[simp] lemma chars?_ofChars (s : List Char) : chars? (ofChars s) = some s := by
  induction s with
  | nil => rfl
  | cons c s ih => simp [toChar?_ofChar, ih]

lemma ofChars_of_chars? {t : PyText} {s : List Char} (h : chars? t = some s) : ofChars s = t := by
  induction t generalizing s with
  | nil =>
    cases h
    rfl
  | cons p t ih =>
    rw [chars?_cons, Option.bind_eq_some_iff] at h
    obtain ⟨c, hc, h⟩ := h
    obtain ⟨rest, hrest, rfl⟩ := Option.map_eq_some_iff.mp h
    exact congrArg₂ _ (ofChar_of_toChar? hc) (ih hrest)

lemma ofChars_injective {s t : List Char} (h : ofChars s = ofChars t) : s = t :=
  List.map_injective_iff.mpr (fun _ _ => ofChar_injective) h

lemma chars?_append (s t : PyText) : chars? (s ++ t) = (chars? s).bind fun a => (chars? t).map (a ++ ·) := by
  induction s with
  | nil => cases h : chars? t <;> simp [h]
  | cons p s ih =>
    rw [List.cons_append, chars?_cons, chars?_cons, ih]
    cases toChar? p <;> cases chars? s <;> cases chars? t <;> rfl

end Texts

inductive PyExc
  | valueError
  | unicodeEncodeError
  | typeError
  | invalidOperation
  | decimalOverflow
  | overflowError
deriving DecidableEq, Repr

def PyExc.name : PyExc → String
  | valueError => "ValueError"
  | unicodeEncodeError => "UnicodeEncodeError"
  | typeError => "TypeError"
  | invalidOperation => "InvalidOperation"
  | decimalOverflow => "Overflow"
  | overflowError => "OverflowError"

/-- A finite float is given by its shortest notation. -/
inductive PyFloat
  | finite (text : {s : String // s.toList.all Json.isNumberChar = true})
  | infinity (negative : Bool)
  | nan
deriving DecidableEq

/-- A local time of the years 1 to 9999, with the offset of its zone from UTC, in microseconds. -/
structure PyDatetime where
  localTime : Fin Calendar.maxTime
  utcoffset : Option Int
deriving DecidableEq

/-- A day of the years 1 to 9999: `ordinal + 1` is its number. -/
structure PyDate where
  ordinal : Fin Calendar.maxOrdinal
deriving DecidableEq

structure PyUuid where
  digits : List (Fin 16)
  length_digits : digits.length = 32
deriving DecidableEq

inductive PyValue
  | none
  | bool (b : Bool)
  | int (n : Int)
  | decimal (d : Decimal)
  | float (f : PyFloat)
  | str (t : PyText)
  | bytes (b : List UInt8)
  | datetime (t : PyDatetime)
  | date (d : PyDate)
  | uuid (u : PyUuid)
deriving DecidableEq

abbrev Row := Dict String PyValue

def Row.get (row : Row) (column : String) : PyValue := (row.lookup column).getD .none

@[simp] lemma Row.get_set (row : Row) (column other : String) (value : PyValue) :
    Row.get (Dict.set row column value) other = if other = column then value else row.get other := by
  unfold Row.get
  rw [Dict.lookup_set]
  split <;> rfl

/-- An integer that `str` prints: it has at most 4300 digits. -/
def Printable (n : Int) : Prop := n.natAbs < 10 ^ 4300

instance (n : Int) : Decidable (Printable n) := inferInstanceAs (Decidable (_ < _))

/-- The digest, and what the language reads and prints. -/
structure Externals where
  sha256 : List UInt8 → String
  upper : String → String
  lower : PyText → PyText
  text : PyValue → String
  intOfText : PyText → Option {n : Int // Printable n}
  intOfBytes : List UInt8 → Option {n : Int // Printable n}
  truncFloat : {s : String // s.toList.all Json.isNumberChar = true} → {n : Int // Printable n}
  floatOfText : PyText → Option PyFloat
  floatOfBytes : List UInt8 → Option PyFloat
  floatOfInt : Int → PyFloat
  floatOfDecimal : Decimal → PyFloat
  decimalOfText : PyText → Option Decimal
  datetimeOfText : PyText → Option PyDatetime
  dateOfText : PyText → Option PyDate
  uuidOfText : PyText → Option PyUuid

section Printing

variable (X : Externals)

/-- `str(v)`. -/
def strOf : PyValue → Except PyExc PyText
  | .none => .ok (ofString "None")
  | .bool true => .ok (ofString "True")
  | .bool false => .ok (ofString "False")
  | .int n => if Printable n then .ok (ofString (toString n)) else .error .valueError
  | .str t => .ok t
  | v => .ok (ofString (X.text v))

def utf8 (t : PyText) : Except PyExc (List UInt8) :=
  match chars? t with
  | some s => .ok (Text.encode s)
  | none => .error .unicodeEncodeError

/-- The escapes of the JSON encoder that leaves text beyond ASCII as it is. -/
def escape (p : CodePoint) : PyText :=
  match toChar? p with
  | some c => ofChars (escapeChar c)
  | none => [p]

def dumpsText (t : PyText) : PyText := ofChar '"' :: t.flatMap escape ++ [ofChar '"']

lemma chars?_escape (p : CodePoint) : chars? (escape p) = (toChar? p).map escapeChar := by
  unfold escape
  cases h : toChar? p with
  | none => simp [h]
  | some c => simp

lemma chars?_flatMap_escape (t : PyText) : chars? (t.flatMap escape) = (chars? t).map (·.flatMap escapeChar) := by
  induction t with
  | nil => rfl
  | cons p t ih =>
    rw [List.flatMap_cons, chars?_append, chars?_escape, chars?_cons, ih]
    cases toChar? p <;> cases chars? t <;> simp

lemma chars?_dumpsText (t : PyText) :
    chars? (dumpsText t) = (chars? t).map fun s => '"' :: s.flatMap escapeChar ++ ['"'] := by
  rw [dumpsText, List.cons_append, chars?_cons, chars?_append, chars?_flatMap_escape, toChar?_ofChar]
  cases chars? t <;> simp [toChar?_ofChar]

end Printing

end PlatformGitops.EtlRows
