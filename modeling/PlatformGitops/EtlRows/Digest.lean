import PlatformGitops.EtlRows.Transform

/-! What is hashed of a typed row, and what a typed row is made of. -/

namespace PlatformGitops.EtlRows

open Library
open EtlWorker (ColumnMeta TableMeta)

variable {X : Externals} {row typed out rawRow : Row} {tableMeta : TableMeta} {hash : String}

section Payload

/-- The text of a value that is hashed. -/
def ValueText (X : Externals) (v : PyValue) (text : List Char) : Prop :=
  ∃ normal spelled, normalizeForHash v = .ok normal ∧ dumpsValue X normal = .ok spelled ∧ chars? spelled = some text

def FieldText (X : Externals) (field : String × PyValue) (text : String × List Char) : Prop :=
  field.1 = text.1 ∧ ValueText X field.2 text.2

def fieldText (column : String) (text : List Char) : List Char := dumpsStr column ++ ':' :: ' ' :: text

/-- The text that is hashed, of the values in the order of their columns. -/
def payload (fields : List (String × List Char)) : List Char :=
  '\x7b' :: [',', ' '].intercalate (fields.map fun p => fieldText p.1 p.2) ++ ['\x7d']

lemma chars?_intercalate (separator : List Char) (texts : List PyText) :
    chars? ((ofChars separator).intercalate texts) = (texts.mapM chars?).map separator.intercalate := by
  induction texts with
  | nil => rfl
  | cons text texts ih =>
    cases texts with
    | nil =>
      rw [List.mapM_cons, List.mapM_nil, List.intercalate_singleton]
      cases chars? text <;> simp
    | cons next texts =>
      have hstep : ∀ {α : Type} (s t u : List α) (rest : List (List α)),
          s.intercalate (t :: u :: rest) = t ++ (s ++ s.intercalate (u :: rest)) := by
        intro α s t u rest
        simp [List.intercalate]
      rw [hstep, chars?_append, chars?_append, chars?_ofChars, ih, List.mapM_cons (f := chars?) (a := text)]
      cases chars? text with
      | none => rfl
      | some a =>
        rw [List.mapM_cons]
        cases chars? next with
        | none => rfl
        | some b =>
          cases List.mapM chars? texts with
          | none => rfl
          | some rest => simp [hstep]

lemma chars?_field (column : String) (value : PyText) :
    chars? (dumpsText (ofString column) ++ ofString ": " ++ value) = (chars? value).map (fieldText column) := by
  have hcolon : (": " : String).toList = [':', ' '] := by decide
  rw [chars?_append, chars?_append, chars?_dumpsText, chars?_ofChars, chars?_ofChars, hcolon]
  cases chars? value <;> simp [fieldText, dumpsStr]

lemma utf8_eq_ok {t : PyText} {bytes : List UInt8} : utf8 t = .ok bytes ↔ ∃ s, chars? t = some s ∧ Text.encode s = bytes := by
  unfold utf8
  cases chars? t <;> simp

lemma dumpsField_eq_ok {field : String × PyValue} {text : PyText} :
    dumpsField X field = .ok text ↔
      ∃ value, dumpsValue X field.2 = .ok value ∧ dumpsText (ofString field.1) ++ ofString ": " ++ value = text := by
  simp only [dumpsField, Fallible.bind_eq_ok, Fallible.pure_eq_ok]

/-- The texts of the fields, and of each of them its value. -/
lemma fields_eq_ok {fields : List (String × PyValue)} {texts : List (List Char)} :
    (∃ normalized, fields.mapM (fun p => do pure (p.1, ← normalizeForHash p.2)) = Except.ok normalized ∧
      ∃ spelled, normalized.mapM (dumpsField X) = .ok spelled ∧ spelled.mapM chars? = some texts) ↔
      ∃ values, List.Forall₂ (FieldText X) fields values ∧
        values.map (fun p => fieldText p.1 p.2) = texts := by
  induction fields generalizing texts with
  | nil => simp [List.forall₂_nil_left_iff, eq_comm, pure, Except.pure]
  | cons field fields ih =>
    simp only [List.mapM_cons, Fallible.bind_eq_ok, Fallible.pure_eq_ok, List.forall₂_cons_left_iff]
    constructor
    · rintro ⟨_, ⟨_, ⟨normal, hnormal, rfl⟩, normalized, hnormalized, rfl⟩, spelled, hspelled, htexts⟩
      simp only [List.mapM_cons, Fallible.bind_eq_ok, Fallible.pure_eq_ok] at hspelled
      obtain ⟨_, hfield, spelled, hspelled, rfl⟩ := hspelled
      obtain ⟨value, hvalue, rfl⟩ := dumpsField_eq_ok.mp hfield
      rw [List.mapM_cons, chars?_field] at htexts
      simp only [Option.bind_eq_bind, Option.bind_eq_some_iff, Option.map_eq_some_iff, Option.pure_def,
        Option.some.injEq] at htexts
      obtain ⟨_, ⟨text, htext, rfl⟩, texts, htexts, rfl⟩ := htexts
      obtain ⟨values, hvalues, rfl⟩ := ih.mp ⟨normalized, hnormalized, spelled, hspelled, htexts⟩
      exact ⟨(field.1, text) :: values, ⟨_, _, ⟨rfl, normal, value, hnormal, hvalue, htext⟩, hvalues, rfl⟩, rfl⟩
    · rintro ⟨_, ⟨⟨column, text⟩, values, ⟨hcolumn, normal, value, hnormal, hvalue, htext⟩, hvalues, rfl⟩, rfl⟩
      obtain ⟨normalized, hnormalized, spelled, hspelled, htexts⟩ := ih.mpr ⟨values, hvalues, rfl⟩
      obtain rfl : field.1 = column := hcolumn
      refine ⟨_, ⟨_, ⟨normal, hnormal, rfl⟩, normalized, hnormalized, rfl⟩,
        (dumpsText (ofString field.1) ++ ofString ": " ++ value) :: spelled, ?_, ?_⟩
      · rw [List.mapM_cons, dumpsField_eq_ok.mpr ⟨value, hvalue, rfl⟩, hspelled]
        rfl
      · rw [List.mapM_cons, chars?_field, htext, htexts]
        rfl

/-- A digest is taken of the texts of all values, where each of them has one. -/
lemma contentHash_eq_ok :
    contentHash X row = .ok hash ↔ ∃ texts,
      List.Forall₂ (FieldText X) (Json.inOrder Json.codePointLe row) texts ∧
        X.sha256 (Text.encode (payload texts)) = hash := by
  have hcomma : (", " : String).toList = [',', ' '] := by decide
  have hpayload : ∀ {spelled : List PyText} {s : List Char},
      chars? (ofChar '\x7b' :: (ofString ", ").intercalate spelled ++ [ofChar '\x7d']) = some s ↔
        ∃ texts, spelled.mapM chars? = some texts ∧ '\x7b' :: [',', ' '].intercalate texts ++ ['\x7d'] = s := by
    intro spelled s
    rw [List.cons_append, chars?_cons, chars?_append, chars?_intercalate, toChar?_ofChar, hcomma]
    cases spelled.mapM chars? <;> simp [toChar?_ofChar]
  simp only [contentHash, dumpsFields, Fallible.bind_eq_ok, Fallible.pure_eq_ok, utf8_eq_ok]
  constructor
  · rintro ⟨normalized, hnormalized, _, ⟨spelled, hspelled, rfl⟩, bytes, ⟨s, hs, rfl⟩, rfl⟩
    obtain ⟨texts, htexts, rfl⟩ := hpayload.mp hs
    obtain ⟨values, hvalues, rfl⟩ := fields_eq_ok.mp ⟨normalized, hnormalized, spelled, hspelled, htexts⟩
    exact ⟨values, hvalues, rfl⟩
  · rintro ⟨values, hvalues, rfl⟩
    obtain ⟨normalized, hnormalized, spelled, hspelled, htexts⟩ := fields_eq_ok.mpr ⟨values, hvalues, rfl⟩
    exact ⟨normalized, hnormalized, _, ⟨spelled, hspelled, rfl⟩, _, ⟨_, hpayload.mpr ⟨_, htexts, rfl⟩, rfl⟩, rfl⟩

lemma exists_forall₂ {α β : Type} {R : α → β → Prop} {xs : List α} :
    (∃ ys, List.Forall₂ R xs ys) ↔ ∀ x ∈ xs, ∃ y, R x y := by
  induction xs with
  | nil => simp [List.forall₂_nil_left_iff]
  | cons x xs ih =>
    simp only [List.forall₂_cons_left_iff, List.forall_mem_cons, ← ih]
    constructor
    · rintro ⟨_, y, ys, hy, hys, -⟩
      exact ⟨⟨y, hy⟩, ys, hys⟩
    · rintro ⟨⟨y, hy⟩, ys, hys⟩
      exact ⟨_, y, ys, hy, hys, rfl⟩

lemma mem_inOrder {α : Type} {fields : List (String × α)} {field : String × α} :
    field ∈ Json.inOrder Json.codePointLe fields ↔ field ∈ fields :=
  (List.perm_insertionSort _ fields).mem_iff

lemma exists_contentHash : (∃ hash, contentHash X row = .ok hash) ↔ ∀ p ∈ row, ∃ text, ValueText X p.2 text := by
  calc (∃ hash, contentHash X row = .ok hash)
      ↔ ∃ texts, List.Forall₂ (FieldText X) (Json.inOrder Json.codePointLe row) texts := by simp [contentHash_eq_ok]
    _ ↔ ∀ p ∈ row, ∃ text, FieldText X p text := by simp only [exists_forall₂, mem_inOrder]
    _ ↔ ∀ p ∈ row, ∃ text, ValueText X p.2 text := by
      refine forall₂_congr fun p _ => ⟨fun ⟨text, _, htext⟩ => ⟨text.2, htext⟩, fun ⟨text, htext⟩ => ⟨(p.1, text), rfl, htext⟩⟩

end Payload

section Values

/-- The value has a text that is hashed. -/
def Digestible : PyValue → Prop
  | .int n => Printable n
  | .str t => (chars? t).isSome
  | .decimal d => ∃ normal, d.normalize .standard = .ok normal
  | .datetime t => ∃ utc, astimezone t = .ok utc
  | _ => True

lemma valueText_str {t : PyText} {text : List Char} :
    ValueText X (.str t) text ↔ ∃ s, chars? t = some s ∧ '"' :: s.flatMap escapeChar ++ ['"'] = text := by
  have hvalue : ValueText X (.str t) text ↔ chars? (dumpsText t) = some text := by
    constructor
    · rintro ⟨normal, spelled, hnormal, hspelled, htext⟩
      cases hnormal
      cases hspelled
      exact htext
    · exact fun htext => ⟨_, _, rfl, rfl, htext⟩
  rw [hvalue, chars?_dumpsText, Option.map_eq_some_iff]

lemma exists_valueText_chars {v : PyValue} {s : List Char} (h : normalizeForHash v = .ok (.str (ofChars s))) :
    ∃ text, ValueText X v text :=
  ⟨_, _, dumpsText (ofChars s), h, rfl, by rw [chars?_dumpsText, chars?_ofChars]; rfl⟩

lemma exists_valueText_self {v : PyValue} {s : List Char} (hnormal : normalizeForHash v = .ok v)
    (h : dumpsValue X v = .ok (ofChars s)) : ∃ text, ValueText X v text :=
  ⟨s, v, _, hnormal, h, chars?_ofChars s⟩

lemma exists_valueText {v : PyValue} : (∃ text, ValueText X v text) ↔ Digestible v := by
  cases v with
  | none => exact iff_of_true (exists_valueText_self rfl rfl) trivial
  | bool b => cases b <;> exact iff_of_true (exists_valueText_self rfl rfl) trivial
  | int n =>
    by_cases hprint : Printable n
    · exact iff_of_true (exists_valueText_self rfl (by rw [dumpsValue, if_pos hprint])) hprint
    · refine iff_of_false ?_ hprint
      rintro ⟨text, normal, spelled, hnormal, hspelled, -⟩
      cases hnormal
      rw [dumpsValue, if_neg hprint] at hspelled
      cases hspelled
  | float f =>
    refine iff_of_true ?_ trivial
    rcases f with text | ⟨_ | _⟩ | _ <;> exact exists_valueText_self rfl rfl
  | str t =>
    simp only [valueText_str, Digestible]
    cases chars? t <;> simp
  | bytes b => exact iff_of_true (exists_valueText_chars rfl) trivial
  | date d => exact iff_of_true (exists_valueText_chars rfl) trivial
  | uuid u => exact iff_of_true (exists_valueText_chars rfl) trivial
  | decimal d =>
    cases hnormal : d.normalize .standard with
    | ok normal =>
      exact iff_of_true (exists_valueText_chars (s := normal.plain) (by simp only [normalizeForHash, hnormal])) ⟨normal, hnormal⟩
    | error e =>
      refine iff_of_false ?_ (by simp [Digestible, hnormal])
      rintro ⟨text, normal, spelled, hvalue, -⟩
      cases e <;> simp [normalizeForHash, hnormal] at hvalue
  | datetime t =>
    cases hutc : astimezone t with
    | ok utc => exact iff_of_true (exists_valueText_chars (by simp only [normalizeForHash, hutc]; rfl)) ⟨utc, hutc⟩
    | error e =>
      refine iff_of_false ?_ (by simp [Digestible, hutc])
      rintro ⟨text, normal, spelled, hvalue, -⟩
      rw [normalizeForHash, hutc] at hvalue
      cases hvalue

end Values

end PlatformGitops.EtlRows
