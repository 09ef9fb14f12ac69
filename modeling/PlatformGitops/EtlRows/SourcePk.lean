import PlatformGitops.EtlRows.TypedRow
import PlatformGitops.Library.PrefixCode

/-! The key of a row determines the values that it is made of, whatever characters they hold. -/

namespace PlatformGitops.EtlRows

open Library

section Escapes

lemma escapeChar_prefixCode : PrefixCode escapeChar := by
  refine PrefixCode.of_isPrefix fun c d h => ?_
  obtain ⟨w, hw⟩ := h
  have hend : Json.scanString 1 ['"'] = some ([], []) := by simp [Json.scanString]
  have hread : Json.scanString 2 (escapeChar d ++ ['"']) = some ([d], []) := by
    rw [Json.scanString_escape, hend, Option.map_some]
  rw [← hw, List.append_assoc, Json.scanString_escape, Option.map_eq_some_iff] at hread
  obtain ⟨p, -, hpair⟩ := hread
  exact (List.cons.inj (Prod.mk.inj hpair).1).1

lemma escapeChar_startsOff : StartsOff '"' escapeChar := by
  intro c
  unfold escapeChar
  split
  · exact ⟨_, _, rfl, by decide⟩
  · exact ⟨_, _, rfl, by decide⟩
  · exact ⟨_, _, rfl, by decide⟩
  · exact ⟨_, _, rfl, by decide⟩
  · exact ⟨_, _, rfl, by decide⟩
  · rename_i hquote _ _ _ _
    split_ifs
    · exact ⟨_, _, rfl, by decide⟩
    · exact ⟨_, _, rfl, by decide⟩
    · exact ⟨_, _, rfl, by decide⟩
    · exact ⟨_, _, rfl, hquote⟩

lemma escape_startsOff : StartsOff (ofChar '"') escape := by
  intro p
  unfold escape
  cases hp : toChar? p with
  | none =>
    refine ⟨_, _, rfl, ?_⟩
    rintro rfl
    rw [toChar?_ofChar] at hp
    cases hp
  | some c =>
    obtain ⟨d, ds, hcode, hd⟩ := escapeChar_startsOff c
    refine ⟨ofChar d, ofChars ds, ?_, fun h => hd (ofChar_injective h)⟩
    show ofChars (escapeChar c) = _
    rw [hcode]
    rfl

lemma escape_prefixCode : PrefixCode escape := by
  have hhead : ∀ {c : Char} {q : CodePoint} {w : PyText}, toChar? q = none → ∀ r, ofChars (escapeChar c) ++ w ≠ q :: r := by
    intro c q w hq r heq
    obtain ⟨d, ds, hcode, -⟩ := escapeChar_startsOff c
    rw [hcode] at heq
    rw [← (List.cons.inj heq).1, toChar?_ofChar] at hq
    cases hq
  refine PrefixCode.of_isPrefix fun p q h => ?_
  obtain ⟨w, hw⟩ := h
  unfold escape at hw
  cases hp : toChar? p with
  | none =>
    rw [hp] at hw
    cases hq : toChar? q with
    | none =>
      rw [hq] at hw
      exact (List.cons.inj hw).1
    | some d =>
      rw [hq] at hw
      exact absurd ((List.append_nil _).trans hw.symm) (hhead hp _)
  | some c =>
    rw [hp] at hw
    cases hq : toChar? q with
    | none =>
      rw [hq] at hw
      exact absurd hw (hhead hq _)
    | some d =>
      rw [hq] at hw
      have hprefix := (List.prefix_map_iff_of_injective fun _ _ => ofChar_injective).mp ⟨w, hw⟩
      obtain ⟨r, hr⟩ := hprefix
      obtain ⟨rfl, -⟩ := escapeChar_prefixCode (hr.trans (List.append_nil _).symm)
      rw [← ofChar_of_toChar? hp, ← ofChar_of_toChar? hq]

lemma dumpsText_prefixCode : PrefixCode dumpsText :=
  (escape_prefixCode.flatMap escape_startsOff).wrapped [ofChar '"']

end Escapes

section Keys

variable (X : Externals) {row row' : Row} {key key' : List String}

/-- A missing value, or the text of one. -/
def keyValue (v : PyValue) : Except PyExc (Option PyText) :=
  match v with
  | .none => .ok none
  | v => some <$> strOf X v

def keyTuple (row : Row) (idempotencyKey : List String) : Except PyExc (List (Option PyText)) :=
  idempotencyKey.mapM fun col => keyValue X (row.get col)

def keyText : Option PyText → PyText
  | none => ofString "null"
  | some t => dumpsText t

def keyArray (tuple : List (Option PyText)) : PyText :=
  ofChar '[' :: ([ofChar ','].intercalate (tuple.map keyText) ++ [ofChar ']'])

lemma pkValue_eq (v : PyValue) : pkValue X v = keyText <$> keyValue X v := by
  cases v with
  | none => rfl
  | _ => exact (Functor.map_map some keyText _).symm

lemma mapM_pkValue (row : Row) (key : List String) :
    key.mapM (fun col => pkValue X (row.get col)) = List.map keyText <$> keyTuple X row key := by
  unfold keyTuple
  induction key with
  | nil => rfl
  | cons col key ih =>
    rw [List.mapM_cons, List.mapM_cons, ih, pkValue_eq]
    cases keyValue X (row.get col) with
    | error e => rfl
    | ok v => cases List.mapM (fun col => keyValue X (row.get col)) key <;> rfl

lemma makeSourcePk_eq (row : Row) (key : List String) : makeSourcePk X row key = keyArray <$> keyTuple X row key := by
  have hcomma : ofString "," = [ofChar ','] := by decide
  rw [makeSourcePk, mapM_pkValue, hcomma]
  cases keyTuple X row key <;> rfl

lemma keyText_prefixCode : PrefixCode keyText := by
  have hnull : ofString "null" = ofChar 'n' :: ofString "ull" := by decide
  have hne : ofChar 'n' ≠ ofChar '"' := by decide
  intro a b r r' h
  cases a with
  | none =>
    cases b with
    | none => exact ⟨rfl, List.append_cancel_left h⟩
    | some t =>
      rw [keyText, keyText, hnull] at h
      exact absurd (List.cons.inj h).1 hne
  | some s =>
    cases b with
    | none =>
      rw [keyText, keyText, hnull] at h
      exact absurd (List.cons.inj h).1.symm hne
    | some t =>
      obtain ⟨rfl, rfl⟩ := dumpsText_prefixCode h
      exact ⟨rfl, rfl⟩

lemma keyText_startsOff : StartsOff (ofChar ']') keyText := by
  intro v
  cases v with
  | none => exact ⟨_, _, rfl, by decide⟩
  | some t => exact ⟨_, _, rfl, by decide⟩

lemma keyArray_injective : Function.Injective keyArray := by
  intro s t h
  exact (keyText_prefixCode.intercalate keyText_startsOff (by decide)).injective (List.cons.inj h).2

theorem source_pk_unambiguous {pk pk' : PyText} (h : makeSourcePk X row key = .ok pk)
    (h' : makeSourcePk X row' key' = .ok pk') : pk = pk' ↔ keyTuple X row key = keyTuple X row' key' := by
  rw [makeSourcePk_eq, Fallible.map_eq_ok] at h h'
  obtain ⟨tuple, htuple, rfl⟩ := h
  obtain ⟨tuple', htuple', rfl⟩ := h'
  rw [htuple, htuple', keyArray_injective.eq_iff, Except.ok.injEq]

example : makeSourcePk (plainExternals fun _ => "") [("A", .str (ofString "1"))] ["A"] = .ok (ofString "[\"1\"]") := by
  decide +kernel

theorem source_pk_unambiguous_quotes :
    makeSourcePk (plainExternals fun _ => "") [("A", .str (ofString "x\",\"y"))] ["A", "B"] ≠
      makeSourcePk (plainExternals fun _ => "") [("A", .str (ofString "x")), ("B", .str (ofString "y"))] ["A", "B"] := by
  have hquotes : makeSourcePk (plainExternals fun _ => "") [("A", .str (ofString "x\",\"y"))] ["A", "B"] =
      .ok (ofString "[\"x\\\",\\\"y\",null]") := by decide +kernel
  have hplain : makeSourcePk (plainExternals fun _ => "") [("A", .str (ofString "x")), ("B", .str (ofString "y"))]
      ["A", "B"] = .ok (ofString "[\"x\",\"y\"]") := by decide +kernel
  rw [hquotes, hplain, Ne, Except.ok.injEq, source_pk_unambiguous _ hquotes hplain]
  decide +kernel

end Keys

end PlatformGitops.EtlRows
