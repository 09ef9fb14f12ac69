import PlatformGitops.EtlRows.SameDigest
import PlatformGitops.EtlWorker.Effects

/-! Two upserts of one key, of which the second is skipped where the digests agree. -/

namespace PlatformGitops.EtlRows

open Library
open EtlWorker (ColumnMeta TableMeta allColumns conflictColumns updateColumns lower)

/-- A row of a target table, by column. -/
abbrev StoredRow := String → PyValue

/-- A target table, by the values of the conflict columns. -/
abbrev Target := List PyValue → Option StoredRow

section Statement

variable (tableMeta : TableMeta)

def conflictKey (row : Row) : List PyValue := (conflictColumns tableMeta).map row.get

/-- The old row with the values of these columns of the new one. -/
def written (columns : List String) (row : Row) (old : StoredRow) : StoredRow := fun column =>
  match columns.find? (lower · = column) with
  | some name => row.get name
  | none => old column

/-- The row that is stored under the key of the new one. -/
def upserted (row : Row) : Option StoredRow → StoredRow
  | none => written (allColumns tableMeta) row fun _ => .none
  | some old => if old "content_hash" = row.get "content_hash" then old else written (updateColumns tableMeta) row old

/-- The upsert of one row, unless the statement names a column twice. -/
def upsert (target : Target) (row : Row) : Option Target :=
  if ((allColumns tableMeta).map lower).Nodup then
    some (Function.update target (conflictKey tableMeta row) (some (upserted tableMeta row (target (conflictKey tableMeta row)))))
  else none

end Statement

/-- Equal as numbers, as instants, or as they are. -/
def SameValue : PyValue → PyValue → Prop
  | .decimal d, .decimal d' => d.Same d'
  | a, b => Indistinct a b

/-- The stored row has the values of the columns. -/
def Holds (tableMeta : TableMeta) (stored : StoredRow) (row : Row) : Prop :=
  ∀ col ∈ tableMeta.columns, SameValue (stored (lower col.name)) (row.get col.name)

/-- The rows differ in numbers that are the same number in the precision of the digest, and in nothing else. -/
def RoundedAway (tableMeta : TableMeta) (row row' : Row) : Prop :=
  (∀ col ∈ tableMeta.columns, Indistinct (row.get col.name) (row'.get col.name)) ∧
    ∃ col ∈ tableMeta.columns, ∃ d d', row.get col.name = .decimal d ∧ row'.get col.name = .decimal d' ∧ ¬ d.Same d'

variable {X : Externals} {tableMeta : TableMeta} {raw raw' row row' : Row} {hash hash' : String} {sourcePk : PyText}

lemma indistinct_symm {a b : PyValue} (h : Indistinct a b) : Indistinct b a := by
  rcases indistinct_cases h with ⟨d, d', rfl, rfl, hsame⟩ | ⟨t, t', rfl, rfl, hsame⟩ | rfl
  · exact hsame.symm
  · exact hsame.symm
  · exact h

lemma sameValue_cases {a b : PyValue} (h : SameValue a b) :
    (∃ d d', a = .decimal d ∧ b = .decimal d' ∧ d.Same d') ∨
      (∃ t t', a = .datetime t ∧ b = .datetime t' ∧ astimezone t = astimezone t') ∨ a = b := by
  unfold SameValue at h
  split at h
  · exact Or.inl ⟨_, _, rfl, rfl, h⟩
  · rename_i hdecimal
    rcases indistinct_cases h with ⟨d, d', rfl, rfl, -⟩ | h
    · exact absurd rfl (hdecimal d d' rfl)
    · exact Or.inr h

lemma sameValue_symm {a b : PyValue} (h : SameValue a b) : SameValue b a := by
  rcases sameValue_cases h with ⟨d, d', rfl, rfl, hsame⟩ | ⟨t, t', rfl, rfl, hsame⟩ | rfl
  · exact Decimal.same_symm hsame
  · exact hsame.symm
  · exact h

lemma sameValue_trans {a b c : PyValue} (h : SameValue a b) (h' : SameValue b c) : SameValue a c := by
  rcases sameValue_cases h with ⟨d, d', rfl, rfl, hsame⟩ | ⟨t, t', rfl, rfl, hsame⟩ | rfl
  · rcases sameValue_cases h' with ⟨e, e', heq, rfl, hsame'⟩ | ⟨u, u', heq, -⟩ | rfl
    · cases heq
      exact Decimal.same_trans hsame hsame'
    · cases heq
    · exact h
  · rcases sameValue_cases h' with ⟨e, e', heq, -⟩ | ⟨u, u', heq, rfl, hsame'⟩ | rfl
    · cases heq
    · cases heq
      exact hsame.trans hsame'
    · exact h
  · exact h'

/-- Values that the digest does not tell apart are the same, but for numbers. -/
lemma sameValue_of_indistinct {a b : PyValue} (h : Indistinct a b)
    (hnumbers : ∀ d d', a = .decimal d → b = .decimal d' → d.Same d') : SameValue a b := by
  unfold SameValue
  split
  · exact hnumbers _ _ rfl rfl
  · exact h

lemma sameValue_refl (a : PyValue) : SameValue a a := by
  refine sameValue_of_indistinct (indistinct_refl a) fun d d' hd hd' => ?_
  rw [PyValue.decimal.inj (hd.symm.trans hd')]
  exact Decimal.same_refl d'

section Rows

lemma get_typed (h : transformRow X raw tableMeta = .ok (.typed row hash sourcePk)) :
    row.get "content_hash" = .str (ofString hash) ∧ row.get "source_pk" = .str sourcePk ∧
      ∃ columns, transformColumns X raw tableMeta.columns [] = .ok (.ok columns) ∧
        contentHash X (withSource tableMeta columns) = .ok hash ∧
        ∀ name, name ≠ "content_hash" → name ≠ "source_pk" → row.get name = Row.get (withSource tableMeta columns) name := by
  obtain ⟨columns, hcolumns, -, hhash, rfl⟩ := transformRow_eq_typed.mp h
  refine ⟨by simp, by simp, columns, hcolumns, hhash, fun name hdigest hpk => ?_⟩
  rw [Row.get_set, Row.get_set, if_neg hdigest, if_neg hpk]

/-- The columns of the table are none of the columns of the source. -/
lemma not_audit (hnodup : ((allColumns tableMeta).map lower).Nodup) {col : ColumnMeta} (hcol : col ∈ tableMeta.columns) :
    col.name ∉ EtlWorker.auditColumns tableMeta := by
  intro hmem
  have hall : (allColumns tableMeta).Nodup := hnodup.of_map
  exact (List.nodup_append.mp hall).2.2 _ (List.mem_map_of_mem hcol) _ hmem rfl

/-- The digests are the same if no column of the table tells the rows apart. -/
lemma digest_eq_iff (hsha : Function.Injective X.sha256) (hnodup : ((allColumns tableMeta).map lower).Nodup)
    (h : transformRow X raw tableMeta = .ok (.typed row hash sourcePk))
    (h' : transformRow X raw' tableMeta = .ok (.typed row' hash' sourcePk)) :
    hash = hash' ↔ ∀ col ∈ tableMeta.columns, Indistinct (row.get col.name) (row'.get col.name) := by
  obtain ⟨-, -, columns, hcolumns, hhash, hget⟩ := get_typed h
  obtain ⟨-, -, columns', hcolumns', hhash', hget'⟩ := get_typed h'
  have hside : SideBySide ([] : Row) [] := ⟨[], rfl, rfl, by simp⟩
  have hrows : SideBySide (withSource tableMeta columns) (withSource tableMeta columns') :=
    source_side_by_side (columns_side_by_side hside hcolumns hcolumns')
  rw [contentHash_eq_iff hsha hrows (unique_withSource (transformColumns_unique hcolumns List.nodup_nil)) hhash hhash']
  constructor
  · intro hsame col hcol
    have haudit := not_audit hnodup hcol
    have hdigest : col.name ≠ "content_hash" := fun hname => haudit (by simp [hname, EtlWorker.auditColumns])
    have hpk : col.name ≠ "source_pk" := fun hname => haudit (by simp [hname, EtlWorker.auditColumns])
    rw [hget _ hdigest hpk, hget' _ hdigest hpk]
    exact hsame col.name
  · intro hsame name
    by_cases hname : ∃ col ∈ tableMeta.columns, col.name = name
    · obtain ⟨col, hcol, rfl⟩ := hname
      have haudit := not_audit hnodup hcol
      have hdigest : col.name ≠ "content_hash" := fun hname => haudit (by simp [hname, EtlWorker.auditColumns])
      have hpk : col.name ≠ "source_pk" := fun hname => haudit (by simp [hname, EtlWorker.auditColumns])
      rw [← hget _ hdigest hpk, ← hget' _ hdigest hpk]
      exact hsame col hcol
    · simp only [not_exists, not_and] at hname
      have hlookup : (withSource tableMeta columns).lookup name = (withSource tableMeta columns').lookup name := by
        rw [lookup_withSource, lookup_withSource, transformColumns_absent hcolumns hname,
          transformColumns_absent hcolumns' hname]
      rw [Row.get, Row.get, hlookup]
      exact indistinct_refl _

lemma conflictKey_eq (h : transformRow X raw tableMeta = .ok (.typed row hash sourcePk))
    (h' : transformRow X raw' tableMeta = .ok (.typed row' hash' sourcePk)) :
    conflictKey tableMeta row' = conflictKey tableMeta row := by
  obtain ⟨-, hpk, columns, -, -, hget⟩ := get_typed h
  obtain ⟨-, hpk', columns', -, -, hget'⟩ := get_typed h'
  refine List.map_congr_left fun name hname => ?_
  by_cases hkey : name = "source_pk"
  · rw [hkey, hpk, hpk']
  · have hdigest : name ≠ "content_hash" := by
      rintro rfl
      revert hname
      cases hyear : tableMeta.sourceYear <;> simp [conflictColumns, hyear]
    rw [hget' name hdigest hkey, hget name hdigest hkey, Row.get, Row.get, lookup_withSource, lookup_withSource]
    revert hname
    cases hyear : tableMeta.sourceYear <;> simp only [conflictColumns, hyear] <;> intro hname <;> simp at hname <;>
      rcases hname with rfl | rfl | rfl | rfl <;> simp_all

end Rows

section Writes

lemma written_lower {columns : List String} {old : StoredRow} {name : String} (hnodup : (columns.map lower).Nodup)
    (hmem : name ∈ columns) : written columns row old (lower name) = row.get name := by
  unfold written
  cases hfind : columns.find? (lower · = lower name) with
  | none => exact absurd (decide_eq_true rfl) (List.find?_eq_none.mp hfind name hmem)
  | some found =>
    have hfound : lower found = lower name := by simpa using List.find?_some hfind
    rw [List.inj_on_of_nodup_map hnodup (List.mem_of_find?_eq_some hfind) hmem hfound]

lemma mem_updateColumns (hnodup : ((allColumns tableMeta).map lower).Nodup) {col : ColumnMeta} (hcol : col ∈ tableMeta.columns) :
    col.name ∈ updateColumns tableMeta := by
  refine List.mem_filter.mpr ⟨List.mem_append_left _ (List.mem_map_of_mem hcol), ?_⟩
  have haudit := not_audit hnodup hcol
  refine decide_eq_true fun hmem => haudit ?_
  revert hmem
  cases hyear : tableMeta.sourceYear <;> simp [conflictColumns, EtlWorker.auditColumns, hyear] <;> tauto

/-- Whatever was stored, the row that an upsert leaves has the digest of the new row. -/
lemma upserted_digest (hnodup : ((allColumns tableMeta).map lower).Nodup) (old : Option StoredRow) :
    upserted tableMeta row old "content_hash" = row.get "content_hash" := by
  have hlower : lower "content_hash" = "content_hash" := by decide
  have hupdate : ((updateColumns tableMeta).map lower).Nodup := hnodup.sublist (List.filter_sublist.map _)
  have hmem : "content_hash" ∈ allColumns tableMeta ∧ "content_hash" ∈ updateColumns tableMeta := EtlWorker.contentHash_mem
  unfold upserted
  split
  · have h : written (allColumns tableMeta) row (fun _ => .none) (lower "content_hash") = _ := written_lower hnodup hmem.1
    rwa [hlower] at h
  · rename_i old
    split
    · assumption
    · have h : written (updateColumns tableMeta) row old (lower "content_hash") = _ := written_lower hupdate hmem.2
      rwa [hlower] at h

/-- The row that an upsert leaves has the values of the new row, unless it found its digest. -/
lemma upserted_holds (hnodup : ((allColumns tableMeta).map lower).Nodup) {old : Option StoredRow}
    (hsame : ∀ stored, old = some stored → stored "content_hash" = row.get "content_hash" → Holds tableMeta stored row) :
    Holds tableMeta (upserted tableMeta row old) row := by
  have hupdate : ((updateColumns tableMeta).map lower).Nodup := hnodup.sublist (List.filter_sublist.map _)
  intro col hcol
  have hmem := mem_updateColumns hnodup hcol
  cases old with
  | none =>
    rw [upserted, written_lower hnodup (List.mem_of_mem_filter hmem)]
    exact sameValue_refl _
  | some stored =>
    by_cases hdigest : stored "content_hash" = row.get "content_hash"
    · rw [upserted, if_pos hdigest]
      exact hsame stored rfl hdigest col hcol
    · rw [upserted, if_neg hdigest, written_lower hupdate hmem]
      exact sameValue_refl _

end Writes

/-- The second of two upserts of one key leaves the values of its row, unless it differs from the first in digits that the
digest rounds away. -/
theorem upsert_loses_no_update (hsha : Function.Injective X.sha256) {target : Target}
    (h : transformRow X raw tableMeta = .ok (.typed row hash sourcePk))
    (h' : transformRow X raw' tableMeta = .ok (.typed row' hash' sourcePk))
    (hfirst : ∀ stored, target (conflictKey tableMeta row) = some stored →
      stored "content_hash" = row.get "content_hash" → Holds tableMeta stored row) :
    (∃ after after' stored, upsert tableMeta target row = some after ∧ upsert tableMeta after row' = some after' ∧
      after' (conflictKey tableMeta row') = some stored ∧ Holds tableMeta stored row') ↔
    ((allColumns tableMeta).map lower).Nodup ∧ ¬ RoundedAway tableMeta row row' := by
  by_cases hnodup : ((allColumns tableMeta).map lower).Nodup
  · simp only [upsert, hnodup, if_true, conflictKey_eq h h', Option.some.injEq, exists_and_left, exists_eq_left',
      Function.update_self, true_and]
    have hold : Holds tableMeta (upserted tableMeta row (target (conflictKey tableMeta row))) row :=
      upserted_holds hnodup hfirst
    have hdigest : upserted tableMeta row (target (conflictKey tableMeta row)) "content_hash" = row.get "content_hash" :=
      upserted_digest hnodup _
    generalize upserted tableMeta row (target (conflictKey tableMeta row)) = stored at hold hdigest
    have hhash : row.get "content_hash" = row'.get "content_hash" ↔ hash = hash' := by
      rw [(get_typed h).1, (get_typed h').1, PyValue.str.injEq]
      exact ⟨fun heq => String.toList_injective (ofChars_injective heq), fun heq => by rw [heq]⟩
    rw [digest_eq_iff hsha hnodup h h'] at hhash
    by_cases hsame : row.get "content_hash" = row'.get "content_hash"
    · have hindistinct := hhash.mp hsame
      rw [upserted, if_pos (hdigest.trans hsame)]
      constructor
      · rintro hnew ⟨-, col, hcol, d, d', hd, hd', hdiffer⟩
        have hvalues := sameValue_trans (sameValue_symm (hold col hcol)) (hnew col hcol)
        rw [hd, hd'] at hvalues
        exact hdiffer hvalues
      · intro hround col hcol
        refine sameValue_trans (hold col hcol) (sameValue_of_indistinct (hindistinct col hcol) fun d d' hd hd' => ?_)
        exact by_contra fun hdiffer => hround ⟨hindistinct, col, hcol, d, d', hd, hd', hdiffer⟩
    · refine iff_of_true (upserted_holds hnodup fun old hfound hold => ?_) fun hround => hsame (hhash.mpr hround.1)
      cases hfound
      exact absurd (hdigest.symm.trans hold) hsame
  · simp [upsert, hnodup]

section Balances

def companyExternals : Externals := plainExternals (sampledDigest companyDigests)

def companyResult (units : Nat) : Except PyExc TransformResult := transformRow companyExternals (company units) companyTable

def typedCompany (units : Nat) : Row := (typedOf (companyResult units)).1

lemma companyResult_eq (units : Nat) (h : (typedOf (companyResult units)).2.2 = ofString "[\"1\"]") :
    companyResult units =
      .ok (.typed (typedCompany units) (typedOf (companyResult units)).2.1 (ofString "[\"1\"]")) := by
  have hkey : ([] : PyText) ≠ ofString "[\"1\"]" := by decide
  unfold typedCompany
  revert h
  cases companyResult units with
  | error e => exact fun h => absurd h hkey
  | ok result =>
    cases result with
    | reject reason column value => exact fun h => absurd h hkey
    | typed row hash sourcePk =>
      rintro rfl
      rfl

example : (typedOf (companyResult 5)).2.2 = ofString "[\"1\"]" := by decide +kernel

theorem upsert_loses_no_update_company :
    (∃ after after' stored, upsert companyTable (fun _ => none) (typedCompany 5) = some after ∧
      upsert companyTable after (typedCompany 7) = some after' ∧
      after' (conflictKey companyTable (typedCompany 7)) = some stored ∧ Holds companyTable stored (typedCompany 7)) ↔
    ((allColumns companyTable).map lower).Nodup ∧ ¬ RoundedAway companyTable (typedCompany 5) (typedCompany 7) :=
  upsert_loses_no_update (X := companyExternals)
    (sampledDigest_injective (by decide +kernel) (by decide +kernel)) (companyResult_eq 5 (by decide +kernel))
    (companyResult_eq 7 (by decide +kernel)) nofun

/-- A balance that grows in its thirtieth digit stays as it was. -/
theorem upsert_skips_balance :
    companyResult 123456789012345678901234567891 =
      .ok (.typed (typedCompany 123456789012345678901234567891)
        (typedOf (companyResult 123456789012345678901234567891)).2.1 (ofString "[\"1\"]")) ∧
    companyResult 123456789012345678901234567892 =
      .ok (.typed (typedCompany 123456789012345678901234567892)
        (typedOf (companyResult 123456789012345678901234567892)).2.1 (ofString "[\"1\"]")) ∧
    ¬ ∃ after after' stored,
      upsert companyTable (fun _ => none) (typedCompany 123456789012345678901234567891) = some after ∧
      upsert companyTable after (typedCompany 123456789012345678901234567892) = some after' ∧
      after' (conflictKey companyTable (typedCompany 123456789012345678901234567892)) = some stored ∧
      Holds companyTable stored (typedCompany 123456789012345678901234567892) := by
  refine ⟨companyResult_eq _ (by decide +kernel), companyResult_eq _ (by decide +kernel), ?_⟩
  rintro ⟨after, after', stored, hafter, hafter', hstored, hholds⟩
  have hbalance : (((upsert companyTable (fun _ => none) (typedCompany 123456789012345678901234567891)).bind
      (upsert companyTable · (typedCompany 123456789012345678901234567892))).bind
      (· (conflictKey companyTable (typedCompany 123456789012345678901234567892)))).map (· "balance") =
        some (.decimal (.finite false 123456789012345678901234567891 (-20))) := by decide +kernel
  rw [hafter, Option.bind_some, hafter', Option.bind_some, hstored, Option.map_some, Option.some.injEq] at hbalance
  have hsame := hholds ⟨"balance", "NUMERIC", true, none⟩ (by simp [companyTable])
  have hlower : lower "balance" = "balance" := by decide
  have hnew : (typedCompany 123456789012345678901234567892).get "balance" =
      .decimal (.finite false 123456789012345678901234567892 (-20)) := by decide +kernel
  rw [hlower, hbalance, hnew] at hsame
  simp [SameValue, Decimal.Same] at hsame

end Balances

end PlatformGitops.EtlRows
