import PlatformGitops.EtlRows.ReconcileExact

/-! What a match says of a whole table: its first ten rows and the number of its rows. -/

namespace PlatformGitops.EtlRows

open Library
open EtlWorker (ColumnMeta TableMeta)

variable {X : Externals} {md5 : List UInt8 → String} {source : Source} {target : List StoredHash}
  {tableMeta : TableMeta} {scope : ReconcileScope} {rows : List Row} {pks : List PyText} {result : TableReconcileResult}

/-- A match of the whole table: as many rows on both sides, and equal samples. -/
lemma full_isMatch (hkind : scope.kind = .full) (h : reconcileTable X md5 source target tableMeta scope = .ok result)
    (hmatch : result.verdict = .isMatch) :
    pgCountCanonical target tableMeta = source.rows.length ∧
      ∃ rows pks dict samples, fetchScopedRows source tableMeta (orderOf tableMeta scope) (some 10) = .ok rows ∧
        List.Forall₂ (fun row pk => makeSourcePk X row tableMeta.idempotencyKey = .ok pk) rows pks ∧
        pgLookupHashes target tableMeta pks = .ok dict ∧
        List.Forall₂ (fun p sample => fullSample X tableMeta dict p = .ok sample) (pks.zip rows) samples ∧
        ∀ sample ∈ samples, sample.isMatch = true := by
  simp only [reconcileTable, hkind, Fallible.map_eq_ok, reconcileFull, Fallible.bind_eq_ok, mapError_eq_ok,
    Fallible.mapM_eq_ok_iff, Fallible.pure_eq_ok] at h
  obtain ⟨_, ⟨rows, hrows, pks, hpks, dict, hdict, samples, hsamples, rfl⟩, rfl⟩ := h
  obtain ⟨hcount, hall, -⟩ := (verdict_isMatch (by simp)).mp hmatch
  exact ⟨hcount, rows, pks, dict, samples, hrows, hpks, hdict, hsamples, hall⟩

/-- A key that is looked up is one of a row in scope. -/
lemma stores_of_lookup {dict : Dict PyText (Option String)} {pk : PyText} {hash : String}
    (hdict : pgLookupHashes target tableMeta pks = .ok dict) (hlookup : Dict.get? dict pk = some (some hash)) :
    Stores target tableMeta (pk, hash) := by
  unfold pgLookupHashes at hdict
  split_ifs at hdict
  · cases hdict
    cases hlookup
  · cases hdict
    obtain ⟨row, hrow, hpair⟩ := List.mem_map.mp (Dict.mem_of_lookup_ofPairs hlookup)
    have hscope := of_decide_eq_true (List.mem_filter.mp hrow).2
    exact ⟨row, List.mem_of_mem_filter hrow, hscope.1, (Prod.mk.inj hpair).1, (Prod.mk.inj hpair).2⟩

lemma stores_of_sample {dict : Dict PyText (Option String)} {row : Row} {p : PyText × String} {sample : Sample}
    (hdict : pgLookupHashes target tableMeta pks = .ok dict) (haccepted : Accepted X tableMeta row p)
    (hsample : fullSample X tableMeta dict (p.1, row) = .ok sample) (hmatch : sample.isMatch = true) :
    Stores target tableMeta p := by
  obtain ⟨typed, haccepted⟩ := haccepted
  rw [fullSample, haccepted] at hsample
  cases hsample
  refine stores_of_lookup hdict ?_
  have hjoin := of_decide_eq_true hmatch
  cases hlookup : Dict.get? dict p.1 with
  | none =>
    rw [hlookup] at hjoin
    cases hjoin
  | some stored =>
    rw [hlookup] at hjoin
    exact congrArg some hjoin

/-- Each sampled row that is accepted is stored. -/
lemma stores_of_samples {dict : Dict PyText (Option String)} {samples : List Sample}
    (hpks : List.Forall₂ (fun row pk => makeSourcePk X row tableMeta.idempotencyKey = .ok pk) rows pks)
    {lookedUp : List PyText} (hdict : pgLookupHashes target tableMeta lookedUp = .ok dict)
    (hsamples : List.Forall₂ (fun p sample => fullSample X tableMeta dict p = .ok sample) (pks.zip rows) samples)
    (hall : ∀ sample ∈ samples, sample.isMatch = true) :
    ∀ row ∈ rows, ∀ p, Accepted X tableMeta row p → Stores target tableMeta p := by
  induction hpks generalizing samples with
  | nil => simp
  | cons hpk hpks ih =>
    rw [List.zip_cons_cons] at hsamples
    obtain ⟨sample, samples, hsample, hrest, rfl⟩ := List.forall₂_cons_left_iff.mp hsamples
    obtain ⟨hmatch, hall⟩ := List.forall_mem_cons.mp hall
    refine List.forall_mem_cons.mpr ⟨fun p haccepted => ?_, ih hrest hall⟩
    have hkey := makeSourcePk_of_typed haccepted
    rw [hpk] at hkey
    cases hkey
    exact stores_of_sample hdict haccepted hsample hmatch

/-- Distinct keys that are all stored, as many as there are rows in scope: there are no other rows. -/
lemma only_stored {accepted : List (PyText × String)} (hnodup : (accepted.map (·.1)).Nodup)
    (hstores : ∀ p ∈ accepted, Stores target tableMeta p) (hcount : pgCountCanonical target tableMeta = accepted.length) :
    ∀ row ∈ target, inScope tableMeta row = true → ∃ p ∈ accepted, keyOf row = p.1 ∧ row.contentHash = some p.2 := by
  set counted := target.filter (inScope tableMeta) with hcounted
  have hsub : accepted.map (·.1) ⊆ counted.map keyOf := by
    intro pk hpk
    obtain ⟨p, hp, rfl⟩ := List.mem_map.mp hpk
    obtain ⟨row, hrow, hscope, hkey, -⟩ := hstores p hp
    exact hkey ▸ List.mem_map_of_mem (List.mem_filter.mpr ⟨hrow, hscope⟩)
  have hperm : (accepted.map (·.1)).Perm (counted.map keyOf) := by
    refine (List.subperm_of_subset hnodup hsub).perm_of_length_le ?_
    rw [List.length_map, List.length_map, ← hcount]
    rfl
  have hkeys : (counted.map keyOf).Nodup := hperm.nodup_iff.mp hnodup
  intro row hrow hscope
  have hmem : row ∈ counted := List.mem_filter.mpr ⟨hrow, hscope⟩
  obtain ⟨p, hp, hkey⟩ := List.mem_map.mp (hperm.mem_iff.mpr (List.mem_map_of_mem hmem))
  obtain ⟨other, hother, hscope', hkey', hhash⟩ := hstores p hp
  obtain rfl := List.inj_on_of_nodup_map hkeys (List.mem_filter.mpr ⟨hother, hscope'⟩) hmem (hkey'.trans hkey)
  exact ⟨p, hp, hkey', hhash⟩

/-- A match of the whole table counts its rows and compares the first ten; of at most ten rows that are all accepted under
distinct keys it says everything. -/
theorem full_match_samples (hkind : scope.kind = .full)
    (h : reconcileTable X md5 source target tableMeta scope = .ok result) (hmatch : result.verdict = .isMatch) :
    pgCountCanonical target tableMeta = source.rows.length ∧
      (∃ rows, fetchScopedRows source tableMeta (orderOf tableMeta scope) (some 10) = .ok rows ∧
        ∀ row ∈ rows, ∀ p, Accepted X tableMeta row p → Stores target tableMeta p) ∧
      (source.rows.length ≤ 10 → ∀ accepted, List.Forall₂ (Accepted X tableMeta) source.rows accepted →
        (accepted.map (·.1)).Nodup → (∀ p ∈ accepted, Stores target tableMeta p) ∧
          ∀ row ∈ target, inScope tableMeta row = true → ∃ p ∈ accepted, keyOf row = p.1 ∧ row.contentHash = some p.2) := by
  obtain ⟨hcount, rows, pks, dict, samples, hrows, hpks, hdict, hsamples, hall⟩ := full_isMatch hkind h hmatch
  have hstores := stores_of_samples hpks hdict hsamples hall
  refine ⟨hcount, ⟨rows, hrows, hstores⟩, fun hten accepted haccepted hnodup => ?_⟩
  have hmem : ∀ row ∈ source.rows, row ∈ rows := by
    intro row hrow
    have hperm := source.ordered_perm (orderOf tableMeta scope)
    rw [fetchScopedRows] at hrows
    split_ifs at hrows
    cases hrows
    rw [List.take_of_length_le (by rw [hperm.length_eq]; exact hten)]
    exact hperm.mem_iff.mpr hrow
  have hall : ∀ p ∈ accepted, Stores target tableMeta p := by
    intro p hp
    obtain ⟨row, hrow, hacc⟩ := forall₂_mem_right haccepted hp
    exact hstores row (hmem row hrow) p hacc
  exact ⟨hall, only_stored hnodup hall (by rw [hcount, haccepted.length_eq])⟩

section Companies

def wholeTable : ReconcileScope where
  kind := .full
  limit := none
  orderBy := []
  checkpointColumn := none
  limited_has_limit := nofun
  delta_has_column := nofun

example : pgCountCanonical companyStored companyTable = 1 := by decide +kernel

theorem full_match_company :
    pgCountCanonical companyStored companyTable = companySource.rows.length ∧
      (∃ rows, fetchScopedRows companySource companyTable (orderOf companyTable wholeTable) (some 10) = .ok rows ∧
        ∀ row ∈ rows, ∀ p, Accepted (plainExternals companySha256) companyTable row p → Stores companyStored companyTable p) ∧
      (companySource.rows.length ≤ 10 → ∀ accepted,
        List.Forall₂ (Accepted (plainExternals companySha256) companyTable) companySource.rows accepted →
        (accepted.map (·.1)).Nodup → (∀ p ∈ accepted, Stores companyStored companyTable p) ∧
          ∀ row ∈ companyStored, inScope companyTable row = true →
            ∃ p ∈ accepted, keyOf row = p.1 ∧ row.contentHash = some p.2) :=
  @full_match_samples (plainExternals companySha256) companyMd5 companySource companyStored companyTable wholeTable
    ⟨1, 1, [⟨ofString "[\"1\"]", some companyDigest, some companyDigest, true, none⟩],
      some "a43e6adc551a867dfc8bcb80b5b89d27", none, .isMatch, []⟩ rfl (by decide +kernel) rfl

def branchTable : TableMeta where
  name := "BRANCH"
  sourceSchema := "workcube_mikrolink"
  sourceYear := none
  columns := [⟨"branch_id", "INTEGER", false, none⟩]
  idempotencyKey := ["branch_id"]

def branch (id : Nat) : Row := [("branch_id", .int id)]

/-- The branches 11 to 21 in the order of their keys as texts. -/
def branchSource : Source where
  rows := (List.range' 11 11).map branch
  ordered _ := (List.range' 11 11).map branch
  ordered_perm _ := .refl _

def branchResult (id : Nat) : Row × String × PyText :=
  typedOf (transformRow (plainExternals (sampledDigest [])) (branch id) branchTable)

/-- The last branch is stored without a digest. -/
def branchStored : List StoredHash :=
  (List.range' 11 10).map (fun id => ⟨"workcube_mikrolink", none, "[\"" ++ toString id ++ "\"]", some (branchResult id).2.1⟩) ++
    [⟨"workcube_mikrolink", none, "[\"21\"]", none⟩]

/-- What is not among the first ten rows is not compared. -/
theorem full_match_misses_row :
    (∃ result, reconcileTable (plainExternals (sampledDigest [])) (sampledDigest []) branchSource branchStored branchTable
      wholeTable = .ok result ∧ result.verdict = .isMatch) ∧
    branch 21 ∈ branchSource.rows ∧
    transformRow (plainExternals (sampledDigest [])) (branch 21) branchTable =
      .ok (.typed (branchResult 21).1 (branchResult 21).2.1 (ofString "[\"21\"]")) ∧
    ¬ Stores branchStored branchTable (ofString "[\"21\"]", (branchResult 21).2.1) := by
  have hverdict : (reconcileTable (plainExternals (sampledDigest [])) (sampledDigest []) branchSource branchStored branchTable
      wholeTable).toOption.map (·.verdict) = some .isMatch := by decide +kernel
  obtain ⟨result, hresult, hmatch⟩ := Option.map_eq_some_iff.mp hverdict
  refine ⟨⟨result, Fallible.toOption_eq_some hresult, hmatch⟩, by decide, by decide +kernel, ?_⟩
  rintro ⟨row, hrow, -, hkey, hhash⟩
  have hall : ∀ row ∈ branchStored, keyOf row = ofString "[\"21\"]" → row.contentHash = none := by decide +kernel
  rw [hall row hrow hkey] at hhash
  cases hhash

end Companies

end PlatformGitops.EtlRows
