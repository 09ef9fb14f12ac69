import PlatformGitops.EtlRows.Reconcile

/-! What a match says of the rows of a comparison in a limited scope. -/

namespace PlatformGitops.EtlRows

open Library
open EtlWorker (ColumnMeta TableMeta)

variable {X : Externals} {md5 : List UInt8 → String} {source : Source} {target : List StoredHash}
  {tableMeta : TableMeta} {scope : ReconcileScope} {rows : List Row} {pks : List PyText} {hashes : List String}

section Blocks

/-- Blocks of one length, of which some may be missing, are as many as they seem. -/
lemma flatMap_blocks {α β : Type} {n : Nat} {f g : α → List β} {xs : List α} (hf : ∀ x ∈ xs, f x = [] ∨ (f x).length = n)
    (hg : ∀ x ∈ xs, (g x).length = n) (h : xs.flatMap f = xs.flatMap g) : ∀ x ∈ xs, f x = g x := by
  have hle : ∀ ys : List α, (∀ y ∈ ys, f y = [] ∨ (f y).length = n) → (∀ y ∈ ys, (g y).length = n) →
      (ys.flatMap f).length ≤ (ys.flatMap g).length := by
    intro ys
    induction ys with
    | nil => simp
    | cons y ys ih =>
      intro hf hg
      obtain ⟨hfy, hf⟩ := List.forall_mem_cons.mp hf
      obtain ⟨hgy, hg⟩ := List.forall_mem_cons.mp hg
      have hrest := ih hf hg
      simp only [List.flatMap_cons, List.length_append, hgy]
      rcases hfy with hfy | hfy
      · rw [hfy, List.length_nil]
        omega
      · omega
  induction xs with
  | nil => simp
  | cons x xs ih =>
    obtain ⟨hfx, hfs⟩ := List.forall_mem_cons.mp hf
    obtain ⟨hgx, hgs⟩ := List.forall_mem_cons.mp hg
    have hlength : (f x).length = (g x).length := by
      have htotal := congrArg List.length h
      have hrest := hle xs hfs hgs
      simp only [List.flatMap_cons, List.length_append, hgx] at htotal
      rcases hfx with hfx | hfx
      · rw [hfx, List.length_nil] at htotal ⊢
        omega
      · omega
    rw [List.flatMap_cons, List.flatMap_cons] at h
    obtain ⟨hx, hxs⟩ := List.append_inj h hlength
    exact List.forall_mem_cons.mpr ⟨hx, ih hfs hgs hxs⟩

end Blocks

/-- Sixty-four lowercase hexadecimal digits. -/
def IsDigest (s : String) : Prop :=
  s.toList.length = 64 ∧ s.toList.all (fun c => c.isDigit ∨ ('a' ≤ c ∧ c ≤ 'f')) = true

instance (s : String) : Decidable (IsDigest s) := inferInstanceAs (Decidable (_ ∧ _))

/-- The target keeps a row of the scope under the key, with the digest. -/
def Stores (target : List StoredHash) (tableMeta : TableMeta) (p : PyText × String) : Prop :=
  ∃ row ∈ target, inScope tableMeta row = true ∧ ofString row.sourcePk = p.1 ∧ row.contentHash = some p.2

/-- The row is accepted, with this key and this digest. -/
def Accepted (X : Externals) (tableMeta : TableMeta) (row : Row) (p : PyText × String) : Prop :=
  ∃ typed, transformRow X row tableMeta = .ok (.typed typed p.2 p.1)

section Verdicts

lemma mapError_eq_ok {α : Type} {x : Except PyExc α} {a : α} : raising x = .ok a ↔ x = .ok a := by
  cases x <;> simp [raising, Except.mapError]

/-- The pairs of what the same rows gave. -/
lemma forall₂_zip {α β γ : Type} {R : α → β → Prop} {S : α → γ → Prop} {xs : List α} {ys : List β} {zs : List γ}
    (hR : List.Forall₂ R xs ys) (hS : List.Forall₂ S xs zs) :
    List.Forall₂ (fun x p => R x p.1 ∧ S x p.2) xs (ys.zip zs) := by
  induction hR generalizing zs with
  | nil =>
    cases hS
    exact .nil
  | cons hxy hrest ih =>
    cases hS with
    | cons hxz hrest' => exact .cons ⟨hxy, hxz⟩ (ih hrest')

lemma forall₂_mem_right {α β : Type} {R : α → β → Prop} {xs : List α} {ys : List β} (h : List.Forall₂ R xs ys) {y : β}
    (hy : y ∈ ys) : ∃ x ∈ xs, R x y := by
  induction h with
  | nil => cases hy
  | cons hxy _ ih =>
    rcases List.mem_cons.mp hy with rfl | hy
    · exact ⟨_, List.mem_cons_self, hxy⟩
    · obtain ⟨x, hx, hr⟩ := ih hy
      exact ⟨x, List.mem_cons_of_mem _ hx, hr⟩

lemma forall₂_and_right {α β : Type} {R : α → β → Prop} {P : β → Prop} {xs : List α} {ys : List β}
    (h : List.Forall₂ R xs ys) (hP : ∀ y ∈ ys, P y) : List.Forall₂ (fun x y => R x y ∧ P y) xs ys := by
  induction h with
  | nil => exact .nil
  | cons hxy _ ih =>
    obtain ⟨hy, hys⟩ := List.forall_mem_cons.mp hP
    exact .cons ⟨hxy, hy⟩ (ih hys)

lemma verdict_isMatch {result : TableReconcileResult} (h : result.verdict ≠ .unsupportedDelta) :
    (assignVerdict result).verdict = .isMatch ↔
      result.rowCountPg = result.rowCountMssql ∧ (∀ sample ∈ result.sampleDiff, sample.isMatch = true) ∧
        ¬ (result.checksumPg.isSome ∧ result.checksumMssql.isSome ∧ result.checksumPg ≠ result.checksumMssql) := by
  unfold assignVerdict
  rw [if_neg h]
  split_ifs with hcount hsample hchecksum
  · simp [hcount]
  · simp only [false_iff]
    rintro ⟨-, hall, -⟩
    obtain ⟨sample, hmem, hfalse⟩ := hsample
    rw [hall sample hmem] at hfalse
    cases hfalse
  · simp [hchecksum]
  · simp only [true_iff]
    refine ⟨not_not.mp hcount, fun sample hmem => ?_, hchecksum⟩
    exact Bool.not_eq_false _ ▸ fun hfalse => hsample ⟨sample, hmem, hfalse⟩

lemma pgAggregateChecksum_some (h : pks ≠ []) :
    pgAggregateChecksum md5 target tableMeta (some pks) = aggregate md5 (foundRows target tableMeta pks) := by
  cases pks with
  | nil => exact absurd rfl h
  | cons pk pks => rfl

lemma withChecksums_isMatch (result : TableReconcileResult) (hverdict : result.verdict = .unknown)
    (hchecksum : result.checksumPg = none) :
    (∃ full, withChecksums X md5 target tableMeta rows pks result = .ok full ∧ (assignVerdict full).verdict = .isMatch) ↔
      result.rowCountPg = result.rowCountMssql ∧ (∀ sample ∈ result.sampleDiff, sample.isMatch = true) ∧
        (pks ≠ [] → ∃ hashes, List.Forall₂ (fun row hash => hashOf X tableMeta row = .ok hash) rows hashes ∧
          ∀ checksum, aggregate md5 (foundRows target tableMeta pks) = some checksum →
            checksum = md5Of md5 (orderedHashes pks hashes)) := by
  unfold withChecksums
  by_cases hempty : pks = []
  · simp only [if_pos hempty, Fallible.pure_eq_ok, exists_eq_left']
    rw [verdict_isMatch (by simp [hverdict])]
    simp [hempty, hchecksum]
  · simp only [if_neg hempty, Fallible.bind_eq_ok, mapError_eq_ok, Fallible.mapM_eq_ok_iff, Fallible.pure_eq_ok,
      pgAggregateChecksum_some hempty]
    constructor
    · rintro ⟨full, ⟨hashes, hhashes, rfl⟩, hmatch⟩
      obtain ⟨hcount, hall, hequal⟩ := (verdict_isMatch (by simp [hverdict])).mp hmatch
      refine ⟨hcount, hall, fun _ => ⟨hashes, hhashes, fun checksum hpg => ?_⟩⟩
      simpa [hpg] using hequal
    · rintro ⟨hcount, hall, hequal⟩
      obtain ⟨hashes, hhashes, hequal⟩ := hequal hempty
      refine ⟨_, ⟨hashes, hhashes, rfl⟩, (verdict_isMatch (by simp [hverdict])).mpr ⟨hcount, hall, ?_⟩⟩
      rintro ⟨hsome, -, hne⟩
      obtain ⟨checksum, hpg⟩ := Option.isSome_iff_exists.mp hsome
      exact hne (hpg.trans (congrArg some (hequal checksum hpg)))

lemma limited_isMatch (hkind : scope.kind = .limited)
    (hfetch : fetchScopedRows source tableMeta (limitedOrder tableMeta scope) scope.limit = .ok rows) :
    (∃ result, reconcileTable X md5 source target tableMeta scope = .ok result ∧ result.verdict = .isMatch) ↔
      ∃ pks dict samples, List.Forall₂ (fun row pk => makeSourcePk X row tableMeta.idempotencyKey = .ok pk) rows pks ∧
        pgLookupHashes target tableMeta pks = .ok dict ∧
        List.Forall₂ (fun p sample => limitedSample X tableMeta dict p = .ok sample) ((pks.zip rows).take 10) samples ∧
        dict.length = pks.length ∧ (∀ sample ∈ samples, sample.isMatch = true) ∧
        (pks ≠ [] → ∃ hashes, List.Forall₂ (fun row hash => hashOf X tableMeta row = .ok hash) rows hashes ∧
          ∀ checksum, aggregate md5 (foundRows target tableMeta pks) = some checksum →
            checksum = md5Of md5 (orderedHashes pks hashes)) := by
  simp only [reconcileTable, hkind, Fallible.map_eq_ok, reconcileLimited, hfetch, Fallible.bind_eq_ok, mapError_eq_ok,
    Fallible.mapM_eq_ok_iff]
  constructor
  · rintro ⟨_, ⟨result, ⟨_, ⟨⟩, pks, hpks, dict, hdict, samples, hsamples, hresult⟩, rfl⟩, hverdict⟩
    exact ⟨pks, dict, samples, hpks, hdict, hsamples, (withChecksums_isMatch _ rfl rfl).mp ⟨result, hresult, hverdict⟩⟩
  · rintro ⟨pks, dict, samples, hpks, hdict, hsamples, hmatch⟩
    obtain ⟨result, hresult, hverdict⟩ := (withChecksums_isMatch
      ⟨dict.length, pks.length, samples, none, none, .unknown, limitedNotes tableMeta scope pks⟩ rfl rfl).mpr hmatch
    exact ⟨_, ⟨result, ⟨rows, rfl, pks, hpks, dict, hdict, samples, hsamples, hresult⟩, rfl⟩, hverdict⟩

end Verdicts

section Found

abbrev keyOf (row : StoredHash) : PyText := ofString row.sourcePk

lemma keyOf_nodup (tableMeta : TableMeta) (pks : List PyText)
    (hunique : (target.map fun row => (row.sourceSchema, row.sourcePk)).Nodup) :
    ((foundRows target tableMeta pks).map keyOf).Nodup := by
  have hfound : ((foundRows target tableMeta pks).map fun row => (row.sourceSchema, row.sourcePk)).Nodup :=
    hunique.sublist (List.filter_sublist.map _)
  refine List.nodup_map_iff_inj_on ?_ |>.mpr fun row hrow row' hrow' hkey => ?_
  · exact hfound.of_map
  · have hscope : ∀ {r : StoredHash}, r ∈ foundRows target tableMeta pks → r.sourceSchema = tableMeta.sourceSchema := by
      intro r hr
      have hr := of_decide_eq_true (List.mem_filter.mp hr).2
      exact (of_decide_eq_true hr.1).1
    have hpk : row.sourcePk = row'.sourcePk := String.toList_injective (ofChars_injective hkey)
    exact List.inj_on_of_nodup_map hfound hrow hrow' (by rw [hscope hrow, hscope hrow', hpk])

lemma keyOf_subset : (foundRows target tableMeta pks).map keyOf ⊆ pks := by
  intro pk hpk
  obtain ⟨row, hrow, rfl⟩ := List.mem_map.mp hpk
  exact (of_decide_eq_true (List.mem_filter.mp hrow).2).2

def byKey (row row' : StoredHash) : Prop := keyOf row ≤ keyOf row'

instance : DecidableRel byKey := fun _ _ => inferInstanceAs (Decidable (_ ≤ _))

/-- The found rows in order have the keys in order. -/
lemma keys_sorted {found : List StoredHash} (hperm : (found.map keyOf).Perm pks) :
    (found.insertionSort byKey).map keyOf = pks.insertionSort (· ≤ ·) := by
  have hsorted : (found.insertionSort byKey).Pairwise byKey := by
    have : Std.Total byKey := ⟨fun a b => le_total (keyOf a) (keyOf b)⟩
    have : IsTrans StoredHash byKey := ⟨fun a b c => le_trans (a := keyOf a)⟩
    exact List.pairwise_insertionSort byKey found
  refine List.Perm.eq_of_pairwise (fun a b _ _ (hab : a ≤ b) hba => le_antisymm hab hba) ?_ (List.pairwise_insertionSort _ pks) ?_
  · exact List.pairwise_map.mpr hsorted
  · exact ((List.perm_insertionSort byKey found).map keyOf).trans (hperm.trans (List.perm_insertionSort _ pks).symm)

lemma aggregate_eq_some {found : List StoredHash} {checksum : String} :
    aggregate md5 found = some checksum ↔
      (found.insertionSort byKey).filterMap (·.contentHash) ≠ [] ∧
        md5Of md5 ((found.insertionSort byKey).filterMap (·.contentHash)) = checksum := by
  unfold aggregate
  have hhashes : (found.insertionSort fun row row' => ofString row.sourcePk ≤ ofString row'.sourcePk).filterMap (·.contentHash) =
      (found.insertionSort byKey).filterMap (·.contentHash) := rfl
  rw [hhashes]
  cases (found.insertionSort byKey).filterMap (·.contentHash) <;> simp

lemma pgLookupHashes_eq_ok (tableMeta : TableMeta)
    (hunique : (target.map fun row => (row.sourceSchema, row.sourcePk)).Nodup) (hempty : pks ≠ [])
    {dict : Dict PyText (Option String)} :
    pgLookupHashes target tableMeta pks = .ok dict ↔
      (∀ pk ∈ pks, chars? pk ≠ none) ∧ dict = (foundRows target tableMeta pks).map fun row => (keyOf row, row.contentHash) := by
  have hnodup : (((foundRows target tableMeta pks).map fun row => (keyOf row, row.contentHash)).map (·.1)).Nodup := by
    have hkeys := keyOf_nodup tableMeta pks hunique
    rwa [List.map_map]
  unfold pgLookupHashes
  rw [if_neg hempty, Dict.ofPairs_of_nodup hnodup]
  split_ifs with hnone
  · obtain ⟨pk, hpk, hnone⟩ := hnone
    simp only [false_iff]
    exact fun h => h.1 pk hpk hnone
  · simp only [not_exists, not_and] at hnone
    exact ⟨fun h => ⟨hnone, (Except.ok.inj h).symm⟩, fun h => congrArg Except.ok h.2.symm⟩

/-- The digests of the found rows one after the other. -/
lemma flatMap_filterMap {α : Type} (f : α → Option String) (xs : List α) :
    (xs.filterMap f).flatMap String.toList = xs.flatMap fun x => ((f x).getD "").toList := by
  induction xs with
  | nil => rfl
  | cons x xs ih =>
    rw [List.filterMap_cons, List.flatMap_cons, ← ih]
    cases f x with
    | none => rfl
    | some s => rfl

end Found

section Rows

lemma makeSourcePk_of_typed {row : Row} {p : PyText × String} (h : Accepted X tableMeta row p) :
    makeSourcePk X row tableMeta.idempotencyKey = .ok p.1 := by
  obtain ⟨typed, h⟩ := h
  obtain ⟨columns, -, hpk, -⟩ := transformRow_eq_typed.mp h
  exact hpk

lemma hashOf_of_typed {row : Row} {p : PyText × String} (h : Accepted X tableMeta row p) : hashOf X tableMeta row = .ok p.2 := by
  obtain ⟨typed, h⟩ := h
  rw [hashOf, h]
  rfl

def transformReject : String := "__transform_reject__"

/-- The digest of a row is one, or the row is rejected. -/
lemma hashOf_cases (hsha : ∀ bytes, IsDigest (X.sha256 bytes)) {row : Row} {hash : String}
    (h : hashOf X tableMeta row = .ok hash) :
    hash = transformReject ∨ IsDigest hash ∧ ∃ pk, Accepted X tableMeta row (pk, hash) := by
  obtain ⟨result, hresult, h⟩ := Fallible.bind_eq_ok.mp h
  cases result with
  | reject reason column value =>
    cases h
    exact Or.inl rfl
  | typed row hash pk =>
    cases h
    obtain ⟨columns, -, -, hhash, -⟩ := transformRow_eq_typed.mp hresult
    obtain ⟨texts, -, rfl⟩ := contentHash_eq_ok.mp hhash
    exact Or.inr ⟨hsha _, pk, row, hresult⟩

lemma underscore_not_digest {s : String} (h : IsDigest s) : '_' ∉ s.toList := by
  intro hmem
  exact absurd (List.all_eq_true.mp h.2 _ hmem) (by decide)

lemma underscore_transformReject : '_' ∈ transformReject.toList := by decide

/-- A sample of an accepted row matches if its digest is found. -/
lemma limitedSample_matches {dict : Dict PyText (Option String)} {p : PyText × Row} {sample : Sample} :
    limitedSample X tableMeta dict p = .ok sample ∧ sample.isMatch = true ↔
      ∃ hash pk, Accepted X tableMeta p.2 (pk, hash) ∧ dict.get? p.1 = some (some hash) ∧
        sample = ⟨p.1, some hash, some hash, true, none⟩ := by
  have hjoin : ∀ {hash : String}, (dict.get? p.1).join = some hash ↔ dict.get? p.1 = some (some hash) := by
    intro hash
    cases dict.get? p.1 with
    | none => simp
    | some stored => simp
  simp only [limitedSample, Fallible.bind_eq_ok]
  constructor
  · rintro ⟨⟨result, hresult, hsample⟩, hmatch⟩
    cases result with
    | reject reason column value =>
      cases hsample
      cases hmatch
    | typed row hash pk =>
      cases hsample
      have hlookup := hjoin.mp (of_decide_eq_true hmatch)
      exact ⟨hash, pk, ⟨row, hresult⟩, hlookup, by simp [hlookup]⟩
  · rintro ⟨hash, pk, ⟨typed, hresult⟩, hlookup, rfl⟩
    refine ⟨⟨.typed typed hash pk, hresult, ?_⟩, rfl⟩
    simp [hlookup]

end Rows

section Exact

/-- As many found rows as keys: the keys are distinct, and each of them is found. -/
lemma keys_perm (tableMeta : TableMeta)
    (hunique : (target.map fun row => (row.sourceSchema, row.sourcePk)).Nodup)
    (hcount : (foundRows target tableMeta pks).length = pks.length) :
    ((foundRows target tableMeta pks).map keyOf).Perm pks :=
  (List.subperm_of_subset (keyOf_nodup _ _ hunique) keyOf_subset).perm_of_length_le (by rw [List.length_map, hcount])

/-- Two checksums agree only if each found row has the digest of the row of its key. -/
lemma digests_of_checksum (hmd5 : Function.Injective md5) (hsha : ∀ bytes, IsDigest (X.sha256 bytes))
    (hstored : ∀ row ∈ target, ∀ hash ∈ row.contentHash, IsDigest hash)
    (hperm : ((foundRows target tableMeta pks).map keyOf).Perm pks) (hnodup : pks.Nodup)
    (hhashes : List.Forall₂ (fun row hash => hashOf X tableMeta row = .ok hash) rows hashes)
    (hlength : pks.length = hashes.length)
    (hsome : ∃ row ∈ foundRows target tableMeta pks, row.contentHash.isSome)
    (hchecksum : ∀ checksum, aggregate md5 (foundRows target tableMeta pks) = some checksum →
      checksum = md5Of md5 (orderedHashes pks hashes)) :
    ∀ p ∈ pks.zip hashes, IsDigest p.2 ∧ Stores target tableMeta p := by
  set found := foundRows target tableMeta pks with hfound
  have hsorted : ∀ row, row ∈ found.insertionSort byKey ↔ row ∈ found :=
    fun row => (List.perm_insertionSort byKey found).mem_iff
  have hzip : ((pks.zip hashes).map (·.1)).Nodup := by
    rw [List.map_fst_zip (by omega)]
    exact hnodup
  -- the digest of the row of a key
  let expected : StoredHash → Option String := fun row => Dict.get? (pks.zip hashes) (keyOf row)
  have hordered : orderedHashes pks hashes = (found.insertionSort byKey).filterMap expected := by
    rw [orderedHashes, Dict.ofPairs_of_nodup hzip, ← keys_sorted hperm, List.filterMap_map]
    rfl
  have hpieces : ∀ row ∈ found.insertionSort byKey, ∃ hash ∈ hashes, expected row = some hash := by
    intro row hrow
    have hkey : keyOf row ∈ (pks.zip hashes).map (·.1) := by
      rw [List.map_fst_zip (by omega)]
      exact keyOf_subset (List.mem_map_of_mem ((hsorted row).mp hrow))
    obtain ⟨⟨pk, hash⟩, hmem, hpk⟩ := List.mem_map.mp hkey
    obtain rfl : pk = keyOf row := hpk
    exact ⟨hash, (List.of_mem_zip hmem).2, (Dict.Unique.mem_iff hzip).mp hmem⟩
  have hcases : ∀ hash ∈ hashes, hash = transformReject ∨ IsDigest hash := by
    intro hash hmem
    obtain ⟨row, -, hrow⟩ := forall₂_mem_right hhashes hmem
    exact (hashOf_cases hsha hrow).imp_right And.left
  have htexts : (found.insertionSort byKey).flatMap (fun row => (row.contentHash.getD "").toList) =
      (found.insertionSort byKey).flatMap fun row => ((expected row).getD "").toList := by
    obtain ⟨row, hrow, hhash⟩ := hsome
    obtain ⟨hash, hhash⟩ := Option.isSome_iff_exists.mp hhash
    have hne : (found.insertionSort byKey).filterMap (·.contentHash) ≠ [] :=
      List.ne_nil_of_mem (List.mem_filterMap.mpr ⟨row, (hsorted row).mpr hrow, hhash⟩)
    have heq := hchecksum _ (aggregate_eq_some.mpr ⟨hne, rfl⟩)
    rw [hordered] at heq
    have htext := Text.encode_injective (hmd5 heq)
    rwa [flatMap_filterMap, flatMap_filterMap] at htext
  have hdigests : ∀ row ∈ found.insertionSort byKey, ∃ hash, expected row = some hash ∧ IsDigest hash := by
    intro row hrow
    obtain ⟨hash, hmem, hexpected⟩ := hpieces row hrow
    refine ⟨hash, hexpected, (hcases hash hmem).resolve_left ?_⟩
    rintro rfl
    -- no stored digest has an underscore
    have hunderscore : '_' ∈ (found.insertionSort byKey).flatMap fun row => ((expected row).getD "").toList :=
      List.mem_flatMap.mpr ⟨row, hrow, by rw [hexpected]; exact underscore_transformReject⟩
    rw [← htexts] at hunderscore
    obtain ⟨other, hother, hmem⟩ := List.mem_flatMap.mp hunderscore
    have htarget : other ∈ target := List.mem_of_mem_filter ((hsorted other).mp hother)
    cases hhash : other.contentHash with
    | none => simp [hhash] at hmem
    | some stored =>
      rw [hhash] at hmem
      exact underscore_not_digest (hstored other htarget stored hhash) hmem
  have hblocks : ∀ row ∈ found.insertionSort byKey, _ := flatMap_blocks (n := 64) ?_ ?_ htexts
  · rintro ⟨pk, hash⟩ hmem
    obtain ⟨row, hrow, rfl⟩ := List.mem_map.mp (hperm.mem_iff.mpr (List.of_mem_zip hmem).1)
    have hexpected : expected row = some hash := (Dict.Unique.mem_iff hzip).mp hmem
    obtain ⟨hash', hexpected', hdigest⟩ := hdigests row ((hsorted row).mpr hrow)
    obtain rfl : hash = hash' := Option.some.inj (hexpected.symm.trans hexpected')
    have htext := hblocks row ((hsorted row).mpr hrow)
    rw [hexpected, Option.getD_some] at htext
    refine ⟨hdigest, row, List.mem_of_mem_filter hrow, ?_, rfl, ?_⟩
    · exact (of_decide_eq_true (List.mem_filter.mp hrow).2).1
    · cases hstored : row.contentHash with
      | none =>
        rw [hstored] at htext
        have hlength := hdigest.1
        rw [← htext] at hlength
        cases hlength
      | some stored =>
        rw [hstored] at htext
        exact congrArg some (String.toList_injective htext)
  · intro row hrow
    have htarget : row ∈ target := List.mem_of_mem_filter ((hsorted row).mp hrow)
    cases hhash : row.contentHash with
    | none => exact Or.inl rfl
    | some stored => exact Or.inr (hstored row htarget stored hhash).1
  · intro row hrow
    obtain ⟨hash, hexpected, hdigest⟩ := hdigests row hrow
    rw [hexpected]
    exact hdigest.1

/-- The row of a key and a digest is accepted with them. -/
lemma accepted_of_digest (hsha : ∀ bytes, IsDigest (X.sha256 bytes)) {row : Row} {p : PyText × String}
    (hpk : makeSourcePk X row tableMeta.idempotencyKey = .ok p.1) (hhash : hashOf X tableMeta row = .ok p.2)
    (hdigest : IsDigest p.2) : Accepted X tableMeta row p := by
  rcases hashOf_cases hsha hhash with hreject | ⟨-, pk, haccepted⟩
  · rw [hreject] at hdigest
    exact absurd underscore_transformReject (underscore_not_digest hdigest)
  · have hsame := makeSourcePk_of_typed haccepted
    rw [hpk] at hsame
    obtain rfl : p.1 = pk := Except.ok.inj hsame
    exact haccepted

/-- A found digest of the first row is one of the digests in the checksum. -/
lemma digest_of_first_sample {row : Row} {pk : PyText} {dict : Dict PyText (Option String)} {samples : List Sample}
    (hnodup : Dict.Unique dict)
    (hdict : dict = (foundRows target tableMeta (pk :: pks)).map fun row => (keyOf row, row.contentHash))
    (hsamples : List.Forall₂ (fun p sample => limitedSample X tableMeta dict p = .ok sample)
      (((pk :: pks).zip (row :: rows)).take 10) samples)
    (hall : ∀ sample ∈ samples, sample.isMatch = true) :
    ∃ row ∈ foundRows target tableMeta (pk :: pks), row.contentHash.isSome := by
  rw [List.zip_cons_cons, List.take_succ_cons] at hsamples
  obtain ⟨sample, samples, hsample, -, rfl⟩ := List.forall₂_cons_left_iff.mp hsamples
  obtain ⟨hash, -, -, hlookup, -⟩ := limitedSample_matches.mp ⟨hsample, hall sample List.mem_cons_self⟩
  have hmem := hnodup.mem_iff.mpr hlookup
  rw [hdict] at hmem
  obtain ⟨found, hfound, hpair⟩ := List.mem_map.mp hmem
  refine ⟨found, hfound, ?_⟩
  rw [(Prod.mk.inj hpair).2]
  rfl

lemma accepted_of_mem_zip {accepted : List (PyText × String)} (h : List.Forall₂ (Accepted X tableMeta) rows accepted)
    {p : PyText × Row} (hp : p ∈ (accepted.map (·.1)).zip rows) :
    ∃ hash, (p.1, hash) ∈ accepted ∧ Accepted X tableMeta p.2 (p.1, hash) := by
  induction h with
  | nil => simp at hp
  | cons hrow _ ih =>
    rw [List.map_cons, List.zip_cons_cons] at hp
    rcases List.mem_cons.mp hp with rfl | hp
    · exact ⟨_, List.mem_cons_self, hrow⟩
    · obtain ⟨hash, hmem, haccepted⟩ := ih hp
      exact ⟨hash, List.mem_cons_of_mem _ hmem, haccepted⟩

/-- Keys that the target stores are found, each with its digest. -/
lemma found_of_stores {accepted : List (PyText × String)}
    (hunique : (target.map fun row => (row.sourceSchema, row.sourcePk)).Nodup) (hnodup : (accepted.map (·.1)).Nodup)
    (hstores : ∀ p ∈ accepted, Stores target tableMeta p) :
    ((foundRows target tableMeta (accepted.map (·.1))).map keyOf).Perm (accepted.map (·.1)) ∧
      ∀ row ∈ foundRows target tableMeta (accepted.map (·.1)), ∃ hash, (keyOf row, hash) ∈ accepted ∧ row.contentHash = some hash := by
  have hmem : ∀ p ∈ accepted, ∃ row ∈ foundRows target tableMeta (accepted.map (·.1)),
      keyOf row = p.1 ∧ row.contentHash = some p.2 := by
    intro p hp
    obtain ⟨row, hrow, hscope, hkey, hhash⟩ := hstores p hp
    refine ⟨row, List.mem_filter.mpr ⟨hrow, decide_eq_true ⟨hscope, ?_⟩⟩, hkey, hhash⟩
    rw [hkey]
    exact List.mem_map_of_mem hp
  have hkeys := keyOf_nodup tableMeta (accepted.map (·.1)) hunique
  constructor
  · refine (List.perm_ext_iff_of_nodup hkeys hnodup).mpr fun pk => ⟨fun h => keyOf_subset h, fun h => ?_⟩
    obtain ⟨p, hp, rfl⟩ := List.mem_map.mp h
    obtain ⟨row, hrow, hkey, -⟩ := hmem p hp
    exact hkey ▸ List.mem_map_of_mem hrow
  · intro row hrow
    obtain ⟨⟨pk, hash⟩, hp, hpk⟩ := List.mem_map.mp (keyOf_subset (List.mem_map_of_mem hrow))
    obtain rfl : pk = keyOf row := hpk
    obtain ⟨other, hother, hkey, hhash⟩ := hmem _ hp
    obtain rfl := List.inj_on_of_nodup_map hkeys hother hrow hkey
    exact ⟨hash, hp, hhash⟩

/-- The comparison of a limited scope matches if and only if the rows have distinct keys, each of them is accepted, and the
target stores each digest under its key. -/
theorem limited_match_iff (hmd5 : Function.Injective md5) (hsha : ∀ bytes, IsDigest (X.sha256 bytes))
    (hstored : ∀ row ∈ target, ∀ hash ∈ row.contentHash, IsDigest hash)
    (hunique : (target.map fun row => (row.sourceSchema, row.sourcePk)).Nodup) (hkind : scope.kind = .limited)
    (hfetch : fetchScopedRows source tableMeta (limitedOrder tableMeta scope) scope.limit = .ok rows) :
    (∃ result, reconcileTable X md5 source target tableMeta scope = .ok result ∧ result.verdict = .isMatch) ↔
      ∃ accepted, List.Forall₂ (Accepted X tableMeta) rows accepted ∧ (accepted.map (·.1)).Nodup ∧
        ∀ p ∈ accepted, Stores target tableMeta p := by
  rw [limited_isMatch hkind hfetch]
  constructor
  · rintro ⟨pks, dict, samples, hpks, hdict, hsamples, hcount, hall, hchecksum⟩
    cases hpks with
    | nil => exact ⟨[], .nil, List.nodup_nil, by simp⟩
    | @cons row pk rows pks hpk hpks =>
      have hkeysOk : List.Forall₂ (fun row pk => makeSourcePk X row tableMeta.idempotencyKey = .ok pk)
          (row :: rows) (pk :: pks) := .cons hpk hpks
      obtain ⟨hashes, hhashes, hchecksum⟩ := hchecksum (List.cons_ne_nil pk pks)
      obtain ⟨-, hdict⟩ := (pgLookupHashes_eq_ok _ hunique (List.cons_ne_nil pk pks)).mp hdict
      have hkeys : Dict.Unique dict := by
        rw [hdict, Dict.Unique, List.map_map]
        exact keyOf_nodup _ _ hunique
      have hperm := keys_perm tableMeta hunique (by rw [← hcount, hdict, List.length_map])
      have hnodup := hperm.nodup_iff.mp (keyOf_nodup _ _ hunique)
      have hlength : (pk :: pks).length = hashes.length := by
        rw [← hhashes.length_eq, List.length_cons, List.length_cons, hpks.length_eq]
      have hdigests := digests_of_checksum hmd5 hsha hstored hperm hnodup hhashes hlength
        (digest_of_first_sample hkeys hdict hsamples hall) hchecksum
      refine ⟨(pk :: pks).zip hashes, ?_, ?_, fun p hp => (hdigests p hp).2⟩
      · refine (forall₂_and_right (forall₂_zip hkeysOk hhashes) hdigests).imp ?_
        rintro row p ⟨⟨hpk, hhash⟩, hdigest, -⟩
        exact accepted_of_digest hsha hpk hhash hdigest
      · rw [List.map_fst_zip (by omega)]
        exact hnodup
  · rintro ⟨accepted, haccepted, hnodup, hstores⟩
    by_cases hempty : accepted = []
    · rw [hempty] at haccepted
      cases haccepted
      exact ⟨[], [], [], .nil, rfl, .nil, rfl, by simp, fun h => absurd rfl h⟩
    have hkeys : accepted.map (·.1) ≠ [] := by simpa using hempty
    obtain ⟨hperm, hfound⟩ := found_of_stores hunique hnodup hstores
    have hencodes : ∀ pk ∈ accepted.map (·.1), chars? pk ≠ none := by
      intro pk hpk
      obtain ⟨row, -, rfl⟩ := List.mem_map.mp (hperm.mem_iff.mpr hpk)
      simp
    have hdict := (pgLookupHashes_eq_ok tableMeta hunique hkeys).mpr ⟨hencodes, rfl⟩
    have hunique' := keyOf_nodup tableMeta (accepted.map (·.1)) hunique
    generalize hdef : (foundRows target tableMeta (accepted.map (·.1))).map (fun row => (keyOf row, row.contentHash)) = dict
      at hdict
    have hlookup : ∀ p ∈ accepted, Dict.get? dict p.1 = some (some p.2) := by
      intro p hp
      obtain ⟨row, hrow, hkey⟩ := List.mem_map.mp (hperm.mem_iff.mpr (List.mem_map_of_mem hp))
      obtain ⟨hash, hmem, hhash⟩ := hfound row hrow
      have hpair : p = (keyOf row, hash) := List.inj_on_of_nodup_map hnodup hp hmem hkey.symm
      have hdictUnique : Dict.Unique dict := by
        rw [← hdef, Dict.Unique, List.map_map]
        exact hunique'
      refine hdictUnique.mem_iff.mp ?_
      rw [hpair, ← hhash, ← hdef]
      exact List.mem_map_of_mem hrow
    obtain ⟨samples, hsamples⟩ : ∃ samples, List.Forall₂ (fun p sample =>
        limitedSample X tableMeta dict p = .ok sample ∧ sample.isMatch = true)
        (((accepted.map (·.1)).zip rows).take 10) samples := by
      refine exists_forall₂.mpr fun p hp => ?_
      obtain ⟨hash, hmem, hrow⟩ := accepted_of_mem_zip haccepted (List.mem_of_mem_take hp)
      exact ⟨_, limitedSample_matches.mpr ⟨hash, p.1, hrow, hlookup _ hmem, rfl⟩⟩
    refine ⟨accepted.map (·.1), dict, samples, ?_, hdict, hsamples.imp fun _ _ h => h.1, ?_, ?_,
      fun _ => ⟨accepted.map (·.2), ?_, fun checksum haggregate => ?_⟩⟩
    · exact List.forall₂_map_right_iff.mpr (haccepted.imp fun _ _ h => makeSourcePk_of_typed h)
    · rw [← hdef, List.length_map, ← hperm.length_eq, List.length_map]
    · intro sample hsample
      obtain ⟨p, -, -, hmatch⟩ := forall₂_mem_right hsamples hsample
      exact hmatch
    · exact List.forall₂_map_right_iff.mpr (haccepted.imp fun _ _ h => hashOf_of_typed h)
    · obtain ⟨-, rfl⟩ := aggregate_eq_some.mp haggregate
      have hzip : (accepted.map (·.1)).zip (accepted.map (·.2)) = accepted := by simp [List.zip_map']
      rw [orderedHashes, hzip, Dict.ofPairs_of_nodup hnodup, ← keys_sorted hperm, List.filterMap_map]
      congr 1
      refine List.filterMap_congr fun row hrow => ?_
      obtain ⟨hash, hmem, hhash⟩ := hfound row ((List.perm_insertionSort byKey _).mem_iff.mp hrow)
      rw [hhash]
      exact ((Dict.Unique.mem_iff hnodup).mp hmem).symm

def companySha256 (bytes : List UInt8) : String :=
  (companyDigests.lookup bytes).getD "0000000000000000000000000000000000000000000000000000000000000000"

lemma isDigest_companySha256 (bytes : List UInt8) : IsDigest (companySha256 bytes) := by
  unfold companySha256
  cases h : companyDigests.lookup bytes with
  | none => decide +kernel
  | some digest =>
    obtain ⟨before, after, hsplit, -⟩ := List.lookup_eq_some_iff.mp h
    have hall : ∀ p ∈ companyDigests, IsDigest p.2 := by decide +kernel
    exact hall (bytes, digest) (by rw [hsplit]; simp)

def companyDigest : String := "2e885f02b49a9f679632e994dca89244ce6db5e7ccbb02f3db44998bbc270448"

def companyMd5 : List UInt8 → String :=
  sampledDigest [(Text.encode companyDigest.toList, "a43e6adc551a867dfc8bcb80b5b89d27")]

def companySource : Source where
  rows := [company 5]
  ordered _ := [company 5]
  ordered_perm _ := .refl _

def companyStored : List StoredHash := [⟨"workcube_mikrolink", none, "[\"1\"]", some companyDigest⟩]

def firstTen : ReconcileScope where
  kind := .limited
  limit := some 10
  orderBy := []
  checkpointColumn := none
  limited_has_limit _ := ⟨10, rfl, by decide⟩
  delta_has_column := nofun

theorem limited_match_company :
    (∃ result, reconcileTable (plainExternals companySha256) companyMd5 companySource companyStored companyTable firstTen =
        .ok result ∧ result.verdict = .isMatch) ↔
      ∃ accepted, List.Forall₂ (Accepted (plainExternals companySha256) companyTable) [company 5] accepted ∧
        (accepted.map (·.1)).Nodup ∧ ∀ p ∈ accepted, Stores companyStored companyTable p :=
  limited_match_iff (sampledDigest_injective (by decide) (by decide +kernel)) isDigest_companySha256
    (by decide +kernel) (by decide) rfl (by decide +kernel)

end Exact

end PlatformGitops.EtlRows
