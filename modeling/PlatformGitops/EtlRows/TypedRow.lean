import PlatformGitops.EtlRows.Digest

/-! What a typed row is made of: the columns of a name overwrite each other, and the columns of the source overwrite
them. -/

namespace PlatformGitops.EtlRows

open Library
open EtlWorker (ColumnMeta TableMeta)

variable {X : Externals} {rawRow typed out row : Row} {tableMeta : TableMeta} {cols : List ColumnMeta} {col : ColumnMeta}
  {name hash : String} {sourcePk : PyText}

def Typed (X : Externals) (rawRow : Row) (col : ColumnMeta) (value : PyValue) : Prop :=
  transformColumn X rawRow col = .ok (.ok value)

section Casts

variable {raw : PyValue}

lemma castTo_date {v : PyValue} (h : castTo X .date raw = .ok (.ok v)) : ∃ d, v = .date d := by
  cases raw with
  | date d =>
    cases h
    exact ⟨_, rfl⟩
  | datetime t =>
    cases h
    exact ⟨_, rfl⟩
  | _ =>
    obtain ⟨t, -, h⟩ := Fallible.bind_eq_ok.mp h
    obtain ⟨d, -, hv⟩ := Fallible.bind_eq_ok.mp h
    cases hv
    exact ⟨d, rfl⟩

lemma castTo_bytea {v : PyValue} (h : castTo X .bytea raw = .ok (.ok v)) : ∃ b, v = .bytes b := by
  cases raw with
  | bytes b =>
    cases h
    exact ⟨b, rfl⟩
  | str t =>
    obtain ⟨b, -, hv⟩ := Fallible.bind_eq_ok.mp h
    cases hv
    exact ⟨b, rfl⟩
  | _ => cases h

end Casts

section Columns

lemma transformColumns_cons :
    transformColumns X rawRow (col :: cols) typed =
      match transformColumn X rawRow col with
      | .error e => .error e
      | .ok (.error rejected) => .ok (.error rejected)
      | .ok (.ok value) => transformColumns X rawRow cols (typed.set col.name value) := by
  rw [transformColumns]
  cases transformColumn X rawRow col with
  | error e => rfl
  | ok result => cases result <;> rfl

lemma transformColumns_cons_eq_ok :
    transformColumns X rawRow (col :: cols) typed = .ok (.ok out) ↔
      ∃ value, Typed X rawRow col value ∧ transformColumns X rawRow cols (typed.set col.name value) = .ok (.ok out) := by
  rw [transformColumns_cons]
  cases hcol : transformColumn X rawRow col with
  | error e => simp [Typed, hcol]
  | ok result => cases result <;> simp [Typed, hcol]

lemma transformColumns_append_eq_ok {after : List ColumnMeta} :
    transformColumns X rawRow (cols ++ after) typed = .ok (.ok out) ↔
      ∃ middle, transformColumns X rawRow cols typed = .ok (.ok middle) ∧
        transformColumns X rawRow after middle = .ok (.ok out) := by
  induction cols generalizing typed with
  | nil => simp [transformColumns]
  | cons col cols ih =>
    simp only [List.cons_append, transformColumns_cons_eq_ok, ih]
    constructor
    · rintro ⟨value, hvalue, middle, hmiddle, hout⟩
      exact ⟨middle, ⟨value, hvalue, hmiddle⟩, hout⟩
    · rintro ⟨middle, ⟨value, hvalue, hmiddle⟩, hout⟩
      exact ⟨value, hvalue, middle, hmiddle, hout⟩

lemma exists_transformColumns :
    (∃ out, transformColumns X rawRow cols typed = .ok (.ok out)) ↔ ∀ col ∈ cols, ∃ value, Typed X rawRow col value := by
  induction cols generalizing typed with
  | nil => simp [transformColumns]
  | cons col cols ih =>
    simp only [transformColumns_cons_eq_ok, List.forall_mem_cons]
    constructor
    · rintro ⟨out, value, hvalue, hout⟩
      exact ⟨⟨value, hvalue⟩, ih.mp ⟨out, hout⟩⟩
    · rintro ⟨⟨value, hvalue⟩, hcols⟩
      obtain ⟨out, hout⟩ := ih.mpr hcols
      exact ⟨out, value, hvalue, hout⟩

/-- The loop raises at the first column that is not typed. -/
lemma transformColumns_raises :
    (∃ e, transformColumns X rawRow cols typed = .error e) ↔
      ∃ before col after, cols = before ++ col :: after ∧ (∀ c ∈ before, ∃ value, Typed X rawRow c value) ∧
        ∃ e, transformColumn X rawRow col = .error e := by
  constructor
  · induction cols generalizing typed with
    | nil => exact nofun
    | cons col cols ih =>
      rintro ⟨e, he⟩
      rw [transformColumns_cons] at he
      cases hcol : transformColumn X rawRow col with
      | error e => exact ⟨[], col, cols, rfl, by simp, e, hcol⟩
      | ok result =>
        rw [hcol] at he
        cases result with
        | error rejected => cases he
        | ok value =>
          obtain ⟨before, col', after, rfl, hbefore, hraises⟩ := ih ⟨e, he⟩
          exact ⟨col :: before, col', after, rfl, List.forall_mem_cons.mpr ⟨⟨value, hcol⟩, hbefore⟩, hraises⟩
  · rintro ⟨before, col, after, rfl, hbefore, e, he⟩
    induction before generalizing typed with
    | nil =>
      refine ⟨e, ?_⟩
      rw [List.nil_append, transformColumns_cons, he]
    | cons first before ih =>
      obtain ⟨⟨value, hvalue⟩, hbefore⟩ := List.forall_mem_cons.mp hbefore
      rw [List.cons_append, transformColumns_cons, hvalue]
      exact ih hbefore

lemma transformColumns_absent (h : transformColumns X rawRow cols typed = .ok (.ok out)) (habsent : ∀ c ∈ cols, c.name ≠ name) :
    out.lookup name = typed.lookup name := by
  induction cols generalizing typed with
  | nil =>
    cases h
    rfl
  | cons col cols ih =>
    obtain ⟨hname, habsent⟩ := List.forall_mem_cons.mp habsent
    obtain ⟨value, -, hout⟩ := transformColumns_cons_eq_ok.mp h
    rw [ih hout habsent, Dict.lookup_set, if_neg hname.symm]

/-- The last column of a name has its value in the row. -/
lemma transformColumns_last {before after : List ColumnMeta}
    (h : transformColumns X rawRow (before ++ col :: after) typed = .ok (.ok out)) (hlast : ∀ c ∈ after, c.name ≠ col.name) :
    ∃ value, Typed X rawRow col value ∧ out.lookup col.name = some value := by
  obtain ⟨middle, -, hmiddle⟩ := transformColumns_append_eq_ok.mp h
  obtain ⟨value, hvalue, hout⟩ := transformColumns_cons_eq_ok.mp hmiddle
  refine ⟨value, hvalue, ?_⟩
  rw [transformColumns_absent hout hlast, Dict.lookup_set, if_pos rfl]

lemma transformColumns_unique (h : transformColumns X rawRow cols typed = .ok (.ok out)) (htyped : Dict.Unique typed) :
    Dict.Unique out := by
  induction cols generalizing typed with
  | nil =>
    cases h
    exact htyped
  | cons col cols ih =>
    obtain ⟨value, -, hout⟩ := transformColumns_cons_eq_ok.mp h
    exact ih hout htyped.set

lemma transformColumn_reject {rejected : TransformResult} (h : transformColumn X rawRow col = .ok (.error rejected)) :
    ∃ reason column value, rejected = .reject reason column value := by
  simp only [transformColumn] at h
  split at h
  · split at h
    · cases h
    · obtain ⟨value, -, h⟩ := Fallible.bind_eq_ok.mp h
      cases h
      exact ⟨_, _, _, rfl⟩
  · obtain ⟨result, -, h⟩ := Fallible.bind_eq_ok.mp h
    split at h
    · obtain ⟨value, -, h⟩ := Fallible.bind_eq_ok.mp h
      cases h
      exact ⟨_, _, _, rfl⟩
    · split at h <;> cases h
      exact ⟨_, _, _, rfl⟩

lemma transformColumns_reject {rejected : TransformResult}
    (h : transformColumns X rawRow cols typed = .ok (.error rejected)) :
    ∃ reason column value, rejected = .reject reason column value := by
  induction cols generalizing typed with
  | nil => cases h
  | cons col cols ih =>
    rw [transformColumns_cons] at h
    cases hcol : transformColumn X rawRow col with
    | error e =>
      rw [hcol] at h
      cases h
    | ok result =>
      rw [hcol] at h
      cases result with
      | error rejected =>
        cases h
        exact transformColumn_reject hcol
      | ok value => exact ih h

/-- A list splits at its last element with a property. -/
lemma exists_last {α : Type} {P : α → Prop} {xs : List α} (h : ∃ x ∈ xs, P x) :
    ∃ before x after, xs = before ++ x :: after ∧ P x ∧ ∀ y ∈ after, ¬ P y := by
  induction xs with
  | nil => simp at h
  | cons x xs ih =>
    by_cases hxs : ∃ y ∈ xs, P y
    · obtain ⟨before, y, after, rfl, hy, hafter⟩ := ih hxs
      exact ⟨x :: before, y, after, rfl, hy, hafter⟩
    · simp only [List.mem_cons, exists_eq_or_imp, hxs, or_false] at h
      exact ⟨[], x, xs, rfl, h, fun y hy hP => hxs ⟨y, hy, hP⟩⟩

/-- A typed value is the cast one. -/
lemma castValue_of_typed {value : PyValue} (h : Typed X rawRow col value) :
    isBlank (rawRow.get col.name) = true ∧ value = .none ∨
      isBlank (rawRow.get col.name) = false ∧ castTo X (kindOf X col.pgType) (rawRow.get col.name) = .ok (.ok value) := by
  rw [Typed, transformColumn] at h
  cases hblank : isBlank (rawRow.get col.name) with
  | true =>
    rw [hblank, if_pos rfl] at h
    split at h
    · cases h
      exact Or.inl ⟨rfl, rfl⟩
    · obtain ⟨t, -, ht⟩ := Fallible.bind_eq_ok.mp h
      cases ht
  | false =>
    rw [hblank, if_neg Bool.false_ne_true] at h
    obtain ⟨result, hcast, h⟩ := Fallible.bind_eq_ok.mp h
    cases result with
    | error reason =>
      obtain ⟨t, -, ht⟩ := Fallible.bind_eq_ok.mp h
      cases ht
    | ok casted =>
      dsimp only at h
      split at h <;> cases h
      refine Or.inr ⟨rfl, ?_⟩
      rw [castValue, hblank, if_neg Bool.false_ne_true] at hcast
      cases hcastTo : castTo X (kindOf X col.pgType) (rawRow.get col.name) with
      | ok result =>
        rw [hcastTo] at hcast
        exact hcast
      | error e =>
        rw [hcastTo] at hcast
        replace hcast : (if e.caught then _ else _) = _ := hcast
        split at hcast <;> cases hcast

end Columns

section Source

lemma lookup_withYear {year : Option Int} :
    (withYear typed year).lookup name =
      if name = "source_year" ∧ year.isSome then year.map PyValue.int else typed.lookup name := by
  cases year with
  | none => simp [withYear]
  | some year => simp [withYear, Dict.lookup_set]

lemma lookup_withSource :
    (withSource tableMeta typed).lookup name =
      if name = "source_table" then some (.str (ofString tableMeta.name))
      else if name = "source_year" ∧ tableMeta.sourceYear.isSome then tableMeta.sourceYear.map PyValue.int
      else if name = "source_schema" then some (.str (ofString tableMeta.sourceSchema))
      else typed.lookup name := by
  rw [withSource, Dict.lookup_set, lookup_withYear, Dict.lookup_set]

lemma unique_withSource (h : Dict.Unique typed) : Dict.Unique (withSource tableMeta typed) := by
  unfold withSource withYear
  split
  · exact h.set.set.set
  · exact h.set.set

/-- The column is not overwritten by a column of the source. -/
def Kept (tableMeta : TableMeta) (name : String) : Prop :=
  name ≠ "source_table" ∧ name ≠ "source_schema" ∧ (name = "source_year" → tableMeta.sourceYear = none)

lemma lookup_of_kept (h : Kept tableMeta name) : (withSource tableMeta typed).lookup name = typed.lookup name := by
  obtain ⟨htable, hschema, hyear⟩ := h
  have hnoyear : ¬ (name = "source_year" ∧ tableMeta.sourceYear.isSome) := by
    rintro ⟨hname, hsome⟩
    simp [hyear hname] at hsome
  rw [lookup_withSource, if_neg htable, if_neg hnoyear, if_neg hschema]

lemma transformRow_eq_typed :
    transformRow X rawRow tableMeta = .ok (.typed row hash sourcePk) ↔ ∃ columns,
      transformColumns X rawRow tableMeta.columns [] = .ok (.ok columns) ∧
      makeSourcePk X rawRow tableMeta.idempotencyKey = .ok sourcePk ∧
      contentHash X (withSource tableMeta columns) = .ok hash ∧
      ((withSource tableMeta columns).set "source_pk" (.str sourcePk)).set "content_hash" (.str (ofString hash)) = row := by
  rw [transformRow, Fallible.bind_eq_ok]
  constructor
  · rintro ⟨result, hcolumns, h⟩
    cases result with
    | error rejected =>
      obtain ⟨reason, column, value, rfl⟩ := transformColumns_reject hcolumns
      cases h
    | ok columns =>
      obtain ⟨pk, hpk, h⟩ := Fallible.bind_eq_ok.mp h
      obtain ⟨digest, hdigest, h⟩ := Fallible.bind_eq_ok.mp h
      cases h
      exact ⟨columns, hcolumns, hpk, hdigest, rfl⟩
  · rintro ⟨columns, hcolumns, hpk, hdigest, rfl⟩
    refine ⟨.ok columns, hcolumns, ?_⟩
    simp only [hpk, hdigest]
    rfl

end Source

section Samples

/-- A digest with these values; that of other bytes is their text with a mark. -/
def sampledDigest (samples : List (List UInt8 × String)) (bytes : List UInt8) : String :=
  match samples.lookup bytes with
  | some digest => digest
  | none => String.ofList ('x' :: bytes.map fun byte => Char.ofNat byte.toNat)

lemma byteText_injective {b c : List UInt8}
    (h : (b.map fun byte => Char.ofNat byte.toNat) = c.map fun byte => Char.ofNat byte.toNat) : b = c := by
  refine List.map_injective_iff.mpr (fun x y hxy => ?_) h
  have hvalid : ∀ z : UInt8, (Char.ofNat z.toNat).toNat = z.toNat := by
    intro z
    have hchar : z.toNat.isValidChar := Or.inl (Nat.lt_trans z.toNat_lt (by decide))
    simp [Char.toNat, Char.ofNat, Char.ofNatAux, hchar]
  have hnat := congrArg Char.toNat hxy
  exact UInt8.toNat_inj.mp (by rwa [hvalid, hvalid] at hnat)

lemma sampledDigest_injective {samples : List (List UInt8 × String)} (hnodup : (samples.map (·.2)).Nodup)
    (hmark : ∀ p ∈ samples, p.2.toList.head? ≠ some 'x') : Function.Injective (sampledDigest samples) := by
  have hmem : ∀ {b : List UInt8} {digest : String}, samples.lookup b = some digest → (b, digest) ∈ samples := by
    intro b digest h
    obtain ⟨l₁, l₂, hsplit, -⟩ := List.lookup_eq_some_iff.mp h
    rw [hsplit]
    simp
  intro b c h
  unfold sampledDigest at h
  cases hb : samples.lookup b with
  | some digest =>
    cases hc : samples.lookup c with
    | some digest' =>
      rw [hb, hc] at h
      exact (Prod.mk.inj (List.inj_on_of_nodup_map hnodup (hmem hb) (hmem hc) h)).1
    | none =>
      rw [hb, hc] at h
      obtain rfl : digest = _ := h
      exact absurd (by simp) (hmark _ (hmem hb))
  | none =>
    cases hc : samples.lookup c with
    | some digest' =>
      rw [hb, hc] at h
      obtain rfl : digest' = _ := h.symm
      exact absurd (by simp) (hmark _ (hmem hc))
    | none =>
      rw [hb, hc] at h
      exact byteText_injective (List.cons.inj (String.ofList_injective h)).2

/-- Types in upper case, the digests of some payloads, and no text that is read as anything else. -/
def plainExternals (sha256 : List UInt8 → String) : Externals where
  sha256 := sha256
  upper s := s
  lower t := t
  text _ := ""
  intOfText _ := none
  intOfBytes _ := none
  truncFloat _ := ⟨0, by decide +kernel⟩
  floatOfText _ := none
  floatOfBytes _ := none
  floatOfInt _ := .nan
  floatOfDecimal _ := .nan
  decimalOfText _ := none
  datetimeOfText _ := none
  dateOfText _ := none
  uuidOfText _ := none

def typedOf : Except PyExc TransformResult → Row × String × PyText
  | .ok (.typed row hash sourcePk) => (row, hash, sourcePk)
  | _ => ([], "", [])

def companyTable : TableMeta where
  name := "COMPANY"
  sourceSchema := "workcube_mikrolink"
  sourceYear := none
  columns := [⟨"company_id", "INTEGER", false, none⟩, ⟨"balance", "NUMERIC", true, none⟩]
  idempotencyKey := ["company_id"]

/-- A company with a balance of so many units of the twentieth place. -/
def company (units : Nat) : Row := [("company_id", .int 1), ("balance", .decimal (.finite false units (-20)))]

def companyPayload (balance : String) : List UInt8 :=
  Text.encode ("\x7b\"balance\": \"" ++ balance ++
    "\", \"company_id\": 1, \"source_schema\": \"workcube_mikrolink\", \"source_table\": \"COMPANY\"\x7d").toList

def companyDigests : List (List UInt8 × String) :=
  [(companyPayload "0.00000000000000000005", "2e885f02b49a9f679632e994dca89244ce6db5e7ccbb02f3db44998bbc270448"),
    (companyPayload "0.00000000000000000007", "929c774eda92d0e317ce5cc46576d8d2a9a62a3a4b2d475d6ce3f86d6c62426d"),
    (companyPayload "1234567890.123456789012345679", "b6ec01de4240ad5b6d822b2d246b2a5f7f3955680671b245a26c58b7235f465b")]

end Samples

end PlatformGitops.EtlRows
