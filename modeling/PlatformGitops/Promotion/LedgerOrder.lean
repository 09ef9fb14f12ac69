import PlatformGitops.Library.Fallible
import PlatformGitops.Promotion.EvidenceGate
import Mathlib

/-! What the order of the ledger files decides, and when it decides nothing. -/

namespace PlatformGitops.Promotion

open Library Library.Fallible

section Digests

variable (inputs : GateInputs) {files order order' : List LedgerFile}

/-- The digests whose evidence the gate looks up. -/
def examinedDigests : List String :=
  match inputs.changed, inputs.renderHead with
  | some changed, some renderHead =>
    if prodOverlayChanged changed then newDigests renderHead (inputs.renderBase.getD []) else []
  | _, _ => []

def isVerified (jwtValidates : JwtValidates) (entry : Json) : Bool :=
  match checkEvidence entry jwtValidates with
  | .ok none => true
  | _ => false

/-- The entry of a file that carries the digest, if the file can be read. -/
def matched (digest : String) (file : LedgerFile) : Option Json := (matchingEntry digest file).toOption.join

/-- A file in which the lookup of the digest does not raise. -/
def Searchable (digest : String) (file : LedgerFile) : Prop := ∃ entry, matchingEntry digest file = .ok entry

variable {inputs} {digest : String} {digests : List String} {file : LedgerFile} {entry : Json}

lemma isVerified_iff {jwtValidates : JwtValidates} :
    isVerified jwtValidates entry = true ↔ checkEvidence entry jwtValidates = .ok none := by
  unfold isVerified
  split
  · next h => simp [h]
  · next h => simpa using h

lemma find_eq_ok {entries : List Json} : findLedgerEntriesByDigest digest files = .ok entries ↔
    (∀ file ∈ files, Searchable digest file) ∧ files.filterMap (matched digest) = entries := by
  simp only [findLedgerEntriesByDigest, bind_eq_ok, pure_eq_ok]
  constructor
  · rintro ⟨found, hfound, rfl⟩
    exact ⟨exists_mapM_eq_ok.mp ⟨found, hfound⟩, (filterMap_of_mapM hfound).symm⟩
  · rintro ⟨hall, rfl⟩
    obtain ⟨found, hfound⟩ := exists_mapM_eq_ok.mpr hall
    exact ⟨found, hfound, filterMap_of_mapM hfound⟩

/-- The first match decides about a digest. -/
lemma digestFails_eq_false : digestFails inputs files digest = .ok false ↔ (∀ file ∈ files, Searchable digest file) ∧
    ∃ entry, (files.filterMap (matched digest)).head? = some entry ∧ isVerified inputs.jwtValidates entry := by
  simp only [digestFails, bind_eq_ok, find_eq_ok, isVerified_iff]
  constructor
  · rintro ⟨entries, ⟨hall, rfl⟩, hentries⟩
    refine ⟨hall, ?_⟩
    cases hfound : files.filterMap (matched digest) with
    | nil => simp [hfound, pure, Except.pure] at hentries
    | cons entry rest =>
      simp only [hfound, bind_eq_ok, pure_eq_ok, Option.isSome_eq_false_iff, Option.isNone_iff_eq_none] at hentries
      obtain ⟨refusal, hcheck, rfl⟩ := hentries
      exact ⟨entry, rfl, hcheck⟩
  · rintro ⟨hall, entry, hhead, hcheck⟩
    refine ⟨_, ⟨hall, rfl⟩, ?_⟩
    cases hfound : files.filterMap (matched digest) with
    | nil => simp [hfound] at hhead
    | cons first rest =>
      obtain rfl : first = entry := by simpa [hfound] using hhead
      simp [hcheck]

lemma exitStatus_checkDigests : exitStatus (checkDigests inputs files digests) =
    open Classical in if ∀ digest ∈ digests, digestFails inputs files digest = .ok false then 0 else 1 := by
  cases hfails : digests.mapM (digestFails inputs files) with
  | error e =>
    rw [if_neg]
    · simp [checkDigests, hfails, exitStatus, bind, Except.bind]
    · intro hall
      obtain ⟨fails, hok⟩ := exists_mapM_eq_ok.mpr fun digest hdigest => ⟨false, hall digest hdigest⟩
      rw [hfails] at hok
      cases hok
  | ok fails =>
    obtain ⟨hleft, hright⟩ := mapM_eq_ok hfails
    have hnone : fails.any id = false ↔ ∀ digest ∈ digests, digestFails inputs files digest = .ok false := by
      rw [List.any_eq_false]
      constructor
      · intro hall digest hdigest
        obtain ⟨fail, hfail, hd⟩ := hleft digest hdigest
        have hfalse : fail = false := Bool.eq_false_of_not_eq_true (hall fail hfail)
        rw [hd, hfalse]
      · intro hall fail hfail
        obtain ⟨digest, hdigest, hd⟩ := hright fail hfail
        cases hd.symm.trans (hall digest hdigest)
        nofun
    simp only [checkDigests, hfails, ← hnone]
    cases h : fails.any id <;> simp [exitStatus, bind, Except.bind, pure, Except.pure, h]

/-- Without a digest to look up, the ledger is not read. -/
lemma exitStatus_mainEvidence (inputs : GateInputs) :
    (examinedDigests inputs = [] ∧ ∃ code, ∀ files, exitStatus (mainEvidence inputs files) = code) ∨
      ∀ files, mainEvidence inputs files = checkDigests inputs files (examinedDigests inputs) := by
  unfold mainEvidence examinedDigests
  cases inputs.changed with
  | none => exact .inl ⟨rfl, 2, fun _ => rfl⟩
  | some changed =>
    cases inputs.renderHead with
    | none => by_cases h : prodOverlayChanged changed = true <;> simp [h]
    | some renderHead => by_cases h : prodOverlayChanged changed = true <;> simp [h]

/-- Where every file can be searched and every examined digest has a verified entry, it has no other. -/
def EvidenceSettled (inputs : GateInputs) (files : List LedgerFile) : Prop :=
  (∀ digest ∈ examinedDigests inputs, ∀ file ∈ files, Searchable digest file) →
    (∀ digest ∈ examinedDigests inputs, ∃ entry ∈ files.filterMap (matched digest), isVerified inputs.jwtValidates entry) →
    ∀ digest ∈ examinedDigests inputs, ∀ entry ∈ files.filterMap (matched digest), isVerified inputs.jwtValidates entry

lemma passes_of_settled (hsettled : EvidenceSettled inputs files) (horder : order.Perm files)
    (horder' : order'.Perm files)
    (h : ∀ digest ∈ examinedDigests inputs, digestFails inputs order digest = .ok false) :
    ∀ digest ∈ examinedDigests inputs, digestFails inputs order' digest = .ok false := by
  simp only [digestFails_eq_false] at h ⊢
  have hmem {digest : String} {entry : Json} : entry ∈ order.filterMap (matched digest) ↔
      entry ∈ files.filterMap (matched digest) := (horder.filterMap _).mem_iff
  have hmem' {digest : String} {entry : Json} : entry ∈ order'.filterMap (matched digest) ↔
      entry ∈ files.filterMap (matched digest) := (horder'.filterMap _).mem_iff
  have hall := hsettled (fun digest hdigest file hfile => (h digest hdigest).1 file (horder.mem_iff.mpr hfile))
    fun digest hdigest => by
      obtain ⟨entry, hhead, hentry⟩ := (h digest hdigest).2
      exact ⟨entry, hmem.mp (List.mem_of_head? hhead), hentry⟩
  intro digest hdigest
  obtain ⟨hsearch, entry, hhead, -⟩ := h digest hdigest
  refine ⟨fun file hfile => hsearch file (horder.mem_iff.mpr (horder'.mem_iff.mp hfile)), ?_⟩
  cases hfound : order'.filterMap (matched digest) with
  | nil =>
    have hentry := hmem'.mpr (hmem.mp (List.mem_of_head? hhead))
    rw [hfound] at hentry
    cases hentry
  | cons first rest => exact ⟨first, rfl, hall digest hdigest first (hmem'.mp (by simp [hfound]))⟩

/-- Whether the file holds a verified entry. -/
def holdsVerified (jwtValidates : JwtValidates) (file : LedgerFile) : Bool :=
  match readEntry file with
  | .ok (some entry) => isVerified jwtValidates entry
  | _ => false

lemma readEntry_of_matched (h : matched digest file = some entry) : readEntry file = .ok (some entry) := by
  have hmatch : matchingEntry digest file = .ok (some entry) := by
    unfold matched at h
    cases hm : matchingEntry digest file with
    | error e => simp [hm, Except.toOption] at h
    | ok m => simpa [hm, Except.toOption] using h
  simp only [matchingEntry, bind_eq_ok] at hmatch
  obtain ⟨found, hread, hmatch⟩ := hmatch
  cases found with
  | none => simp [pure, Except.pure] at hmatch
  | some other =>
    simp only [bind_eq_ok] at hmatch
    obtain ⟨_, _, hmatch⟩ := hmatch
    split at hmatch
    · obtain rfl : other = entry := by simpa using hmatch
      exact hread
    · simp at hmatch

lemma holdsVerified_of_matched {jwtValidates : JwtValidates} (h : matched digest file = some entry) :
    holdsVerified jwtValidates file = isVerified jwtValidates entry := by
  rw [holdsVerified, readEntry_of_matched h]

/-- In a list that starts with the files that hold (or that do not hold) a verified entry, the first match is of that
kind if any is. -/
lemma head_of_filter {jwtValidates : JwtValidates} {first : Bool} (digest : String)
    (h : ∃ entry ∈ files.filterMap (matched digest), isVerified jwtValidates entry = first) :
    ∃ entry, ((files.filter (holdsVerified jwtValidates · == first) ++
      files.filter (! holdsVerified jwtValidates · == first)).filterMap (matched digest)).head? = some entry ∧
        isVerified jwtValidates entry = first := by
  obtain ⟨entry, hentry, hkind⟩ := h
  obtain ⟨file, hfile, hmatch⟩ := List.mem_filterMap.mp hentry
  have hmem : entry ∈ (files.filter (holdsVerified jwtValidates · == first)).filterMap (matched digest) := by
    refine List.mem_filterMap.mpr ⟨file, List.mem_filter.mpr ⟨hfile, ?_⟩, hmatch⟩
    rw [holdsVerified_of_matched hmatch, hkind, beq_self_eq_true]
  rw [List.filterMap_append]
  cases hfound : (files.filter (holdsVerified jwtValidates · == first)).filterMap (matched digest) with
  | nil =>
    rw [hfound] at hmem
    cases hmem
  | cons head rest =>
    have hhead : head ∈ (files.filter (holdsVerified jwtValidates · == first)).filterMap (matched digest) := by
      simp [hfound]
    obtain ⟨file', hfile', hmatch'⟩ := List.mem_filterMap.mp hhead
    have hfirst := (List.mem_filter.mp hfile').2
    rw [holdsVerified_of_matched hmatch', beq_iff_eq] at hfirst
    exact ⟨head, rfl, hfirst⟩

/-- The gate's exit status is the same for every order of the files. -/
def ExitOrderFree (inputs : GateInputs) (files : List LedgerFile) : Prop :=
  ∀ order order', order.Perm files → order'.Perm files →
    exitStatus (mainEvidence inputs order) = exitStatus (mainEvidence inputs order')

lemma exitOrderFree_of_settled (h : EvidenceSettled inputs files) : ExitOrderFree inputs files := by
  intro order order' horder horder'
  obtain ⟨-, code, hcode⟩ | hmain := exitStatus_mainEvidence inputs
  · rw [hcode, hcode]
  · simp only [hmain, exitStatus_checkDigests]
    exact if_congr ⟨passes_of_settled h horder horder', passes_of_settled h horder' horder⟩ rfl rfl

lemma settled_of_exitOrderFree (h : ExitOrderFree inputs files) : EvidenceSettled inputs files := by
  obtain ⟨hnone, -⟩ | hmain := exitStatus_mainEvidence inputs
  · simp [EvidenceSettled, hnone]
  intro hsearch hverified digest hdigest entry hentry
  have hperm (first : Bool) : (files.filter (holdsVerified inputs.jwtValidates · == first) ++
      files.filter (! holdsVerified inputs.jwtValidates · == first)).Perm files := List.filter_append_perm _ _
  have hpass : ∀ digest ∈ examinedDigests inputs, digestFails inputs (files.filter (holdsVerified inputs.jwtValidates · == true) ++
      files.filter (! holdsVerified inputs.jwtValidates · == true)) digest = .ok false := by
    intro digest hdigest
    rw [digestFails_eq_false]
    exact ⟨fun file hfile => hsearch digest hdigest file ((hperm true).mem_iff.mp hfile),
      head_of_filter digest (hverified digest hdigest)⟩
  by_contra hnot
  have hexit := h _ _ (hperm true) (hperm false)
  simp only [hmain, exitStatus_checkDigests, if_pos hpass] at hexit
  split at hexit
  · next hpass' =>
    obtain ⟨-, first, hfirst, hkind⟩ := digestFails_eq_false.mp (hpass' digest hdigest)
    obtain ⟨first', hfirst', hkind'⟩ := head_of_filter digest ⟨entry, hentry, Bool.eq_false_of_not_eq_true hnot⟩
    rw [hfirst] at hfirst'
    cases hfirst'
    rw [hkind] at hkind'
    cases hkind'
  · cases hexit

end Digests

section Moments

variable {a b c : Moment}

def Comparable (a b : Moment) : Prop := ∃ later, a.later b = .ok later

lemma later_self (a : Moment) : a.later a = .ok false := by cases a <;> simp [Moment.later]

/-- What is not later than a moment is not later than one after it. -/
lemma not_later_trans (hab : a.later b = .ok false) (hcb : c.later b = .ok true) : a.later c = .ok false := by
  cases a <;> cases b <;> cases c <;> simp_all [Moment.later] <;> exact hab.trans hcb.le

lemma eq_of_not_later (hab : a.later b = .ok false) (hba : b.later a = .ok false) : a = b := by
  cases a <;> cases b <;> simp_all [Moment.later] <;> exact le_antisymm hab hba

lemma comparable_of_not_later (hac : a.later c = .ok false) (hbc : b.later c = .ok false) : Comparable a b := by
  cases a <;> cases b <;> cases c <;> simp_all [Moment.later, Comparable]

end Moments

section Lag

variable {latest latest' : Dict DictKey VerifiedRecord} {seen records : List (DictKey × VerifiedRecord)}
  {key : DictKey} {record : VerifiedRecord}

/-- For each service that was seen, the dictionary has one of its latest records. -/
def Kept (seen : List (DictKey × VerifiedRecord)) (latest : Dict DictKey VerifiedRecord) : Prop :=
  (∀ p ∈ seen, ∃ record, latest.get? p.1 = some record) ∧
    ∀ key record, latest.get? key = some record →
      (key, record) ∈ seen ∧ ∀ p ∈ seen, p.1 = key → p.2.verifiedAt.later record.verifiedAt = .ok false

/-- What one record does. -/
lemma keepLatest_eq_ok {p : DictKey × VerifiedRecord} : keepLatest latest p = .ok latest' ↔
    (latest.get? p.1 = none ∧ latest.set p.1 p.2 = latest') ∨
      ∃ current, latest.get? p.1 = some current ∧
        ((p.2.verifiedAt.later current.verifiedAt = .ok true ∧ latest.set p.1 p.2 = latest') ∨
          p.2.verifiedAt.later current.verifiedAt = .ok false ∧ latest = latest') := by
  unfold keepLatest
  cases hcurrent : latest.get? p.1 with
  | none => simp
  | some current =>
    cases hlater : p.2.verifiedAt.later current.verifiedAt with
    | error e => simp [hlater, bind, Except.bind]
    | ok later => cases later <;> simp [hlater]

lemma kept_nil : Kept [] [] := by simp [Kept]

lemma kept_set {p : DictKey × VerifiedRecord} (hkept : Kept seen latest)
    (hnot : ∀ q ∈ seen, q.1 = p.1 → q.2.verifiedAt.later p.2.verifiedAt = .ok false) :
    Kept (seen ++ [p]) (latest.set p.1 p.2) := by
  constructor
  · intro q hq
    rw [Dict.get?, Dict.lookup_set]
    split
    · exact ⟨p.2, rfl⟩
    · next hne =>
      refine hkept.1 q ((List.mem_append.mp hq).resolve_right fun hlast => hne ?_)
      rw [List.mem_singleton.mp hlast]
  · intro key record hrecord
    rw [Dict.get?, Dict.lookup_set] at hrecord
    split at hrecord
    · next hkey =>
      cases hrecord
      subst hkey
      refine ⟨by simp, fun q hq hq' => ?_⟩
      rcases List.mem_append.mp hq with hq | hq
      · exact hnot q hq hq'
      · rw [List.mem_singleton.mp hq]
        exact later_self _
    · next hkey =>
      obtain ⟨hmem, hlatest⟩ := hkept.2 key record hrecord
      refine ⟨List.mem_append_left _ hmem, fun q hq hq' => ?_⟩
      rcases List.mem_append.mp hq with hq | hq
      · exact hlatest q hq hq'
      · rw [List.mem_singleton.mp hq] at hq'
        exact absurd hq'.symm hkey

lemma kept_keepLatest {p : DictKey × VerifiedRecord} (hkept : Kept seen latest) (h : keepLatest latest p = .ok latest') :
    Kept (seen ++ [p]) latest' := by
  obtain ⟨hnone, rfl⟩ | ⟨current, hcurrent, ⟨hlater, rfl⟩ | ⟨hlater, rfl⟩⟩ := keepLatest_eq_ok.mp h
  · refine kept_set hkept fun q hq hkey => ?_
    obtain ⟨record, hrecord⟩ := hkept.1 q hq
    rw [hkey, hnone] at hrecord
    cases hrecord
  · exact kept_set hkept fun q hq hkey => not_later_trans ((hkept.2 p.1 current hcurrent).2 q hq hkey) hlater
  · constructor
    · intro q hq
      rcases List.mem_append.mp hq with hq | hq
      · exact hkept.1 q hq
      · rw [List.mem_singleton.mp hq]
        exact ⟨current, hcurrent⟩
    · intro key record hrecord
      obtain ⟨hmem, hlatest⟩ := hkept.2 key record hrecord
      refine ⟨List.mem_append_left _ hmem, fun q hq hkey => ?_⟩
      rcases List.mem_append.mp hq with hq | hq
      · exact hlatest q hq hkey
      · obtain rfl := List.mem_singleton.mp hq
        rw [hkey, hrecord] at hcurrent
        cases hcurrent
        exact hlater

lemma kept_foldlM (hkept : Kept seen latest) (h : records.foldlM keepLatest latest = .ok latest') :
    Kept (seen ++ records) latest' := by
  induction records generalizing seen latest with
  | nil =>
    obtain rfl : latest = latest' := by simpa using h
    simpa using hkept
  | cons p records ih =>
    rw [List.foldlM_cons, bind_eq_ok] at h
    obtain ⟨middle, hp, hrest⟩ := h
    simpa using ih (kept_keepLatest hkept hp) hrest

/-- A record that none is later than stays. -/
lemma stays_foldlM (hrecord : latest.get? key = some record)
    (hnot : ∀ p ∈ records, p.1 = key → p.2.verifiedAt.later record.verifiedAt = .ok false)
    (h : records.foldlM keepLatest latest = .ok latest') : latest'.get? key = some record := by
  induction records generalizing latest with
  | nil =>
    obtain rfl : latest = latest' := by simpa using h
    exact hrecord
  | cons p records ih =>
    obtain ⟨hp, hrest⟩ := List.forall_mem_cons.mp hnot
    rw [List.foldlM_cons, bind_eq_ok] at h
    obtain ⟨middle, hmiddle, h⟩ := h
    refine ih ?_ hrest h
    obtain ⟨hnone, rfl⟩ | ⟨current, hcurrent, ⟨hlater, rfl⟩ | ⟨-, rfl⟩⟩ := keepLatest_eq_ok.mp hmiddle
    · refine (Dict.lookup_set key).trans ((if_neg ?_).trans hrecord)
      rintro rfl
      rw [hnone] at hrecord
      cases hrecord
    · refine (Dict.lookup_set key).trans ((if_neg ?_).trans hrecord)
      rintro rfl
      rw [hrecord] at hcurrent
      cases hcurrent
      rw [hp rfl] at hlater
      cases hlater
    · exact hrecord

lemma exists_latest_iff : (∃ latest, records.foldlM keepLatest [] = .ok latest) ↔
    ∀ p ∈ records, ∀ q ∈ records, p.1 = q.1 → Comparable p.2.verifiedAt q.2.verifiedAt := by
  constructor
  · rintro ⟨latest, h⟩ p hp q hq hkey
    have hkept := kept_foldlM kept_nil h
    obtain ⟨record, hrecord⟩ := hkept.1 p hp
    obtain ⟨-, hlatest⟩ := hkept.2 p.1 record hrecord
    exact comparable_of_not_later (hlatest p hp rfl) (hlatest q hq hkey.symm)
  · intro hcomp
    have hstep : ∀ latest, ∀ p ∈ records, (∀ key record, latest.get? key = some record → (key, record) ∈ records) →
        ∃ latest', keepLatest latest p = .ok latest' ∧
          ∀ key record, latest'.get? key = some record → (key, record) ∈ records := by
      intro latest p hp hmem
      have hset : ∀ key record, (latest.set p.1 p.2).get? key = some record → (key, record) ∈ records := by
        intro key record hrecord
        rw [Dict.get?, Dict.lookup_set] at hrecord
        split at hrecord
        · next hkey =>
          cases hrecord
          rw [hkey]
          exact hp
        · exact hmem key record hrecord
      cases hcurrent : latest.get? p.1 with
      | none => exact ⟨_, keepLatest_eq_ok.mpr (.inl ⟨hcurrent, rfl⟩), hset⟩
      | some current =>
        obtain ⟨later, hlater⟩ := hcomp p hp _ (hmem p.1 current hcurrent) rfl
        cases later with
        | true => exact ⟨_, keepLatest_eq_ok.mpr (.inr ⟨current, hcurrent, .inl ⟨hlater, rfl⟩⟩), hset⟩
        | false => exact ⟨_, keepLatest_eq_ok.mpr (.inr ⟨current, hcurrent, .inr ⟨hlater, rfl⟩⟩), hmem⟩
    obtain ⟨latest, hlatest, -⟩ := exists_foldlM_eq_ok hstep (s := []) (by simp)
    exact ⟨latest, hlatest⟩

variable (R : Readers) (jwtValidates : JwtValidates) (files : List LedgerFile)

/-- The record of a file, if the file can be read. -/
def dated (file : LedgerFile) : Option (DictKey × VerifiedRecord) := (verifiedRecord R jwtValidates file).toOption.join

/-- The digest that is picked for a service. -/
def pickedDigest (key : DictKey) : Except Raised (Option Json) := do
  pure (((← latestVerifiedPerService R jwtValidates files).get? key).map (·.digest))

/-- No file and no comparison raises. -/
def Datable : Prop :=
  (∀ file ∈ files, ∃ record, verifiedRecord R jwtValidates file = .ok record) ∧
    ∀ p ∈ files.filterMap (dated R jwtValidates), ∀ q ∈ files.filterMap (dated R jwtValidates), p.1 = q.1 →
      Comparable p.2.verifiedAt q.2.verifiedAt

/-- The latest records of a service carry one digest. -/
def LatestSettled : Prop :=
  Datable R jwtValidates files → ∀ p ∈ files.filterMap (dated R jwtValidates),
    ∀ q ∈ files.filterMap (dated R jwtValidates), p.1 = q.1 → p.2.verifiedAt = q.2.verifiedAt →
      (∀ o ∈ files.filterMap (dated R jwtValidates), o.1 = p.1 → o.2.verifiedAt.later p.2.verifiedAt = .ok false) →
        p.2.digest = q.2.digest

/-- The digest that is picked for each service is the same for every order of the files. -/
def PicksOrderFree : Prop :=
  ∀ order order', order.Perm files → order'.Perm files →
    ∀ key, pickedDigest R jwtValidates order key = pickedDigest R jwtValidates order' key

variable {R jwtValidates files}

/-- The fold's step for a file, given what is read of it. -/
def keepRecord (latest : Dict DictKey VerifiedRecord) : Option (DictKey × VerifiedRecord) →
    Except Raised (Dict DictKey VerifiedRecord)
  | none => pure latest
  | some p => keepLatest latest p

lemma latest_eq_ok : latestVerifiedPerService R jwtValidates files = .ok latest ↔
    (∀ file ∈ files, ∃ record, verifiedRecord R jwtValidates file = .ok record) ∧
      (files.filterMap (dated R jwtValidates)).foldlM keepLatest [] = .ok latest := by
  have hskip (found : List (Option (DictKey × VerifiedRecord))) (start : Dict DictKey VerifiedRecord) :
      found.foldlM keepRecord start =
        (found.filterMap id).foldlM keepLatest start := by
    induction found generalizing start with
    | nil => rfl
    | cons m found ih =>
      cases m with
      | none => exact ih start
      | some p =>
        simp only [List.filterMap_cons, List.foldlM_cons, id]
        exact bind_congr fun latest => ih latest
  have hloop : latestVerifiedPerService R jwtValidates files =
      files.foldlM (fun latest file => verifiedRecord R jwtValidates file >>= keepRecord latest) [] := rfl
  rw [hloop, foldlM_bind_eq_ok]
  simp only [hskip]
  constructor
  · rintro ⟨found, hfound, hlatest⟩
    rw [filterMap_of_mapM hfound] at hlatest
    exact ⟨exists_mapM_eq_ok.mp ⟨found, hfound⟩, hlatest⟩
  · rintro ⟨hall, hlatest⟩
    obtain ⟨found, hfound⟩ := exists_mapM_eq_ok.mpr hall
    have hdated : found.filterMap id = files.filterMap (dated R jwtValidates) := filterMap_of_mapM hfound
    rw [← hdated] at hlatest
    exact ⟨found, hfound, hlatest⟩

lemma datable_perm (horder : order.Perm files) :
    Datable R jwtValidates files ↔ ∃ latest, latestVerifiedPerService R jwtValidates order = .ok latest := by
  simp only [latest_eq_ok, exists_and_left, exists_latest_iff, Datable, (horder.filterMap _).mem_iff, horder.mem_iff]

/-- Two orders pick records of the same moment and with the same digest. -/
lemma picks_agree (hsettled : LatestSettled R jwtValidates files) (horder : order.Perm files)
    (horder' : order'.Perm files) (h : latestVerifiedPerService R jwtValidates order = .ok latest)
    (h' : latestVerifiedPerService R jwtValidates order' = .ok latest') (key : DictKey) :
    (latest.get? key).map (fun record => (record.verifiedAt, record.digest)) =
      (latest'.get? key).map fun record => (record.verifiedAt, record.digest) := by
  have hkept : Kept (order.filterMap (dated R jwtValidates)) latest := by
    simpa using kept_foldlM kept_nil (latest_eq_ok.mp h).2
  have hkept' : Kept (order'.filterMap (dated R jwtValidates)) latest' := by
    simpa using kept_foldlM kept_nil (latest_eq_ok.mp h').2
  simp only [Kept, (horder.filterMap _).mem_iff, (horder'.filterMap _).mem_iff] at hkept hkept'
  cases hrecord : latest.get? key with
  | none =>
    cases hrecord' : latest'.get? key with
    | none => rfl
    | some record' =>
      obtain ⟨record, hsome⟩ := hkept.1 _ (hkept'.2 key record' hrecord').1
      rw [hrecord] at hsome
      cases hsome
  | some record =>
    obtain ⟨hmem, hlatest⟩ := hkept.2 key record hrecord
    obtain ⟨record', hrecord'⟩ := hkept'.1 _ hmem
    obtain ⟨hmem', hlatest'⟩ := hkept'.2 key record' hrecord'
    have hmoment : record.verifiedAt = record'.verifiedAt :=
      eq_of_not_later (hlatest' _ hmem rfl) (hlatest _ hmem' rfl)
    have hdigest := hsettled ((datable_perm horder).mpr ⟨latest, h⟩) _ hmem _ hmem' rfl hmoment hlatest
    rw [hrecord', Option.map_some, Option.map_some, hmoment, hdigest]

lemma picksOrderFree_of_settled (h : LatestSettled R jwtValidates files) : PicksOrderFree R jwtValidates files := by
  intro order order' horder horder' key
  cases hlatest : latestVerifiedPerService R jwtValidates order with
  | error e =>
    cases hlatest' : latestVerifiedPerService R jwtValidates order' with
    | error e' => simp [pickedDigest, hlatest, hlatest', bind, Except.bind]
    | ok latest' =>
      obtain ⟨latest, hok⟩ := (datable_perm horder).mp ((datable_perm horder').mpr ⟨latest', hlatest'⟩)
      rw [hlatest] at hok
      cases hok
  | ok latest =>
    obtain ⟨latest', hlatest'⟩ := (datable_perm horder').mp ((datable_perm horder).mpr ⟨latest, hlatest⟩)
    have hpick := congrArg (Option.map Prod.snd) (picks_agree h horder horder' hlatest hlatest' key)
    simp only [Option.map_map, Function.comp_def] at hpick
    simp [pickedDigest, hlatest, hlatest', bind, Except.bind, hpick]

/-- The files from one whose record is among the latest of its service: the record is picked. -/
lemma pickedDigest_of_first {p : DictKey × VerifiedRecord} (hdatable : Datable R jwtValidates files)
    (hp : p ∈ files.filterMap (dated R jwtValidates))
    (hlatest : ∀ o ∈ files.filterMap (dated R jwtValidates), o.1 = p.1 → o.2.verifiedAt.later p.2.verifiedAt = .ok false) :
    ∃ order, order.Perm files ∧ pickedDigest R jwtValidates order p.1 = .ok (some p.2.digest) := by
  obtain ⟨file, hfile, hdated⟩ := List.mem_filterMap.mp hp
  obtain ⟨before, after, rfl⟩ := List.append_of_mem hfile
  have hperm : (file :: (before ++ after)).Perm (before ++ file :: after) := List.perm_middle.symm
  obtain ⟨latest, hok⟩ := (datable_perm hperm).mp hdatable
  refine ⟨_, hperm, ?_⟩
  have hfold := (latest_eq_ok.mp hok).2
  rw [List.filterMap_cons_some hdated, List.foldlM_cons, keepLatest] at hfold
  have hstays : latest.get? p.1 = some p.2 := by
    have hfirst : (Dict.set [] p.1 p.2).get? p.1 = some p.2 := (Dict.lookup_set p.1).trans (if_pos rfl)
    refine stays_foldlM hfirst (fun o ho => hlatest o ((hperm.filterMap _).mem_iff.mp ?_)) hfold
    rw [List.filterMap_cons_some hdated]
    exact List.mem_cons_of_mem _ ho
  simp [pickedDigest, hok, bind, Except.bind, pure, Except.pure, hstays]

lemma settled_of_picksOrderFree (h : PicksOrderFree R jwtValidates files) : LatestSettled R jwtValidates files := by
  intro hdatable p hp q hq hkey hmoment hlatest
  obtain ⟨order, horder, hpick⟩ := pickedDigest_of_first hdatable hp hlatest
  rw [hkey, hmoment] at hlatest
  obtain ⟨order', horder', hpick'⟩ := pickedDigest_of_first hdatable hq hlatest
  have hsame := h order order' horder horder' p.1
  rw [hpick, hkey, hpick'] at hsame
  simpa using hsame

lemma serviceLags_congr {lag : LagInputs} {prodDigests : Dict String String} {svc : String}
    (h : (latest.get? (.text svc)).map (fun record => (record.verifiedAt, record.digest)) =
      (latest'.get? (.text svc)).map fun record => (record.verifiedAt, record.digest)) :
    serviceLags lag prodDigests latest svc = serviceLags lag prodDigests latest' svc := by
  unfold serviceLags
  cases hrecord : latest.get? (.text svc) <;> cases hrecord' : latest'.get? (.text svc) <;>
    simp only [hrecord, hrecord', Option.map_none, Option.map_some, reduceCtorEq, Option.some.injEq,
      Prod.mk.injEq] at h ⊢
  rw [h.1, h.2]

lemma lag_order_free (hsettled : LatestSettled R jwtValidates files) (lag : LagInputs) (horder : order.Perm files)
    (horder' : order'.Perm files) :
    checkPromotionLag R jwtValidates lag order = checkPromotionLag R jwtValidates lag order' := by
  unfold checkPromotionLag
  cases lag.prodDigests with
  | none => rfl
  | some prodDigests =>
    refine ite_congr rfl (fun _ => rfl) fun _ => ?_
    cases hlatest : latestVerifiedPerService R jwtValidates order with
    | error e =>
      cases hlatest' : latestVerifiedPerService R jwtValidates order' with
      | error e' => rfl
      | ok latest' =>
        obtain ⟨latest, hok⟩ := (datable_perm horder).mp ((datable_perm horder').mpr ⟨latest', hlatest'⟩)
        rw [hlatest] at hok
        cases hok
    | ok latest =>
      obtain ⟨latest', hlatest'⟩ := (datable_perm horder').mp ((datable_perm horder).mpr ⟨latest, hlatest⟩)
      have hlags : serviceLags lag prodDigests latest = serviceLags lag prodDigests latest' :=
        funext fun svc => serviceLags_congr (picks_agree hsettled horder horder' hlatest hlatest' _)
      simp only [hlatest', bind, Except.bind, hlags]

end Lag

/-- Both modes of the gate exit the same way, and pick the same digests, for every order of the files. -/
def VerdictOrderFree (R : Readers) (inputs : GateInputs) (lag : LagInputs) (files : List LedgerFile) : Prop :=
  ∀ order order', order.Perm files → order'.Perm files →
    exitStatus (mainEvidence inputs order) = exitStatus (mainEvidence inputs order') ∧
    exitStatus (checkPromotionLag R inputs.jwtValidates lag order) =
      exitStatus (checkPromotionLag R inputs.jwtValidates lag order') ∧
    ∀ key, pickedDigest R inputs.jwtValidates order key = pickedDigest R inputs.jwtValidates order' key

theorem verdict_order_free (R : Readers) (inputs : GateInputs) (lag : LagInputs) (files : List LedgerFile) :
    VerdictOrderFree R inputs lag files ↔
      EvidenceSettled inputs files ∧ LatestSettled R inputs.jwtValidates files := by
  constructor
  · intro h
    exact ⟨settled_of_exitOrderFree fun order order' horder horder' => (h order order' horder horder').1,
      settled_of_picksOrderFree fun order order' horder horder' => (h order order' horder horder').2.2⟩
  · rintro ⟨hevidence, hlatest⟩ order order' horder horder'
    exact ⟨exitOrderFree_of_settled hevidence order order' horder horder',
      by rw [lag_order_free hlatest lag horder horder'],
      picksOrderFree_of_settled hlatest order order' horder horder'⟩

/-- Two services that run one image: the first is verified, the second waits for its smoke run. -/
def sharedDigest : String := "sha256:0123456789abcdef0123456789abcdef0123456789abcdef0123456789abcdef"

def sharedEntry (service : String) (test : Json) : LedgerFile where
  path := "release-candidates/" ++ service ++ ".json"
  content := .json (.obj [("service", .str service), ("image", .obj [("digest", .str sharedDigest)]),
    ("promotion", .obj [("test", test)])])

def greenTier : Json := .obj [("status", .str "GREEN")]

def verifiedFile : LedgerFile := sharedEntry "ethics-service" (.obj
  [("smoke_evidence", .obj [("d29_up", greenTier), ("d29_functional", greenTier), ("d29_zanzibar", greenTier)]),
   ("verified_at", .str "2026-05-20T10:00:00Z")])

def waitingFile : LedgerFile := sharedEntry "ethics-evidence-worker" (.obj [("smoke_evidence", .null)])

def sharedInputs : GateInputs where
  changed := some ["kustomize/overlays/prod/kustomization.yaml"]
  renderHead := some ("image: ghcr.io/halildeu/platform-backend-ethics-service@" ++ sharedDigest).toList
  renderBase := some []
  jwtValidates := [("ethics-service", true), ("ethics-evidence-worker", false)]

lemma exit_verified_first : exitStatus (mainEvidence sharedInputs [verifiedFile, waitingFile]) = 0 := by decide +kernel

lemma exit_waiting_first : exitStatus (mainEvidence sharedInputs [waitingFile, verifiedFile]) = 1 := by decide +kernel

theorem shared_digest_exit_by_order : ¬ ∀ (R : Readers) (inputs : GateInputs) (lag : LagInputs) (files : List LedgerFile),
    VerdictOrderFree R inputs lag files := by
  intro h
  have hfree := h ⟨fun _ => none, fun _ => 0⟩ sharedInputs ⟨none, [], 0, 7⟩ [verifiedFile, waitingFile]
  have hexit := (hfree _ _ (.refl _) (.swap _ _ _)).1
  rw [exit_verified_first, exit_waiting_first] at hexit
  cases hexit

end PlatformGitops.Promotion
