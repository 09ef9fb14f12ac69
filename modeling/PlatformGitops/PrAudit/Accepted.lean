import PlatformGitops.PrAudit.Audit

/-! What the findings of an audit have shown when all of them pass. -/

namespace PlatformGitops.PrAudit

open Library Library.Fallible

variable (S : Surroundings) (fields : Fields) (prMeta : PrMeta)

/-- The event and the derived values that the consultation is bound to. -/
structure Bound : Prop where
  baseTip : isCommitSha (fields.value "consultation base tip") ∧
    sameSha isCommitSha (fields.value "consultation base tip") prMeta.baseSha
  base : isCommitSha (fields.value "consultation base") ∧
    sameSha isCommitSha (fields.value "consultation base") prMeta.derivedBaseSha
  commit : isCommitSha (fields.value "consultation commit") ∧
    sameSha isCommitSha (fields.value "consultation commit") prMeta.headSha
  scope : isSha256 (fields.value "consultation scope") ∧
    sameSha isSha256 (fields.value "consultation scope") prMeta.derivedScopeSha256

/-- Receipts that are all verified, with a reference each. -/
structure Evidenced (receiptFields : List String) : Prop where
  bound : Bound fields prMeta
  verified : ∀ field ∈ receiptFields, receiptVerified S fields prMeta field = .ok true
  refs : (receiptRefs fields receiptFields).length = receiptFields.length ∧
    (receiptRefs fields receiptFields).dedup.length = receiptFields.length

/-- What holds in each explicit mode. -/
structure ModeAccepted (mode : Mode) : Prop where
  declared : declaredMode fields = some mode
  reason : meaningfulStatement S (trim (fields.value "consultation reason"))
  implementer : implementerAllowed fields
  files : ∃ files, prMeta.changedFiles = some files ∧ files ≠ []
  floor : (minimumConsultationMode prMeta).rank ≤ mode.rank
  noLegacy : ∀ key ∈ explicitModeLegacyFields, fields.has key = false

structure NoneAccepted : Prop where
  receipts : presentReceipts fields = []
  outcome : ∀ key ∈ ["verdict", "risk trigger"] ++ consultationBaseFields, fields.has key = false

structure OutcomeAccepted : Prop where
  binding : ∀ key ∈ consultationBaseFields, fields.value key ≠ []
  verdict : fields.value "verdict" = "AGREE".toList

structure SingleAccepted (field : String) : Prop where
  receipts : presentReceipts fields = [field]
  distinct : some (providerOf field) ≠ PrAudit.implementer fields
  noTrigger : fields.has "risk trigger" = false
  evidenced : Evidenced S fields prMeta [field]

structure DualAccepted : Prop where
  trigger : meaningfulRiskTrigger S (trim (fields.value "risk trigger"))
  receipts : (presentReceipts fields).length = 2 ∧ ((presentReceipts fields).map providerOf).Nodup
  distinct : ∃ field ∈ presentReceipts fields, some (providerOf field) ≠ PrAudit.implementer fields
  evidenced : selectedReceipts fields .dual = [] ∨ Evidenced S fields prMeta (selectedReceipts fields .dual)

/-- What an explicit mode passes with. -/
def ExplicitAccepted : Prop :=
  (ModeAccepted S fields prMeta .none ∧ NoneAccepted fields) ∨
  (ModeAccepted S fields prMeta .single ∧ OutcomeAccepted fields ∧ ∃ field, SingleAccepted S fields prMeta field) ∨
  (ModeAccepted S fields prMeta .dual ∧ OutcomeAccepted fields ∧ DualAccepted S fields prMeta)

/-- What the lane without an explicit mode passes with. -/
structure LegacyAccepted : Prop where
  exempt : (docsOnlyExemption fields prMeta).pass
  required : ∀ key ∈ requiredFieldKeys, fields.value key ≠ []
  providers : ∀ key ∈ ["implementer ai", "reviewer ai"], ∀ provider ∈ givenProvider fields key, provider ∈ validProviders
  differs : ∀ impl ∈ givenProvider fields "implementer ai", ∀ rev ∈ givenProvider fields "reviewer ai",
    impl ≠ rev ∨ (approvalPattern.search none (toLowerCase (fields.value "same-provider exception")) ∧
      10 ≤ jsLength (fields.value "exception reason"))
  verdict : trim (fields.value "verdict") = [] ∨ trim (fields.value "verdict") = "AGREE".toList

/-- The audit returns findings, and all of them pass. -/
def Passes (body : Text) : Prop := ∃ findings, audit S body prMeta = .ok findings ∧ allPass findings

variable {S fields prMeta}

lemma allPass_append {fs gs : List Finding} : allPass (fs ++ gs) = true ↔ allPass fs = true ∧ allPass gs = true := by
  simp [allPass]

@[simp] lemma allPass_nil : allPass [] = true := rfl

@[simp] lemma allPass_cons {f : Finding} {fs : List Finding} :
    allPass (f :: fs) = true ↔ f.pass = true ∧ allPass fs = true := by
  simp [allPass]

lemma allPass_binding : allPass (bindingFindings fields prMeta) = true ↔ Bound fields prMeta := by
  simp only [bindingFindings, allPass_cons, allPass_nil, and_true, decide_eq_true_eq]
  constructor
  · rintro ⟨htip, -, hbase, hcommit, -, hscope⟩
    exact ⟨htip, hbase, hcommit, hscope⟩
  · rintro ⟨htip, hbase, hcommit, hscope⟩
    exact ⟨htip, hbase.1, hbase, hcommit, hscope.1, hscope⟩

lemma consultation_passes {receiptFields : List String} :
    (∃ findings, consultationFindings S fields prMeta receiptFields = .ok findings ∧ allPass findings) ↔
      Evidenced S fields prMeta receiptFields := by
  have hverified {found : List Finding} (h : receiptFields.mapM (receiptFinding S fields prMeta) = .ok found) :
      allPass found = true ↔ ∀ field ∈ receiptFields, receiptVerified S fields prMeta field = .ok true := by
    obtain ⟨hleft, hright⟩ := mapM_eq_ok h
    simp only [receiptFinding, bind_eq_ok, pure_eq_ok] at hleft hright
    rw [allPass, List.all_eq_true]
    constructor
    · intro hall field hfield
      obtain ⟨_, hmem, verified, hok, rfl⟩ := hleft field hfield
      rw [hok, show verified = true from hall _ hmem]
    · intro hall finding hfinding
      obtain ⟨field, hfield, verified, hok, rfl⟩ := hright finding hfinding
      rw [hall field hfield] at hok
      cases hok
      rfl
  simp only [consultationFindings, bind_eq_ok, pure_eq_ok]
  constructor
  · rintro ⟨_, ⟨found, hfound, rfl⟩, hpass⟩
    simp only [allPass_append, allPass_binding, hverified hfound, allPass_cons, allPass_nil, and_true,
      decide_eq_true_eq] at hpass
    obtain ⟨⟨hbound, hall⟩, hrefs⟩ := hpass
    exact ⟨hbound, hall, hrefs⟩
  · rintro ⟨hbound, hall, hrefs⟩
    obtain ⟨found, hfound⟩ := exists_mapM_eq_ok.mpr fun field hfield =>
      ⟨_, show receiptFinding S fields prMeta field = .ok _ by rw [receiptFinding, hall field hfield]; rfl⟩
    refine ⟨_, ⟨found, hfound, rfl⟩, ?_⟩
    simp only [allPass_append, allPass_binding, hverified hfound, allPass_cons, allPass_nil, and_true,
      decide_eq_true_eq]
    exact ⟨⟨hbound, hall⟩, hrefs⟩

lemma evidence_passes {mode : Mode} :
    (∃ findings, evidenceFindings S fields prMeta mode = .ok findings ∧ allPass findings) ↔
      selectedReceipts fields mode = [] ∨ Evidenced S fields prMeta (selectedReceipts fields mode) := by
  by_cases hempty : selectedReceipts fields mode = []
  · simp [evidenceFindings, hempty]
  · rw [or_iff_right hempty, ← consultation_passes, evidenceFindings, if_neg hempty]

lemma modeFindings_pass : allPass (modeFindings S fields prMeta) = true ↔ ∃ mode, ModeAccepted S fields prMeta mode := by
  simp only [modeFindings, allPass_cons, allPass_nil, and_true, Option.isSome_iff_exists]
  constructor
  · rintro ⟨⟨mode, hmode⟩, hreason, himplementer, hfiles, hfloor, hlegacy⟩
    refine ⟨mode, hmode, hreason, himplementer, ?_, ?_, ?_⟩
    · simpa [Option.any_eq_true] using hfiles
    · simpa [meetsFloor, hmode] using hfloor
    · simpa using hlegacy
  · rintro ⟨mode, hmode, hreason, himplementer, ⟨files, hfiles, hne⟩, hfloor, hlegacy⟩
    refine ⟨⟨mode, hmode⟩, hreason, himplementer, ?_, ?_, ?_⟩
    · simp [hfiles, hne]
    · simpa [meetsFloor, hmode] using hfloor
    · simpa using hlegacy

lemma noneFindings_pass : allPass (noneFindings fields) = true ↔ NoneAccepted fields := by
  simp only [noneFindings, allPass_cons, allPass_nil, and_true, decide_eq_true_eq]
  constructor
  · rintro ⟨hreceipts, houtcome⟩
    exact ⟨hreceipts, by simpa using houtcome⟩
  · rintro ⟨hreceipts, houtcome⟩
    exact ⟨hreceipts, by simpa using houtcome⟩

lemma outcomeFindings_pass : allPass (outcomeFindings fields) = true ↔ OutcomeAccepted fields := by
  simp only [outcomeFindings, allPass_cons, allPass_nil, and_true, decide_eq_true_eq]
  constructor
  · rintro ⟨hbinding, hverdict⟩
    exact ⟨by simpa using hbinding, hverdict⟩
  · rintro ⟨hbinding, hverdict⟩
    exact ⟨by simpa using hbinding, hverdict⟩

lemma single_passes :
    (∃ findings, evidenceFindings S fields prMeta .single = .ok findings ∧ allPass findings) ∧
      allPass (singleFindings fields) = true ↔ ∃ field, SingleAccepted S fields prMeta field := by
  simp only [evidence_passes, singleFindings, allPass_cons, allPass_nil, and_true, decide_eq_true_eq,
    List.length_eq_one_iff]
  constructor
  · rintro ⟨hevidence, ⟨field, hfield⟩, hdistinct, htrigger⟩
    refine ⟨field, hfield, ?_, by simpa using htrigger, ?_⟩
    · simpa [hfield] using hdistinct
    · simpa [selectedReceipts, hfield] using hevidence
  · rintro ⟨field, hfield, hdistinct, htrigger, hevidence⟩
    refine ⟨.inr ?_, ⟨field, hfield⟩, ?_, by simpa using htrigger⟩
    · simpa [selectedReceipts, hfield] using hevidence
    · simpa [hfield] using hdistinct

lemma dual_passes :
    (∃ findings, evidenceFindings S fields prMeta .dual = .ok findings ∧ allPass findings) ∧
      allPass (dualFindings S fields) = true ↔ DualAccepted S fields prMeta := by
  simp only [evidence_passes, dualFindings, allPass_cons, allPass_nil, and_true, decide_eq_true_eq, List.length_map,
    List.any_map, List.any_eq_true, Function.comp_apply]
  constructor
  · rintro ⟨hevidence, htrigger, hreceipts, hdistinct⟩
    exact ⟨htrigger, hreceipts, hdistinct, hevidence⟩
  · rintro ⟨htrigger, hreceipts, hdistinct, hevidence⟩
    exact ⟨hevidence, htrigger, hreceipts, hdistinct⟩

lemma declared_unique {mode mode' : Mode} (h : ModeAccepted S fields prMeta mode)
    (h' : declaredMode fields = some mode') : mode = mode' := by
  rw [h.declared] at h'
  exact Option.some.inj h'

lemma explicit_passes :
    (∃ findings, auditExplicitConsultationMode S fields prMeta = .ok findings ∧ allPass findings) ↔
      ExplicitAccepted S fields prMeta := by
  unfold auditExplicitConsultationMode ExplicitAccepted
  cases hmode : declaredMode fields with
  | none =>
    constructor
    · rintro ⟨_, ⟨⟩, hpass⟩
      obtain ⟨mode, hmode'⟩ := modeFindings_pass.mp (allPass_append.mp hpass).1
      rw [hmode'.declared] at hmode
      cases hmode
    · rintro (⟨h, -⟩ | ⟨h, -⟩ | ⟨h, -⟩) <;> rw [h.declared] at hmode <;> cases hmode
  | some mode =>
    have hmodes {other : Mode} (h : ModeAccepted S fields prMeta other) : other = mode := declared_unique h hmode
    have hmode' : allPass (modeFindings S fields prMeta) = true ↔ ModeAccepted S fields prMeta mode := by
      rw [modeFindings_pass]
      constructor
      · rintro ⟨other, h⟩
        exact hmodes h ▸ h
      · exact fun h => ⟨mode, h⟩
    cases mode with
    | none =>
      have hpass : (∃ findings, (.ok (modeFindings S fields prMeta ++ noneFindings fields) : Except Raised _) =
          .ok findings ∧ allPass findings) ↔ ModeAccepted S fields prMeta .none ∧ NoneAccepted fields := by
        rw [← hmode', ← noneFindings_pass, ← allPass_append]
        constructor
        · rintro ⟨_, ⟨⟩, h⟩
          exact h
        · exact fun h => ⟨_, rfl, h⟩
      rw [hpass]
      constructor
      · exact .inl
      · rintro (h | ⟨h, -⟩ | ⟨h, -⟩)
        · exact h
        · cases hmodes h
        · cases hmodes h
    | single =>
      simp only [bind_eq_ok, pure_eq_ok]
      constructor
      · rintro ⟨_, ⟨evidence, hevidence, rfl⟩, hpass⟩
        simp only [allPass_append] at hpass
        obtain ⟨⟨⟨hall, houtcome⟩, hsingle⟩, hverified⟩ := hpass
        exact .inr (.inl ⟨hmode'.mp hall, outcomeFindings_pass.mp houtcome,
          single_passes.mp ⟨⟨evidence, hevidence, hverified⟩, hsingle⟩⟩)
      · rintro (⟨h, -⟩ | ⟨h, houtcome, hsingle⟩ | ⟨h, -⟩)
        · cases hmodes h
        · obtain ⟨⟨evidence, hevidence, hverified⟩, hsingle⟩ := single_passes.mpr hsingle
          refine ⟨_, ⟨evidence, hevidence, rfl⟩, ?_⟩
          simp only [allPass_append]
          exact ⟨⟨⟨hmode'.mpr h, outcomeFindings_pass.mpr houtcome⟩, hsingle⟩, hverified⟩
        · cases hmodes h
    | dual =>
      simp only [bind_eq_ok, pure_eq_ok]
      constructor
      · rintro ⟨_, ⟨evidence, hevidence, rfl⟩, hpass⟩
        simp only [allPass_append] at hpass
        obtain ⟨⟨⟨hall, houtcome⟩, hdual⟩, hverified⟩ := hpass
        exact .inr (.inr ⟨hmode'.mp hall, outcomeFindings_pass.mp houtcome,
          dual_passes.mp ⟨⟨evidence, hevidence, hverified⟩, hdual⟩⟩)
      · rintro (⟨h, -⟩ | ⟨h, -⟩ | ⟨h, houtcome, hdual⟩)
        · cases hmodes h
        · cases hmodes h
        · obtain ⟨⟨evidence, hevidence, hverified⟩, hdual⟩ := dual_passes.mpr hdual
          refine ⟨_, ⟨evidence, hevidence, rfl⟩, ?_⟩
          simp only [allPass_append]
          exact ⟨⟨⟨hmode'.mpr h, outcomeFindings_pass.mpr houtcome⟩, hdual⟩, hverified⟩

lemma providerFinding_pass {check key : String} : allPass (providerFinding fields check key) = true ↔
    ∀ provider ∈ givenProvider fields key, provider ∈ validProviders := by
  unfold providerFinding
  cases givenProvider fields key <;> simp

lemma differsFinding_pass : allPass (differsFinding fields) = true ↔
    ∀ impl ∈ givenProvider fields "implementer ai", ∀ rev ∈ givenProvider fields "reviewer ai",
      impl ≠ rev ∨ (approvalPattern.search none (toLowerCase (fields.value "same-provider exception")) ∧
        10 ≤ jsLength (fields.value "exception reason")) := by
  unfold differsFinding
  cases givenProvider fields "implementer ai" <;> cases givenProvider fields "reviewer ai" <;> simp

lemma legacyFindings_pass : allPass (legacyFindings fields prMeta) = true ↔ LegacyAccepted fields prMeta := by
  have hverdict : allPass (if trim (fields.value "verdict") = [] then []
      else [⟨"verdict_agree", trim (fields.value "verdict") = "AGREE".toList⟩]) = true ↔
        trim (fields.value "verdict") = [] ∨ trim (fields.value "verdict") = "AGREE".toList := by
    by_cases h : trim (fields.value "verdict") = [] <;> simp [h]
  have hreason (h : (docsOnlyExemption fields prMeta).pass = true) :
      10 ≤ jsLength (fields.value "cross-ai exempt reason") := by
    unfold docsOnlyExemption at h
    split at h
    · cases h
    · exact (of_decide_eq_true h).1
  unfold legacyFindings
  by_cases hexempt : (docsOnlyExemption fields prMeta).pass = true
  · simp only [hexempt, if_true, docsOnlyFindings, allPass_append, allPass_cons, allPass_nil, and_true, true_and,
      providerFinding_pass, differsFinding_pass, hverdict, List.all_eq_true, decide_eq_true_eq]
    constructor
    · rintro ⟨⟨⟨⟨⟨hrequired, himpl⟩, hrev⟩, hdiffers⟩, -⟩, hv⟩
      refine ⟨hexempt, hrequired, ?_, hdiffers, hv⟩
      simp only [List.forall_mem_cons]
      exact ⟨himpl, hrev, nofun⟩
    · rintro ⟨-, hrequired, hproviders, hdiffers, hv⟩
      exact ⟨⟨⟨⟨⟨hrequired, hproviders _ (by simp)⟩, hproviders _ (by simp)⟩, hdiffers⟩, hreason hexempt⟩, hv⟩
  · constructor
    · intro h
      rw [if_neg hexempt, allPass_append] at h
      simp at h
    · exact fun h => absurd h.exempt hexempt

/-- The audit passes when no field is doubled, none is retired, and its lane accepts. -/
lemma passes_iff {body : Text} : Passes S prMeta body ↔
    extractCrossAiSection body ≠ [] ∧ (extractFields (extractCrossAiSection body)).duplicateFields = [] ∧
      (∀ key ∈ forbiddenConsultationFields, (extractFields (extractCrossAiSection body)).has key = false) ∧
      if (extractFields (extractCrossAiSection body)).has "consultation mode" then
        ExplicitAccepted S (extractFields (extractCrossAiSection body)) prMeta
      else LegacyAccepted (extractFields (extractCrossAiSection body)) prMeta := by
  unfold Passes audit
  dsimp only
  by_cases hempty : extractCrossAiSection body = []
  · simp [hempty]
  · rw [if_neg hempty]
    generalize extractFields (extractCrossAiSection body) = fields
    have hcommon : allPass (commonFindings fields) = true ↔ fields.duplicateFields = [] ∧
        ∀ key ∈ forbiddenConsultationFields, fields.has key = false := by
      simp [commonFindings]
    rw [and_iff_right hempty, ← and_assoc, ← hcommon, auditFields]
    by_cases hmode : fields.has "consultation mode" = true
    · rw [if_pos hmode, if_pos hmode, ← explicit_passes]
      simp only [bind_eq_ok, pure_eq_ok]
      constructor
      · rintro ⟨_, ⟨findings, hok, rfl⟩, hpass⟩
        obtain ⟨hc, hpass⟩ := allPass_append.mp hpass
        exact ⟨hc, findings, hok, hpass⟩
      · rintro ⟨hc, findings, hok, hpass⟩
        exact ⟨_, ⟨findings, hok, rfl⟩, allPass_append.mpr ⟨hc, hpass⟩⟩
    · rw [if_neg hmode, if_neg hmode, ← legacyFindings_pass, ← allPass_append]
      constructor
      · rintro ⟨_, ⟨⟩, hpass⟩
        exact hpass
      · exact fun hpass => ⟨_, rfl, hpass⟩

end PlatformGitops.PrAudit
