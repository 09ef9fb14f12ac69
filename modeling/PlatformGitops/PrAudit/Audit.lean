import PlatformGitops.PrAudit.Receipts

/-! The audit of a pull request's body: its findings, in order. -/

namespace PlatformGitops.PrAudit

open Library
open Library.Regex (Pattern)

structure Finding where
  check : String
  pass : Bool
deriving DecidableEq, Repr

def allPass (findings : List Finding) : Bool := findings.all (·.pass)

variable (S : Surroundings) (fields : Fields) (prMeta : PrMeta)

section Consultation

def sameSha (isSha : Text → Bool) (declared known : Text) : Bool := isSha known ∧ toLowerCase declared = toLowerCase known

/-- The findings that bind the consultation to the event and to what was derived from it. -/
def bindingFindings : List Finding :=
  let baseTip := fields.value "consultation base tip"
  let base := fields.value "consultation base"
  let commit := fields.value "consultation commit"
  let scope := fields.value "consultation scope"
  [⟨"consultation_base_tip_exact_event", isCommitSha baseTip ∧ sameSha isCommitSha baseTip prMeta.baseSha⟩,
   ⟨"consultation_base_format", isCommitSha base⟩,
   ⟨"consultation_base_exact_ci_merge_base", isCommitSha base ∧ sameSha isCommitSha base prMeta.derivedBaseSha⟩,
   ⟨"consultation_commit_exact_head", isCommitSha commit ∧ sameSha isCommitSha commit prMeta.headSha⟩,
   ⟨"consultation_scope_sha256", isSha256 scope⟩,
   ⟨"consultation_scope_exact_ci_derivation", isSha256 scope ∧ sameSha isSha256 scope prMeta.derivedScopeSha256⟩]

/-- The provider of a receipt field. -/
def providerOf (field : String) : String := (consultationReceipts.get? field).getD ""

def sameText (a b : Text) : Bool := toLowerCase a = toLowerCase b

/-- What the receipt itself has to say. -/
def receiptShape (provider : String) (receipt : Receipt) : Bool :=
  canonicalProvider (receipt.value "provider") = provider ∧
    receipt.value "requested" ≠ [] ∧ receipt.value "actual" ≠ [] ∧ receipt.value "requested" = receipt.value "actual" ∧
    sameText (receipt.value "base_tip") (fields.value "consultation base tip") ∧
    sameText (receipt.value "base") (fields.value "consultation base") ∧
    sameText (receipt.value "head") (fields.value "consultation commit") ∧
    sameText (receipt.value "scope") (fields.value "consultation scope") ∧
    receipt.value "verdict" = "AGREE".toList ∧ validEvidenceRef S (receipt.value "ref") prMeta.baseRepo ∧
    isSha256 (receipt.value "sha256")

def expectedOwner : Text := prMeta.baseRepo.takeWhile (· ≠ '/')

/-- Whether the receipt of a field is borne out by the comment that it refers to. -/
def receiptVerified (field : String) : Except Raised Bool :=
  match parseReceipt (fields.value field) with
  | none => .ok false
  | some receipt =>
    if receiptShape S fields prMeta (providerOf field) receipt then
      evidenceMatches S (loadEvidenceComment S (receipt.value "ref") prMeta.baseRepo) receipt (providerOf field)
        (expectedOwner prMeta) (fields.value "consultation base tip") (fields.value "consultation base")
        (fields.value "consultation commit") (fields.value "consultation scope")
    else .ok false

def receiptFinding (field : String) : Except Raised Finding := do
  let verified ← receiptVerified S fields prMeta field
  pure ⟨field.replace " " "_", verified⟩

/-- The references of the receipts that can be read. -/
def receiptRefs (receiptFields : List String) : List Text :=
  (receiptFields.filterMap fun field => parseReceipt (fields.value field)).map (Receipt.value · "ref")

def consultationFindings (receiptFields : List String) : Except Raised (List Finding) := do
  let verified ← receiptFields.mapM (receiptFinding S fields prMeta)
  let refs := receiptRefs fields receiptFields
  pure (bindingFindings fields prMeta ++ verified ++
    [⟨"consultation_evidence_refs_unique", refs.length = receiptFields.length ∧ refs.dedup.length = receiptFields.length⟩])

end Consultation

section ExplicitMode

def explicitModeLegacyFields : List String :=
  ["reviewer ai", "codex thread", "verdict reason", "same-provider exception", "exception reason",
   "cross-ai exempt reason", "absorb edilen düzeltmeler", "automation source", "automation evidence"]

def declaredMode : Option Mode := Mode.ofText (toLowerCase (trim (fields.value "consultation mode")))

def presentReceipts : List String := (consultationReceipts.map (·.1)).filter fields.has

def implementer : Option String := normalizeProvider (fields.value "implementer ai")

def implementerAllowed : Bool :=
  (implementer fields).any fun provider =>
    provider ∈ validProviders ∧ (declaredMode fields = some .none ∨ provider ≠ "other")

def meetsFloor : Bool := (declaredMode fields).any fun mode => (minimumConsultationMode prMeta).rank ≤ mode.rank

/-- The findings that every explicit mode has. -/
def modeFindings : List Finding :=
  [⟨"consultation_mode_valid", (declaredMode fields).isSome⟩,
   ⟨"consultation_reason_present", meaningfulStatement S (trim (fields.value "consultation reason"))⟩,
   ⟨"implementer_provider_enum", implementerAllowed fields⟩,
   ⟨"consultation_changed_files_present", prMeta.changedFiles.any (· ≠ [])⟩,
   ⟨"consultation_mode_meets_scope_floor", meetsFloor fields prMeta⟩,
   ⟨"consultation_explicit_mode_has_no_legacy_controls", ¬explicitModeLegacyFields.any fields.has⟩,
   ⟨"consultation_receipt_providers_accepted", true⟩]

def consultationBaseFields : List String :=
  ["consultation base tip", "consultation base", "consultation commit", "consultation scope"]

def noneFindings : List Finding :=
  [⟨"consultation_none_has_no_receipts", presentReceipts fields = []⟩,
   ⟨"consultation_none_has_no_consultation_outcome_fields",
     ¬(["verdict", "risk trigger"] ++ consultationBaseFields).any fields.has⟩]

def outcomeFindings : List Finding :=
  [⟨"consultation_binding_fields_present", consultationBaseFields.all (fields.value · ≠ [])⟩,
   ⟨"consultation_verdict_agree", fields.value "verdict" = "AGREE".toList⟩]

def singleFindings : List Finding :=
  [⟨"consultation_single_exact_channel_count", (presentReceipts fields).length = 1⟩,
   ⟨"consultation_single_is_provider_distinct",
     match presentReceipts fields with
     | [field] => some (providerOf field) ≠ implementer fields
     | _ => false⟩,
   ⟨"consultation_single_has_no_risk_trigger", ¬fields.has "risk trigger"⟩]

def dualFindings : List Finding :=
  let dualProviders := (presentReceipts fields).map providerOf
  [⟨"consultation_dual_high_risk_trigger", meaningfulRiskTrigger S (trim (fields.value "risk trigger"))⟩,
   ⟨"consultation_dual_exact_channel_count", dualProviders.length = 2 ∧ dualProviders.Nodup⟩,
   ⟨"consultation_dual_provider_distinct_from_implementer",
     dualProviders.any fun provider => some provider ≠ implementer fields⟩]

/-- The receipts whose evidence is fetched. -/
def selectedReceipts (mode : Mode) : List String :=
  match mode with
  | .none => []
  | .single => (presentReceipts fields).take 1
  | .dual => (consultationReceipts.map (·.1)).filter fun field => fields.value field ≠ []

def evidenceFindings (mode : Mode) : Except Raised (List Finding) :=
  if selectedReceipts fields mode = [] then .ok []
  else consultationFindings S fields prMeta (selectedReceipts fields mode)

def auditExplicitConsultationMode : Except Raised (List Finding) :=
  match declaredMode fields with
  | some .none => .ok (modeFindings S fields prMeta ++ noneFindings fields)
  | some .single => do
    let evidence ← evidenceFindings S fields prMeta .single
    pure (modeFindings S fields prMeta ++ outcomeFindings fields ++ singleFindings fields ++ evidence)
  | some .dual => do
    let evidence ← evidenceFindings S fields prMeta .dual
    pure (modeFindings S fields prMeta ++ outcomeFindings fields ++ dualFindings S fields ++ evidence)
  | none => .ok (modeFindings S fields prMeta ++ outcomeFindings fields)

end ExplicitMode

section Legacy

/-- The name of a provider, unless it is empty. -/
def givenProvider (key : String) : Option String := (normalizeProvider (fields.value key)).filter (· ≠ "")

def providerFinding (check key : String) : List Finding :=
  match givenProvider fields key with
  | some provider => [⟨check, provider ∈ validProviders⟩]
  | none => []

def approvalPattern : Pattern := foldedWord "user-explicit-approval".toList

def differsFinding : List Finding :=
  match givenProvider fields "implementer ai", givenProvider fields "reviewer ai" with
  | some impl, some rev =>
    [⟨"cross_ai_provider_differs",
      impl ≠ rev ∨ (approvalPattern.search none (toLowerCase (fields.value "same-provider exception")) ∧
        10 ≤ jsLength (fields.value "exception reason"))⟩]
  | _, _ => []

/-- The lane of the exemption for historical documents; the thread is `n/a` in it. -/
def docsOnlyFindings : List Finding :=
  [⟨"cross_ai_docs_only_exemption", true⟩,
   ⟨"required_fields_present", requiredFieldKeys.all (fields.value · ≠ [])⟩] ++
    providerFinding fields "implementer_provider_enum" "implementer ai" ++
    providerFinding fields "reviewer_provider_enum" "reviewer ai" ++ differsFinding fields ++
    [⟨"codex_thread_format", 10 ≤ jsLength (fields.value "cross-ai exempt reason")⟩] ++
    (if trim (fields.value "verdict") = [] then []
      else [⟨"verdict_agree", trim (fields.value "verdict") = "AGREE".toList⟩])

end Legacy

section Audit

def forbiddenConsultationFields : List String := ["minimax receipt", "glm receipt"]

def commonFindings : List Finding :=
  [⟨"cross_ai_section_present", true⟩, ⟨"cross_ai_structured_fields_unique", fields.duplicateFields = []⟩,
   ⟨"consultation_has_no_forbidden_fields", ¬forbiddenConsultationFields.any fields.has⟩]

/-- The lane without an explicit mode. -/
def legacyFindings : List Finding :=
  let exemption := docsOnlyExemption fields prMeta
  if exemption.pass then docsOnlyFindings fields
  else
    (if exemption.requested then [⟨"cross_ai_docs_only_exemption", false⟩] else []) ++
      [⟨"consultation_explicit_mode_required", false⟩]

def auditFields : Except Raised (List Finding) :=
  if fields.has "consultation mode" then do
    pure (commonFindings fields ++ (← auditExplicitConsultationMode S fields prMeta))
  else .ok (commonFindings fields ++ legacyFindings fields prMeta)

def audit (body : Text) (prMeta : PrMeta) : Except Raised (List Finding) :=
  let text := extractCrossAiSection body
  if text = [] then .ok [⟨"cross_ai_section_present", false⟩] else auditFields S (extractFields text) prMeta

end Audit

end PlatformGitops.PrAudit
