import PlatformGitops.PrAudit.Accepted
import PlatformGitops.PrAudit.ModeShadowing

/-! Whether a consultation that the audit demands is borne out by comments. -/

namespace PlatformGitops.PrAudit

open Library Library.Fallible

section

variable (S : Surroundings) (fields : Fields) (prMeta : PrMeta)

/-- The receipt of a field has been compared with a comment that was fetched. -/
def Verified (field : String) : Prop := ∃ receipt comment, parseReceipt (fields.value field) = some receipt ∧
  loadEvidenceComment S (receipt.value "ref") prMeta.baseRepo = some comment ∧
  evidenceMatches S (some comment) receipt (providerOf field) (expectedOwner prMeta)
    (fields.value "consultation base tip") (fields.value "consultation base") (fields.value "consultation commit")
    (fields.value "consultation scope") = .ok true

/-- Every receipt is verified under the values of the event, and one is not the implementer's own; in dual mode there
are two, of different providers. -/
structure FloorMet : Prop where
  verified : ∀ field ∈ presentReceipts fields, Verified S fields prMeta field
  bound : Bound fields prMeta
  distinct : ∃ field ∈ presentReceipts fields, Verified S fields prMeta field ∧
    some (providerOf field) ≠ implementer fields
  dual : declaredMode fields = some .dual → ∃ field ∈ presentReceipts fields, ∃ other ∈ presentReceipts fields,
    Verified S fields prMeta field ∧ Verified S fields prMeta other ∧ providerOf field ≠ providerOf other

/-- A consultation is declared, or the changed files demand one. -/
def Demanded : Prop := declaredMode fields = some .single ∨ declaredMode fields = some .dual ∨
  1 ≤ (minimumConsultationMode prMeta).rank

/-- The lane without a mode has passed the body on its exemption. -/
def ExemptionUsed : Prop := fields.has "consultation mode" = false ∧ (docsOnlyExemption fields prMeta).pass = true

end

variable {S : Surroundings} {fields : Fields} {prMeta : PrMeta} {body : Text} {field : String} {receipts : List String}

/-- A body that passes without its exemption has met the floor. -/
def FloorHolds (S : Surroundings) (prMeta : PrMeta) (body : Text) : Prop :=
  let fields := extractFields (extractCrossAiSection body)
  Passes S prMeta body → Demanded fields prMeta → ¬ ExemptionUsed fields prMeta → FloorMet S fields prMeta

lemma verified_of_receipt (h : receiptVerified S fields prMeta field = .ok true) : Verified S fields prMeta field := by
  unfold receiptVerified at h
  cases hreceipt : parseReceipt (fields.value field) with
  | none =>
    rw [hreceipt] at h
    cases h
  | some receipt =>
    rw [hreceipt] at h
    dsimp only at h
    split at h
    · cases hcomment : loadEvidenceComment S (receipt.value "ref") prMeta.baseRepo with
      | none =>
        rw [hcomment] at h
        cases h
      | some comment =>
        rw [hcomment] at h
        exact ⟨receipt, comment, hreceipt, hcomment, h⟩
    · cases h

lemma value_of_verified (h : Verified S fields prMeta field) : fields.value field ≠ [] := by
  obtain ⟨receipt, comment, hreceipt, -⟩ := h
  intro hempty
  rw [hempty, parseReceipt, if_pos rfl] at hreceipt
  cases hreceipt

lemma has_of_value (h : fields.value field ≠ []) : fields.has field = true := by
  unfold Fields.has
  unfold Fields.value at h
  cases hget : fields.values.get? field with
  | none => simp [hget] at h
  | some v => rfl

/-- Without an empty receipt those selected are those present. -/
lemma selected_eq_present (h : ∀ field ∈ presentReceipts fields, fields.value field ≠ []) :
    selectedReceipts fields .dual = presentReceipts fields := by
  refine List.filter_congr fun field hfield => ?_
  rw [Bool.eq_iff_iff, decide_eq_true_eq]
  exact ⟨has_of_value, fun hhas => h field (List.mem_filter.mpr ⟨hfield, hhas⟩)⟩

lemma has_mode_of_declared {mode : Mode} (h : declaredMode fields = some mode) :
    fields.has "consultation mode" = true := by
  refine has_of_value fun hempty => ?_
  rw [declaredMode, hempty] at h
  cases mode <;> cases h

/-- Two receipts of different providers. -/
lemma two_providers (hlength : (presentReceipts fields).length = 2)
    (hproviders : ((presentReceipts fields).map providerOf).Nodup) :
    ∃ field ∈ presentReceipts fields, ∃ other ∈ presentReceipts fields, providerOf field ≠ providerOf other := by
  obtain ⟨field, other, hpresent⟩ := List.length_eq_two.mp hlength
  rw [hpresent] at hproviders ⊢
  refine ⟨field, by simp, other, by simp, ?_⟩
  simpa using hproviders

lemma floor_of_single (hmode : declaredMode fields = some .single) (h : SingleAccepted S fields prMeta field) :
    FloorMet S fields prMeta := by
  have hverified : Verified S fields prMeta field := verified_of_receipt (h.evidenced.verified field (by simp))
  refine ⟨?_, h.evidenced.bound, ⟨field, by simp [h.receipts], hverified, h.distinct⟩, fun hdual => ?_⟩
  · intro other hother
    rw [h.receipts, List.mem_singleton] at hother
    rw [hother]
    exact hverified
  · rw [hmode] at hdual
    cases hdual

lemma floor_of_dual (h : DualAccepted S fields prMeta)
    (hvalues : ∀ field ∈ presentReceipts fields, fields.value field ≠ []) : FloorMet S fields prMeta := by
  have hselected := selected_eq_present hvalues
  have hevidenced : Evidenced S fields prMeta (presentReceipts fields) := by
    rcases h.evidenced with hnil | hevidenced
    · have hlength := h.receipts.1
      rw [← hselected, hnil] at hlength
      cases hlength
    · rwa [hselected] at hevidenced
  have hverified (field : String) (hfield : field ∈ presentReceipts fields) : Verified S fields prMeta field :=
    verified_of_receipt (hevidenced.verified field hfield)
  obtain ⟨field, hfield, hdistinct⟩ := h.distinct
  obtain ⟨one, hone, other, hother, hproviders⟩ := two_providers h.receipts.1 h.receipts.2
  exact ⟨hverified, hevidenced.bound, ⟨field, hfield, hverified field hfield, hdistinct⟩,
    fun _ => ⟨one, hone, other, hother, hverified one hone, hverified other hother, hproviders⟩⟩

/-- What passes with an exemption that is not used has an explicit mode. -/
lemma explicit_of_passes (h : Passes S prMeta body)
    (hexempt : ¬ ExemptionUsed (extractFields (extractCrossAiSection body)) prMeta) :
    ExplicitAccepted S (extractFields (extractCrossAiSection body)) prMeta := by
  obtain ⟨-, -, -, hlane⟩ := passes_iff.mp h
  split at hlane
  · exact hlane
  · rename_i hmode
    exact absurd ⟨by simpa using hmode, hlane.exempt⟩ hexempt

/-- A body that passes has met the floor exactly when no receipt of it is empty in dual mode. -/
theorem consultation_floor_iff (S : Surroundings) (prMeta : PrMeta) (body : Text) :
    FloorHolds S prMeta body ↔
      (Passes S prMeta body → declaredMode (extractFields (extractCrossAiSection body)) = some .dual →
        ∀ field ∈ presentReceipts (extractFields (extractCrossAiSection body)),
          (extractFields (extractCrossAiSection body)).value field ≠ []) := by
  constructor
  · intro h hpass hdual field hfield
    have hused : ¬ ExemptionUsed (extractFields (extractCrossAiSection body)) prMeta := by
      rintro ⟨hmode, -⟩
      rw [has_mode_of_declared hdual] at hmode
      cases hmode
    exact value_of_verified ((h hpass (.inr (.inl hdual)) hused).verified field hfield)
  · intro hvalues hpass hdemanded hused
    rcases explicit_of_passes hpass hused with ⟨hmode, -⟩ | ⟨hmode, -, field, hsingle⟩ | ⟨hmode, -, hdual⟩
    · -- the floor keeps the mode `none` away from what is demanded
      have hfloor : (minimumConsultationMode prMeta).rank = 0 := Nat.le_zero.mp hmode.floor
      rcases hdemanded with hdeclared | hdeclared | hrank
      · rw [hmode.declared] at hdeclared
        cases hdeclared
      · rw [hmode.declared] at hdeclared
        cases hdeclared
      · omega
    · exact floor_of_single hmode.declared hsingle
    · exact floor_of_dual hdual (hvalues hpass hmode.declared)

/-- Two receipts without a value, in dual mode. -/
def emptyReceiptsBody : Text :=
  ("## Cross-AI\nImplementer AI: Codex\nConsultation mode: dual\n" ++
    "Consultation reason: rotate the access keys safely\n" ++
    "Risk trigger: security-authz: changes who reads the secrets\nConsultation base tip: x\n" ++
    "Consultation base: x\nConsultation commit: x\nConsultation scope: x\nVerdict: AGREE\n" ++
    "Claude receipt:\nCodex receipt:").toList

lemma emptyReceiptsBody_passes : Passes quietSurroundings (changing "kustomize/base/labels.yaml") emptyReceiptsBody := by
  apply passes_of_verdict
  unfold emptyReceiptsBody
  simp only [String.toList_append]
  -- the kernel gets the characters of the five pieces as lists
  iterate 5 rewrite [String.toList_ofList]
  decide +kernel

lemma emptyReceiptsBody_fields : ∃ fields, extractFields (extractCrossAiSection emptyReceiptsBody) = fields ∧
    declaredMode fields = some .dual ∧ fields.has "consultation mode" = true ∧ "claude receipt" ∈ presentReceipts fields ∧
      fields.value "claude receipt" = [] := by
  unfold emptyReceiptsBody
  simp only [String.toList_append]
  iterate 5 rewrite [String.toList_ofList]
  exact ⟨_, rfl, by decide +kernel⟩

theorem consultation_floor_empty_receipts :
    ¬ ∀ (S : Surroundings) (prMeta : PrMeta) (body : Text), FloorHolds S prMeta body := by
  intro h
  obtain ⟨fields, hfields, hdual, hmode, hpresent, hempty⟩ := emptyReceiptsBody_fields
  have hholds := h quietSurroundings (changing "kustomize/base/labels.yaml") emptyReceiptsBody emptyReceiptsBody_passes
  rw [hfields] at hholds
  have hmet := hholds (.inr (.inl hdual)) fun hused => absurd (hmode.symm.trans hused.1) nofun
  exact value_of_verified (hmet.verified "claude receipt" hpresent) hempty

end PlatformGitops.PrAudit
