import PlatformGitops.Coordination.SplitLines
import PlatformGitops.PrAudit.Receipts
import PlatformGitops.PrAudit.Redaction

/-! The evidence of a consultation: the script that builds it from a response, and the one that checks it before it is
posted. -/

namespace PlatformGitops.PrAudit

open Library
open Library.Regex (Pattern)
open Coordination (strip)

/-- What the scripts take from the language: the classes of its patterns, its digests, and its JSON. -/
structure Evidences where
  tables : PyTables
  sha256 : Text → Text
  dumps : Json → Text
  loads : Text → Option Json

variable (X : Evidences)

section Build

inductive ValidProvider where
  | anthropic | openai
deriving DecidableEq, Repr

def ValidProvider.name : ValidProvider → String
  | anthropic => "anthropic"
  | openai => "openai"

/-- The arguments of the builder. -/
structure Consultation where
  provider : ValidProvider
  requestedModel : Text
  actualModel : Text
  baseTipSha : Text
  baseSha : Text
  headSha : Text
  scopeSha256 : Text

def isModelChar (c : Char) : Bool := isAsciiAlnum c || c == '.' || c == '_' || c == '-'

def isModelSlug (s : Text) : Bool := s.head?.any isAsciiAlnum ∧ s.all isModelChar ∧ 2 ≤ s.length ∧ s.length ≤ 64

def maxResponseBytes : ℕ := 48000

def maxEvidenceBytes : ℕ := 60000

def byteLength (s : Text) : ℕ := (Text.encode s).length

/-- The response between the headings, each part stripped. -/
def prioritySections (response : Text) (verdictPlace : ℕ) : Option (List Text) :=
  sections strip response verdictPlace ((pyEngine X.tables).headings response)

def containsSensitivePy (response : Text) : Bool := containsSensitive (pyEngine X.tables) response

def Consultation.check (args : Consultation) : Except String Unit :=
  if ¬isModelSlug args.requestedModel ∨ ¬isModelSlug args.actualModel then .error "invalid_model_identifier"
  else if args.requestedModel ≠ args.actualModel then .error "provider_model_mismatch"
  else if ¬[args.baseTipSha, args.baseSha, args.headSha].all isCommitSha then .error "invalid_commit_sha"
  else if ¬isSha256 args.scopeSha256 then .error "invalid_scope_sha256"
  else .ok ()

/-- The verdict of a response that may be posted. -/
def checkedVerdict (response : Text) : Except String Text :=
  if response = [] then .error "provider_response_required"
  else if maxResponseBytes < byteLength response then .error "provider_response_too_large"
  else
    match (pyEngine X.tables).verdicts response, (Coordination.bodies (Coordination.splitlines response)).getLast? with
    | [(place, verdict)], some last =>
      if (captured? verdictPattern last).isNone then .error "provider_verdict_missing_ambiguous_or_nonterminal"
      else
        match prioritySections X response place with
        | some [p0, p1, _] =>
          if verdict = "AGREE".toList ∧ ¬(p0 = noFindings ∧ p1 = noFindings) then
            .error "provider_agree_contains_p0_or_p1_findings"
          else if containsSensitivePy X response then .error "provider_response_contains_sensitive_data"
          else .ok verdict
        | _ => .error "provider_findings_sections_missing_empty_duplicate_or_out_of_order"
    | _, _ => .error "provider_verdict_missing_ambiguous_or_nonterminal"

def textJson (s : Text) : Json := .str (String.ofList s)

def evidenceJson (args : Consultation) (verdict response : Text) : Json :=
  .obj [("schema", .str "cross-ai-provider-evidence/v1"), ("provider", .str args.provider.name),
    ("requested_model", textJson args.requestedModel), ("actual_model", textJson args.actualModel),
    ("base_tip_sha", textJson (toLowerCase args.baseTipSha)), ("base_sha", textJson (toLowerCase args.baseSha)),
    ("head_sha", textJson (toLowerCase args.headSha)), ("scope_sha256", textJson (toLowerCase args.scopeSha256)),
    ("verdict", textJson verdict), ("response_sha256", textJson (X.sha256 response)), ("response", textJson response)]

/-- The evidence that the builder prints for what it reads, or the code that it fails with. -/
def buildCrossAiEvidence (args : Consultation) (stdin : Text) : Except String Text := do
  args.check
  let response := strip (Text.universalNewlines stdin)
  let verdict ← checkedVerdict X response
  let evidence := X.dumps (evidenceJson X args verdict response)
  if maxEvidenceBytes < byteLength evidence then .error "evidence_comment_too_large" else pure evidence

end Build

section Post

def isLowerSha256 (s : Text) : Bool := s.length = 64 ∧ s.all fun c => isAsciiDigit c || ('a' ≤ c ∧ c ≤ 'f')

/-- The evidence of a text and the digest of the text. -/
def validateEvidenceText (text : Text) : Except String (Json × Text) :=
  if text = [] ∨ maxEvidenceBytes < byteLength text then .error "invalid_evidence_size"
  else
    match X.loads text with
    | none => .error "invalid_evidence_json"
    | some (.obj fields) =>
      let evidence := Json.obj fields
      if ¬((fields.map (·.1)).all (· ∈ evidenceKeys) ∧ evidenceKeys.all (· ∈ fields.map (·.1))) then
        .error "invalid_evidence_schema"
      else if (evidence.get "schema").asStr? ≠ some "cross-ai-provider-evidence/v1" then .error "invalid_evidence_schema"
      else
        match (evidence.get "response").asStr?, (evidence.get "response_sha256").asStr? with
        | some response, some digest =>
          if response = "" ∨ ¬isLowerSha256 digest.toList ∨ X.sha256 response.toList ≠ digest.toList then
            .error "invalid_response_digest"
          else if containsSensitivePy X response.toList then .error "provider_response_contains_sensitive_data"
          else .ok (evidence, X.sha256 text)
        | _, _ => .error "invalid_response_digest"
    | some _ => .error "invalid_evidence_schema"

end Post

section Refusal

variable {X} {response text : Text} {args : Consultation} {fields : List (String × Json)}

/-- Only a response without sensitive data has a verdict that may be posted. -/
lemma checkedVerdict_refuses (h : containsSensitivePy X response = true) : ∃ code, checkedVerdict X response = .error code := by
  cases hchecked : checkedVerdict X response with
  | error code => exact ⟨code, rfl⟩
  | ok verdict =>
    simp only [checkedVerdict, h] at hchecked
    split_ifs at hchecked
    split at hchecked
    · split_ifs at hchecked
      split at hchecked
      · split_ifs at hchecked
      · cases hchecked
    · cases hchecked

lemma buildCrossAiEvidence_refuses (args : Consultation)
    (h : containsSensitivePy X (strip (Text.universalNewlines text)) = true) :
    ∃ code, buildCrossAiEvidence X args text = .error code := by
  obtain ⟨code, hcode⟩ := checkedVerdict_refuses h
  unfold buildCrossAiEvidence
  cases args.check with
  | error code => exact ⟨code, rfl⟩
  | ok _ => exact ⟨code, by simp only [hcode]; rfl⟩

lemma validateEvidenceText_refuses (hloads : X.loads text = some (.obj fields))
    (hresponse : (Json.obj fields).get "response" = textJson response) (h : containsSensitivePy X response = true) :
    ∃ code, validateEvidenceText X text = .error code := by
  cases hchecked : validateEvidenceText X text with
  | error code => exact ⟨code, rfl⟩
  | ok result =>
    have hasStr : (textJson response).asStr? = some (String.ofList response) := rfl
    simp only [validateEvidenceText, hloads, hresponse, hasStr] at hchecked
    split_ifs at hchecked
    split at hchecked
    · rename_i response' digest heq hdigest
      cases heq
      simp only [String.toList_ofList, h] at hchecked
      split_ifs at hchecked
    · cases hchecked

end Refusal

end PlatformGitops.PrAudit
