import PlatformGitops.CrossAi.Evidence
import PlatformGitops.CrossAi.EvidenceJson

/-! Verification of the signed evidence behind a deployment. -/

namespace PlatformGitops.CrossAi.Contract

open Library Dsse

inductive ContractVersion where
  | v1 | v2
deriving DecidableEq, Repr

namespace ContractVersion

def ofText? : String → Option ContractVersion
  | "acik.cross-ai-deployment-trust-root.v1" => some v1
  | "acik.cross-ai-deployment-trust-root.v2" => some v2
  | _ => none

def trustRootSchema : ContractVersion → Schema
  | v1 => .trustRoot
  | v2 => .trustRootV2

def bundleSchema : ContractVersion → Schema
  | v1 => .bundle
  | v2 => .bundleV2

def reviewSchema : ContractVersion → Schema
  | v1 => .review
  | v2 => .reviewV2

def bundlePayloadType : ContractVersion → String
  | v1 => "application/vnd.acik.cross-ai-deployment-bundle.v1+json"
  | v2 => "application/vnd.acik.cross-ai-deployment-bundle.v2+json"

def reviewPayloadType : ContractVersion → String
  | v1 => "application/vnd.acik.cross-ai-deployment-review.v1+json"
  | v2 => "application/vnd.acik.cross-ai-deployment-review.v2+json"

def sessionDomain : ContractVersion → String
  | v1 => "acik.cross-ai-deployment-session.v1"
  | v2 => "acik.cross-ai-deployment-session.v2"

def closureDomain : ContractVersion → String
  | v1 => "acik.cross-ai-deployment-closure.v1"
  | v2 => "acik.cross-ai-deployment-closure.v2"

/-- The one route of a provider family: its channel, its model, its identity class, and that it is direct. -/
def requiredProviderRoute (v : ContractVersion) (family : String) : Option (String × String × String × Bool) :=
  match v, family with
  | _, "anthropic" => some ("direct-anthropic-cli", "claude-opus-4-8", "provider-reported", true)
  | v1, "minimax" => some ("direct-minimax-cli", "minimax/MiniMax-M3", "provider-reported", true)
  | v1, "openai" => some ("openai-codex", "gpt-5.6-sol", "provider-reported", true)
  | v2, "openai" => some ("openai-codex", "gpt-5.6-sol", "trusted-launch-attested", true)
  | _, _ => none

end ContractVersion

def revocationsPayloadType : String := "application/vnd.acik.cross-ai-deployment-revocations.v1+json"
def runnerAdmissionLeasePayloadType : String := "application/vnd.acik.cross-ai-runner-admission-lease.v1+json"
def maxGrantTtl : Int := 120 * minute
/-- The first instant of 18 July 2026. -/
def minimaxNewReviewCutoff : Datetime := 1784332800 * second

inductive VerificationMode where
  | active | forensic
deriving DecidableEq, Repr

structure VerifiedReview where
  digest : String
  payload : Review
  key : TrustKey
  issuedAt : Datetime
  expiresAt : Datetime

structure EvidenceVerifier where
  observedAt : Datetime
  now : Datetime
  verificationMode : VerificationMode
  contractVersion : ContractVersion
  expectedPolicySha256 : Option String
  maxSkew : Int
  requiredProviderFamilies : List String
  keys : List TrustKey
  revocations : List RevocationEntry

def validateSchema (X : Externals) (instance_ : Json) (schema : Schema) (code : String) : Except Failure Unit :=
  rejectIf (X.schemaValid schema instance_ = false) code "schema validation failed"

/-- Reads a payload that its schema has admitted; a missing or ill-typed field raises. -/
def decoded {α : Type} (x : Option α) (field : String) : Except Failure α := Fallible.expect x (.keyError field)

def sameSet {α : Type} [DecidableEq α] (xs ys : List α) : Prop := (∀ x ∈ xs, x ∈ ys) ∧ ∀ y ∈ ys, y ∈ xs

instance {α : Type} [DecidableEq α] (xs ys : List α) : Decidable (sameSet xs ys) :=
  inferInstanceAs (Decidable (_ ∧ _))

section

variable (X : Externals)

def providerAttributionMissing (entry : TrustKeyEntry) : Prop :=
  entry.providerFamily.getD "" = "" ∨ entry.allowedChannels = [] ∨ entry.allowedModelIds = [] ∨
    entry.allowedModelIdentityClasses = [] ∨ entry.directProviderCli = none

instance (entry : TrustKeyEntry) : Decidable (providerAttributionMissing entry) :=
  inferInstanceAs (Decidable (_ ∨ _))

def providerRoute? (entry : TrustKeyEntry) : Option (String × String × String × Bool) := do
  pure (← entry.allowedChannels.head?, ← entry.allowedModelIds.head?,
    ← entry.allowedModelIdentityClasses.head?, ← entry.directProviderCli)

def parseTrustKey (version : ContractVersion) (parsed : List TrustKey) (entry : TrustKeyEntry) :
    Except Failure (List TrustKey) := do
  let keyId := entry.keyId
  rejectIf (keyId ∈ parsed.map (·.keyId)) "TRUST_KEY_DUPLICATE" ("duplicate key ID " ++ keyId)
  let publicKey ← decodePublicKey X entry.publicKeyBase64 keyId
  rejectIf (publicKey ∈ parsed.map (·.publicKey)) "TRUST_KEY_REUSED"
    "one Ed25519 key must not serve two trust entries"
  if entry.role = .providerReview then
    rejectIf (providerAttributionMissing entry) "TRUST_KEY_ATTRIBUTION_INVALID"
      ("provider key " ++ keyId ++ " lacks fixed family/channel/direct attribution")
    let expectedRoute := version.requiredProviderRoute (entry.providerFamily.getD "")
    rejectIf (expectedRoute = none ∨ providerRoute? entry ≠ expectedRoute) "TRUST_PROVIDER_ROUTE_INVALID"
      ("provider key " ++ keyId ++ " differs from the canonical direct route")
  else
    rejectIf (entry.providerFamily ≠ none ∨ entry.allowedChannels ≠ [] ∨ entry.allowedModelIds ≠ [] ∨
      entry.allowedModelIdentityClasses ≠ [] ∨ entry.directProviderCli ≠ none) "TRUST_KEY_ATTRIBUTION_INVALID"
      ("non-provider key " ++ keyId ++ " must not carry provider attribution")
  let notBefore ← parseUtc X entry.notBefore ("keys[" ++ keyId ++ "].notBefore")
  let notAfter ← parseUtc X entry.notAfter ("keys[" ++ keyId ++ "].notAfter")
  rejectIf (notAfter ≤ notBefore) "TRUST_KEY_LIFETIME_INVALID" ("key " ++ keyId ++ " lifetime is invalid")
  pure (parsed ++ [⟨keyId, entry.role, publicKey, entry.providerFamily, entry.allowedChannels,
    entry.allowedModelIds, entry.allowedModelIdentityClasses, entry.directProviderCli, notBefore, notAfter⟩])

def parseTrustKeys (version : ContractVersion) (root : TrustRoot) : Except Failure (List TrustKey) := do
  let parsed ← root.keys.foldlM (parseTrustKey X version) []
  rejectIf (∃ role ∈ [KeyRole.providerReview, .coordinator, .revocation, .runnerManagement],
    role ∉ parsed.map (·.role)) "TRUST_ROLE_MISSING"
    "provider, coordinator, revocation and runner-management keys are required"
  let families := (parsed.filter (·.role = .providerReview)).map (·.providerFamily)
  rejectIf (¬ sameSet families (root.requiredProviderFamilies.map some)) "TRUST_PROVIDER_SET_INVALID"
    "trust root provider families differ from the required signed set"
  pure parsed

def KeyRole.text : KeyRole → String
  | .providerReview => "provider-review"
  | .coordinator => "coordinator"
  | .revocation => "revocation"
  | .runnerManagement => "runner-management"

namespace EvidenceVerifier

variable (V : EvidenceVerifier)

def validateTrustRootLifetime (root : TrustRoot) : Except Failure Unit := do
  let issuedAt ← parseUtc X root.issuedAt "trustRoot.issuedAt"
  let expiresAt ← parseUtc X root.expiresAt "trustRoot.expiresAt"
  rejectIf (issuedAt > V.now + V.maxSkew) "TRUST_ROOT_NOT_YET_VALID" "trust root issue time is in the future"
  rejectIf (expiresAt < V.now - V.maxSkew) "TRUST_ROOT_EXPIRED" "trust root is expired"
  rejectIf (expiresAt ≤ issuedAt) "TRUST_ROOT_LIFETIME_INVALID" "trust root lifetime is invalid"

def activeKeys (role : KeyRole) : Except Failure (List (String × List UInt8)) := do
  let active := V.keys.filter fun key =>
    key.role = role ∧ key.notBefore ≤ V.now + V.maxSkew ∧ V.now - V.maxSkew ≤ key.notAfter
  rejectIf (active.isEmpty) "TRUST_ACTIVE_KEY_MISSING" ("no active " ++ KeyRole.text role ++ " key is available")
  pure (active.map fun key => (key.keyId, key.publicKey))

/-- The trust key of the first signer of an envelope. -/
def signer (envelope : VerifiedEnvelope) : Except Failure TrustKey :=
  decoded (envelope.signingKeyIds.head?.bind fun id => V.keys.find? (·.keyId = id)) "keys"

def isRevoked (kind identifier : String) : Except Failure Bool :=
  match V.revocations.find? (fun entry => entry.type = kind ∧ entry.id = identifier) with
  | some entry => do
    let _ ← parseUtc X entry.effectiveAt "revocation.effectiveAt"
    pure true
  | none => pure false

def rejectRevoked (kind identifier code message : String) : Except Failure Unit := do
  let revoked ← V.isRevoked X kind identifier
  rejectIf (revoked = true) code message

def validateKeyTime (key : TrustKey) (issuedAt : Datetime) (label : String) (checkRevocation : Bool) :
    Except Failure Unit := do
  rejectIf (issuedAt < key.notBefore - V.maxSkew) "SIGNING_KEY_NOT_YET_VALID" (label ++ " predates key validity")
  rejectIf (issuedAt > key.notAfter + V.maxSkew) "SIGNING_KEY_EXPIRED" (label ++ " was issued after key expiry")
  if checkRevocation then
    V.rejectRevoked X "key" key.keyId "SIGNING_KEY_REVOKED" ("key " ++ key.keyId ++ " is revoked")

def verifyRevocations (envelope : Json) : Except Failure (List RevocationEntry) := do
  let verified ← verifyJsonEnvelope X envelope revocationsPayloadType (← V.activeKeys .revocation) [] true
  validateSchema X verified.payload .revocations "REVOCATIONS_SCHEMA_INVALID"
  let payload ← decoded (revocationsOfJson? verified.payload) "revocations"
  let issuedAt ← parseUtc X payload.issuedAt "revocations.issuedAt"
  let nextUpdate ← parseUtc X payload.nextUpdate "revocations.nextUpdate"
  rejectIf (issuedAt > V.now + V.maxSkew) "REVOCATIONS_NOT_YET_VALID" "revocation set issue time is in the future"
  rejectIf (nextUpdate < V.now - V.maxSkew) "REVOCATIONS_STALE" "revocation set nextUpdate is stale"
  rejectIf (nextUpdate ≤ issuedAt) "REVOCATIONS_LIFETIME_INVALID" "revocation set lifetime is invalid"
  let signer ← V.signer verified
  V.validateKeyTime X signer issuedAt "revocation" false
  pure payload.entries

def pinTrustRoot (trustRoot : Json) : Option String → Except Failure Unit
  | none => pure ()
  | some expected => do
    let digest ← sha256Digest X trustRoot
    rejectIf (digest ≠ expected) "TRUST_ROOT_DIGEST_MISMATCH"
      "trust root differs from the deployment-configured digest"

/-- The construction of a verifier from a trust root and a signed revocation set. -/
def init (trustRoot revocationsEnvelope : Json) (observedAt : Datetime)
    (expectedPolicySha256 expectedTrustRootSha256 : Option String) (mode : VerificationMode)
    (forensicReferenceTime : Option Datetime) : Except Failure EvidenceVerifier := do
  rejectIf (mode = .active ∧ forensicReferenceTime ≠ none) "FORENSIC_REFERENCE_INVALID"
    "active verification cannot use a forensic reference time"
  rejectIf (mode = .forensic ∧ forensicReferenceTime = none) "FORENSIC_REFERENCE_REQUIRED"
    "forensic verification requires an explicit historical time"
  rejectIf (∃ t ∈ forensicReferenceTime, observedAt < t) "FORENSIC_REFERENCE_INVALID"
    "forensic reference time cannot be in the future"
  let now := forensicReferenceTime.getD observedAt
  let version ← expect ((trustRoot.get "schemaVersion").asStr?.bind ContractVersion.ofText?)
    "TRUST_ROOT_SCHEMA_INVALID" "trust root contract version is unsupported"
  rejectIf (mode = .forensic ∧ version ≠ .v1) "FORENSIC_CONTRACT_INVALID"
    "forensic replay is reserved for the retired v1 contract"
  rejectIf (mode = .forensic ∧ minimaxNewReviewCutoff ≤ now) "FORENSIC_REFERENCE_INVALID"
    "v1 forensic reference time must predate the retirement cutoff"
  pinTrustRoot X trustRoot expectedTrustRootSha256
  validateSchema X trustRoot version.trustRootSchema "TRUST_ROOT_SCHEMA_INVALID"
  let root ← decoded (trustRootOfJson? trustRoot) "trustRoot"
  let minimax := version = .v1 ∧ "minimax" ∈ root.requiredProviderFamilies
  rejectIf (minimax ∧ mode = .active ∧ minimaxNewReviewCutoff ≤ observedAt) "MINIMAX_PROVIDER_DEPRECATED"
    "active verification cannot use a MiniMax-bearing v1 trust root after the cutoff"
  let expiresAt ← parseUtc X root.expiresAt "trustRoot.expiresAt"
  rejectIf (minimax ∧ minimaxNewReviewCutoff < expiresAt) "MINIMAX_TRUST_ROOT_DEPRECATED"
    "MiniMax trust roots may not remain valid after the forward-policy cutoff"
  let keys ← parseTrustKeys X version root
  let verifier : EvidenceVerifier := ⟨observedAt, now, mode, version, expectedPolicySha256,
    root.maxClockSkewSeconds * second, root.requiredProviderFamilies, keys, []⟩
  verifier.validateTrustRootLifetime X root
  let revocations ← verifier.verifyRevocations X revocationsEnvelope
  pure { verifier with revocations }

def subjectDigest (bundle : Bundle) : Except Failure String :=
  sha256Digest X (.obj [("subject", bundle.subject.json), ("workflowStages", bundle.workflowStagesJson),
    ("grant", bundle.grant.json)])

def verifySubjectAndGrant (bundle : Bundle) : Except Failure Unit := do
  let subject := bundle.subject
  let grant := bundle.grant
  let notBefore ← parseUtc X grant.notBefore "grant.notBefore"
  let expiresAt ← parseUtc X grant.expiresAt "grant.expiresAt"
  rejectIf (expiresAt ≤ notBefore) "GRANT_LIFETIME_INVALID" "grant expiresAt must follow notBefore"
  rejectIf (expiresAt - notBefore > maxGrantTtl) "GRANT_TTL_EXCEEDED" "grant exceeds the 120 minute v1 maximum"
  rejectIf (notBefore > V.now + V.maxSkew) "GRANT_NOT_YET_VALID" "grant is not yet valid"
  rejectIf (expiresAt < V.now - V.maxSkew) "GRANT_EXPIRED" "grant is expired"
  rejectIf (∃ expected ∈ V.expectedPolicySha256, expected ≠ "" ∧ subject.policySha256 ≠ expected)
    "POLICY_DIGEST_MISMATCH" "subject policy digest does not match pinned policy"
  rejectIf (subject.intentRef ≠ "refs/tags/cross-ai-intent/" ++ grant.requestId) "INTENT_REF_MISMATCH"
    "intent ref is not bound to requestId"
  let expectedSession ← sha256Digest X (.obj [("domain", .str V.contractVersion.sessionDomain),
    ("requestId", .str grant.requestId), ("deploymentSessionId", .str grant.deploymentSessionId),
    ("repositoryId", .int subject.repositoryId), ("environment", .str subject.environment),
    ("headSha", .str subject.headSha), ("intentRef", .str subject.intentRef),
    ("bootstrapCredentialSha256", .str subject.bootstrapCredentialSha256),
    ("endpointIdSha256", .str subject.endpointIdSha256), ("operatorIdSha256", .str subject.operatorIdSha256)])
  rejectIf (subject.sessionSha256 ≠ expectedSession) "SESSION_BINDING_MISMATCH"
    "sessionSha256 does not match canonical session"
  let stages := bundle.workflowStages
  rejectIf (stages.map (·.stage) ≠ ["apply", "browser-evidence", "compensating-rollback"])
    "STAGE_SEQUENCE_INVALID" "v1 stage order is not canonical"
  rejectIf (stages.map (·.order) ≠ [1, 2, 3]) "STAGE_SEQUENCE_INVALID" "v1 stage order numbers are invalid"
  rejectIf ((stages[0]?.bind (·.dependsOn)).getD [] ≠ []) "STAGE_SEQUENCE_INVALID"
    "apply must not depend on another stage"
  rejectIf (stages[1]?.bind (·.dependsOn) ≠ some ["apply"]) "STAGE_SEQUENCE_INVALID"
    "browser-evidence must depend on apply"
  rejectIf (stages[2]?.bind (·.dependsOnFailure) ≠ some ["apply"]) "STAGE_SEQUENCE_INVALID"
    "rollback must be failure-bound to apply"

def leaseBindingDiffers (payload : Json) (bundle : Bundle) : Prop :=
  (payload.get "requestId").asStr? ≠ some bundle.grant.requestId ∨
  (payload.get "repositoryId").asInt? ≠ some bundle.subject.repositoryId ∨
  (payload.get "repository").asStr? ≠ some bundle.subject.repository ∨
  (payload.get "environment").asStr? ≠ some bundle.subject.environment ∨
  (payload.get "headSha").asStr? ≠ some bundle.subject.headSha ∨
  (payload.get "intentRef").asStr? ≠ some bundle.subject.intentRef ∨
  (payload.get "runnerPolicySha256").asStr? ≠ some bundle.subject.runnerPolicySha256

instance (payload : Json) (bundle : Bundle) : Decidable (leaseBindingDiffers payload bundle) :=
  inferInstanceAs (Decidable (_ ∨ _))

def verifyRunnerAdmissionLease (bundle : Bundle) : Except Failure VerifiedRunnerAdmissionLease := do
  let verified ← verifyJsonEnvelope X bundle.runnerAdmissionLeaseEnvelope runnerAdmissionLeasePayloadType
    (← V.activeKeys .runnerManagement) [] true
  validateSchema X verified.payload .runnerAdmissionLease "RUNNER_ADMISSION_LEASE_SCHEMA_INVALID"
  let payload ← decoded (leaseOfJson? verified.payload) "lease"
  rejectIf (verified.envelopeDigest ≠ bundle.subject.runnerAdmissionLeaseSha256)
    "RUNNER_ADMISSION_LEASE_DIGEST_MISMATCH" "runner admission lease differs from the signed subject"
  rejectIf (leaseBindingDiffers verified.payload bundle) "RUNNER_ADMISSION_LEASE_BINDING_MISMATCH"
    "runner admission lease differs from deployment subject"
  let issuedAt ← parseUtc X payload.issuedAt "runnerLease.issuedAt"
  let expiresAt ← parseUtc X payload.expiresAt "runnerLease.expiresAt"
  let grantStart ← parseUtc X bundle.grant.notBefore "grant.notBefore"
  let grantEnd ← parseUtc X bundle.grant.expiresAt "grant.expiresAt"
  rejectIf (issuedAt > V.now + V.maxSkew ∨ expiresAt < V.now - V.maxSkew ∨ expiresAt ≤ issuedAt ∨
    issuedAt < grantStart - V.maxSkew ∨ expiresAt < grantEnd) "RUNNER_ADMISSION_LEASE_LIFETIME_INVALID"
    "runner admission lease does not cover the signed grant"
  rejectIf (¬ (payload.eligibleRunners.map (·.runnerId)).Nodup ∨
    ¬ (payload.eligibleRunners.map (·.runnerNameSha256)).Nodup) "RUNNER_ADMISSION_LEASE_AMBIGUOUS"
    "runner admission lease contains duplicate identities"
  let key ← V.signer verified
  V.validateKeyTime X key issuedAt "runner admission lease" true
  V.rejectRevoked X "runner-lease" payload.leaseId "EVIDENCE_REVOKED" "runner admission lease is revoked"
  pure ⟨verified.envelopeDigest, verified, payload, key, issuedAt, expiresAt⟩

def attributionDiffers (leaf : Review) (key : TrustKey) : Prop :=
  some leaf.providerFamily ≠ key.providerFamily ∨ leaf.channel ∉ key.allowedChannels ∨
    leaf.modelId ∉ key.allowedModelIds ∨ some leaf.directProviderCli ≠ key.directProviderCli ∨
    leaf.modelIdentityClass ∉ key.allowedModelIdentityClasses ∨
    leaf.issuer ≠ "cross-ai-issuer-" ++ key.providerFamily.getD "None"

instance (leaf : Review) (key : TrustKey) : Decidable (attributionDiffers leaf key) :=
  inferInstanceAs (Decidable (_ ∨ _))

def verifyReview (providerKeys : List (String × List UInt8)) (subjectDigest : String)
    (verified : List VerifiedReview) (envelope : Json) : Except Failure (List VerifiedReview) := do
  let leafEnvelope ← verifyJsonEnvelope X envelope V.contractVersion.reviewPayloadType providerKeys [] true
  validateSchema X leafEnvelope.payload V.contractVersion.reviewSchema "REVIEW_SCHEMA_INVALID"
  let leaf ← decoded (Review.ofJson? leafEnvelope.payload) "review"
  rejectIf (some leaf.keyId ≠ leafEnvelope.signingKeyIds.head?) "PROVIDER_ATTRIBUTION_MISMATCH"
    "leaf keyId differs from DSSE signer"
  let key ← V.signer leafEnvelope
  rejectIf (attributionDiffers leaf key) "PROVIDER_ATTRIBUTION_MISMATCH"
    "leaf provider/channel/direct attribution differs from trust root"
  rejectIf (leaf.subjectSha256 ≠ subjectDigest) "REVIEW_SUBJECT_MISMATCH"
    "review does not bind the bundle subject"
  let issuedAt ← parseUtc X leaf.issuedAt "review.issuedAt"
  let expiresAt ← parseUtc X leaf.expiresAt "review.expiresAt"
  let minimax := V.contractVersion = .v1 ∧ leaf.providerFamily = "minimax"
  rejectIf (minimax ∧ V.verificationMode = .active ∧ minimaxNewReviewCutoff ≤ V.observedAt)
    "MINIMAX_PROVIDER_DEPRECATED" "active verification cannot accept MiniMax review leaves after the cutoff"
  rejectIf (minimax ∧ minimaxNewReviewCutoff ≤ issuedAt) "MINIMAX_REVIEW_DEPRECATED"
    "MiniMax reviews issued on or after the forward-policy cutoff are forbidden"
  rejectIf (issuedAt > V.now + V.maxSkew) "REVIEW_NOT_YET_VALID" "review issue time is in the future"
  rejectIf (expiresAt < V.now - V.maxSkew) "REVIEW_EXPIRED" "review is expired"
  rejectIf (expiresAt ≤ issuedAt) "REVIEW_LIFETIME_INVALID" "review lifetime is invalid"
  V.validateKeyTime X key issuedAt "review" true
  rejectIf (leaf.reviewId ∈ verified.map (·.payload.reviewId)) "REVIEW_ID_DUPLICATE" "reviewId must be unique"
  let digest := leafEnvelope.envelopeDigest
  rejectIf (digest ∈ verified.map (·.digest)) "REVIEW_DUPLICATE" "review envelope digest must be unique"
  V.rejectRevoked X "review" digest "REVIEW_REVOKED" "review envelope is revoked"
  pure (verified ++ [⟨digest, leaf, key, issuedAt, expiresAt⟩])

end EvidenceVerifier

end

end PlatformGitops.CrossAi.Contract
