import PlatformGitops.CrossAi.Canonical

/-! The signed evidence a deployment intent is built from, as the schemas shape it. -/

namespace PlatformGitops.CrossAi

open Library

inductive Stage where
  | apply
  | browserEvidence
  | compensatingRollback
  | other (name : String)
deriving DecidableEq, Repr

namespace Stage

def text : Stage → String
  | apply => "apply"
  | browserEvidence => "browser-evidence"
  | compensatingRollback => "compensating-rollback"
  | other name => name

def ofText (s : String) : Stage :=
  if s = "apply" then apply
  else if s = "browser-evidence" then browserEvidence
  else if s = "compensating-rollback" then compensatingRollback
  else other s

/-- The names that the stage column admits. -/
def Known : Stage → Prop
  | other _ => False
  | _ => True

instance (s : Stage) : Decidable s.Known := by
  cases s <;> simp only [Known] <;> infer_instance

end Stage

/-- A signed subject. The digests are taken over its whole JSON object. -/
structure Subject where
  json : Json
  repositoryId : Int
  repository : String
  headSha : String
  intentRef : String
  environment : String
  deploymentClass : String
  policySha256 : String
  artifactSetSha256 : String
  rollbackPlanSha256 : String
  postDeployVerifierSha256 : String
  runnerPolicySha256 : String
  runnerAdmissionLeaseSha256 : String
  bootstrapCredentialSha256 : String
  sessionSha256 : String
  endpointIdSha256 : String
  operatorIdSha256 : String

structure Grant where
  json : Json
  requestId : String
  deploymentSessionId : String
  notBefore : Json
  expiresAt : Json
  registrationPrincipal : String
  triggeringActorId : Int
  stageNonceSha256 : List (String × String)

structure WorkflowStage where
  stage : String
  order : Int
  workflowPath : String
  workflowBlobSha256 : String
  dependencyLockSha256 : String
  concurrencyGroupSha256 : String
  runsOnLabels : List String
  hasRunnerGroup : Bool
  dependsOn : Option (List String)
  dependsOnFailure : Option (List String)
deriving DecidableEq

structure ClosureEntry where
  findingId : String
  raisedByReviewSha256 : String
  fixSha256 : String
  acknowledgedByReviewSha256 : String
deriving DecidableEq

structure Bundle where
  bundleId : String
  subject : Subject
  workflowStages : List WorkflowStage
  workflowStagesJson : Json
  runnerAdmissionLeaseEnvelope : Json
  reviewEnvelopes : List Json
  closureEntries : List ClosureEntry
  closureRootSha256 : String
  consensusProviderFamilies : List String
  consensusFinalAgreeReviewSha256 : List String
  consensusClosureRootSha256 : String
  grant : Grant

inductive KeyRole where
  | providerReview | coordinator | revocation | runnerManagement
deriving DecidableEq, Repr

structure TrustKey where
  keyId : String
  role : KeyRole
  publicKey : List UInt8
  providerFamily : Option String
  allowedChannels : List String
  allowedModelIds : List String
  allowedModelIdentityClasses : List String
  directProviderCli : Option Bool
  notBefore : Datetime
  notAfter : Datetime

structure VerifiedEnvelope where
  payloadType : String
  payload : Json
  payloadBytes : List UInt8
  envelopeDigest : String
  signingKeyIds : List String

structure EligibleRunner where
  runnerId : Int
  runnerNameSha256 : String
  labels : List String
deriving DecidableEq

structure LeasePayload where
  leaseId : String
  inventoryGenerationSha256 : String
  issuedAt : Json
  expiresAt : Json
  eligibleRunners : List EligibleRunner

structure VerifiedRunnerAdmissionLease where
  digest : String
  envelope : VerifiedEnvelope
  payload : LeasePayload
  key : TrustKey
  issuedAt : Datetime
  expiresAt : Datetime

structure VerifiedBundle where
  bundleId : String
  bundleDigest : String
  subjectDigest : String
  requestId : String
  sessionDigest : String
  expiresAt : Datetime
  providerFamilies : List String
  providerIdentityClasses : List (String × String)
  finalReviewDigests : List String
  coordinatorKeyId : String
  runnerAdmissionLease : VerifiedRunnerAdmissionLease
  payload : Bundle

end PlatformGitops.CrossAi

/-! Verification of signed JSON envelopes. -/

namespace PlatformGitops.CrossAi.Dsse

open Library

def strictB64 (X : Externals) (value : Json) (field : String) : Except Failure (List UInt8) :=
  match value with
  | .str s => expect (X.b64decode s) "DSSE_BASE64_INVALID" (field ++ " is not canonical Base64")
  | _ => reject "DSSE_BASE64_INVALID" (field ++ " must be Base64 text")

def pae (payloadType : String) (payload : List UInt8) : Except Failure (List UInt8) := do
  rejectIf (payloadType = "" ∨ payloadType.toList.any (0x7F < ·.toNat)) "DSSE_PAYLOAD_TYPE_INVALID"
    "payloadType must be non-empty ASCII"
  pure (utf8 "DSSEv1 " ++ utf8 (toString (utf8 payloadType).length) ++ utf8 " " ++ utf8 payloadType ++
    utf8 " " ++ utf8 (toString payload.length) ++ utf8 " " ++ payload)

def decodePublicKey (X : Externals) (value : Json) (keyId : String) : Except Failure (List UInt8) := do
  let raw ← strictB64 X value ("trustRoot.keys[" ++ keyId ++ "].publicKeyBase64")
  rejectIf (raw.length ≠ 32) "TRUST_KEY_INVALID" (keyId ++ " must be a raw 32-byte Ed25519 key")
  pure raw

/-- The value is an object whose keys are these ones. -/
def hasFields (value : Json) (names : List String) : Prop :=
  ∃ fields ∈ value.asObj?, (∀ f ∈ fields, f.1 ∈ names) ∧ ∀ n ∈ names, n ∈ fields.map (·.1)

instance (value : Json) (names : List String) : Decidable (hasFields value names) :=
  match h : value.asObj? with
  | none => .isFalse fun ⟨_, hf, _⟩ => by simp [h] at hf
  | some fields =>
    decidable_of_iff ((∀ f ∈ fields, f.1 ∈ names) ∧ ∀ n ∈ names, n ∈ fields.map (·.1))
      (by simp [hasFields, h])

def verifySignature (X : Externals) (allowedKeys : List (String × List UInt8)) (message : List UInt8)
    (seen : List String) (entry : Json × Nat) : Except Failure (List String) := do
  let field := "signatures[" ++ toString entry.2 ++ "]"
  rejectIf (¬ hasFields entry.1 ["keyid", "sig"]) "DSSE_SIGNATURE_INVALID" (field ++ " has invalid fields")
  let keyId ← expect (entry.1.get "keyid").asStr? "DSSE_SIGNATURE_INVALID" (field ++ ".keyid is invalid")
  rejectIf (keyId ∈ seen) "DSSE_SIGNATURE_INVALID" (field ++ ".keyid is invalid")
  let publicKey ← expect (allowedKeys.lookup keyId) "DSSE_KEY_NOT_ALLOWED"
    ("signature key " ++ keyId ++ " is not allowlisted")
  let signature ← strictB64 X (entry.1.get "sig") (field ++ ".sig")
  rejectIf (signature.length ≠ 64) "DSSE_SIGNATURE_INVALID"
    ("signature for " ++ keyId ++ " has invalid length")
  rejectIf (X.ed25519Verify publicKey signature message = false) "DSSE_SIGNATURE_INVALID"
    ("signature verification failed for " ++ keyId)
  pure (seen ++ [keyId])

def verifyJsonEnvelope (X : Externals) (envelope : Json) (expectedPayloadType : String)
    (allowedKeys : List (String × List UInt8)) (requiredKeyIds : List String) (exactlyOneSignature : Bool) :
    Except Failure VerifiedEnvelope := do
  rejectIf (envelope.asObj?.isNone) "DSSE_SCHEMA_INVALID" "DSSE envelope must be an object"
  rejectIf (¬ hasFields envelope ["payloadType", "payload", "signatures"]) "DSSE_SCHEMA_INVALID"
    "DSSE envelope has missing or unknown fields"
  rejectIf ((envelope.get "payloadType").asStr? ≠ some expectedPayloadType) "DSSE_PAYLOAD_TYPE_MISMATCH"
    "unexpected DSSE payloadType"
  let payloadBytes ← strictB64 X (envelope.get "payload") "payload"
  let payload ← expect (X.jsonLoads payloadBytes) "DSSE_PAYLOAD_INVALID"
    "DSSE payload must be a UTF-8 JSON object"
  rejectIf (payload.asObj?.isNone) "DSSE_PAYLOAD_INVALID" "DSSE payload must be a JSON object"
  let canonical ← canonicalBytes payload
  rejectIf (payloadBytes ≠ canonical) "DSSE_PAYLOAD_NON_CANONICAL" "DSSE payload bytes are not canonical JCS"
  let signatures ← expect (envelope.get "signatures").asList? "DSSE_SIGNATURE_MISSING"
    "at least one DSSE signature is required"
  rejectIf (signatures.isEmpty) "DSSE_SIGNATURE_MISSING" "at least one DSSE signature is required"
  rejectIf (exactlyOneSignature ∧ signatures.length ≠ 1) "DSSE_SIGNATURE_COUNT"
    "exactly one DSSE signature is required"
  let message ← pae expectedPayloadType payloadBytes
  let seen ← signatures.zipIdx.foldlM (verifySignature X allowedKeys message) []
  rejectIf (∃ id ∈ requiredKeyIds, id ∉ seen) "DSSE_REQUIRED_SIGNER_MISSING" "required DSSE signer is missing"
  let envelopeDigest ← sha256Digest X envelope
  pure ⟨expectedPayloadType, payload, payloadBytes, envelopeDigest, seen.insertionSort (· ≤ ·)⟩

end PlatformGitops.CrossAi.Dsse
