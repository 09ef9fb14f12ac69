import PlatformGitops.CrossAi.Contract

/-! Review chains, the closure of findings, the provider consensus, and the verification of a whole bundle. -/

namespace PlatformGitops.CrossAi.Contract

open Library Dsse

section

variable (reviews : List VerifiedReview)

def review? (digest : String) : Option VerifiedReview := reviews.find? (·.digest = digest)

/-- The reviews that list a finding under one of the three transitions, and all findings listed there. -/
def occurrences (ids : Review → List String) (findingId : String) : List VerifiedReview :=
  reviews.filter fun review => findingId ∈ ids review.payload

def findings (ids : Review → List String) : List String := reviews.flatMap fun review => ids review.payload

def chainIds : List String := (reviews.map (·.payload.reviewChainId)).eraseDups

def chain (chainId : String) : List VerifiedReview := reviews.filter (·.payload.reviewChainId = chainId)

def orderedChain (chainId : String) : List VerifiedReview :=
  (chain reviews chainId).insertionSort fun a b => a.payload.round ≤ b.payload.round

def verifyTransitions (review : VerifiedReview) : Except Failure Unit := do
  let leaf := review.payload
  rejectIf (leaf.verdict = .agree ∧
    (leaf.findingIds ≠ [] ∨ leaf.resolvedFindingIds ≠ [] ∨ leaf.acknowledgedFindingIds ≠ []))
    "REVIEW_AGREE_FINDINGS_INVALID" "AGREE review must not carry finding state transitions"
  rejectIf ((leaf.verdict = .revise ∨ leaf.verdict = .red) ∧ leaf.findingIds = [])
    "REVIEW_DISSENT_FINDINGS_REQUIRED" "REVISE and RED reviews must raise at least one finding"
  rejectIf (leaf.verdict = .partial_ ∧
    ¬ (leaf.findingIds ≠ [] ∨ leaf.resolvedFindingIds ≠ [] ∨ leaf.acknowledgedFindingIds ≠ []))
    "REVIEW_PARTIAL_TRANSITION_REQUIRED" "PARTIAL review must carry a finding state transition"
  rejectIf (∃ id ∈ leaf.findingIds, id ∈ leaf.resolvedFindingIds ∨ id ∈ leaf.acknowledgedFindingIds)
    "REVIEW_FINDING_STATE_INVALID" "a review cannot raise and close the same finding"
  rejectIf (∃ id ∈ leaf.acknowledgedFindingIds, id ∉ leaf.resolvedFindingIds)
    "REVIEW_FINDING_STATE_INVALID" "acknowledged findings must be resolved in the same review"

def acknowledgementDiffers (raised acknowledged : VerifiedReview) : Prop :=
  raised.key.providerFamily ≠ acknowledged.key.providerFamily ∨ acknowledged.issuedAt ≤ raised.issuedAt

instance (raised acknowledged : VerifiedReview) : Decidable (acknowledgementDiffers raised acknowledged) :=
  inferInstanceAs (Decidable (_ ∨ _))

def verifyChain (chainId : String) : Except Failure Unit := do
  let ordered := orderedChain reviews chainId
  rejectIf ((ordered.map (·.key.providerFamily)).dedup.length ≠ 1) "REVIEW_CHAIN_PROVIDER_MISMATCH"
    ("chain " ++ chainId ++ " crosses providers")
  rejectIf (ordered.map (·.payload.round) ≠ (List.range ordered.length).map fun (i : ℕ) => (i : Int) + 1)
    "REVIEW_CHAIN_GAP" ("chain " ++ chainId ++ " rounds are not contiguous")
  rejectIf (ordered.head?.bind (·.payload.previousRoundSha256) ≠ none) "REVIEW_CHAIN_INVALID"
    ("chain " ++ chainId ++ " first round has a predecessor")
  rejectIf (∃ link ∈ ordered.zip ordered.tail, link.2.payload.previousRoundSha256 ≠ some link.1.digest)
    "REVIEW_CHAIN_INVALID" ("chain " ++ chainId ++ " predecessor mismatch")

def verifyReviewChains : Except Failure Unit := do
  reviews.forM verifyTransitions
  let raised := occurrences reviews Review.findingIds
  let resolved := occurrences reviews Review.resolvedFindingIds
  let acknowledged := occurrences reviews Review.acknowledgedFindingIds
  rejectIf (∃ id ∈ findings reviews Review.findingIds, (raised id).length ≠ 1) "REVIEW_FINDING_REUSED"
    "finding IDs must identify exactly one raise event in the bundle"
  rejectIf (∃ id ∈ findings reviews Review.resolvedFindingIds ++ findings reviews Review.acknowledgedFindingIds,
    id ∉ findings reviews Review.findingIds) "REVIEW_FINDING_REFERENCE_INVALID"
    "resolved or acknowledged finding has no raise event"
  rejectIf (∃ id ∈ findings reviews Review.resolvedFindingIds, (resolved id).length ≠ 1)
    "REVIEW_FINDING_STATE_INVALID" "finding IDs must identify exactly one resolve event"
  rejectIf (∃ id ∈ findings reviews Review.acknowledgedFindingIds, (acknowledged id).length ≠ 1)
    "REVIEW_FINDING_STATE_INVALID" "finding IDs must identify exactly one acknowledgement event"
  rejectIf (∃ id ∈ findings reviews Review.acknowledgedFindingIds, ∃ r ∈ (raised id).head?,
    ∃ a ∈ (acknowledged id).head?, acknowledgementDiffers r a) "REVIEW_FINDING_REFERENCE_INVALID"
    "finding acknowledgement must follow its same-provider raise event"
  (chainIds reviews).forM (verifyChain reviews)

def verifyClosureEntry (findingIds : List String) (entry : ClosureEntry) : Except Failure (List String) := do
  let findingId := entry.findingId
  rejectIf (findingId ∈ findingIds) "CLOSURE_DUPLICATE_FINDING" "closure finding IDs must be unique"
  let raised ← expect (review? reviews entry.raisedByReviewSha256) "CLOSURE_REVIEW_MISSING"
    "closure references an unknown review"
  let acknowledged ← expect (review? reviews entry.acknowledgedByReviewSha256) "CLOSURE_REVIEW_MISSING"
    "closure references an unknown review"
  rejectIf (raised.payload.verdict = .agree ∨ findingId ∉ raised.payload.findingIds) "CLOSURE_RAISE_INVALID"
    "finding is not raised by a non-AGREE review"
  rejectIf (raised.key.providerFamily ≠ acknowledged.key.providerFamily) "CLOSURE_ACK_PROVIDER_MISMATCH"
    "raiser provider must acknowledge fix"
  rejectIf (findingId ∉ acknowledged.payload.resolvedFindingIds ∨
    findingId ∉ acknowledged.payload.acknowledgedFindingIds) "CLOSURE_ACK_MISSING"
    "fix lacks provider acknowledgement"
  rejectIf (acknowledged.issuedAt ≤ raised.issuedAt) "CLOSURE_ACK_ORDER_INVALID"
    "acknowledgement must follow finding"
  pure (findingIds ++ [findingId])

def closureProjection (entry : ClosureEntry) : Json :=
  .obj [("findingId", .str entry.findingId), ("raisedByReviewSha256", .str entry.raisedByReviewSha256),
    ("fixSha256", .str entry.fixSha256), ("acknowledgedByReviewSha256", .str entry.acknowledgedByReviewSha256)]

def closureRoot (X : Externals) (domain subjectDigest : String) (entries : List ClosureEntry) :
    Except Failure String :=
  sha256Digest X (.obj [("domain", .str domain), ("subjectSha256", .str subjectDigest),
    ("entries", .list ((entries.insertionSort fun a b => a.findingId ≤ b.findingId).map closureProjection))])

/-- The round that the code takes for the last of a chain: the first among those of the largest number. -/
def chainTip (chainId : String) : Option VerifiedReview :=
  (chain reviews chainId).foldl (fun current review =>
    match current with
    | none => some review
    | some tip => if tip.payload.round < review.payload.round then some review else some tip) none

def chainTips : List VerifiedReview := (chainIds reviews).filterMap (chainTip reviews)

def countedReview (subjectDigest closureRoot digest : String) : Except Failure VerifiedReview := do
  let review ← expect (review? reviews digest) "CONSENSUS_REVIEW_MISSING" "consensus references unknown review"
  rejectIf ((chainTip reviews review.payload.reviewChainId).map (·.digest) ≠ some digest)
    "CONSENSUS_NOT_CHAIN_TIP" "counted review is not its chain tip"
  rejectIf (review.payload.verdict ≠ .agree) "CONSENSUS_VERDICT_INVALID" "counted final verdict must be AGREE"
  rejectIf (review.payload.subjectSha256 ≠ subjectDigest) "CONSENSUS_SUBJECT_MISMATCH"
    "counted review subject differs"
  rejectIf (review.payload.closureRootSha256 ≠ closureRoot) "CONSENSUS_CLOSURE_MISMATCH"
    "counted AGREE has old closure root"
  pure review

end

namespace EvidenceVerifier

variable (X : Externals) (V : EvidenceVerifier)

def verifyReviews (bundle : Bundle) (subjectDigest : String) : Except Failure (List VerifiedReview) := do
  let providerKeys ← V.activeKeys .providerReview
  let verified ← bundle.reviewEnvelopes.foldlM (V.verifyReview X providerKeys subjectDigest) []
  verifyReviewChains verified
  pure verified

def verifyClosure (bundle : Bundle) (reviews : List VerifiedReview) (subjectDigest : String) :
    Except Failure String := do
  let findingIds ← bundle.closureEntries.foldlM (verifyClosureEntry reviews) []
  let raisedIds := findings (reviews.filter (·.payload.verdict ≠ .agree)) Review.findingIds
  rejectIf (¬ sameSet findingIds raisedIds) "CLOSURE_INCOMPLETE" "closure does not cover every must-fix finding"
  let root ← closureRoot X V.contractVersion.closureDomain subjectDigest bundle.closureEntries
  rejectIf (bundle.closureRootSha256 ≠ root) "CLOSURE_ROOT_MISMATCH" "closure root digest is invalid"
  rejectIf (bundle.consensusClosureRootSha256 ≠ root) "CLOSURE_ROOT_MISMATCH" "consensus closure root differs"
  pure root

def verifyConsensus (bundle : Bundle) (reviews : List VerifiedReview) (subjectDigest closureRoot : String) :
    Except Failure (List VerifiedReview × List String) := do
  let finalDigests := bundle.consensusFinalAgreeReviewSha256
  let finalReviews ← finalDigests.mapM (countedReview reviews subjectDigest closureRoot)
  rejectIf (¬ sameSet ((chainTips reviews).map (·.digest)) finalDigests) "CONSENSUS_UNCOUNTED_CHAIN"
    "every provider review chain tip must be selected by consensus"
  let families := finalReviews.filterMap (·.key.providerFamily)
  let directFamilies := (finalReviews.filter (·.key.directProviderCli = some true)).filterMap (·.key.providerFamily)
  rejectIf (¬ sameSet families V.requiredProviderFamilies) "PROVIDER_FAMILY_SET_MISMATCH"
    "final provider families differ from the signed required set"
  rejectIf (¬ sameSet directFamilies V.requiredProviderFamilies) "DIRECT_PROVIDER_SET_MISMATCH"
    "every required provider family must use its signed direct route"
  rejectIf (¬ sameSet bundle.consensusProviderFamilies families) "CONSENSUS_PROVIDER_MISMATCH"
    "consensus provider family list is invalid"
  pure (finalReviews, families)

def pairLe (p q : String × String) : Prop := p.1 < q.1 ∨ (p.1 = q.1 ∧ p.2 ≤ q.2)

instance (p q : String × String) : Decidable (pairLe p q) := inferInstanceAs (Decidable (_ ∨ _))

def verifyBundle (envelope : Json) : Except Failure VerifiedBundle := do
  let outer ← verifyJsonEnvelope X envelope V.contractVersion.bundlePayloadType (← V.activeKeys .coordinator) [] true
  validateSchema X outer.payload V.contractVersion.bundleSchema "BUNDLE_SCHEMA_INVALID"
  let bundle ← decoded (bundleOfJson? outer.payload) "bundle"
  let coordinator ← V.signer outer
  let grantNotBefore ← parseUtc X bundle.grant.notBefore "grant.notBefore"
  V.validateKeyTime X coordinator grantNotBefore "bundle" true
  let digest ← subjectDigest X bundle
  V.verifySubjectAndGrant X bundle
  let lease ← V.verifyRunnerAdmissionLease X bundle
  let reviews ← V.verifyReviews X bundle digest
  let root ← V.verifyClosure X bundle reviews digest
  let (finalReviews, families) ← V.verifyConsensus bundle reviews digest root
  V.rejectRevoked X "bundle" bundle.bundleId "EVIDENCE_REVOKED" "bundle authorization is revoked"
  V.rejectRevoked X "subject" digest "EVIDENCE_REVOKED" "subject authorization is revoked"
  V.rejectRevoked X "grant" bundle.grant.requestId "EVIDENCE_REVOKED" "grant authorization is revoked"
  let expiresAt ← parseUtc X bundle.grant.expiresAt "grant.expiresAt"
  pure {
    bundleId := bundle.bundleId
    bundleDigest := outer.envelopeDigest
    subjectDigest := digest
    requestId := bundle.grant.requestId
    sessionDigest := bundle.subject.sessionSha256
    expiresAt
    providerFamilies := families.dedup.insertionSort (· ≤ ·)
    providerIdentityClasses := (finalReviews.map fun review =>
      (review.key.providerFamily.getD "", review.payload.modelIdentityClass)).insertionSort pairLe
    finalReviewDigests := (finalReviews.map (·.digest)).insertionSort (· ≤ ·)
    coordinatorKeyId := coordinator.keyId
    runnerAdmissionLease := lease
    payload := bundle }

end EvidenceVerifier

end PlatformGitops.CrossAi.Contract
