import PlatformGitops.CrossAi.Consensus
import PlatformGitops.Library.Table
import Mathlib

/-! What an accepted bundle guarantees: closed review chains, closed findings, and no revoked part. -/

namespace PlatformGitops.CrossAi.Contract

open Library Dsse

section

variable {X : Externals} {V : EvidenceVerifier}

/-- The payload that an envelope carries. -/
def signedPayload? (X : Externals) (envelope : Json) : Option Json :=
  (envelope.get "payload").asStr?.bind fun s => (X.b64decode s).bind X.jsonLoads

lemma strictB64_eq_ok {value : Json} {field : String} {bytes : List UInt8}
    (h : strictB64 X value field = .ok bytes) : value.asStr?.bind X.b64decode = some bytes := by
  cases value with
  | str s => simpa [strictB64, Json.asStr?] using h
  | _ => simp [strictB64] at h

lemma verifyJsonEnvelope_eq_ok {envelope : Json} {payloadType : String} {keys : List (String × List UInt8)}
    {ids : List String} {one : Bool} {verified : VerifiedEnvelope}
    (h : verifyJsonEnvelope X envelope payloadType keys ids one = .ok verified) :
    signedPayload? X envelope = some verified.payload ∧ sha256Digest X envelope = .ok verified.envelopeDigest := by
  simp only [verifyJsonEnvelope, Fallible.bind_eq_ok, Fallible.pure_eq_ok, expect_eq_ok] at h
  obtain ⟨-, -, -, -, -, -, bytes, hbytes, payload, hpayload, -, -, -, -, -, -, -, -, -, -, -, -, -, -, -, -, -, -,
    digest, hdigest, rfl⟩ := h
  have hb := strictB64_eq_ok hbytes
  obtain ⟨s, hs, hd⟩ := Option.bind_eq_some_iff.mp hb
  exact ⟨by simp [signedPayload?, hs, hd, hpayload], hdigest⟩

def Unrevoked (entries : List RevocationEntry) (kind identifier : String) : Prop :=
  ∀ entry ∈ entries, ¬ (entry.type = kind ∧ entry.id = identifier)

lemma rejectRevoked_eq_ok {kind identifier code message : String} {u : Unit}
    (h : V.rejectRevoked X kind identifier code message = .ok u) : Unrevoked V.revocations kind identifier := by
  simp only [EvidenceVerifier.rejectRevoked, EvidenceVerifier.isRevoked, Fallible.bind_eq_ok] at h
  obtain ⟨revoked, hr, hn⟩ := h
  split at hr
  · simp only [Fallible.bind_eq_ok, Fallible.pure_eq_ok] at hr
    obtain ⟨-, -, rfl⟩ := hr
    simp at hn
  · rename_i hnone
    intro entry he hmatch
    have := List.find?_eq_none.mp hnone entry he
    exact this (by simpa using hmatch)

lemma validateKeyTime_eq_ok {key : TrustKey} {issuedAt : Datetime} {label : String} {u : Unit}
    (h : V.validateKeyTime X key issuedAt label true = .ok u) : Unrevoked V.revocations "key" key.keyId := by
  simp only [EvidenceVerifier.validateKeyTime, Fallible.bind_eq_ok, if_true] at h
  obtain ⟨-, -, -, -, h⟩ := h
  exact rejectRevoked_eq_ok h

/-- A verified review is what its envelope carries, and its key belongs to the family it names. -/
structure Reads (X : Externals) (V : EvidenceVerifier) (subjectDigest : String) (envelope : Json)
    (review : VerifiedReview) : Prop where
  payload : (signedPayload? X envelope).bind Review.ofJson? = some review.payload
  digest : sha256Digest X envelope = .ok review.digest
  key : V.keys.find? (·.keyId = review.payload.keyId) = some review.key
  family : review.key.providerFamily = some review.payload.providerFamily
  issuedAt : parseUtc X review.payload.issuedAt "review.issuedAt" = .ok review.issuedAt
  subject : review.payload.subjectSha256 = subjectDigest
  keyUnrevoked : Unrevoked V.revocations "key" review.key.keyId
  unrevoked : Unrevoked V.revocations "review" review.digest

lemma verifyReview_eq_ok {keys : List (String × List UInt8)} {subject : String} {acc acc' : List VerifiedReview}
    {envelope : Json} (h : V.verifyReview X keys subject acc envelope = .ok acc') :
    ∃ review, acc' = acc ++ [review] ∧ Reads X V subject envelope review ∧ review.digest ∉ acc.map (·.digest) := by
  simp only [EvidenceVerifier.verifyReview, Fallible.bind_eq_ok, Fallible.pure_eq_ok] at h
  obtain ⟨leafEnvelope, hverified, _, -, leaf, hleaf, _, hkeyId, key, hkey, _, hattribution, _, hsubject, issuedAt,
    hissued, expiresAt, -, _, -, _, -, _, -, _, -, _, -, _, htime, _, -, _, hdigest, _, hrevoked, rfl⟩ := h
  obtain ⟨hpayload, henvelope⟩ := verifyJsonEnvelope_eq_ok hverified
  simp only [decoded, Fallible.expect_eq_ok] at hleaf
  simp only [EvidenceVerifier.signer, decoded, Fallible.expect_eq_ok] at hkey
  simp only [rejectIf_eq_ok, not_not] at hkeyId hattribution hsubject
  simp only [EvidenceVerifier.attributionDiffers, not_or, not_not] at hattribution
  rw [← hkeyId, Option.bind_some] at hkey
  refine ⟨_, rfl, ?_, by simpa using hdigest⟩
  exact ⟨by rw [hpayload, Option.bind_some]; exact hleaf, henvelope, hkey, hattribution.1.symm, hissued, hsubject,
    validateKeyTime_eq_ok htime, rejectRevoked_eq_ok hrevoked⟩

lemma verifyReviews_eq_ok {bundle : Bundle} {subject : String} {reviews : List VerifiedReview}
    (h : V.verifyReviews X bundle subject = .ok reviews) :
    (reviews.map (·.digest)).Nodup ∧ List.Forall₂ (Reads X V subject) bundle.reviewEnvelopes reviews ∧
      verifyReviewChains reviews = .ok () := by
  simp only [EvidenceVerifier.verifyReviews, Fallible.bind_eq_ok, Fallible.pure_eq_ok] at h
  obtain ⟨keys, -, reviews, hloop, _, hchains, rfl⟩ := h
  have hstep : ∀ acc envelope acc', (acc.map (·.digest)).Nodup →
      V.verifyReview X keys subject acc envelope = .ok acc' →
      ∃ review, acc' = acc ++ [review] ∧ Reads X V subject envelope review ∧ (acc'.map (·.digest)).Nodup := by
    intro acc envelope acc' hnodup hreview
    obtain ⟨review, rfl, hreads, hfresh⟩ := verifyReview_eq_ok hreview
    refine ⟨review, rfl, hreads, ?_⟩
    rw [List.map_append, List.map_singleton]
    exact List.Nodup.append hnodup (by simp) (by simpa using hfresh)
  obtain ⟨hnodup, ys, rfl, hreads⟩ := Fallible.foldlM_snoc hstep (by simp) hloop
  exact ⟨hnodup, hreads, hchains⟩

end

section

variable {reviews : List VerifiedReview}

lemma mem_chainIds {chainId : String} :
    chainId ∈ chainIds reviews ↔ ∃ r ∈ reviews, r.payload.reviewChainId = chainId := by
  simp [chainIds, List.mem_eraseDups]

lemma mem_chain {chainId : String} {r : VerifiedReview} :
    r ∈ chain reviews chainId ↔ r ∈ reviews ∧ r.payload.reviewChainId = chainId := by
  simp [chain]

lemma mem_findings {ids : Review → List String} {findingId : String} :
    findingId ∈ findings reviews ids ↔ ∃ r ∈ reviews, findingId ∈ ids r.payload := by
  simp [findings]

lemma review?_eq_some {digest : String} {r : VerifiedReview} (h : review? reviews digest = some r) :
    r ∈ reviews ∧ r.digest = digest :=
  ⟨List.mem_of_find?_eq_some h, by simpa using List.find?_some h⟩

lemma orderedChain_perm (reviews : List VerifiedReview) (chainId : String) :
    (orderedChain reviews chainId).Perm (chain reviews chainId) :=
  List.perm_insertionSort _ _

/-- The rounds of a chain, put in order: one provider family, numbered from one, each naming its predecessor. -/
structure Ordered (ordered : List VerifiedReview) : Prop where
  family : ∃ family, ∀ r ∈ ordered, r.key.providerFamily = family
  rounds : ordered.map (·.payload.round) = (List.range ordered.length).map fun (i : ℕ) => (i : Int) + 1
  first : ∀ r ∈ ordered.head?, r.payload.previousRoundSha256 = none
  links : ∀ i r s, ordered[i]? = some r → ordered[i + 1]? = some s → s.payload.previousRoundSha256 = some r.digest

lemma verifyChain_eq_ok {chainId : String} {u : Unit} (h : verifyChain reviews chainId = .ok u) :
    Ordered (orderedChain reviews chainId) := by
  simp only [verifyChain, Fallible.bind_eq_ok, rejectIf_eq_ok, not_not] at h
  obtain ⟨_, hfamily, _, hrounds, _, hfirst, hlinks⟩ := h
  generalize orderedChain reviews chainId = ordered at *
  refine ⟨?_, hrounds, ?_, ?_⟩
  · obtain ⟨family, hf⟩ := List.length_eq_one_iff.mp hfamily
    refine ⟨family, fun r hr => ?_⟩
    have hmem : r.key.providerFamily ∈ (ordered.map (·.key.providerFamily)).dedup :=
      List.mem_dedup.mpr (List.mem_map_of_mem hr)
    simpa [hf] using hmem
  · intro r hr
    rw [Option.mem_def.mp hr] at hfirst
    exact hfirst
  · intro i r s hr hs
    by_contra hne
    refine hlinks ⟨(r, s), ?_, hne⟩
    refine List.mem_of_getElem? (i := i) ?_
    rw [List.getElem?_zip_eq_some]
    exact ⟨hr, by rw [List.getElem?_tail]; exact hs⟩

lemma Ordered.nodup_rounds {ordered : List VerifiedReview} (h : Ordered ordered) :
    (ordered.map (·.payload.round)).Nodup := by
  rw [h.rounds]
  exact List.nodup_range.map fun i j hij => by omega

lemma Ordered.round_le_last {ordered : List VerifiedReview} (h : Ordered ordered) {r last : VerifiedReview}
    (hr : r ∈ ordered) (hlast : ordered.getLast? = some last) : r.payload.round ≤ last.payload.round := by
  have hround : ∀ (i : ℕ) (s : VerifiedReview), ordered[i]? = some s → s.payload.round = (i : Int) + 1 := by
    intro i s hs
    obtain ⟨hi, rfl⟩ := List.getElem?_eq_some_iff.mp hs
    have := congrArg (·[i]?) h.rounds
    simpa [hi] using this
  rw [List.getLast?_eq_getElem?] at hlast
  obtain ⟨i, hi⟩ := List.mem_iff_getElem?.mp hr
  have hlt : i < ordered.length := (List.getElem?_eq_some_iff.mp hi).1
  rw [hround i r hi, hround _ last hlast]
  omega

lemma chainTip_eq_argmax (chainId : String) :
    chainTip reviews chainId = (chain reviews chainId).argmax (·.payload.round) := by
  unfold chainTip List.argmax
  congr 1
  funext current review
  cases current <;> rfl

lemma chainTip_eq_some {chainId : String} {tip : VerifiedReview} (h : chainTip reviews chainId = some tip) :
    tip ∈ chain reviews chainId ∧ ∀ r ∈ chain reviews chainId, r.payload.round ≤ tip.payload.round := by
  rw [chainTip_eq_argmax] at h
  exact ⟨List.argmax_mem h, fun r hr => List.le_of_mem_argmax (f := fun r : VerifiedReview => r.payload.round) hr h⟩

lemma exists_chainTip {r : VerifiedReview} (h : r ∈ reviews) :
    ∃ tip, chainTip reviews r.payload.reviewChainId = some tip := by
  have hmem : r ∈ chain reviews r.payload.reviewChainId := mem_chain.mpr ⟨h, rfl⟩
  rw [← Option.ne_none_iff_exists', chainTip_eq_argmax, ne_eq, List.argmax_eq_none]
  exact List.ne_nil_of_mem hmem

lemma Ordered.last_eq_tip {chainId : String} {tip : VerifiedReview} (h : Ordered (orderedChain reviews chainId))
    (htip : chainTip reviews chainId = some tip) : (orderedChain reviews chainId).getLast? = some tip := by
  obtain ⟨hmem, hmax⟩ := chainTip_eq_some htip
  have hperm := orderedChain_perm reviews chainId
  have htip' := hperm.mem_iff.mpr hmem
  have hlast := List.getLast?_eq_some_getLast (List.ne_nil_of_mem htip')
  generalize (orderedChain reviews chainId).getLast _ = last at hlast
  have hlast' := List.mem_of_getLast? hlast
  have hround : tip.payload.round = last.payload.round :=
    le_antisymm (h.round_le_last htip' hlast) (hmax last (hperm.mem_iff.mp hlast'))
  rw [hlast, List.inj_on_of_nodup_map h.nodup_rounds htip' hlast' hround]

lemma occurrences_eq_singleton {ids : Review → List String} {findingId : String} {r : VerifiedReview}
    (hone : ∀ id ∈ findings reviews ids, (occurrences reviews ids id).length = 1) (hr : r ∈ reviews)
    (hid : findingId ∈ ids r.payload) : occurrences reviews ids findingId = [r] := by
  obtain ⟨s, hs⟩ := List.length_eq_one_iff.mp (hone findingId (mem_findings.mpr ⟨r, hr, hid⟩))
  have hmem : r ∈ occurrences reviews ids findingId := by simp [occurrences, hr, hid]
  rw [hs, List.mem_singleton] at hmem
  rw [hs, hmem]

/-- What the chain pass leaves: dissent is not an agreement, and every transition of a finding happens once. -/
structure Transitions (reviews : List VerifiedReview) : Prop where
  dissent : ∀ r ∈ reviews, r.payload.findingIds ≠ [] → r.payload.verdict ≠ .agree
  raised : ∀ id ∈ findings reviews Review.findingIds, (occurrences reviews Review.findingIds id).length = 1
  resolved : ∀ id ∈ findings reviews Review.resolvedFindingIds,
    (occurrences reviews Review.resolvedFindingIds id).length = 1
  acknowledged : ∀ id ∈ findings reviews Review.acknowledgedFindingIds,
    (occurrences reviews Review.acknowledgedFindingIds id).length = 1
  chains : ∀ r ∈ reviews, Ordered (orderedChain reviews r.payload.reviewChainId)

lemma verifyReviewChains_eq_ok (h : verifyReviewChains reviews = .ok ()) : Transitions reviews := by
  simp only [verifyReviewChains, Fallible.bind_eq_ok, rejectIf_eq_ok, not_exists, not_and, not_not] at h
  obtain ⟨_, htransitions, _, hraised, _, -, _, hresolved, _, hacknowledged, _, -, hchains⟩ := h
  have hchains := Fallible.forM_eq_ok.mp hchains
  refine ⟨?_, hraised, hresolved, hacknowledged, ?_⟩
  · intro r hr hfindings hagree
    have := Fallible.forM_eq_ok.mp htransitions r hr
    simp only [verifyTransitions, Fallible.bind_eq_ok, rejectIf_eq_ok] at this
    obtain ⟨_, hnone, -⟩ := this
    exact hnone ⟨hagree, .inl hfindings⟩
  · intro r hr
    exact verifyChain_eq_ok (hchains _ (mem_chainIds.mpr ⟨r, hr, rfl⟩))

/-- A closure entry names a raising review and a later review of the same family that closes the finding. -/
structure Closes (reviews : List VerifiedReview) (entry : ClosureEntry) (raised acknowledged : VerifiedReview) :
    Prop where
  raisedBy : review? reviews entry.raisedByReviewSha256 = some raised
  acknowledgedBy : review? reviews entry.acknowledgedByReviewSha256 = some acknowledged
  raises : entry.findingId ∈ raised.payload.findingIds
  family : raised.key.providerFamily = acknowledged.key.providerFamily
  resolves : entry.findingId ∈ acknowledged.payload.resolvedFindingIds
  acknowledges : entry.findingId ∈ acknowledged.payload.acknowledgedFindingIds
  later : raised.issuedAt < acknowledged.issuedAt

lemma verifyClosureEntry_eq_ok {acc acc' : List String} {entry : ClosureEntry}
    (h : verifyClosureEntry reviews acc entry = .ok acc') :
    acc' = acc ++ [entry.findingId] ∧ entry.findingId ∉ acc ∧ ∃ r a, Closes reviews entry r a := by
  simp only [verifyClosureEntry, Fallible.bind_eq_ok, Fallible.pure_eq_ok, rejectIf_eq_ok, expect_eq_ok, not_or,
    not_not, not_le] at h
  obtain ⟨_, hfresh, raised, hraised, acknowledged, hack, _, ⟨-, hraises⟩, _, hfamily, _, ⟨hres, hackd⟩, _, hlater,
    rfl⟩ := h
  exact ⟨rfl, hfresh, raised, acknowledged, hraised, hack, hraises, hfamily, hres, hackd, hlater⟩

lemma closureEntries_foldlM {entries : List ClosureEntry} {ids : List String}
    (h : entries.foldlM (verifyClosureEntry reviews) [] = .ok ids) :
    ids = entries.map (·.findingId) ∧ ids.Nodup ∧ ∀ entry ∈ entries, ∃ r a, Closes reviews entry r a := by
  have hstep : ∀ acc entry acc', acc.Nodup → verifyClosureEntry reviews acc entry = .ok acc' →
      ∃ id, acc' = acc ++ [id] ∧ (id = entry.findingId ∧ ∃ r a, Closes reviews entry r a) ∧ acc'.Nodup := by
    intro acc entry acc' hnodup hentry
    obtain ⟨rfl, hfresh, hcloses⟩ := verifyClosureEntry_eq_ok hentry
    exact ⟨_, rfl, ⟨rfl, hcloses⟩, List.Nodup.append hnodup (by simp) (by simpa using hfresh)⟩
  obtain ⟨hnodup, _, rfl, hall⟩ := Fallible.foldlM_snoc hstep List.nodup_nil h
  have hread : ids = entries.map (·.findingId) ∧ ∀ entry ∈ entries, ∃ r a, Closes reviews entry r a := by
    clear h hnodup
    induction hall with
    | nil => simp
    | cons hid _ ih => exact ⟨by rw [List.map_cons, ← ih.1, hid.1], List.forall_mem_cons.mpr ⟨hid.2, ih.2⟩⟩
  exact ⟨hread.1, hnodup, hread.2⟩

/-- A review with the largest round of its chain. -/
def IsTip (reviews : List VerifiedReview) (r : VerifiedReview) : Prop :=
  r ∈ reviews ∧ ∀ s ∈ reviews, s.payload.reviewChainId = r.payload.reviewChainId → s.payload.round ≤ r.payload.round

lemma Transitions.isTip_iff (h : Transitions reviews) {r : VerifiedReview} :
    IsTip reviews r ↔ chainTip reviews r.payload.reviewChainId = some r := by
  constructor
  · rintro ⟨hr, hmax⟩
    obtain ⟨tip, htip⟩ := exists_chainTip hr
    obtain ⟨hmem, htop⟩ := chainTip_eq_some htip
    have hchain := mem_chain.mp hmem
    have hround : r.payload.round = tip.payload.round :=
      le_antisymm (htop r (mem_chain.mpr ⟨hr, rfl⟩)) (hmax tip hchain.1 hchain.2)
    have hperm := orderedChain_perm reviews r.payload.reviewChainId
    rw [htip, List.inj_on_of_nodup_map (h.chains r hr).nodup_rounds
      (hperm.mem_iff.mpr (mem_chain.mpr ⟨hr, rfl⟩)) (hperm.mem_iff.mpr hmem) hround]
  · intro htip
    obtain ⟨hmem, htop⟩ := chainTip_eq_some htip
    exact ⟨(mem_chain.mp hmem).1, fun s hs hchain => htop s (mem_chain.mpr ⟨hs, hchain⟩)⟩

lemma mem_chainTips {r : VerifiedReview} :
    r ∈ chainTips reviews ↔ chainTip reviews r.payload.reviewChainId = some r := by
  simp only [chainTips, List.mem_filterMap]
  constructor
  · rintro ⟨chainId, -, hr⟩
    obtain ⟨-, rfl⟩ := mem_chain.mp (chainTip_eq_some hr).1
    exact hr
  · intro hr
    have hmem := (mem_chain.mp (chainTip_eq_some hr).1).1
    exact ⟨_, mem_chainIds.mpr ⟨r, hmem, rfl⟩, hr⟩

/-- A counted review agrees on the subject and carries the closure root. -/
structure Agrees (subjectDigest root : String) (r : VerifiedReview) : Prop where
  verdict : r.payload.verdict = .agree
  subject : r.payload.subjectSha256 = subjectDigest
  closure : r.payload.closureRootSha256 = root

lemma countedReview_eq_ok {subject root digest : String} {r : VerifiedReview}
    (hnodup : (reviews.map (·.digest)).Nodup) (h : countedReview reviews subject root digest = .ok r) :
    r.digest = digest ∧ chainTip reviews r.payload.reviewChainId = some r ∧ Agrees subject root r := by
  simp only [countedReview, Fallible.bind_eq_ok, Fallible.pure_eq_ok, rejectIf_eq_ok, expect_eq_ok, not_not] at h
  obtain ⟨r, hr, _, htip, _, hverdict, _, hsubject, _, hroot, rfl⟩ := h
  obtain ⟨hmem, rfl⟩ := review?_eq_some hr
  obtain ⟨tip, htip', hdigest⟩ := Option.map_eq_some_iff.mp htip
  have heq := List.inj_on_of_nodup_map hnodup (mem_chain.mp (chainTip_eq_some htip').1).1 hmem hdigest
  exact ⟨rfl, heq ▸ htip', hverdict, hsubject, hroot⟩

lemma verifyConsensus_eq_ok {V : EvidenceVerifier} {bundle : Bundle} {subject root : String}
    {result : List VerifiedReview × List String} (hnodup : (reviews.map (·.digest)).Nodup)
    (h : V.verifyConsensus bundle reviews subject root = .ok result) :
    (∀ r ∈ chainTips reviews, Agrees subject root r) ∧
      ∀ family, family ∈ V.requiredProviderFamilies ↔
        ∃ r ∈ chainTips reviews, r.key.providerFamily = some family := by
  simp only [EvidenceVerifier.verifyConsensus, Fallible.bind_eq_ok, rejectIf_eq_ok, not_not] at h
  obtain ⟨finals, hfinals, _, htips, _, hfamilies, -⟩ := h
  obtain ⟨hleft, hright⟩ := Fallible.mapM_eq_ok hfinals
  have hmem : ∀ r, r ∈ finals ↔ r ∈ chainTips reviews := by
    intro r
    constructor
    · intro hr
      obtain ⟨digest, -, hd⟩ := hright r hr
      exact mem_chainTips.mpr (countedReview_eq_ok hnodup hd).2.1
    · intro hr
      obtain ⟨s, hs, hd⟩ := hleft r.digest (htips.1 _ (List.mem_map_of_mem hr))
      obtain ⟨hdigest, htip, -⟩ := countedReview_eq_ok hnodup hd
      have hin : ∀ q ∈ chainTips reviews, q ∈ reviews := fun q hq =>
        (mem_chain.mp (chainTip_eq_some (mem_chainTips.mp hq)).1).1
      rwa [List.inj_on_of_nodup_map hnodup (hin r hr) (hin s (mem_chainTips.mpr htip)) hdigest.symm]
  constructor
  · intro r hr
    obtain ⟨digest, -, hd⟩ := hright r ((hmem r).mpr hr)
    exact (countedReview_eq_ok hnodup hd).2.2
  · intro family
    have hiff : family ∈ V.requiredProviderFamilies ↔ family ∈ finals.filterMap (·.key.providerFamily) :=
      ⟨hfamilies.2 family, hfamilies.1 family⟩
    simp only [hiff, List.mem_filterMap, hmem]

/-- A raised finding: one review raises it, one later review of the same family resolves and acknowledges it,
and one closure entry names it, with these two reviews. -/
def FindingClosed (reviews : List VerifiedReview) (entries : List ClosureEntry) (findingId : String)
    (raised : VerifiedReview) : Prop :=
  ∃ acknowledged entry, occurrences reviews Review.findingIds findingId = [raised] ∧
    occurrences reviews Review.resolvedFindingIds findingId = [acknowledged] ∧
    occurrences reviews Review.acknowledgedFindingIds findingId = [acknowledged] ∧
    raised.key.providerFamily = acknowledged.key.providerFamily ∧ raised.issuedAt < acknowledged.issuedAt ∧
    entries.filter (·.findingId = findingId) = [entry] ∧ entry.raisedByReviewSha256 = raised.digest ∧
    entry.acknowledgedByReviewSha256 = acknowledged.digest

lemma Transitions.findingClosed (h : Transitions reviews) {entries : List ClosureEntry}
    (hnodup : (entries.map (·.findingId)).Nodup) (hcloses : ∀ entry ∈ entries, ∃ r a, Closes reviews entry r a)
    (hcover : sameSet (entries.map (·.findingId))
      (findings (reviews.filter (·.payload.verdict ≠ .agree)) Review.findingIds))
    {raised : VerifiedReview} (hraised : raised ∈ reviews) {findingId : String}
    (hid : findingId ∈ raised.payload.findingIds) : FindingClosed reviews entries findingId raised := by
  have hdissent := h.dissent raised hraised (List.ne_nil_of_mem hid)
  have hnamed := hcover.2 findingId (mem_findings.mpr ⟨raised, by simp [hraised, hdissent], hid⟩)
  obtain ⟨entry, hentry, rfl⟩ := List.mem_map.mp hnamed
  obtain ⟨r, a, hc⟩ := hcloses entry hentry
  obtain ⟨hr, hrd⟩ := review?_eq_some hc.raisedBy
  obtain ⟨ha, had⟩ := review?_eq_some hc.acknowledgedBy
  have hone := occurrences_eq_singleton h.raised hraised hid
  have hr' := occurrences_eq_singleton h.raised hr hc.raises
  obtain rfl : raised = r := by simpa [hone] using hr'
  refine ⟨a, entry, hone, occurrences_eq_singleton h.resolved ha hc.resolves,
    occurrences_eq_singleton h.acknowledged ha hc.acknowledges, hc.family, hc.later, ?_, hrd.symm, had.symm⟩
  exact Table.filter_rows hnodup hentry

lemma verifyClosure_eq_ok {X : Externals} {V : EvidenceVerifier} {bundle : Bundle} {subject root : String}
    (h : V.verifyClosure X bundle reviews subject = .ok root) :
    (bundle.closureEntries.map (·.findingId)).Nodup ∧
      (∀ entry ∈ bundle.closureEntries, ∃ r a, Closes reviews entry r a) ∧
      sameSet (bundle.closureEntries.map (·.findingId))
        (findings (reviews.filter (·.payload.verdict ≠ .agree)) Review.findingIds) ∧
      closureRoot X V.contractVersion.closureDomain subject bundle.closureEntries = .ok root := by
  simp only [EvidenceVerifier.verifyClosure, Fallible.bind_eq_ok, Fallible.pure_eq_ok, rejectIf_eq_ok, not_not] at h
  obtain ⟨ids, hloop, _, hcover, root, hroot, _, -, _, -, rfl⟩ := h
  obtain ⟨rfl, hnodup, hcloses⟩ := closureEntries_foldlM hloop
  exact ⟨hnodup, hcloses, hcover, hroot⟩

end

section

variable {X : Externals} {V : EvidenceVerifier}

/-- What an accepted bundle envelope is and what holds of its reviews. The reviews read from it, their keys among
them, are unrevoked by `Reads`. -/
structure Sound (X : Externals) (V : EvidenceVerifier) (envelope : Json) (verified : VerifiedBundle)
    (closure : String) (reviews : List VerifiedReview) : Prop where
  payload : (signedPayload? X envelope).bind bundleOfJson? = some verified.payload
  subject : EvidenceVerifier.subjectDigest X verified.payload = .ok verified.subjectDigest
  root : closureRoot X V.contractVersion.closureDomain verified.subjectDigest verified.payload.closureEntries =
    .ok closure
  reads : List.Forall₂ (Reads X V verified.subjectDigest) verified.payload.reviewEnvelopes reviews
  distinct : (reviews.map (·.digest)).Nodup
  chains : ∀ r ∈ reviews, ∃ ordered, ordered.Perm (chain reviews r.payload.reviewChainId) ∧ Ordered ordered ∧
    ∃ last ∈ ordered.getLast?, IsTip reviews last ∧ Agrees verified.subjectDigest closure last
  families : ∀ family, family ∈ V.requiredProviderFamilies ↔
    ∃ r, IsTip reviews r ∧ r.key.providerFamily = some family
  findings : ∀ r ∈ reviews, ∀ findingId ∈ r.payload.findingIds,
    FindingClosed reviews verified.payload.closureEntries findingId r
  keys : Unrevoked V.revocations "key" verified.coordinatorKeyId ∧
    Unrevoked V.revocations "key" verified.runnerAdmissionLease.key.keyId
  lease : Unrevoked V.revocations "runner-lease" verified.runnerAdmissionLease.payload.leaseId
  bundle : Unrevoked V.revocations "bundle" verified.payload.bundleId
  subjectUnrevoked : Unrevoked V.revocations "subject" verified.subjectDigest
  grant : Unrevoked V.revocations "grant" verified.payload.grant.requestId

lemma init_eq_ok {trustRoot revocationsEnvelope : Json} {observedAt : Datetime} {policy digest : Option String}
    {mode : VerificationMode} {reference : Option Datetime}
    (h : EvidenceVerifier.init X trustRoot revocationsEnvelope observedAt policy digest mode reference = .ok V) :
    ∃ root, trustRootOfJson? trustRoot = some root ∧ V.requiredProviderFamilies = root.requiredProviderFamilies ∧
      ∃ revocations, (signedPayload? X revocationsEnvelope).bind revocationsOfJson? = some revocations ∧
        V.revocations = revocations.entries := by
  simp only [EvidenceVerifier.init, Fallible.bind_eq_ok, Fallible.pure_eq_ok] at h
  obtain ⟨_, -, _, -, _, -, version, -, _, -, _, -, _, -, _, -, root, hroot, _, -, _, -, _, -, keys, -, _, -,
    entries, hentries, rfl⟩ := h
  simp only [EvidenceVerifier.verifyRevocations, Fallible.bind_eq_ok, Fallible.pure_eq_ok] at hentries
  obtain ⟨_, -, outer, houter, _, -, revocations, hrevocations, _, -, _, -, _, -, _, -, _, -, _, -, _, -, rfl⟩ := hentries
  simp only [decoded, Fallible.expect_eq_ok] at hroot hrevocations
  refine ⟨root, hroot, rfl, revocations, ?_, rfl⟩
  rw [(verifyJsonEnvelope_eq_ok houter).1, Option.bind_some, hrevocations]

lemma verifyRunnerAdmissionLease_eq_ok {bundle : Bundle} {lease : VerifiedRunnerAdmissionLease}
    (h : V.verifyRunnerAdmissionLease X bundle = .ok lease) :
    Unrevoked V.revocations "key" lease.key.keyId ∧
      Unrevoked V.revocations "runner-lease" lease.payload.leaseId := by
  simp only [EvidenceVerifier.verifyRunnerAdmissionLease, Fallible.bind_eq_ok, Fallible.pure_eq_ok] at h
  obtain ⟨_, -, _, -, _, -, _, -, _, -, _, -, _, -, _, -, _, -, _, -, _, -, _, -, _, -, _, hkey, _, hlease, rfl⟩ := h
  exact ⟨validateKeyTime_eq_ok hkey, rejectRevoked_eq_ok hlease⟩

lemma verifyBundle_eq_ok {envelope : Json} {verified : VerifiedBundle}
    (h : V.verifyBundle X envelope = .ok verified) : ∃ closure reviews, Sound X V envelope verified closure reviews := by
  simp only [EvidenceVerifier.verifyBundle, Fallible.bind_eq_ok, Fallible.pure_eq_ok] at h
  obtain ⟨_, -, outer, houter, _, -, bundle, hbundle, coordinator, -, _, -, _, htime, digest, hdigest, _, -, lease, hlease,
    reviews, hreviews, closure, hclosure, consensus, hconsensus, _, hb, _, hs, _, hg, _, -, rfl⟩ := h
  obtain ⟨hdistinct, hreads, hchains⟩ := verifyReviews_eq_ok hreviews
  have htransitions := verifyReviewChains_eq_ok hchains
  obtain ⟨hentries, hcloses, hcover, hroot⟩ := verifyClosure_eq_ok hclosure
  obtain ⟨hagrees, hfamilies⟩ := verifyConsensus_eq_ok hdistinct hconsensus
  simp only [decoded, Fallible.expect_eq_ok] at hbundle
  refine ⟨closure, reviews, {
    payload := by rw [(verifyJsonEnvelope_eq_ok houter).1, Option.bind_some, hbundle]
    subject := hdigest
    root := hroot
    reads := hreads
    distinct := hdistinct
    chains := ?_
    families := ?_
    findings := fun r hr id hid => htransitions.findingClosed hentries hcloses hcover hr hid
    keys := ⟨validateKeyTime_eq_ok htime, (verifyRunnerAdmissionLease_eq_ok hlease).1⟩
    lease := (verifyRunnerAdmissionLease_eq_ok hlease).2
    bundle := rejectRevoked_eq_ok hb
    subjectUnrevoked := rejectRevoked_eq_ok hs
    grant := rejectRevoked_eq_ok hg }⟩
  · intro r hr
    obtain ⟨tip, htip⟩ := exists_chainTip hr
    have hordered := htransitions.chains r hr
    have hchain : tip.payload.reviewChainId = r.payload.reviewChainId := (mem_chain.mp (chainTip_eq_some htip).1).2
    have hself : chainTip reviews tip.payload.reviewChainId = some tip := by rw [hchain, htip]
    exact ⟨_, orderedChain_perm _ _, hordered, tip, hordered.last_eq_tip htip, htransitions.isTip_iff.mpr hself,
      hagrees tip (mem_chainTips.mpr hself)⟩
  · intro family
    simp only [hfamilies, mem_chainTips, htransitions.isTip_iff]

theorem verifyBundle_sound {trustRoot revocationsEnvelope envelope : Json} {observedAt : Datetime}
    {policy digest : Option String} {mode : VerificationMode} {reference : Option Datetime}
    {verified : VerifiedBundle}
    (hinit : EvidenceVerifier.init X trustRoot revocationsEnvelope observedAt policy digest mode reference = .ok V)
    (hbundle : V.verifyBundle X envelope = .ok verified) :
    ∃ root revocations closure reviews, trustRootOfJson? trustRoot = some root ∧
      V.requiredProviderFamilies = root.requiredProviderFamilies ∧
      (signedPayload? X revocationsEnvelope).bind revocationsOfJson? = some revocations ∧
      V.revocations = revocations.entries ∧ Sound X V envelope verified closure reviews := by
  obtain ⟨root, hroot, hfamilies, revocations, hpayload, hentries⟩ := init_eq_ok hinit
  obtain ⟨closure, reviews, hsound⟩ := verifyBundle_eq_ok hbundle
  exact ⟨root, revocations, closure, reviews, hroot, hfamilies, hpayload, hentries, hsound⟩

end

namespace Sample

def start : Datetime := 1784232000 * second

def ids (values : List String) : Json := .list (values.map .str)

def time (minutes : String) : Json := .str ("2026-07-16T20:" ++ minutes ++ ":00Z")

def subjectSha256 : String := "sha256:1190"
def closureSha256 : String := "sha256:201"

/-- A review of one of the two families, in the fields that the verification reads. -/
def review (anthropic : Bool) (name : String) (round : Int) (verdict : String) (previous : Json)
    (raised closed : List String) (issued : String) : Json :=
  let family := if anthropic then "anthropic" else "openai"
  .obj [("acknowledgedFindingIds", ids closed),
    ("channel", .str (if anthropic then "direct-anthropic-cli" else "openai-codex")),
    ("closureRootSha256", .str closureSha256), ("directProviderCli", .bool true), ("expiresAt", time "50"),
    ("findingIds", ids raised), ("issuedAt", time issued), ("issuer", .str ("cross-ai-issuer-" ++ family)),
    ("keyId", .str family), ("modelId", .str (if anthropic then "claude-opus-4-8" else "gpt-5.6-sol")),
    ("modelIdentityClass", .str (if anthropic then "provider-reported" else "trusted-launch-attested")),
    ("previousRoundSha256", previous), ("providerFamily", .str family), ("resolvedFindingIds", ids closed),
    ("reviewChainId", .str family), ("reviewId", .str name), ("round", .int round),
    ("subjectSha256", .str subjectSha256), ("verdict", .str verdict)]

def envelope (payloadType payload keyId : String) : Json :=
  .obj [("payload", .str payload), ("payloadType", .str payloadType),
    ("signatures", .list [.obj [("keyid", .str keyId), ("sig", .str "signature")]])]

def reviewEnvelope (payload family : String) : Json :=
  envelope "application/vnd.acik.cross-ai-deployment-review.v2+json" payload family

def dissent : Json := review true "a" 1 "REVISE" .null ["F"] [] "00"
def closing : Json := review true "bb" 2 "PARTIAL" (.str "sha256:142") [] ["F"] "01"
def agreement : Json := review true "ccc" 3 "AGREE" (.str "sha256:143") [] [] "02"
def consent : Json := review false "dddddddd" 1 "AGREE" .null [] [] "02"

def stage (name : String) (order : Int) (depends : List (String × Json)) : Json :=
  .obj ([("concurrencyGroupSha256", .str ""), ("dependencyLockSha256", .str "")] ++ depends ++
    [("order", .int order), ("runsOnLabels", ids []), ("stage", .str name), ("workflowBlobSha256", .str ""),
      ("workflowPath", .str name)])

def subject : Json :=
  .obj [("artifactSetSha256", .str ""), ("bootstrapCredentialSha256", .str ""), ("deploymentClass", .str ""),
    ("endpointIdSha256", .str ""), ("environment", .str "production"), ("headSha", .str "a"),
    ("intentRef", .str "refs/tags/cross-ai-intent/req"), ("operatorIdSha256", .str ""), ("policySha256", .str ""),
    ("postDeployVerifierSha256", .str ""), ("repository", .str "acik/platform"), ("repositoryId", .int 42),
    ("rollbackPlanSha256", .str ""), ("runnerAdmissionLeaseSha256", .str "sha256:148"),
    ("runnerPolicySha256", .str ""), ("sessionSha256", .str "sha256:269")]

def grant : Json :=
  .obj [("deploymentSessionId", .str ""), ("expiresAt", time "40"), ("notBefore", time "00"),
    ("registrationPrincipal", .str ""), ("requestId", .str "req"), ("stageNonceSha256", .obj []),
    ("triggeringActorId", .int 7)]

def lease : Json :=
  .obj [("eligibleRunners", .list []), ("environment", .str "production"), ("expiresAt", time "50"),
    ("headSha", .str "a"), ("intentRef", .str "refs/tags/cross-ai-intent/req"),
    ("inventoryGenerationSha256", .str ""), ("issuedAt", time "00"), ("leaseId", .str "lease"),
    ("repository", .str "acik/platform"), ("repositoryId", .int 42), ("requestId", .str "req"),
    ("runnerPolicySha256", .str "")]

def bundle : Json :=
  .obj [("bundleId", .str "bundle"),
    ("closure", .obj [("closureRootSha256", .str closureSha256), ("entries", .list [.obj
      [("acknowledgedByReviewSha256", .str "sha256:143"), ("findingId", .str "F"), ("fixSha256", .str ""),
        ("raisedByReviewSha256", .str "sha256:142")]])]),
    ("consensus", .obj [("closureRootSha256", .str closureSha256),
      ("finalAgreeReviewSha256", ids ["sha256:144", "sha256:146"]), ("providerFamilies", ids ["anthropic", "openai"])]),
    ("grant", grant),
    ("reviewEnvelopes", .list [reviewEnvelope "a" "anthropic", reviewEnvelope "bb" "anthropic",
      reviewEnvelope "ccc" "anthropic", reviewEnvelope "dddddddd" "openai"]),
    ("runnerAdmissionLeaseEnvelope",
      envelope "application/vnd.acik.cross-ai-runner-admission-lease.v1+json" "lease" "runner"),
    ("subject", subject),
    ("workflowStages", .list [stage "apply" 1 [], stage "browser-evidence" 2 [("dependsOn", ids ["apply"])],
      stage "compensating-rollback" 3 [("dependsOnFailure", ids ["apply"])]])]

def revocations : Json :=
  .obj [("entries", .list [.obj [("effectiveAt", time "00"), ("id", .str "old"), ("type", .str "key")]]),
    ("issuedAt", time "00"), ("nextUpdate", time "50")]

def bundleEnvelope : Json := envelope "application/vnd.acik.cross-ai-deployment-bundle.v2+json" "bundle" "coordinator"
def revocationsEnvelope : Json := envelope revocationsPayloadType "revocations" "revocation"

def key (name role : String) (public_ : String) (attribution : List (String × Json)) : Json :=
  .obj ([("keyId", .str name), ("role", .str role), ("publicKeyBase64", .str public_), ("notBefore", time "00"),
    ("notAfter", time "50")] ++ attribution)

def provider (family channel model class_ : String) : List (String × Json) :=
  [("providerFamily", .str family), ("allowedChannels", ids [channel]), ("allowedModelIds", ids [model]),
    ("allowedModelIdentityClasses", ids [class_]), ("directProviderCli", .bool true)]

def unattributed : List (String × Json) :=
  [("providerFamily", .null), ("allowedChannels", ids []), ("allowedModelIds", ids []),
    ("allowedModelIdentityClasses", ids [])]

def trustRoot : Json :=
  .obj [("schemaVersion", .str "acik.cross-ai-deployment-trust-root.v2"), ("issuedAt", time "00"),
    ("expiresAt", time "50"), ("maxClockSkewSeconds", .int 30), ("requiredProviderFamilies", ids ["anthropic", "openai"]),
    ("keys", .list [
      key "anthropic" "provider-review" "1"
        (provider "anthropic" "direct-anthropic-cli" "claude-opus-4-8" "provider-reported"),
      key "openai" "provider-review" "2" (provider "openai" "openai-codex" "gpt-5.6-sol" "trusted-launch-attested"),
      key "coordinator" "coordinator" "3" unattributed, key "revocation" "revocation" "4" unattributed,
      key "runner" "runner-management" "5" unattributed])]

def payloads : List (String × Json) :=
  [("a", dissent), ("bb", closing), ("ccc", agreement), ("dddddddd", consent), ("lease", lease), ("bundle", bundle),
    ("revocations", revocations)]

def keyBytes (s : String) : Option (List UInt8) :=
  match s with
  | "1" => some (List.replicate 32 1)
  | "2" => some (List.replicate 32 2)
  | "3" => some (List.replicate 32 3)
  | "4" => some (List.replicate 32 4)
  | "5" => some (List.replicate 32 5)
  | "signature" => some (List.replicate 64 0)
  | _ => none

/-- Stand-ins for the primitives: a digest that is a length, signatures that all verify, and payload texts that
name their payload. -/
def externals : Externals where
  sha256 bytes := toString bytes.length
  fromisoformat s :=
    match s with
    | "2026-07-16T20:00:00+00:00" => some ⟨start, some 0⟩
    | "2026-07-16T20:01:00+00:00" => some ⟨start + 1 * minute, some 0⟩
    | "2026-07-16T20:02:00+00:00" => some ⟨start + 2 * minute, some 0⟩
    | "2026-07-16T20:40:00+00:00" => some ⟨start + 40 * minute, some 0⟩
    | "2026-07-16T20:50:00+00:00" => some ⟨start + 50 * minute, some 0⟩
    | _ => none
  b64decode s :=
    match payloads.lookup s with
    | some payload => (canonicalBytes payload).toOption
    | none => keyBytes s
  jsonLoads bytes := (payloads.find? fun p => (canonicalBytes p.2).toOption = some bytes).map (·.2)
  ed25519Verify _ _ _ := true
  schemaValid _ _ := true

def verifier : Except Failure EvidenceVerifier :=
  EvidenceVerifier.init externals trustRoot revocationsEnvelope (start + 2 * minute) none none .active none

def accepted : Except Failure (List String) := do
  let V ← verifier
  let verified ← V.verifyBundle externals bundleEnvelope
  pure verified.finalReviewDigests

lemma accepted_toOption : accepted.toOption = some ["sha256:144", "sha256:146"] := by decide +kernel

end Sample

/-- Three rounds of one family, the second closing a finding of the first, and one round of the other family. -/
theorem verifyBundle_sound_sample : ∃ V verified, Sample.verifier = .ok V ∧
    V.verifyBundle Sample.externals Sample.bundleEnvelope = .ok verified ∧
    verified.finalReviewDigests = ["sha256:144", "sha256:146"] ∧
    ∃ closure reviews, Sound Sample.externals V Sample.bundleEnvelope verified closure reviews := by
  have hok := Fallible.toOption_eq_some Sample.accepted_toOption
  simp only [Sample.accepted, Fallible.bind_eq_ok, Fallible.pure_eq_ok] at hok
  obtain ⟨V, hV, verified, hverified, hdigests⟩ := hok
  obtain ⟨-, -, closure, reviews, -, -, -, -, hsound⟩ := verifyBundle_sound hV hverified
  exact ⟨V, verified, hV, hverified, hdigests, closure, reviews, hsound⟩

end PlatformGitops.CrossAi.Contract
