import PlatformGitops.CrossAi.ContractSoundness

/-! The reviews of a bundle and the entries of its closure may be listed in any order. -/

namespace PlatformGitops.CrossAi.Contract

open Library Dsse

/-- The checks of the reviews, the closure and the consensus of a bundle, as `verifyBundle` makes them. -/
def EvidenceVerifier.verifyEvidence (X : Externals) (V : EvidenceVerifier) (bundle : Bundle) (subjectDigest : String) :
    Except Failure (String × List VerifiedReview × List String) := do
  let reviews ← V.verifyReviews X bundle subjectDigest
  let root ← V.verifyClosure X bundle reviews subjectDigest
  let (finalReviews, families) ← V.verifyConsensus bundle reviews subjectDigest root
  pure (root, finalReviews, families)

/-- Where the keys are distinct, there is one way to sort by them. -/
lemma insertionSort_eq_of_perm {α β : Type} [LE β] [Std.IsLinearOrder β] (key : α → β)
    [DecidableRel fun a b => key a ≤ key b] {xs ys : List α} (hperm : xs.Perm ys) (hnodup : (ys.map key).Nodup) :
    xs.insertionSort (fun a b => key a ≤ key b) = ys.insertionSort fun a b => key a ≤ key b := by
  have : Std.Total fun a b : α => key a ≤ key b := ⟨fun a b => Std.le_total⟩
  have : IsTrans α fun a b => key a ≤ key b := ⟨fun a b c => Std.le_trans⟩
  have hsort : ∀ zs : List α, (zs.insertionSort fun a b => key a ≤ key b).Perm zs := List.perm_insertionSort _
  refine List.Perm.eq_of_pairwise (fun a b ha hb hab hba => ?_) (List.pairwise_insertionSort _ xs)
    (List.pairwise_insertionSort _ ys) ((hsort xs).trans (hperm.trans (hsort ys).symm))
  exact List.inj_on_of_nodup_map hnodup (hperm.mem_iff.mp ((hsort xs).mem_iff.mp ha)) ((hsort ys).mem_iff.mp hb)
    (Std.le_antisymm hab hba)

section

variable {X : Externals} {V : EvidenceVerifier} {reviews reviews' : List VerifiedReview}

lemma verifyReview_agreeing (keys : List (String × List UInt8)) (subject : String) (acc : List VerifiedReview)
    (envelope : Json) (acc' : List VerifiedReview) :
    V.verifyReview X keys subject acc envelope = .ok acc' ↔
      ∃ review, V.verifyReview X keys subject [] envelope = .ok [review] ∧
        (∀ earlier ∈ acc, earlier.payload.reviewId ≠ review.payload.reviewId ∧ earlier.digest ≠ review.digest) ∧
        acc' = acc ++ [review] := by
  simp only [EvidenceVerifier.verifyReview, Fallible.bind_eq_ok, Fallible.pure_eq_ok, rejectIf_eq_ok]
  constructor
  · rintro ⟨leafEnvelope, hverified, _, hschema, leaf, hleaf, _, hkeyId, key, hkey, _, hattribution, _, hsubject,
      issuedAt, hissued, expiresAt, hexpires, _, hminimax, _, hcutoff, _, hfuture, _, hexpired, _, hlifetime, _, htime, _,
      hid, _, hdigest, _, hrevoked, rfl⟩
    refine ⟨_, ⟨leafEnvelope, hverified, (), hschema, leaf, hleaf, (), hkeyId, key, hkey, (), hattribution, (), hsubject,
      issuedAt, hissued, expiresAt, hexpires, (), hminimax, (), hcutoff, (), hfuture, (), hexpired, (), hlifetime, (),
      htime, (), by simp, (), by simp, (), hrevoked, rfl⟩, fun earlier hearlier => ⟨fun heq => hid ?_, fun heq => hdigest ?_⟩,
      rfl⟩
    · exact List.mem_map.mpr ⟨earlier, hearlier, heq⟩
    · exact List.mem_map.mpr ⟨earlier, hearlier, heq⟩
  · rintro ⟨review, ⟨leafEnvelope, hverified, _, hschema, leaf, hleaf, _, hkeyId, key, hkey, _, hattribution, _, hsubject,
      issuedAt, hissued, expiresAt, hexpires, _, hminimax, _, hcutoff, _, hfuture, _, hexpired, _, hlifetime, _, htime, _,
      -, _, -, _, hrevoked, hreview⟩, hfresh, rfl⟩
    obtain rfl := List.singleton_injective hreview
    refine ⟨leafEnvelope, hverified, (), hschema, leaf, hleaf, (), hkeyId, key, hkey, (), hattribution, (), hsubject,
      issuedAt, hissued, expiresAt, hexpires, (), hminimax, (), hcutoff, (), hfuture, (), hexpired, (), hlifetime, (),
      htime, (), ?_, (), ?_, (), hrevoked, rfl⟩
    · rintro hid
      obtain ⟨earlier, hearlier, heq⟩ := List.mem_map.mp hid
      exact (hfresh earlier hearlier).1 heq
    · rintro hdigest
      obtain ⟨earlier, hearlier, heq⟩ := List.mem_map.mp hdigest
      exact (hfresh earlier hearlier).2 heq

lemma verifyClosureEntry_agreeing (acc : List String) (entry : ClosureEntry) (acc' : List String) :
    verifyClosureEntry reviews acc entry = .ok acc' ↔
      ∃ id, verifyClosureEntry reviews [] entry = .ok [id] ∧ (∀ earlier ∈ acc, earlier ≠ id) ∧ acc' = acc ++ [id] := by
  simp only [verifyClosureEntry, Fallible.bind_eq_ok, Fallible.pure_eq_ok, rejectIf_eq_ok]
  constructor
  · rintro ⟨_, hfresh, raised, hraised, acknowledged, hack, _, hraises, _, hfamily, _, hacks, _, hlater, rfl⟩
    exact ⟨_, ⟨(), by simp, raised, hraised, acknowledged, hack, (), hraises, (), hfamily, (), hacks, (), hlater, rfl⟩,
      fun earlier hearlier heq => hfresh (heq ▸ hearlier), rfl⟩
  · rintro ⟨id, ⟨_, -, raised, hraised, acknowledged, hack, _, hraises, _, hfamily, _, hacks, _, hlater, hid⟩, hfresh, rfl⟩
    obtain rfl := List.singleton_injective hid
    exact ⟨(), fun hmem => hfresh _ hmem rfl, raised, hraised, acknowledged, hack, (), hraises, (), hfamily, (), hacks, (),
      hlater, rfl⟩

lemma review?_perm (hnodup : (reviews.map (·.digest)).Nodup) (hperm : reviews'.Perm reviews) (digest : String) :
    review? reviews' digest = review? reviews digest := by
  have hnodup' : (reviews'.map (·.digest)).Nodup := (hperm.map _).nodup_iff.mpr hnodup
  have hfind : ∀ {xs ys : List VerifiedReview}, (ys.map (·.digest)).Nodup → xs.Perm ys → ∀ r,
      review? xs digest = some r → review? ys digest = some r := by
    intro xs ys hnodup hperm r hr
    obtain ⟨hmem, hdigest⟩ := review?_eq_some hr
    cases hs : review? ys digest with
    | none =>
      have := List.find?_eq_none.mp hs r (hperm.mem_iff.mp hmem)
      simp [hdigest] at this
    | some s =>
      obtain ⟨hmem', hdigest'⟩ := review?_eq_some hs
      rw [List.inj_on_of_nodup_map hnodup hmem' (hperm.mem_iff.mp hmem) (hdigest'.trans hdigest.symm)]
  exact Option.ext fun r => ⟨hfind hnodup hperm r, hfind hnodup' hperm.symm r⟩

lemma chain_perm (hperm : reviews'.Perm reviews) (chainId : String) :
    (chain reviews' chainId).Perm (chain reviews chainId) := hperm.filter _

lemma Ordered.nodup_chain {chainId : String} (h : Ordered (orderedChain reviews chainId)) :
    ((chain reviews chainId).map (·.payload.round)).Nodup :=
  ((orderedChain_perm reviews chainId).map _).nodup_iff.mp h.nodup_rounds

lemma verifyChain_perm {chainId : String} (h : verifyChain reviews chainId = .ok ()) (hperm : reviews'.Perm reviews) :
    verifyChain reviews' chainId = .ok () := by
  have hordered : orderedChain reviews' chainId = orderedChain reviews chainId :=
    insertionSort_eq_of_perm _ (chain_perm hperm chainId) (verifyChain_eq_ok h).nodup_chain
  rwa [verifyChain, hordered]

lemma occurrences_perm (hperm : reviews'.Perm reviews) (ids : Review → List String) (id : String) :
    (occurrences reviews' ids id).Perm (occurrences reviews ids id) := hperm.filter _

lemma mem_findings_perm (hperm : reviews'.Perm reviews) {ids : Review → List String} {id : String} :
    id ∈ findings reviews' ids ↔ id ∈ findings reviews ids := by
  simp only [mem_findings, hperm.mem_iff]

lemma occurrences_eq (hperm : reviews'.Perm reviews) {ids : Review → List String} {id : String}
    (hone : (occurrences reviews ids id).length = 1) : occurrences reviews' ids id = occurrences reviews ids id := by
  obtain ⟨r, hr⟩ := List.length_eq_one_iff.mp hone
  have hsingle := occurrences_perm hperm ids id
  rw [hr] at hsingle ⊢
  exact List.perm_singleton.mp hsingle

lemma verifyReviewChains_perm (h : verifyReviewChains reviews = .ok ()) (hperm : reviews'.Perm reviews) :
    verifyReviewChains reviews' = .ok () := by
  simp only [verifyReviewChains, Fallible.bind_eq_ok, rejectIf_eq_ok, not_exists, not_and, not_not,
    Fallible.forM_eq_ok] at h ⊢
  obtain ⟨_, htransitions, _, hraised, _, hreferenced, _, hresolved, _, hacknowledged, _, hfollows, hchains⟩ := h
  refine ⟨(), Fallible.forM_eq_ok.mpr fun r hr => Fallible.forM_eq_ok.mp htransitions r (hperm.mem_iff.mp hr), (), fun id hid => ?_, (), fun id hid => ?_, (),
    fun id hid => ?_, (), fun id hid => ?_, (), fun id hid r hr a ha => ?_, fun chainId hchainId => ?_⟩
  · rw [(occurrences_perm hperm _ _).length_eq]
    exact hraised id ((mem_findings_perm hperm).mp hid)
  · rw [mem_findings_perm hperm]
    refine hreferenced id ?_
    simpa only [List.mem_append, mem_findings_perm hperm] using hid
  · rw [(occurrences_perm hperm _ _).length_eq]
    exact hresolved id ((mem_findings_perm hperm).mp hid)
  · rw [(occurrences_perm hperm _ _).length_eq]
    exact hacknowledged id ((mem_findings_perm hperm).mp hid)
  · have hid := (mem_findings_perm hperm).mp hid
    rw [occurrences_eq hperm (hraised id (hreferenced id (List.mem_append_right _ hid)))] at hr
    rw [occurrences_eq hperm (hacknowledged id hid)] at ha
    exact hfollows id hid r hr a ha
  · obtain ⟨r, hr, hchain⟩ := mem_chainIds.mp hchainId
    exact verifyChain_perm (hchains chainId (mem_chainIds.mpr ⟨r, hperm.mem_iff.mp hr, hchain⟩)) hperm

/-- The rounds of a chain are distinct, so its tip does not depend on the order of the reviews. -/
lemma Transitions.chainTip_perm (h : Transitions reviews) (hperm : reviews'.Perm reviews) (chainId : String) :
    chainTip reviews' chainId = chainTip reviews chainId := by
  have hmem : ∀ {r}, r ∈ chain reviews' chainId ↔ r ∈ chain reviews chainId := (chain_perm hperm chainId).mem_iff
  cases htip' : chainTip reviews' chainId with
  | none =>
    have hnil : chain reviews' chainId = [] := List.argmax_eq_none.mp (chainTip_eq_argmax chainId ▸ htip')
    have hnil' : chain reviews chainId = [] := List.nil_perm.mp (hnil ▸ chain_perm hperm chainId)
    rw [chainTip_eq_argmax, hnil', List.argmax_nil]
  | some tip' =>
    obtain ⟨hin', htop'⟩ := chainTip_eq_some htip'
    obtain ⟨hr, rfl⟩ := mem_chain.mp (hmem.mp hin')
    obtain ⟨tip, htip⟩ := exists_chainTip hr
    obtain ⟨hin, htop⟩ := chainTip_eq_some htip
    have hround : tip'.payload.round = tip.payload.round :=
      le_antisymm (htop _ (hmem.mp hin')) (htop' _ (hmem.mpr hin))
    rw [htip, List.inj_on_of_nodup_map (h.chains tip' hr).nodup_chain (hmem.mp hin') hin hround]

lemma verifyReviews_perm {bundle bundle' : Bundle} {subject : String}
    (henvelopes : bundle'.reviewEnvelopes.Perm bundle.reviewEnvelopes)
    (h : V.verifyReviews X bundle subject = .ok reviews) :
    ∃ reviews', reviews'.Perm reviews ∧ V.verifyReviews X bundle' subject = .ok reviews' := by
  simp only [EvidenceVerifier.verifyReviews, Fallible.bind_eq_ok, Fallible.pure_eq_ok] at h
  obtain ⟨keys, hkeys, reviews, hloop, _, hchains, rfl⟩ := h
  obtain ⟨reviews', hperm, hloop'⟩ := Fallible.foldlM_agreeing_perm (fun h => ⟨h.1.symm, h.2.symm⟩)
    (verifyReview_agreeing keys subject) henvelopes hloop
  refine ⟨reviews', hperm, ?_⟩
  simp only [EvidenceVerifier.verifyReviews, Fallible.bind_eq_ok, Fallible.pure_eq_ok]
  exact ⟨keys, hkeys, reviews', hloop', (), verifyReviewChains_perm hchains hperm, rfl⟩

lemma sameSet_iff {α : Type} [DecidableEq α] {xs xs' ys ys' : List α} (hx : ∀ a, a ∈ xs' ↔ a ∈ xs)
    (hy : ∀ a, a ∈ ys' ↔ a ∈ ys) : sameSet xs' ys' ↔ sameSet xs ys := by
  simp only [sameSet, hx, hy]

lemma verifyClosure_perm {bundle bundle' : Bundle} {subject root : String} (hnodup : (reviews.map (·.digest)).Nodup)
    (hperm : reviews'.Perm reviews) (hentries : bundle'.closureEntries.Perm bundle.closureEntries)
    (hroot : bundle'.closureRootSha256 = bundle.closureRootSha256)
    (hroot' : bundle'.consensusClosureRootSha256 = bundle.consensusClosureRootSha256)
    (h : V.verifyClosure X bundle reviews subject = .ok root) :
    V.verifyClosure X bundle' reviews' subject = .ok root := by
  simp only [EvidenceVerifier.verifyClosure, Fallible.bind_eq_ok, Fallible.pure_eq_ok, rejectIf_eq_ok, not_not] at h ⊢
  obtain ⟨ids, hids, _, hcovers, computed, hcomputed, _, hbundle, _, hconsensus, rfl⟩ := h
  obtain ⟨ids', hids', hloop'⟩ := Fallible.foldlM_agreeing_perm (fun h => h.symm) verifyClosureEntry_agreeing
    hentries hids
  have hsame : verifyClosureEntry reviews' = verifyClosureEntry reviews := by
    funext acc entry
    simp only [verifyClosureEntry, review?_perm hnodup hperm]
  have hraised : ∀ id, id ∈ findings (reviews'.filter (·.payload.verdict ≠ .agree)) Review.findingIds ↔
      id ∈ findings (reviews.filter (·.payload.verdict ≠ .agree)) Review.findingIds := fun id =>
    mem_findings_perm (hperm.filter _)
  obtain ⟨hids, hdistinct, -⟩ := closureEntries_foldlM hids
  have hsorted : closureRoot X V.contractVersion.closureDomain subject bundle'.closureEntries =
      closureRoot X V.contractVersion.closureDomain subject bundle.closureEntries := by
    rw [closureRoot, closureRoot, insertionSort_eq_of_perm (·.findingId) hentries (hids ▸ hdistinct)]
  exact ⟨ids', hsame ▸ hloop', (), (sameSet_iff (fun _ => hids'.mem_iff) hraised).mpr hcovers, computed,
    hsorted ▸ hcomputed, (), hroot ▸ hbundle, (), hroot' ▸ hconsensus, rfl⟩

lemma verifyConsensus_perm {bundle bundle' : Bundle} {subject root : String}
    (h : Transitions reviews) (hnodup : (reviews.map (·.digest)).Nodup) (hperm : reviews'.Perm reviews)
    (hfinal : bundle'.consensusFinalAgreeReviewSha256 = bundle.consensusFinalAgreeReviewSha256)
    (hfamilies : bundle'.consensusProviderFamilies = bundle.consensusProviderFamilies)
    {result : List VerifiedReview × List String} (hok : V.verifyConsensus bundle reviews subject root = .ok result) :
    V.verifyConsensus bundle' reviews' subject root = .ok result := by
  have hcounted : countedReview reviews' subject root = countedReview reviews subject root := by
    funext digest
    simp only [countedReview, review?_perm hnodup hperm, h.chainTip_perm hperm]
  have htips : ∀ digest, digest ∈ (chainTips reviews').map (·.digest) ↔ digest ∈ (chainTips reviews).map (·.digest) := by
    intro digest
    simp only [List.mem_map, mem_chainTips, h.chainTip_perm hperm]
  simp only [EvidenceVerifier.verifyConsensus, Fallible.bind_eq_ok, Fallible.pure_eq_ok, rejectIf_eq_ok, not_not,
    hcounted, hfinal, hfamilies, sameSet_iff htips (fun _ => Iff.rfl)] at hok ⊢
  exact hok

lemma verifyEvidence_perm {bundle bundle' : Bundle} {subject : String}
    (henvelopes : bundle'.reviewEnvelopes.Perm bundle.reviewEnvelopes)
    (hentries : bundle'.closureEntries.Perm bundle.closureEntries)
    (hrest : bundle' = { bundle with
      reviewEnvelopes := bundle'.reviewEnvelopes, closureEntries := bundle'.closureEntries })
    {out : String × List VerifiedReview × List String} (h : V.verifyEvidence X bundle subject = .ok out) :
    V.verifyEvidence X bundle' subject = .ok out := by
  simp only [EvidenceVerifier.verifyEvidence, Fallible.bind_eq_ok] at h ⊢
  obtain ⟨reviews, hreviews, root, hroot, result, hresult, hout⟩ := h
  obtain ⟨hnodup, -, hchains⟩ := verifyReviews_eq_ok hreviews
  obtain ⟨reviews', hperm, hreviews'⟩ := verifyReviews_perm henvelopes hreviews
  refine ⟨reviews', hreviews', root, verifyClosure_perm hnodup hperm hentries ?_ ?_ hroot, result,
    verifyConsensus_perm (verifyReviewChains_eq_ok hchains) hnodup hperm ?_ ?_ hresult, hout⟩
  all_goals rw [hrest]

/-- These checks are the ones that a verified bundle has passed. -/
lemma verifyEvidence_of_verifyBundle {envelope : Json} {verified : VerifiedBundle}
    (h : V.verifyBundle X envelope = .ok verified) :
    ∃ digest out, EvidenceVerifier.subjectDigest X verified.payload = .ok digest ∧ V.verifyEvidence X verified.payload digest = .ok out ∧
      verified.finalReviewDigests = (out.2.1.map (·.digest)).insertionSort (· ≤ ·) := by
  simp only [EvidenceVerifier.verifyBundle, Fallible.bind_eq_ok, Fallible.pure_eq_ok] at h
  obtain ⟨_, -, outer, -, _, -, bundle, -, _, -, _, -, _, -, digest, hdigest, _, -, _, -, reviews, hreviews, root, hroot,
    ⟨finals, families⟩, hresult, _, -, _, -, _, -, _, -, rfl⟩ := h
  refine ⟨digest, (root, finals, families), hdigest, ?_, rfl⟩
  simp only [EvidenceVerifier.verifyEvidence, Fallible.bind_eq_ok]
  exact ⟨reviews, hreviews, root, hroot, (finals, families), hresult, rfl⟩

/-- What the checks accept, and the closure root, the final reviews and the provider families that they give, do not
depend on the order of the review envelopes and of the closure entries. -/
theorem verifyEvidence_any_order {bundle : Bundle} {envelopes : List Json} {entries : List ClosureEntry}
    {subject : String} {out : String × List VerifiedReview × List String}
    (henvelopes : envelopes.Perm bundle.reviewEnvelopes) (hentries : entries.Perm bundle.closureEntries) :
    V.verifyEvidence X { bundle with reviewEnvelopes := envelopes, closureEntries := entries } subject = .ok out ↔
      V.verifyEvidence X bundle subject = .ok out :=
  ⟨verifyEvidence_perm henvelopes.symm hentries.symm rfl, verifyEvidence_perm henvelopes hentries rfl⟩

end

theorem verifyEvidence_any_order_reversed : ∃ V verified digest out, Sample.verifier = .ok V ∧
    V.verifyBundle Sample.externals Sample.bundleEnvelope = .ok verified ∧
    (out.2.1.map (·.digest)).insertionSort (· ≤ ·) = ["sha256:144", "sha256:146"] ∧
    V.verifyEvidence Sample.externals { verified.payload with
      reviewEnvelopes := verified.payload.reviewEnvelopes.reverse
      closureEntries := verified.payload.closureEntries.reverse } digest = .ok out := by
  have hok := Fallible.toOption_eq_some Sample.accepted_toOption
  simp only [Sample.accepted, Fallible.bind_eq_ok, Fallible.pure_eq_ok] at hok
  obtain ⟨V, hV, verified, hverified, hdigests⟩ := hok
  obtain ⟨digest, out, -, hout, hfinals⟩ := verifyEvidence_of_verifyBundle hverified
  exact ⟨V, verified, digest, out, hV, hverified, hfinals ▸ hdigests,
    (verifyEvidence_any_order (List.reverse_perm _) (List.reverse_perm _)).mpr hout⟩

end PlatformGitops.CrossAi.Contract
