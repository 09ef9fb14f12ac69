import PlatformGitops.Coordination.ClaimSoundness
import PlatformGitops.Coordination.InertCopies
import Mathlib

/-! When the gate and the reaper tell the same claims to have lapsed. -/

namespace PlatformGitops.Coordination

open Library Fallible
open CrossAi (Datetime IsoDatetime Stamp minute)

namespace LedgerClaimState

/-- When the lease runs out. -/
def Lease.expiry (lease : Lease) : Option Datetime := lease.claimExpiresAt.map Stamp.instant

/-- When the next heartbeat is due. -/
def Lease.deadline (lease : Lease) : Option Datetime :=
  lease.lastHeartbeatAt.map fun t => t.instant + lease.minutes * minute

end LedgerClaimState

namespace ReapLedgerState

def ClaimState.expiry (claim : ClaimState) : Option Datetime := claim.expiresAt.map (·.instant)

def ClaimState.deadline (claim : ClaimState) : Datetime :=
  (claim.lastHeartbeatAt.getD claim.acceptedAt).instant +
    (claim.heartbeatIntervalMinutes + claim.heartbeatGraceMinutes) * minute

end ReapLedgerState

open LedgerClaimState ReapLedgerState

variable {X : Externals} {repo session : String} {issue : Int} {now : IsoDatetime}

def Past (time : Option Datetime) (now : IsoDatetime) : Prop := ∃ t ∈ time, t < now.instant

section Gate

lemma passed_eq_ok {time : Option IsoDatetime} {b : Bool} (h : passed time now = .ok b) :
    b = true ↔ Past (time.map (·.instant)) now := by
  cases time with
  | none =>
    cases h
    simp [Past]
  | some time =>
    simp only [passed, before] at h
    split at h
    · cases h
      simp [Past]
    · simp at h

lemma heartbeatDeadline_eq_ok {state : IssueState} {deadline : Option IsoDatetime}
    (h : heartbeatDeadline state = .ok deadline) : deadline.map (·.instant) = state.lease.deadline := by
  unfold heartbeatDeadline at h
  cases hbeat : state.lastHeartbeatAt with
  | none =>
    rw [hbeat] at h
    cases h
    simp [Lease.deadline, IssueState.lease, hbeat]
  | some t =>
    rw [hbeat] at h
    obtain ⟨d, hd, rfl⟩ := map_eq_ok.mp h
    obtain ⟨-, rfl⟩ := addMinutes_stored.mp hd
    simp [Lease.deadline, Lease.minutes, IssueState.lease, hbeat]

/-- What the gate tells the session that holds the claim. -/
lemma evaluateState_lapse {state : IssueState} {decision : Decision} (hactive : Active session state)
    (h : evaluateState X state session now = .ok decision) :
    (decision.denyCode = some "ledger_claim_expired" ↔ Past state.lease.expiry now) ∧
      (decision.denyCode = some "ledger_claim_stale" ↔ ¬ Past state.lease.expiry now ∧ Past state.lease.deadline now) := by
  have hexpiry : (state.claimExpiresAt.map stored).map (·.instant) = state.lease.expiry := by
    simp [Lease.expiry, IssueState.lease, stored, Function.comp_def]
  unfold evaluateState at h
  rw [if_neg (not_not.mpr hactive.1), if_neg (not_not.mpr hactive.2), bind_eq_ok] at h
  obtain ⟨expired, hexpired, h⟩ := h
  have hpast := passed_eq_ok hexpired
  rw [hexpiry] at hpast
  split at h
  · rename_i htrue
    cases h
    simp [Decision.deny, hpast.mp htrue]
  · rename_i hfalse
    simp only [bind_eq_ok] at h
    obtain ⟨deadline, hdeadline, stale, hstale, h⟩ := h
    have hlate := passed_eq_ok hstale
    rw [heartbeatDeadline_eq_ok hdeadline] at hlate
    have hnot : ¬ Past state.lease.expiry now := mt hpast.mpr hfalse
    split at h
    · rename_i htrue
      cases h
      simp [Decision.deny, hnot, hlate.mp htrue]
    · rename_i hfresh
      cases h
      simp [hnot, mt hlate.mpr hfresh]

end Gate

section Reaper

/-- The finding names the session's claim on the issue. -/
def Reports (eventType repo : String) (issue : Int) (session : String) (found : Json) : Prop :=
  OfType eventType found ∧ (found.get "payload").get "repository" = .str repo ∧
    (found.get "payload").get "issue" = .int issue ∧ (found.get "payload").get "session" = .str session

def Revoked (claim : ClaimState) : Prop := claim.revokedBy.any (· ≠ "") = true

lemma reports_finding {eventType kind reason : String} {claim : ClaimState} {detectedAt : Json}
    {more : List (String × Json)} :
    Reports eventType repo issue session (finding kind reason (basePayload claim detectedAt ++ more)) ↔
      kind = eventType ∧ claim.repository = repo ∧ claim.issue = issue ∧ claim.session = session := by
  simp [Reports, OfType, finding, basePayload, Json.get, List.lookup]

lemma expired_eq_ok {claim : ClaimState} {b : Bool} (h : expired claim now = .ok b) :
    b = true ↔ Past claim.expiry now := by
  unfold expired at h
  unfold ClaimState.expiry
  cases hexpires : claim.expiresAt with
  | none =>
    rw [hexpires] at h
    cases h
    simp [Past]
  | some t =>
    rw [hexpires] at h
    simp only [before] at h
    split at h
    · cases h
      simp [Past]
    · simp at h

lemma heartbeatDeadline_instant {claim : ClaimState} {deadline : IsoDatetime}
    (h : claim.heartbeatDeadline = .ok deadline) : deadline.instant = claim.deadline := by
  unfold ClaimState.heartbeatDeadline addMinutes at h
  split at h
  · cases h
    rfl
  · simp at h

/-- What the reaper finds about one claim. -/
lemma detectClaim_eq_ok {claim : ClaimState} {out : Option Json} (h : detectClaim X now claim = .ok out) :
    ((∃ found ∈ out, Reports "CLAIM_EXPIRED" repo issue session found) ↔
        (claim.repository = repo ∧ claim.issue = issue ∧ claim.session = session) ∧ ¬ Revoked claim ∧
          Past claim.expiry now) ∧
      ((∃ found ∈ out, Reports "CLAIM_STALE" repo issue session found) ↔
        (claim.repository = repo ∧ claim.issue = issue ∧ claim.session = session) ∧ ¬ Revoked claim ∧
          ¬ Past claim.expiry now ∧ claim.deadline < now.instant) := by
  unfold detectClaim at h
  split at h
  · rename_i hrevoked
    have hgone : Revoked claim := hrevoked
    cases h
    simp [hgone]
  · rename_i hrevoked
    have hkept : ¬ Revoked claim := hrevoked
    simp only [bind_eq_ok] at h
    obtain ⟨detectedAt, -, lapsed, hlapsed, h⟩ := h
    have hpast := expired_eq_ok hlapsed
    split at h
    · rename_i htrue
      simp only [bind_eq_ok, pure_eq_ok] at h
      obtain ⟨expiresAt, -, rfl⟩ := h
      simp [reports_finding, hkept, hpast.mp htrue]
    · rename_i hfalse
      have hnot : ¬ Past claim.expiry now := mt hpast.mpr hfalse
      simp only [bind_eq_ok] at h
      obtain ⟨deadline, hdeadline, late, hlate, h⟩ := h
      have hinstant := heartbeatDeadline_instant hdeadline
      have hlate : late = true ↔ claim.deadline < now.instant := by
        unfold before at hlate
        split at hlate
        · cases hlate
          simp [hinstant]
        · simp at hlate
      split at h
      · rename_i htrue
        simp only [bind_eq_ok, pure_eq_ok] at h
        obtain ⟨deadlineText, -, lastText, -, rfl⟩ := h
        simp [reports_finding, hkept, hnot, hlate.mp htrue]
      · rename_i hfresh
        cases h
        have hnever : ¬ claim.deadline < now.instant := mt hlate.mpr hfresh
        simp [hnot, hnever]

lemma mem_mapM_some {ε α β : Type} {f : α → Except ε (Option β)} {xs : List α} {ys : List (Option β)}
    (h : xs.mapM f = .ok ys) (p : β → Prop) :
    (∃ y ∈ ys.filterMap id, p y) ↔ ∃ x ∈ xs, ∃ out, f x = .ok out ∧ ∃ y ∈ out, p y := by
  obtain ⟨hleft, hright⟩ := mapM_eq_ok h
  constructor
  · rintro ⟨y, hy, hp⟩
    obtain ⟨out, hout, rfl⟩ := List.mem_filterMap.mp hy
    obtain ⟨x, hx, hf⟩ := hright _ hout
    exact ⟨x, hx, _, hf, y, rfl, hp⟩
  · rintro ⟨x, hx, out, hf, y, rfl, hp⟩
    obtain ⟨out', hout, hf'⟩ := hleft x hx
    rw [hf] at hf'
    cases hf'
    exact ⟨y, List.mem_filterMap.mpr ⟨_, hout, rfl⟩, hp⟩

/-- The findings about a claim are those about the claim under its key. -/
lemma detectStaleClaims_lapse {claims : Claims} {findings : List Json} (hkeyed : Keyed claims)
    (h : detectStaleClaims X claims now = .ok findings) :
    ((∃ found ∈ findings, Reports "CLAIM_EXPIRED" repo issue session found) ↔
        ∃ claim, claims.lookup (claimKey repo issue session) = some claim ∧
          (claim.repository = repo ∧ claim.issue = issue ∧ claim.session = session) ∧ ¬ Revoked claim ∧
          Past claim.expiry now) ∧
      ((∃ found ∈ findings, Reports "CLAIM_STALE" repo issue session found) ↔
        ∃ claim, claims.lookup (claimKey repo issue session) = some claim ∧
          (claim.repository = repo ∧ claim.issue = issue ∧ claim.session = session) ∧ ¬ Revoked claim ∧
          ¬ Past claim.expiry now ∧ claim.deadline < now.instant) := by
  simp only [detectStaleClaims, bind_eq_ok, pure_eq_ok] at h
  obtain ⟨outs, houts, rfl⟩ := h
  have hvalue : ∀ claim, claim ∈ claims.map (·.2) →
      (claim.repository = repo ∧ claim.issue = issue ∧ claim.session = session) →
      claims.lookup (claimKey repo issue session) = some claim := by
    rintro claim hmem ⟨rfl, rfl, rfl⟩
    obtain ⟨⟨key, c⟩, hp, rfl⟩ := List.mem_map.mp hmem
    have hkey : c.key = key := hkeyed.keys (key, c) hp
    rw [← Dict.Unique.mem_iff hkeyed.unique]
    exact hkey ▸ hp
  have hmem : ∀ claim, claims.lookup (claimKey repo issue session) = some claim → claim ∈ claims.map (·.2) := by
    intro claim hlookup
    rw [← Dict.Unique.mem_iff hkeyed.unique] at hlookup
    exact List.mem_map_of_mem hlookup
  have hans : ∀ claim ∈ claims.map (·.2), ∃ out, detectClaim X now claim = .ok out := by
    intro claim hclaim
    obtain ⟨out, -, hout⟩ := mem_mapM houts hclaim
    exact ⟨out, hout⟩
  rw [mem_mapM_some houts, mem_mapM_some houts]
  constructor
  · constructor
    · rintro ⟨claim, hclaim, out, hout, hfound⟩
      have hspec := (detectClaim_eq_ok hout).1.mp hfound
      exact ⟨claim, hvalue claim hclaim hspec.1, hspec⟩
    · rintro ⟨claim, hlookup, hspec⟩
      obtain ⟨out, hout⟩ := hans claim (hmem claim hlookup)
      exact ⟨claim, hmem claim hlookup, out, hout, (detectClaim_eq_ok hout).1.mpr hspec⟩
  · constructor
    · rintro ⟨claim, hclaim, out, hout, hfound⟩
      have hspec := (detectClaim_eq_ok hout).2.mp hfound
      exact ⟨claim, hvalue claim hclaim hspec.1, hspec⟩
    · rintro ⟨claim, hlookup, hspec⟩
      obtain ⟨out, hout⟩ := hans claim (hmem claim hlookup)
      exact ⟨claim, hmem claim hlookup, out, hout, (detectClaim_eq_ok hout).2.mpr hspec⟩

end Reaper

/-- The lease of the grant to the session that is in force. -/
def GateLease (X : Externals) (repo : String) (issue : Int) (session : String) (events : List Json) (lease : Lease) :
    Prop :=
  ∃ before event after, events = before ++ event :: after ∧ GrantInForce X repo issue session lease before event after

/-- The claim that the reaper holds for the session. -/
def ReaperClaim (X : Externals) (repo : String) (issue : Int) (session : String) (events : List Json)
    (claim : ClaimState) : Prop :=
  ∃ ms, marks X events = .ok ms ∧ Recorded (claimKey repo issue session) claim ms ∧
    (claim.repository = repo ∧ claim.issue = issue ∧ claim.session = session) ∧ ¬ Revoked claim

/-- At this time the expiry and the deadline of the lease have passed for one reader if and only if they have for the
other; where the reaper holds no claim, neither has. -/
def NotBetween (X : Externals) (repo : String) (issue : Int) (session : String) (now : IsoDatetime)
    (events : List Json) : Prop :=
  ∃ lease, GateLease X repo issue session events lease ∧
    ((∃ claim, ReaperClaim X repo issue session events claim ∧ (Past lease.expiry now ↔ Past claim.expiry now) ∧
        (¬ Past lease.expiry now → (Past lease.deadline now ↔ claim.deadline < now.instant))) ∨
      (∀ claim, ¬ ReaperClaim X repo issue session events claim) ∧ ¬ Past lease.expiry now ∧ ¬ Past lease.deadline now)

/-- The gate and the reaper give the same answer on a lapsed claim. -/
def LapsesAgree (repo : String) (issue : Int) (session : String) (decision : Decision) (findings : List Json) : Prop :=
  (decision.denyCode = some "ledger_claim_expired" ↔
      ∃ found ∈ findings, Reports "CLAIM_EXPIRED" repo issue session found) ∧
    (decision.denyCode = some "ledger_claim_stale" ↔
      ∃ found ∈ findings, Reports "CLAIM_STALE" repo issue session found)

lemma gateLease_iff {events : List Json} {state : IssueState} {lease : Lease}
    (h : currentIssueState X events repo issue = .ok state) (hactive : Active session state) :
    GateLease X repo issue session events lease ↔ lease = state.lease := by
  obtain ⟨cs, hcs, hrun⟩ := currentIssueState_eq_ok.mp h
  have hlease : ∀ {lease : Lease}, GateLease X repo issue session events lease → lease = state.lease := by
    rintro _ ⟨before, event, after, rfl, us, granted, eventUuid, reason, vs, hbefore, hevent, hafter, -, hends, rfl⟩
    have hchanges : changes X repo issue (before ++ event :: after) =
        .ok (us ++ .grant session granted eventUuid reason :: vs) :=
      changes_append.mpr ⟨us, _, hbefore, changes_cons.mpr ⟨_, vs, hevent, hafter, rfl⟩, rfl⟩
    rw [hchanges] at hcs
    cases hcs
    rw [replay_of_grant hends hrun]
    rfl
  refine ⟨hlease, ?_⟩
  rintro rfl
  obtain ⟨us, c, vs, rfl, hgrant, hends⟩ := (active_iff hrun).mp hactive
  obtain ⟨before, event, after, rfl, hbefore, hevent, hafter⟩ := changes_split hcs
  cases c with
  | grant s granted eventUuid reason =>
    obtain rfl : s = session := hgrant
    refine ⟨before, event, after, rfl, us, granted, eventUuid, reason, vs, hbefore, hevent, hafter,
      reads_iff.mp ⟨state, hrun⟩, hends, ?_⟩
    rw [replay_of_grant hends hrun]
    rfl
  | _ => cases hgrant

lemma reaperClaim_iff {events : List Json} {claims : Claims} {claim : ClaimState}
    (h : deriveClaims X events = .ok claims) :
    ReaperClaim X repo issue session events claim ↔ claims.lookup (claimKey repo issue session) = some claim ∧
      (claim.repository = repo ∧ claim.issue = issue ∧ claim.session = session) ∧ ¬ Revoked claim := by
  obtain ⟨ms, hms, hrun⟩ := deriveClaims_eq_ok.mp h
  rw [lookup_iff hrun]
  constructor
  · rintro ⟨ms', hms', hrecorded⟩
    rw [hms] at hms'
    cases hms'
    exact hrecorded
  · exact fun hrecorded => ⟨ms, hms, hrecorded⟩

/-- The cases of a claim that the reaper holds, by whether it is the session's own `p` and revoked `r`. -/
lemma lapses_cases {p r e e' d d' : Prop} :
    ((e ↔ p ∧ ¬ r ∧ e') ∧ (¬ e ∧ d ↔ p ∧ ¬ r ∧ ¬ e' ∧ d')) ↔
      (p ∧ ¬ r) ∧ (e ↔ e') ∧ (¬ e → (d ↔ d')) ∨ ¬ (p ∧ ¬ r) ∧ ¬ e ∧ ¬ d := by
  tauto

section Ledgers

variable {authority : Authority} {path : String} {bytes : List UInt8} {result : ReplayResult} {state : IssueState}
  {claims : Claims} {decision : Decision} {findings : List Json}

/-- The two readers agree on the lapse of a claim unless the time lies between what each of them takes for its end. -/
theorem lapses_agree_iff (h : replay X authority path (some bytes) = .ok result) (hvalid : result.valid = true)
    (hstate : issueState X bytes repo issue = .ok state) (hactive : Active session state)
    (hclaims : derivedClaims X path bytes = .ok claims) (hgate : evaluateState X state session now = .ok decision)
    (hreaper : detectStaleClaims X claims now = .ok findings) :
    LapsesAgree repo issue session decision findings ↔
      NotBetween X repo issue session now (ledgerEvents X bytes) := by
  rw [issueState_eq h hvalid] at hstate
  rw [derivedClaims_eq h hvalid] at hclaims
  obtain ⟨hexpired, hstale⟩ := evaluateState_lapse hactive hgate
  have hkeyed : Keyed claims := by
    obtain ⟨ms, -, hrun⟩ := deriveClaims_eq_ok.mp hclaims
    exact keyed_of_replayMarks hrun
  obtain ⟨hfound, hfoundStale⟩ := @detectStaleClaims_lapse X repo session issue now _ _ hkeyed hreaper
  simp only [LapsesAgree, NotBetween, gateLease_iff hstate hactive, reaperClaim_iff hclaims, hexpired, hstale, hfound,
    hfoundStale, exists_eq_left]
  cases hlookup : claims.lookup (claimKey repo issue session) with
  | none =>
    simp only [reduceCtorEq, false_and, exists_false, iff_false, not_false_eq_true, implies_true, true_and, false_or]
    tauto
  | some claim =>
    have hcases := @lapses_cases (claim.repository = repo ∧ claim.issue = issue ∧ claim.session = session)
      (Revoked claim) (Past state.lease.expiry now) (Past claim.expiry now) (Past state.lease.deadline now)
      (claim.deadline < now.instant)
    simpa only [Option.some.injEq, exists_eq_left', and_assoc, forall_eq', not_and] using hcases

end Ledgers

namespace Sample

open Library.Json

def takenOver : List Draft :=
  [⟨"u1", "TAKEOVER_COMMITTED", "coordinator", "2026-07-16T20:00:00Z", after 0,
      .obj [("issue", .int 1), ("new_session", .str "b"), ("repository", .str "o/r")],
      "72dca92a971a47fb96ea8ba34a5470b2a02bf4764228c4fa46a3182ae28a51a5",
      "7fa24414507568fb0176e367ee8309cd4d25d4d53729bee9b0d6f1b1326de900"⟩]

lemma readable_takenOver (X : Externals) : ∀ draft ∈ takenOver, All (Readable X.float) draft.payload := by
  simp [takenOver, All, AllFields, Readable, readable_one]

lemma sorted_takenOver : ∀ draft ∈ takenOver, sorted draft.payload = draft.payload := by
  simp only [takenOver, List.forall_mem_cons]
  exact ⟨rfl, by simp⟩

lemma labelled_takenOver : Labelled ["event_uuid"] (materials none takenOver) := by
  simp [Labelled, takenOver, materials, label, Draft.chainedTo, Json.get, List.lookup, asStr?]

lemma replay_takenOver : ∃ result, replay (externals (digests takenOver)) authority "ledger.jsonl"
    (some (ledgerBytes (chained prefixed none takenOver))) = .ok result ∧ result.valid = true :=
  replay_sample (readable_takenOver _) labelled_takenOver (by decide) (by decide) (by decide) _

lemma ok_of_any {α ε : Type} {outcome : Except ε α} {p : α → Bool} (h : outcome.toOption.any p = true) :
    ∃ a, outcome = .ok a ∧ p a = true := by
  cases outcome with
  | error => simp [Except.toOption] at h
  | ok a => exact ⟨a, rfl, h⟩

/-- Both readers on the ledger of the takeover. -/
lemma readers_takenOver {minutes : Int} {code : Option String} {found : Nat}
    (hgate : ((currentIssueState (externals (digests takenOver)) (chained prefixed none takenOver) "o/r" 1).toOption.any
      fun state => decide (state.permissionState = .activeWinner ∧ state.activeSession = some "b") &&
        (evaluateState (externals (digests takenOver)) state "b" ⟨after minutes, some 0⟩).toOption.any
          fun decision => decision.denyCode == code) = true)
    (hreaper : ((deriveClaims (externals (digests takenOver)) (chained prefixed none takenOver)).toOption.any
      fun claims => (detectStaleClaims (externals (digests takenOver)) claims ⟨after minutes, some 0⟩).toOption.any
        fun findings => findings.length == found) = true) :
    ∃ state decision claims findings,
      issueState (externals (digests takenOver)) (ledgerBytes (chained prefixed none takenOver)) "o/r" 1 = .ok state ∧
      Active "b" state ∧
      evaluateState (externals (digests takenOver)) state "b" ⟨after minutes, some 0⟩ = .ok decision ∧
      derivedClaims (externals (digests takenOver)) "ledger.jsonl"
        (ledgerBytes (chained prefixed none takenOver)) = .ok claims ∧
      detectStaleClaims (externals (digests takenOver)) claims ⟨after minutes, some 0⟩ = .ok findings ∧
      decision.denyCode = code ∧ findings.length = found := by
  obtain ⟨state, hstate, hrest⟩ := ok_of_any hgate
  obtain ⟨hactive, hrest⟩ := (Bool.and_eq_true _ _).mp hrest
  have hactive : Active "b" state := by simpa [Active] using hactive
  obtain ⟨decision, hdecision, hcode⟩ := ok_of_any hrest
  obtain ⟨claims, hclaims, hrest⟩ := ok_of_any hreaper
  obtain ⟨findings, hfindings, hfound⟩ := ok_of_any hrest
  obtain ⟨result, h, hvalid⟩ := replay_takenOver
  have hevents := ledgerEvents_chained (readable_takenOver (externals (digests takenOver))) sorted_takenOver
  refine ⟨state, decision, claims, findings, ?_, hactive, hdecision, ?_, hfindings,
    eq_of_beq hcode, eq_of_beq hfound⟩
  · rw [issueState_eq h hvalid, hevents, hstate]
  · rw [derivedClaims_eq h hvalid, hevents, hclaims]

end Sample

open Sample in
/-- Two hours after a takeover the gate denies the new session as stale, and the reaper reports nothing. -/
theorem lapses_agree_iff_takenOver :
    ∃ result state decision claims findings,
      replay (externals (digests takenOver)) authority "ledger.jsonl"
        (some (ledgerBytes (chained prefixed none takenOver))) = .ok result ∧ result.valid = true ∧
      issueState (externals (digests takenOver)) (ledgerBytes (chained prefixed none takenOver)) "o/r" 1 = .ok state ∧
      Active "b" state ∧
      derivedClaims (externals (digests takenOver)) "ledger.jsonl"
        (ledgerBytes (chained prefixed none takenOver)) = .ok claims ∧
      evaluateState (externals (digests takenOver)) state "b" ⟨after 120, some 0⟩ = .ok decision ∧
      detectStaleClaims (externals (digests takenOver)) claims ⟨after 120, some 0⟩ = .ok findings ∧
      ¬ LapsesAgree "o/r" 1 "b" decision findings := by
  obtain ⟨result, h, hvalid⟩ := replay_takenOver
  obtain ⟨state, decision, claims, findings, hstate, hactive, hdecision, hclaims, hfindings, hcode, hfound⟩ :=
    @readers_takenOver 120 (some "ledger_claim_stale") 0 (by decide) (by decide)
  refine ⟨result, state, decision, claims, findings, h, hvalid, hstate, hactive, hclaims, hdecision, hfindings, ?_⟩
  rintro ⟨-, hstale⟩
  obtain ⟨found, hmem, -⟩ := hstale.mp hcode
  rw [List.length_eq_zero_iff.mp hfound] at hmem
  exact List.not_mem_nil hmem

open Sample in
/-- Ten minutes after it the claim has lapsed for neither. -/
theorem lapses_agree_iff_fresh :
    ∃ decision findings, LapsesAgree "o/r" 1 "b" decision findings ↔
      NotBetween (externals (digests takenOver)) "o/r" 1 "b" ⟨after 10, some 0⟩
        (ledgerEvents (externals (digests takenOver)) (ledgerBytes (chained prefixed none takenOver))) := by
  obtain ⟨result, h, hvalid⟩ := replay_takenOver
  obtain ⟨state, decision, claims, findings, hstate, hactive, hdecision, hclaims, hfindings, -, -⟩ :=
    @readers_takenOver 10 none 0 (by decide) (by decide)
  exact ⟨decision, findings, lapses_agree_iff h hvalid hstate hactive hclaims hdecision hfindings⟩

end PlatformGitops.Coordination
