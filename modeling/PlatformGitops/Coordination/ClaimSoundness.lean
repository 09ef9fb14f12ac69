import PlatformGitops.Coordination.ClaimChanges
import PlatformGitops.Coordination.Readers
import PlatformGitops.Coordination.TamperEvidence

/-! When the gate lets a session act, and which events of the ledger stand behind it. -/

namespace PlatformGitops.Coordination.LedgerClaimState

open Library Fallible
open CrossAi (IsoDatetime Stamp minute)

variable (X : Externals)

/-- The answer of the gate for a ledger. -/
def permission (bytes : List UInt8) (repo : String) (issue : Int) (session : String) (now : IsoDatetime) :
    Except Failure Decision := do
  let events ← readEvents X bytes
  let state ← currentIssueState X events repo issue
  evaluateState X state session now

section Events

variable (repo : String) (issue : Int) (session : String)

/-- The event names the session as the one to hold the claim. -/
def GrantsTo (event : Json) : Prop :=
  matchesIssue (payload event) repo issue ∧
    (OfType "CLAIM_ACCEPTED" event ∧ claimSession (payload event) = some session ∨
      OfType "TAKEOVER_COMMITTED" event ∧ newSession (payload event) = some session)

/-- The event takes permission away from the session, and the gate has a rule for it. -/
def Withdraws (event : Json) : Prop :=
  matchesIssue (payload event) repo issue ∧
    ((∃ r : Revocation, OfType r.name event ∧
        (claimSession (payload event) = none ∨ claimSession (payload event) = some session)) ∨
      OfType "TAKEOVER_ACCEPTED" event ∧
        (oldSession (payload event) = some session ∨ newSession (payload event) = some session) ∨
      ∃ c : Closure, OfType c.name event)

def withoutRule : List String := ["COORDINATION_LOG_MUTATION_DETECTED", "VERIFY_FAILED", "SECRET_SCAN_FAILED"]

/-- The event takes permission away from every session, but the gate has no rule for it. -/
def Overlooked (event : Json) : Prop :=
  matchesIssue (payload event) repo issue ∧ ∃ eventType ∈ withoutRule, OfType eventType event

/-- The session was named as the one to hold the claim, and no later event takes permission away from it. -/
def Supported (events : List Json) : Prop :=
  Since (GrantsTo repo issue session) (fun event => Withdraws repo issue session event ∨ Overlooked repo issue event)
    events

end Events

/-- The event grants the claim to the session, no later event ends the grant, and its heartbeats lead to the lease. -/
def GrantInForce (repo : String) (issue : Int) (session : String) (lease : Lease) (before : List Json) (event : Json)
    (after : List Json) : Prop :=
  ∃ cs granted eventUuid reason cs', changes X repo issue before = .ok cs ∧
    changeOf X repo issue event = .ok (.grant session granted eventUuid reason) ∧
    changes X repo issue after = .ok cs' ∧ Reads (cs ++ .grant session granted eventUuid reason :: cs') ∧
    (∀ c ∈ cs', ¬ c.Ends session) ∧ lease = granted.renewed session cs'

variable {X} {repo session : String} {issue : Int} {now : IsoDatetime}

section Kinds

lemma lookup_eventKinds : ∀ p ∈ eventKinds, eventKinds.lookup p.1 = some p.2 := by
  decide

lemma eventKinds_injective : ∀ p ∈ eventKinds, p.2 ≠ .other ∧ ∀ q ∈ eventKinds, p.2 = q.2 → p.1 = q.1 := by
  decide

/-- Each kind but the last is the kind of one type. -/
lemma ofType_iff {event : Json} {kind kind' : EventKind} {eventType : String}
    (h : eventKind (event.get "event_type") = .ok kind) (hrow : (eventType, kind') ∈ eventKinds) :
    OfType eventType event ↔ kind = kind' := by
  constructor
  · intro htype
    rw [htype, eventKind, lookup_eventKinds _ hrow] at h
    cases h
    rfl
  · rintro rfl
    have hkind := (eventKinds_injective _ hrow).1
    unfold eventKind at h
    split at h
    · rename_i found hfound
      cases hlookup : eventKinds.lookup found with
      | none =>
        rw [hlookup] at h
        cases h
        exact absurd rfl hkind
      | some kind =>
        rw [hlookup] at h
        cases h
        obtain ⟨l₁, l₂, hlist, -⟩ := List.lookup_eq_some_iff.mp hlookup
        have hmem : (found, kind) ∈ eventKinds := by simp [hlist]
        have heq : eventType = found := (eventKinds_injective _ hrow).2 _ hmem rfl
        rw [OfType, hfound, heq]
    · cases h
    · cases h
    · cases h
      exact absurd rfl hkind

lemma mem_revocation (r : Revocation) : (r.name, EventKind.revocation r) ∈ eventKinds := by
  cases r <;> decide

lemma mem_closure (c : Closure) : (c.name, EventKind.closure c) ∈ eventKinds := by
  cases c <;> decide

lemma grantOf_eq_ok {session : Option String} {data eventUuid : Json} {committedAt : Option IsoDatetime}
    {reason : String} {c : Change} (h : grantOf X session data eventUuid committedAt reason = .ok c) :
    session = none ∧ c = .ignored ∨
      ∃ s lease, session = some s ∧ leaseOf X data committedAt = .ok lease ∧ c = .grant s lease eventUuid reason := by
  cases session with
  | none =>
    cases h
    exact .inl ⟨rfl, rfl⟩
  | some s =>
    simp only [grantOf, bind_eq_ok, pure_eq_ok] at h
    obtain ⟨lease, hlease, rfl⟩ := h
    exact .inr ⟨s, lease, rfl, hlease, rfl⟩

lemma changeOf_cases {event : Json} {c : Change} (h : changeOf X repo issue event = .ok c) :
    ¬ matchesIssue (payload event) repo issue ∧ c = .ignored ∨
      matchesIssue (payload event) repo issue ∧ ∃ committedAt kind,
        parseUtcZ X (event.get "committed_at") "committed_at" = .ok committedAt ∧
        eventKind (event.get "event_type") = .ok kind ∧
        changeOfKind X kind (payload event) (event.get "event_uuid") committedAt = .ok c := by
  unfold changeOf at h
  split at h
  · rename_i hissue
    simp only [bind_eq_ok] at h
    obtain ⟨committedAt, hcommitted, kind, hkind, hc⟩ := h
    exact .inr ⟨hissue, committedAt, kind, hcommitted, hkind, hc⟩
  · rename_i hissue
    cases h
    exact .inl ⟨hissue, rfl⟩

/-- What a change grants and ends is what its event says. -/
lemma changeOf_effect {event : Json} {c : Change} (h : changeOf X repo issue event = .ok c) :
    (c.Grants session ↔ GrantsTo repo issue session event) ∧
      (c.Ends session ↔ (∃ other, GrantsTo repo issue other event) ∨ Withdraws repo issue session event) := by
  obtain ⟨hissue, rfl⟩ | ⟨hissue, committedAt, kind, -, hkind, hc⟩ := changeOf_cases h
  · simp [GrantsTo, Withdraws, hissue, Change.Grants, Change.Ends, Change.Releases]
  · have haccepted : OfType "CLAIM_ACCEPTED" event ↔ kind = .claimAccepted := ofType_iff hkind (by decide)
    have hcommitted : OfType "TAKEOVER_COMMITTED" event ↔ kind = .takeoverCommitted :=
      ofType_iff hkind (by decide)
    have htakeover : OfType "TAKEOVER_ACCEPTED" event ↔ kind = .takeoverAccepted :=
      ofType_iff hkind (by decide)
    have hrevocation : ∀ r : Revocation, OfType r.name event ↔ kind = .revocation r :=
      fun r => ofType_iff hkind (mem_revocation r)
    have hclosure : ∀ c : Closure, OfType c.name event ↔ kind = .closure c :=
      fun c => ofType_iff hkind (mem_closure c)
    simp only [GrantsTo, Withdraws, hissue, haccepted, hcommitted, htakeover, hrevocation, hclosure, true_and]
    cases kind with
    | claimAccepted =>
      obtain ⟨hnone, rfl⟩ | ⟨s, lease, hsome, -, rfl⟩ := grantOf_eq_ok hc
      · simp [hnone, Change.Grants, Change.Ends, Change.Releases]
      · simp [hsome, Change.Grants, Change.Ends, Change.Releases]
    | takeoverCommitted =>
      obtain ⟨hnone, rfl⟩ | ⟨s, lease, hsome, -, rfl⟩ := grantOf_eq_ok hc
      · simp [hnone, Change.Grants, Change.Ends, Change.Releases]
      · simp [hsome, Change.Grants, Change.Ends, Change.Releases]
    | heartbeatEvidence =>
      cases hc
      cases claimSession (payload event) <;>
        simp [heartbeatOf, Change.Grants, Change.Ends, Change.Releases]
    | revocation r =>
      cases hc
      simp [Change.Grants, Change.Ends]
    | takeoverAccepted =>
      cases hc
      simp [Change.Grants, Change.Ends, Change.Releases]
    | closure c =>
      cases hc
      simp [Change.Grants, Change.Ends, Change.Releases]
    | other =>
      cases hc
      simp [Change.Grants, Change.Ends, Change.Releases]

end Kinds

lemma changes_append {xs ys : List Json} {cs : List Change} :
    changes X repo issue (xs ++ ys) = .ok cs ↔
      ∃ us vs, changes X repo issue xs = .ok us ∧ changes X repo issue ys = .ok vs ∧ cs = us ++ vs :=
  mapM_append_eq_ok

lemma changes_cons {event : Json} {events : List Json} {cs : List Change} :
    changes X repo issue (event :: events) = .ok cs ↔
      ∃ c rest, changeOf X repo issue event = .ok c ∧ changes X repo issue events = .ok rest ∧ cs = c :: rest := by
  simp only [changes, List.mapM_cons, bind_eq_ok, pure_eq_ok]
  constructor
  · rintro ⟨c, hc, rest, hrest, rfl⟩
    exact ⟨c, rest, hc, hrest, rfl⟩
  · rintro ⟨c, rest, hc, hrest, rfl⟩
    exact ⟨c, hc, rest, hrest, rfl⟩

/-- Where the changes of a ledger split, its events do. -/
lemma changes_split {events : List Json} {us vs : List Change} {c : Change}
    (h : changes X repo issue events = .ok (us ++ c :: vs)) :
    ∃ before event after, events = before ++ event :: after ∧ changes X repo issue before = .ok us ∧
      changeOf X repo issue event = .ok c ∧ changes X repo issue after = .ok vs := by
  induction us generalizing events with
  | nil =>
    cases events with
    | nil => cases h
    | cons event events =>
      obtain ⟨c', rest, hc, hrest, heq⟩ := changes_cons.mp h
      cases heq
      exact ⟨[], event, events, rfl, rfl, hc, hrest⟩
  | cons u us ih =>
    cases events with
    | nil => cases h
    | cons first events =>
      obtain ⟨c', rest, hc, hrest, heq⟩ := changes_cons.mp h
      cases heq
      obtain ⟨before, event, after, rfl, hbefore, hevent, hafter⟩ := ih hrest
      exact ⟨first :: before, event, after, rfl, changes_cons.mpr ⟨u, us, hc, hbefore, rfl⟩, hevent, hafter⟩

lemma forall_mem_changes {events : List Json} {cs : List Change} (h : changes X repo issue events = .ok cs)
    {p : Change → Prop} {q : Json → Prop}
    (hpq : ∀ event c, changeOf X repo issue event = .ok c → (p c ↔ q event)) :
    (∀ c ∈ cs, p c) ↔ ∀ event ∈ events, q event := by
  induction events generalizing cs with
  | nil =>
    cases h
    simp
  | cons event events ih =>
    obtain ⟨c, rest, hc, hrest, rfl⟩ := changes_cons.mp h
    rw [List.forall_mem_cons, List.forall_mem_cons, hpq event c hc, ih hrest]

lemma allowed_bind {state : Except Failure IssueState} :
    Allowed (state >>= fun s => evaluateState X s session now) ↔
      ∃ s, state = .ok s ∧ Active session s ∧ s.lease.Live now := by
  cases state with
  | error failure => simp [Allowed, bind, Except.bind]
  | ok s => simp [bind, Except.bind, allowed_iff]

/-- A session is permitted when a grant to it is in force and its lease is live. -/
lemma permitted_iff {events : List Json} :
    Allowed (currentIssueState X events repo issue >>= fun s => evaluateState X s session now) ↔
      ∃ before event after lease, events = before ++ event :: after ∧
        GrantInForce X repo issue session lease before event after ∧ lease.Live now := by
  rw [allowed_bind]
  constructor
  · rintro ⟨state, hstate, hactive, hlive⟩
    obtain ⟨cs, hcs, hrun⟩ := currentIssueState_eq_ok.mp hstate
    obtain ⟨us, c, vs, rfl, hgrant, hends⟩ := (active_iff hrun).mp hactive
    obtain ⟨before, event, after, rfl, hbefore, hevent, hafter⟩ := changes_split hcs
    cases c with
    | grant s granted eventUuid reason =>
      obtain rfl : s = session := hgrant
      have hread := reads_iff.mp ⟨state, hrun⟩
      have hlease := replay_of_grant hends hrun
      rw [hlease] at hlive
      exact ⟨before, event, after, _, rfl, ⟨us, granted, eventUuid, reason, vs, hbefore, hevent, hafter, hread, hends,
        rfl⟩, hlive⟩
    | _ => cases hgrant
  · rintro ⟨before, event, after, lease, rfl, ⟨us, granted, eventUuid, reason, vs, hbefore, hevent, hafter, hread, hends,
      rfl⟩, hlive⟩
    obtain ⟨state, hrun⟩ := reads_iff.mpr hread
    have hcs : changes X repo issue (before ++ event :: after) =
        .ok (us ++ .grant session granted eventUuid reason :: vs) :=
      changes_append.mpr ⟨us, _, hbefore, changes_cons.mpr ⟨_, vs, hevent, hafter, rfl⟩, rfl⟩
    refine ⟨state, currentIssueState_eq_ok.mpr ⟨_, hcs, hrun⟩, ?_, ?_⟩
    · exact (active_iff hrun).mpr ⟨us, _, vs, rfl, rfl, hends⟩
    · rw [replay_of_grant hends hrun]
      exact hlive

lemma GrantInForce.effects {lease : Lease} {before after : List Json} {event : Json}
    (h : GrantInForce X repo issue session lease before event after) :
    GrantsTo repo issue session event ∧ ∀ e ∈ after, ¬ (∃ other, GrantsTo repo issue other e) ∧
      ¬ Withdraws repo issue session e := by
  obtain ⟨cs, granted, eventUuid, reason, cs', -, hevent, hafter, -, hends, -⟩ := h
  refine ⟨(changeOf_effect hevent).1.mp rfl, fun e he => ?_⟩
  have hnot : ¬ ((∃ other, GrantsTo repo issue other e) ∨ Withdraws repo issue session e) :=
    (forall_mem_changes hafter fun e c hc => not_congr (changeOf_effect hc).2).mp hends e he
  rwa [not_or] at hnot

/-- A grant in force supports its session as long as no event after it is overlooked. -/
lemma supported_iff {lease : Lease} {before after : List Json} {event : Json}
    (h : GrantInForce X repo issue session lease before event after) :
    Supported repo issue session (before ++ event :: after) ↔ ∀ e ∈ after, ¬ Overlooked repo issue e := by
  obtain ⟨hgrants, hafter⟩ := h.effects
  constructor
  · rintro ⟨before', event', after', hsplit, hgrants', hsince⟩ e he hover
    rcases split_cases hsplit with ⟨between, -, rfl⟩ | ⟨-, -, rfl⟩ | ⟨between, -, rfl⟩
    · exact (hafter event' (by simp)).1 ⟨session, hgrants'⟩
    · exact hsince e he (.inr hover)
    · exact hsince e (by simp [he]) (.inr hover)
  · intro hover
    refine ⟨before, event, after, rfl, hgrants, fun e he => ?_⟩
    rintro (hwithdraws | hoverlooked)
    · exact (hafter e he).2 hwithdraws
    · exact hover e he hoverlooked

/-- The grant that permits the session is followed by an event for which the gate has no rule. -/
def OverlookedSince (X : Externals) (repo : String) (issue : Int) (session : String) (now : IsoDatetime)
    (events : List Json) : Prop :=
  ∃ before event after lease, events = before ++ event :: after ∧
    GrantInForce X repo issue session lease before event after ∧ lease.Live now ∧ ∃ e ∈ after, Overlooked repo issue e

section Ledgers

variable {authority : Authority} {path : String} {bytes : List UInt8} {result : ReplayResult}

lemma permission_eq (h : replay X authority path (some bytes) = .ok result) (hvalid : result.valid = true) :
    permission X bytes repo issue session now =
      currentIssueState X (ledgerEvents X bytes) repo issue >>= fun s => evaluateState X s session now := by
  rw [permission, readEvents_of_valid h hvalid]
  rfl

/-- Every permission is supported by the ledger, unless an overlooked event follows the grant behind it. -/
theorem permission_supported_iff (h : replay X authority path (some bytes) = .ok result) (hvalid : result.valid = true)
    (repo : String) (issue : Int) (session : String) (now : IsoDatetime) :
    (Allowed (permission X bytes repo issue session now) → Supported repo issue session (ledgerEvents X bytes)) ↔
      ¬ OverlookedSince X repo issue session now (ledgerEvents X bytes) := by
  rw [permission_eq h hvalid, permitted_iff]
  constructor
  · rintro hsupported ⟨before, event, after, lease, hsplit, hforce, hlive, e, he, hover⟩
    have hbacked := hsupported ⟨before, event, after, lease, hsplit, hforce, hlive⟩
    rw [hsplit] at hbacked
    exact (supported_iff hforce).mp hbacked e he hover
  · rintro hnot ⟨before, event, after, lease, hsplit, hforce, hlive⟩
    rw [hsplit]
    refine (supported_iff hforce).mpr fun e he hover => hnot ?_
    exact ⟨before, event, after, lease, hsplit, hforce, hlive, e, he, hover⟩

end Ledgers

namespace Sample

open Coordination.Sample Library.Json

def unverified : List Draft :=
  [⟨"u1", "CLAIM_ACCEPTED", "coordinator", "2026-07-16T20:00:00Z", after 0,
      .obj [("issue", .int 1), ("repository", .str "o/r"), ("session", .str "a")],
      "f39b1b9fba1e5f1f2dc5e1bcda33af058e67907c72f8f63f188f237ea0d3bb53",
      "c9f24869668cc43cbcc67e491beae44b40c6949674b2a73a8e0d1a2f1cba31bb"⟩,
    ⟨"u2", "VERIFY_FAILED", "reaper", "2026-07-16T20:10:00Z", after 10,
      .obj [("issue", .int 1), ("repository", .str "o/r")],
      "ecba26a4d22772a2e0ed94071e261bb57a48615a7e205b22e5f1e77bf41d3f65",
      "1fc8e95283a121bffbbf5bd68619f4f7542a19e089aa5e32cf4c8fb3cda3cbe4"⟩]

lemma readable_unverified (X : Externals) : ∀ draft ∈ unverified, All (Readable X.float) draft.payload := by
  simp [unverified, All, AllFields, Readable, readable_one]

lemma labelled_unverified : Labelled ["event_uuid", "session"] (materials none unverified) := by
  simp [Labelled, unverified, materials, label, Draft.chainedTo, Json.get, List.lookup, asStr?]

lemma replay_unverified : ∃ result, replay (externals (digests unverified)) authority "ledger.jsonl"
    (some (ledgerBytes (chained prefixed none unverified))) = .ok result ∧ result.valid = true :=
  replay_sample (readable_unverified _) labelled_unverified (by decide) (by decide) (by decide) _

lemma events_unverified : ledgerEvents (externals (digests unverified)) (ledgerBytes (chained prefixed none unverified)) =
    chained prefixed none unverified := by
  refine ledgerEvents_chained (readable_unverified _) ?_
  simp only [unverified, List.forall_mem_cons]
  exact ⟨rfl, rfl, by simp⟩

end Sample

open Coordination.Sample Sample in
/-- A session that keeps its permission after a failed verification. -/
theorem permission_supported_iff_unverified :
    ∃ result, replay (externals (digests unverified)) authority "ledger.jsonl"
        (some (ledgerBytes (chained prefixed none unverified))) = .ok result ∧ result.valid = true ∧
      Allowed (permission (externals (digests unverified)) (ledgerBytes (chained prefixed none unverified)) "o/r" 1 "a"
        ⟨after 20, some 0⟩) ∧
      ¬ Supported "o/r" 1 "a" (ledgerEvents (externals (digests unverified))
        (ledgerBytes (chained prefixed none unverified))) := by
  obtain ⟨result, hreplay, hvalid⟩ := replay_unverified
  refine ⟨result, hreplay, hvalid, ?_, ?_⟩
  · rw [permission_eq hreplay hvalid, events_unverified]
    decide
  · rw [events_unverified]
    simp only [unverified, chained, Supported]
    rw [← List.singleton_append, since_concat, not_or]
    refine ⟨?_, fun h => h.2 (.inr ⟨by decide, "VERIFY_FAILED", by decide, rfl⟩)⟩
    rintro ⟨-, ⟨htype, -⟩ | ⟨htype, -⟩⟩ <;> exact absurd (Json.str.inj htype) (by decide)

open Coordination.Sample Sample in
/-- The permission of the first session, read at the ledger that replay accepts. -/
theorem permission_supported_iff_claimed :
    (Allowed (permission (externals (digests claim)) (ledgerBytes (chained prefixed none claim)) "o/r" 1 "a"
        ⟨after 20, some 0⟩) →
      Supported "o/r" 1 "a" (ledgerEvents (externals (digests claim)) (ledgerBytes (chained prefixed none claim)))) ↔
      ¬ OverlookedSince (externals (digests claim)) "o/r" 1 "a" ⟨after 20, some 0⟩
        (ledgerEvents (externals (digests claim)) (ledgerBytes (chained prefixed none claim))) := by
  obtain ⟨result, hreplay, hvalid⟩ := @replay_sample claim _ (readable_claim _) labelled_claim checks_claim (by decide)
    (by decide) "ledger.jsonl"
  exact permission_supported_iff hreplay hvalid "o/r" 1 "a" ⟨after 20, some 0⟩

section Tombstones

variable {authority : Authority} {path : String} {bytes : List UInt8} {result : ReplayResult}

def IsTombstone (repo : String) (issue : Int) (event : Json) : Prop :=
  matchesIssue (payload event) repo issue ∧ OfType "TOMBSTONE_CHAIN" event

lemma IsTombstone.withdraws {event : Json} (h : IsTombstone repo issue event) (session : String) :
    Withdraws repo issue session event :=
  ⟨h.1, .inr (.inr ⟨.tombstoneChain, h.2⟩)⟩

lemma IsTombstone.not_grantsTo {event : Json} (h : IsTombstone repo issue event) (session : String) :
    ¬ GrantsTo repo issue session event := by
  rintro ⟨-, ⟨htype, -⟩ | ⟨htype, -⟩⟩
  · exact absurd (htype.unique h.2) (by decide)
  · exact absurd (htype.unique h.2) (by decide)

/-- The deadline of the lease can be written down. -/
def Lease.HasDeadline (lease : Lease) : Prop :=
  ∀ t ∈ lease.lastHeartbeatAt, representable (t.instant + lease.minutes * minute)

lemma Lease.hasDeadline_iff {lease : Lease} : lease.HasDeadline ↔ ∃ now, lease.Live now := by
  constructor
  · intro h
    refine ⟨⟨min ((lease.claimExpiresAt.map Stamp.instant).getD 0)
      ((lease.lastHeartbeatAt.map fun t => t.instant + lease.minutes * minute).getD 0), some 0⟩, ?_, ?_⟩
    · intro t ht
      rw [Option.mem_def.mp ht]
      exact ⟨rfl, min_le_left _ _⟩
    · intro t ht
      rw [Option.mem_def.mp ht]
      exact ⟨rfl, h t ht, min_le_right _ _⟩
  · rintro ⟨now, hlive⟩ t ht
    exact (hlive.fresh t ht).2.1

/-- A tombstone is final unless a later grant is in force. -/
theorem tombstone_final_iff (h : replay X authority path (some bytes) = .ok result) (hvalid : result.valid = true)
    {before later : List Json} {tombstone : Json} (hsplit : ledgerEvents X bytes = before ++ tombstone :: later)
    (htombstone : IsTombstone repo issue tombstone) :
    (∀ session now, ¬ Allowed (permission X bytes repo issue session now)) ↔
      ¬ ∃ session lease between event after, later = between ++ event :: after ∧
        GrantInForce X repo issue session lease (before ++ tombstone :: between) event after ∧ lease.HasDeadline := by
  simp only [permission_eq h hvalid, permitted_iff, Lease.hasDeadline_iff]
  constructor
  · rintro hnever ⟨session, lease, between, event, after, rfl, hforce, now, hlive⟩
    exact hnever session now ⟨_, event, after, lease, by simp [hsplit], hforce, hlive⟩
  · rintro hnot session now ⟨before', event, after, lease, hsplit', hforce, hlive⟩
    obtain ⟨hgrants, hafter⟩ := hforce.effects
    rcases split_cases (hsplit.symm.trans hsplit') with ⟨between, rfl, hlater⟩ | ⟨-, rfl, -⟩ | ⟨between, -, rfl⟩
    · exact hnot ⟨session, lease, between, event, after, hlater, hforce, now, hlive⟩
    · exact htombstone.not_grantsTo session hgrants
    · exact (hafter tombstone (by simp)).2 (htombstone.withdraws session)

end Tombstones

namespace Sample

open Coordination.Sample Library.Json

def reclaimed : List Draft :=
  [⟨"u1", "TOMBSTONE_CHAIN", "coordinator", "2026-07-16T20:00:00Z", after 0,
      .obj [("issue", .int 1), ("repository", .str "o/r")],
      "ecba26a4d22772a2e0ed94071e261bb57a48615a7e205b22e5f1e77bf41d3f65",
      "7584f538010617235feb99d4310a5551414c285ab761bd0091bada987c46d370"⟩,
    ⟨"u2", "CLAIM_ACCEPTED", "coordinator", "2026-07-16T20:10:00Z", after 10,
      .obj [("issue", .int 1), ("repository", .str "o/r"), ("session", .str "a")],
      "f39b1b9fba1e5f1f2dc5e1bcda33af058e67907c72f8f63f188f237ea0d3bb53",
      "9a30a282bcf73fe543566667ccf1c2eafc5de209b12b07cf463cc9392395948d"⟩]

lemma readable_reclaimed (X : Externals) : ∀ draft ∈ reclaimed, All (Readable X.float) draft.payload := by
  simp [reclaimed, All, AllFields, Readable, readable_one]

lemma labelled_reclaimed : Labelled ["event_uuid", "session"] (materials none reclaimed) := by
  simp [Labelled, reclaimed, materials, label, Draft.chainedTo, Json.get, List.lookup, asStr?]

lemma replay_reclaimed : ∃ result, replay (externals (digests reclaimed)) authority "ledger.jsonl"
    (some (ledgerBytes (chained prefixed none reclaimed))) = .ok result ∧ result.valid = true :=
  replay_sample (readable_reclaimed _) labelled_reclaimed (by decide) (by decide) (by decide) _

lemma events_reclaimed : ledgerEvents (externals (digests reclaimed)) (ledgerBytes (chained prefixed none reclaimed)) =
    chained prefixed none reclaimed := by
  refine ledgerEvents_chained (readable_reclaimed _) ?_
  simp only [reclaimed, List.forall_mem_cons]
  exact ⟨rfl, rfl, by simp⟩

end Sample

open Coordination.Sample Sample in
/-- A claim that is accepted after the tombstone. -/
theorem tombstone_final_iff_reclaimed :
    ∃ result, replay (externals (digests reclaimed)) authority "ledger.jsonl"
        (some (ledgerBytes (chained prefixed none reclaimed))) = .ok result ∧ result.valid = true ∧
      (∃ tombstone ∈ ledgerEvents (externals (digests reclaimed)) (ledgerBytes (chained prefixed none reclaimed)),
        IsTombstone "o/r" 1 tombstone) ∧
      Allowed (permission (externals (digests reclaimed)) (ledgerBytes (chained prefixed none reclaimed)) "o/r" 1 "a"
        ⟨after 20, some 0⟩) := by
  obtain ⟨result, hreplay, hvalid⟩ := replay_reclaimed
  refine ⟨result, hreplay, hvalid, ?_, ?_⟩
  · rw [events_reclaimed]
    exact ⟨_, List.mem_cons_self, by decide, rfl⟩
  · rw [permission_eq hreplay hvalid, events_reclaimed]
    decide

open Coordination.Sample Sample in
/-- The tombstone at the start of that ledger. -/
theorem tombstone_final_iff_first :
    ∃ tombstone later, (∀ session now, ¬ Allowed (permission (externals (digests reclaimed))
        (ledgerBytes (chained prefixed none reclaimed)) "o/r" 1 session now)) ↔
      ¬ ∃ session lease between event after, later = between ++ event :: after ∧
        GrantInForce (externals (digests reclaimed)) "o/r" 1 session lease ([] ++ tombstone :: between) event after ∧
          lease.HasDeadline := by
  obtain ⟨result, hreplay, hvalid⟩ := replay_reclaimed
  exact ⟨_, _, tombstone_final_iff hreplay hvalid events_reclaimed ⟨by decide, rfl⟩⟩

end PlatformGitops.Coordination.LedgerClaimState
