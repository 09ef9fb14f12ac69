import PlatformGitops.Coordination.LedgerClaimState
import PlatformGitops.Library.Since

/-! The state of a claim as what its events grant, renew and end. -/

namespace PlatformGitops.Coordination.LedgerClaimState

open Library Fallible
open CrossAi (Datetime IsoDatetime Stamp minute)

variable (X : Externals)

structure Lease where
  claimExpiresAt : Option Stamp
  lastHeartbeatAt : Option Stamp
  heartbeatIntervalMinutes : Int
  heartbeatGraceMinutes : Int

/-- What an event does to the claim on an issue. The time of a heartbeat is looked at only when it counts. -/
inductive Change where
  | ignored
  | grant (session : String) (lease : Lease) (eventUuid : Json) (reason : String)
  | heartbeat (session : String) (at_ : Except Failure (Option Stamp))
  | revoke (r : Revocation) (session : Option String) (eventUuid : Json)
  | takeover (old new : Option String) (eventUuid : Json)
  | close (c : Closure) (eventUuid : Json)

def Lease.state (lease : Lease) (session : String) (eventUuid : Json) (reason : String) : IssueState :=
  ⟨.activeWinner, some session, lease.claimExpiresAt, lease.lastHeartbeatAt, lease.heartbeatIntervalMinutes,
    lease.heartbeatGraceMinutes, eventUuid, none, reason⟩

def leaseOf (data : Json) (committedAt : Option IsoDatetime) : Except Failure Lease := do
  let expiresAt ← parseUtcZ X (orElse (data.get "claim_expires_at") (data.get "expires_at")) "claim_expires_at"
  let claimExpiresAt ← utcZ? X expiresAt
  let lastHeartbeatAt ← utcZ? X committedAt
  let interval ← intOr X (data.get "heartbeat_interval_minutes") 30
  let grace ← intOr X (data.get "heartbeat_grace_minutes") 45
  pure ⟨claimExpiresAt, lastHeartbeatAt, interval, grace⟩

def grantOf (session : Option String) (data eventUuid : Json) (committedAt : Option IsoDatetime) (reason : String) :
    Except Failure Change :=
  match session with
  | none => .ok .ignored
  | some session => do
    let lease ← leaseOf X data committedAt
    pure (.grant session lease eventUuid reason)

def heartbeatOf (session : Option String) (at_ : Except Failure (Option Stamp)) : Change :=
  match session with
  | none => .ignored
  | some session => .heartbeat session at_

def changeOfKind (kind : EventKind) (data eventUuid : Json) (committedAt : Option IsoDatetime) :
    Except Failure Change :=
  match kind with
  | .claimAccepted => grantOf X (claimSession data) data eventUuid committedAt "latest claim accepted"
  | .heartbeatEvidence => .ok (heartbeatOf (claimSession data) (utcZ? X committedAt))
  | .revocation r => .ok (.revoke r (claimSession data) eventUuid)
  | .takeoverAccepted => .ok (.takeover (oldSession data) (newSession data) eventUuid)
  | .takeoverCommitted => grantOf X (newSession data) data eventUuid committedAt "takeover committed"
  | .closure c => .ok (.close c eventUuid)
  | .other => .ok .ignored

def changeOf (repo : String) (issue : Int) (event : Json) : Except Failure Change :=
  if matchesIssue (payload event) repo issue then do
    let committedAt ← parseUtcZ X (event.get "committed_at") "committed_at"
    let kind ← eventKind (event.get "event_type")
    changeOfKind X kind (payload event) (event.get "event_uuid") committedAt
  else .ok .ignored

namespace Change

def apply (state : IssueState) : Change → Except Failure IssueState
  | .ignored => .ok state
  | .grant session lease eventUuid reason => .ok (lease.state session eventUuid reason)
  | .heartbeat session at_ =>
    if state.activeSession = some session then do
      let lastHeartbeatAt ← at_
      pure { state with lastHeartbeatAt := lastHeartbeatAt }
    else .ok state
  | .revoke r session eventUuid =>
    if session ≠ none ∧ session ≠ state.activeSession then .ok state
    else .ok { state with
      permissionState := .revoked r
      denyCode := some "ledger_claim_revoked"
      reason := "ledger event " ++ r.name ++ " revokes permission"
      sourceEventUuid := eventUuid }
  | .takeover old new eventUuid =>
    if state.activeSession = old ∨ state.activeSession = new then
      .ok { state with
        permissionState := .takeoverPendingMirror
        activeSession := none
        denyCode := some "ledger_takeover_pending"
        reason := "takeover accepted but not committed"
        sourceEventUuid := eventUuid }
    else .ok state
  | .close c eventUuid => .ok { state with
      permissionState := .closed c
      activeSession := none
      denyCode := some "ledger_issue_superseded"
      reason := "ledger event " ++ c.name ++ " prevents permission"
      sourceEventUuid := eventUuid }

/-- The change names the session as the one to hold the claim. -/
def Grants (session : String) : Change → Prop
  | .grant s _ _ _ => s = session
  | _ => False

/-- The change takes the claim from the session that holds it. -/
def Releases (session : String) : Change → Prop
  | .grant _ _ _ _ => True
  | .takeover old new _ => old = some session ∨ new = some session
  | .close _ _ => True
  | _ => False

/-- The change takes the claim, or permission under it, from the session that holds it. -/
def Ends (session : String) : Change → Prop
  | .revoke _ s _ => s = none ∨ s = some session
  | c => c.Releases session

/-- The time to which the change renews the claim of the session. -/
def beat? (session : String) : Change → Option (Option Stamp)
  | .heartbeat s (.ok at_) => if s = session then some at_ else none
  | _ => none

end Change

def changes (repo : String) (issue : Int) (events : List Json) : Except Failure (List Change) :=
  events.mapM (changeOf X repo issue)

def replayChanges (cs : List Change) : Except Failure IssueState := cs.foldlM Change.apply .start

variable {X} {repo session : String} {issue : Int}

lemma apply_grantOf {session : Option String} {data eventUuid : Json} {committedAt : Option IsoDatetime}
    {reason : String} {state : IssueState} :
    (grantOf X session data eventUuid committedAt reason >>= Change.apply state) =
      match session with
      | none => .ok state
      | some session => granted X session reason data eventUuid committedAt := by
  cases session with
  | none => rfl
  | some session =>
    simp only [grantOf, leaseOf, granted, bind_assoc]
    rfl

lemma applyKind_eq (kind : EventKind) (data eventUuid : Json) (committedAt : Option IsoDatetime) (state : IssueState) :
    applyKind X kind data eventUuid committedAt state =
      changeOfKind X kind data eventUuid committedAt >>= Change.apply state := by
  cases kind with
  | claimAccepted => exact apply_grantOf.symm
  | takeoverCommitted => exact apply_grantOf.symm
  | heartbeatEvidence =>
    cases hsession : claimSession data with
    | none => simp [applyKind, changeOfKind, heartbeatOf, hsession, bind, Except.bind, Change.apply]
    | some session =>
      simp only [applyKind, changeOfKind, heartbeatOf, hsession, bind, Except.bind, Change.apply, ne_eq, reduceCtorEq,
        not_false_eq_true, true_and, eq_comm]
  | revocation r => rfl
  | takeoverAccepted => rfl
  | closure c => rfl
  | other => rfl

lemma applyEvent_eq (state : IssueState) (event : Json) :
    applyEvent X repo issue state event = changeOf X repo issue event >>= Change.apply state := by
  simp only [applyEvent, changeOf]
  split
  · simp only [applyKind_eq, bind_assoc]
  · rfl

/-- The state of an issue is what its changes lead to. -/
lemma currentIssueState_eq_ok {events : List Json} {state : IssueState} :
    currentIssueState X events repo issue = .ok state ↔
      ∃ cs, changes X repo issue events = .ok cs ∧ replayChanges cs = .ok state := by
  have hfun : applyEvent X repo issue = fun s event => changeOf X repo issue event >>= Change.apply s := by
    funext s event
    exact applyEvent_eq s event
  rw [currentIssueState, hfun]
  exact foldlM_bind_eq_ok

section Runs

variable {cs : List Change} {state : IssueState}

lemma apply_activeSession {state' : IssueState} {c : Change} (h : c.apply state = .ok state') :
    state'.activeSession = some session ↔ c.Grants session ∨ state.activeSession = some session ∧ ¬ c.Releases session := by
  cases c with
  | ignored =>
    cases h
    simp [Change.Grants, Change.Releases]
  | grant s lease eventUuid reason =>
    cases h
    simp [Change.Grants, Change.Releases, Lease.state]
  | heartbeat s at_ =>
    simp only [Change.apply] at h
    split at h
    · rw [bind_eq_ok] at h
      obtain ⟨t, -, h⟩ := h
      cases h
      simp [Change.Grants, Change.Releases]
    · cases h
      simp [Change.Grants, Change.Releases]
  | revoke r s eventUuid =>
    simp only [Change.apply] at h
    split at h <;> cases h <;> simp [Change.Grants, Change.Releases]
  | takeover old new eventUuid =>
    simp only [Change.apply] at h
    split at h
    · cases h
      simp only [Change.Grants, Change.Releases, false_or, reduceCtorEq, false_iff]
      rintro ⟨hactive, hnot⟩
      simp_all [eq_comm]
    · cases h
      simp only [Change.Grants, Change.Releases, false_or, iff_self_and]
      intro hactive
      simp_all [eq_comm]
  | close c eventUuid =>
    cases h
    simp [Change.Grants, Change.Releases]

/-- The claim is the session's, whether or not it permits anything. -/
def Held (session : String) (cs : List Change) : Prop := Since (Change.Grants session) (Change.Releases session) cs

lemma held_iff (h : replayChanges cs = .ok state) : state.activeSession = some session ↔ Held session cs :=
  holds_iff_since (f := Change.apply) (fun _ _ _ => apply_activeSession) (by simp [IssueState.start]) h

def Active (session : String) (state : IssueState) : Prop :=
  state.permissionState = .activeWinner ∧ state.activeSession = some session

lemma apply_active {state' : IssueState} {c : Change} (h : c.apply state = .ok state') :
    Active session state' ↔ c.Grants session ∨ Active session state ∧ ¬ c.Ends session := by
  have hsession : state'.activeSession = some session ↔ c.Grants session ∨ state.activeSession = some session ∧
      ¬ c.Releases session := apply_activeSession h
  cases c with
  | ignored =>
    cases h
    simp [Change.Grants, Change.Ends, Change.Releases]
  | grant s lease eventUuid reason =>
    cases h
    simp [Active, Change.Grants, Change.Ends, Change.Releases, Lease.state]
  | heartbeat s at_ =>
    simp only [Change.apply] at h
    split at h
    · rw [bind_eq_ok] at h
      obtain ⟨t, -, h⟩ := h
      cases h
      simp [Active, Change.Grants, Change.Ends, Change.Releases]
    · cases h
      simp [Active, Change.Grants, Change.Ends, Change.Releases]
  | revoke r s eventUuid =>
    simp only [Change.apply] at h
    split at h
    · rename_i hother
      cases h
      simp only [Change.Grants, Change.Ends, false_or, iff_self_and]
      rintro ⟨-, hactive⟩
      simpa [hactive] using hother
    · rename_i hnamed
      cases h
      simp only [Active, Change.Grants, Change.Ends, reduceCtorEq, false_and, false_or, false_iff]
      rintro ⟨⟨-, hactive⟩, hnot⟩
      simp_all
  | takeover old new eventUuid =>
    simp only [Active, Change.Ends, hsession, Change.Grants, false_or]
    simp only [Change.apply] at h
    split at h
    · rename_i hnamed
      cases h
      simp only [reduceCtorEq, false_and, false_iff]
      rintro ⟨⟨-, hactive⟩, hnot⟩
      simp_all [Change.Releases, eq_comm]
    · cases h
      tauto
  | close c eventUuid =>
    cases h
    simp [Active, Change.Grants, Change.Ends, Change.Releases]

/-- The last grant of the claim is the session's, and nothing has ended it. -/
def InForce (session : String) (cs : List Change) : Prop := Since (Change.Grants session) (Change.Ends session) cs

lemma active_iff (h : replayChanges cs = .ok state) : Active session state ↔ InForce session cs :=
  holds_iff_since (f := Change.apply) (fun _ _ _ => apply_active) (by simp [Active, IssueState.start]) h

/-- No heartbeat of the session that holds the claim has a time that cannot be shown. -/
def Reads (cs : List Change) : Prop :=
  Along (fun before c => ∀ s failure, c = .heartbeat s (.error failure) → ¬ Held s before) cs

lemma reads_iff : (∃ state, replayChanges cs = .ok state) ↔ Reads cs := by
  refine succeeds_iff_along fun before c state h => ?_
  cases c with
  | heartbeat s at_ =>
    have hheld : state.activeSession = some s ↔ Held s before := held_iff h
    by_cases hactive : state.activeSession = some s
    · cases at_ <;> simp [Change.apply, hactive, hheld.mp hactive, bind, Except.bind, pure, Except.pure]
    · cases at_ <;> simp [Change.apply, hactive, mt hheld.mpr hactive]
  | revoke r s eventUuid => by_cases hnamed : s ≠ none ∧ s ≠ state.activeSession <;> simp [Change.apply, hnamed]
  | takeover old new eventUuid =>
    by_cases hnamed : state.activeSession = old ∨ state.activeSession = new <;> simp [Change.apply, hnamed]
  | _ => simp [Change.apply]

/-- The lease after the heartbeats of its session. -/
def Lease.renewed (lease : Lease) (session : String) (cs : List Change) : Lease :=
  { lease with lastHeartbeatAt := (latest (Change.beat? session) cs).getD lease.lastHeartbeatAt }

lemma apply_lease_state {lease : Lease} {uuid : Json} {reason : String} {c : Change} (hc : ¬ c.Ends session)
    (h : c.apply (lease.state session uuid reason) = .ok state) :
    state = (lease.renewed session [c]).state session uuid reason := by
  cases c with
  | ignored =>
    cases h
    rfl
  | heartbeat s at_ =>
    simp only [Change.apply] at h
    split at h
    · rename_i hsession
      obtain rfl : session = s := by simpa [Lease.state] using hsession
      rw [bind_eq_ok] at h
      obtain ⟨t, rfl, h⟩ := h
      cases h
      simp [Lease.renewed, latest, Change.beat?, Lease.state]
    · rename_i hsession
      cases h
      have hne : s ≠ session := fun h => hsession (by simp [Lease.state, h])
      cases at_ <;> simp [Lease.renewed, latest, Change.beat?, hne]
  | revoke r s eventUuid =>
    simp only [Change.Ends, not_or] at hc
    simp only [Change.apply] at h
    split at h
    · cases h
      rfl
    · rename_i hnamed
      exact absurd ⟨hc.1, by simpa [Lease.state] using hc.2⟩ hnamed
  | takeover old new eventUuid =>
    simp only [Change.Ends, Change.Releases, not_or] at hc
    have hother : ¬ ((lease.state session uuid reason).activeSession = old ∨
        (lease.state session uuid reason).activeSession = new) := by
      simpa [Lease.state, eq_comm] using hc
    rw [Change.apply, if_neg hother] at h
    cases h
    rfl
  | _ => simp [Change.Ends, Change.Releases] at hc

lemma renewed_append (lease : Lease) (xs ys : List Change) :
    lease.renewed session (xs ++ ys) = (lease.renewed session xs).renewed session ys := by
  simp only [Lease.renewed, latest_append]
  cases latest (Change.beat? session) ys <;> rfl

/-- While nothing ends a grant, its heartbeats renew it. -/
lemma replay_lease {lease : Lease} {eventUuid : Json} {reason : String} (hcs : ∀ c ∈ cs, ¬ c.Ends session)
    (h : cs.foldlM Change.apply (lease.state session eventUuid reason) = .ok state) :
    state = (lease.renewed session cs).state session eventUuid reason := by
  induction cs using List.reverseRecOn generalizing state with
  | nil =>
    cases h
    rfl
  | append_singleton cs c ih =>
    rw [List.forall_mem_append] at hcs
    obtain ⟨middle, hmiddle, hlast⟩ := foldlM_concat_eq_ok.mp h
    rw [ih hcs.1 hmiddle] at hlast
    rw [renewed_append]
    exact apply_lease_state (hcs.2 c (by simp)) hlast

lemma replay_of_grant {before after : List Change} {lease : Lease} {eventUuid : Json} {reason : String}
    (hafter : ∀ c ∈ after, ¬ c.Ends session)
    (h : replayChanges (before ++ .grant session lease eventUuid reason :: after) = .ok state) :
    state = (lease.renewed session after).state session eventUuid reason := by
  rw [replayChanges, List.foldlM_append, bind_eq_ok] at h
  obtain ⟨middle, -, h⟩ := h
  exact replay_lease hafter h

end Runs

section Evaluation

def IssueState.lease (state : IssueState) : Lease :=
  ⟨state.claimExpiresAt, state.lastHeartbeatAt, state.heartbeatIntervalMinutes, state.heartbeatGraceMinutes⟩

def Lease.minutes (lease : Lease) : Int :=
  minutesOr lease.heartbeatIntervalMinutes 30 + minutesOr lease.heartbeatGraceMinutes 45

/-- The lease has neither run out nor gone stale. -/
structure Lease.Live (lease : Lease) (now : IsoDatetime) : Prop where
  unexpired : ∀ t ∈ lease.claimExpiresAt, now.utcoffset.isSome ∧ now.instant ≤ t.instant
  fresh : ∀ t ∈ lease.lastHeartbeatAt, now.utcoffset.isSome ∧
    representable (t.instant + lease.minutes * minute) ∧ now.instant ≤ t.instant + lease.minutes * minute

def Allowed (outcome : Except Failure Decision) : Prop := ∃ decision, outcome = .ok decision ∧ decision.allowed = true

instance (outcome : Except Failure Decision) : Decidable (Allowed outcome) :=
  decidable_of_iff (outcome.toOption.any (·.allowed) = true) (by cases outcome <;> simp [Allowed, Except.toOption])

lemma before_utc {t : Datetime} {now : IsoDatetime} :
    before ⟨t, some 0⟩ now = .ok false ↔ now.utcoffset.isSome ∧ now.instant ≤ t := by
  cases hzone : now.utcoffset <;> simp [before, hzone]

lemma addMinutes_stored {t : Stamp} {minutes : Int} {d : IsoDatetime} :
    addMinutes (stored t) minutes = .ok d ↔
      representable (t.instant + minutes * minute) ∧ d = ⟨t.instant + minutes * minute, some 0⟩ := by
  by_cases hrange : representable (t.instant + minutes * minute)
  · simp [addMinutes, stored, wallClock, hrange, eq_comm]
  · simp [addMinutes, stored, wallClock, hrange]

lemma passed_expiry {state : IssueState} {now : IsoDatetime} :
    passed (state.claimExpiresAt.map stored) now = .ok false ↔
      ∀ t ∈ state.claimExpiresAt, now.utcoffset.isSome ∧ now.instant ≤ t.instant := by
  cases hexpires : state.claimExpiresAt with
  | none => simp [passed]
  | some t => simp [passed, stored, before_utc]

lemma passed_deadline {state : IssueState} {now : IsoDatetime} :
    (∃ deadline, heartbeatDeadline state = .ok deadline ∧ passed deadline now = .ok false) ↔
      ∀ t ∈ state.lastHeartbeatAt, now.utcoffset.isSome ∧ representable (t.instant + state.lease.minutes * minute) ∧
        now.instant ≤ t.instant + state.lease.minutes * minute := by
  cases hbeat : state.lastHeartbeatAt with
  | none => simp [heartbeatDeadline, hbeat, passed]
  | some t =>
    have hminutes : minutesOr state.heartbeatIntervalMinutes 30 + minutesOr state.heartbeatGraceMinutes 45 =
        state.lease.minutes := rfl
    simp only [heartbeatDeadline, hbeat, hminutes, Option.mem_def, Option.some.injEq, forall_eq']
    constructor
    · rintro ⟨deadline, hdeadline, hpassed⟩
      obtain ⟨d, hd, rfl⟩ := map_eq_ok.mp hdeadline
      obtain ⟨hrange, rfl⟩ := addMinutes_stored.mp hd
      obtain ⟨hzone, hle⟩ := before_utc.mp hpassed
      exact ⟨hzone, hrange, hle⟩
    · rintro ⟨hzone, hrange, hle⟩
      refine ⟨some ⟨t.instant + state.lease.minutes * minute, some 0⟩, ?_, ?_⟩
      · exact map_eq_ok.mpr ⟨_, addMinutes_stored.mpr ⟨hrange, rfl⟩, rfl⟩
      · exact before_utc.mpr ⟨hzone, hle⟩

/-- A session is allowed when the claim is its own and the lease is live. -/
lemma allowed_iff {state : IssueState} {now : IsoDatetime} :
    Allowed (evaluateState X state session now) ↔ Active session state ∧ state.lease.Live now := by
  unfold Allowed evaluateState
  split
  · rename_i hstate
    simp [Decision.deny, Active, hstate]
  · rename_i hstate
    rw [not_not] at hstate
    split
    · rename_i hsession
      simp [Decision.deny, Active, hsession]
    · rename_i hsession
      rw [not_not] at hsession
      have hlive : state.lease.Live now ↔ passed (state.claimExpiresAt.map stored) now = .ok false ∧
          ∃ deadline, heartbeatDeadline state = .ok deadline ∧ passed deadline now = .ok false := by
        rw [passed_expiry, passed_deadline]
        exact ⟨fun h => ⟨h.unexpired, h.fresh⟩, fun h => ⟨h.1, h.2⟩⟩
      have hactive : Active session state := ⟨hstate, hsession⟩
      simp only [hactive, hlive, true_and, bind_eq_ok]
      constructor
      · rintro ⟨decision, ⟨expired, hexpired, h⟩, hallowed⟩
        split at h
        · cases h
          cases hallowed
        · rename_i hfalse
          simp only [bind_eq_ok] at h
          obtain ⟨deadline, hdeadline, stale, hstale, h⟩ := h
          split at h
          · cases h
            cases hallowed
          · rename_i hfresh
            simp only [Bool.not_eq_true] at hfalse hfresh
            exact ⟨hfalse ▸ hexpired, deadline, hdeadline, hfresh ▸ hstale⟩
      · rintro ⟨hexpired, deadline, hdeadline, hstale⟩
        refine ⟨⟨true, none, "ledger active winner matches"⟩, ⟨false, hexpired, ?_⟩, rfl⟩
        simp [hdeadline, hstale, bind, Except.bind, pure, Except.pure]

end Evaluation

end PlatformGitops.Coordination.LedgerClaimState
