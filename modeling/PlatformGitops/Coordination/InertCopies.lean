import PlatformGitops.Coordination.Copies

/-! Which events of a ledger may be copied to its end without a reader noticing. -/

namespace PlatformGitops.Coordination

open Library Fallible
open CrossAi (Stamp)

namespace LedgerClaimState

/-- The session that holds the claim, if one does. -/
def HeldBy : Option String → List Change → Prop
  | some session, cs => Held session cs
  | none, cs => ∀ session, ¬ Held session cs

namespace Change

/-- The change has an effect while `holder` holds the claim. -/
def ActsFor (holder : Option String) : Change → Prop
  | .ignored => False
  | .grant _ _ _ _ => True
  | .heartbeat s _ => holder = some s
  | .revoke _ s _ => s = none ∨ s = holder
  | .takeover old new _ => holder = old ∨ holder = new
  | .close _ _ => True

def leaves (holder : Option String) : Change → Option String
  | .grant s _ _ _ => some s
  | .takeover _ _ _ => none
  | .close _ _ => none
  | _ => holder

/-- The change is one that the state names as its source. -/
def Decides : Change → Prop
  | .ignored => False
  | .heartbeat _ _ => False
  | _ => True

def uuid? : Change → Option Json
  | .ignored => none
  | .heartbeat _ _ => none
  | .grant _ _ eventUuid _ => some eventUuid
  | .revoke _ _ eventUuid => some eventUuid
  | .takeover _ _ eventUuid => some eventUuid
  | .close _ eventUuid => some eventUuid

/-- The heartbeat that the change records, and for which session. -/
def writesBeat : Change → Option (String × Except Failure (Option Stamp))
  | .grant s lease _ _ => some (s, .ok lease.lastHeartbeatAt)
  | .heartbeat s at_ => some (s, at_)
  | _ => none

end Change

/-- The change is the last that decided the state. -/
def LastEffect (c : Change) (cs : List Change) : Prop :=
  ∃ before after holder, cs = before ++ c :: after ∧ HeldBy holder before ∧ c.Decides ∧ c.ActsFor holder ∧
    ∀ d ∈ after, d.Decides → ¬ d.ActsFor (c.leaves holder)

/-- The session holds the claim, and its last heartbeat was at the time. -/
def LastBeat (session : String) (at_ : Option Stamp) (cs : List Change) : Prop :=
  ∃ before lease eventUuid reason after, cs = before ++ .grant session lease eventUuid reason :: after ∧
    (∀ d ∈ after, ¬ d.Releases session) ∧ at_ = (latest (Change.beat? session) after).getD lease.lastHeartbeatAt

/-- The change has no effect at the end, or the effect that it has already had. -/
def Settled (c : Change) (cs : List Change) : Prop :=
  (∀ holder, HeldBy holder cs → ¬ c.ActsFor holder) ∨
    (c.Decides → LastEffect c cs) ∧
      ∀ session at_, c.writesBeat = some (session, at_) → ∃ t, at_ = .ok t ∧ LastBeat session t cs

section Runs

variable {cs : List Change} {c : Change} {state state' : IssueState} {session : String} {holder : Option String}

lemma heldBy_iff (h : replayChanges cs = .ok state) : HeldBy holder cs ↔ state.activeSession = holder := by
  have hheld : ∀ session, state.activeSession = some session ↔ Held session cs := fun _ => held_iff h
  cases holder with
  | some session => exact (hheld session).symm
  | none =>
    simp only [HeldBy, ← hheld]
    exact ⟨fun hnone => Option.eq_none_iff_forall_ne_some.mpr hnone, fun hnone session => by simp [hnone]⟩

lemma apply_of_not_actsFor (h : ¬ c.ActsFor state.activeSession) : c.apply state = .ok state := by
  cases c with
  | ignored => rfl
  | heartbeat s at_ => simp_all [Change.ActsFor, Change.apply]
  | revoke r s eventUuid => simp_all [Change.ActsFor, Change.apply]
  | takeover old new eventUuid => simp_all [Change.ActsFor, Change.apply]
  | _ => simp [Change.ActsFor] at h

/-- A change that decides nothing leaves everything but the time of the last heartbeat. -/
lemma apply_quiet (hquiet : c.Decides → ¬ c.ActsFor state.activeSession) (h : c.apply state = .ok state') :
    ∃ t, state' = { state with lastHeartbeatAt := t } := by
  by_cases hacts : c.ActsFor state.activeSession
  · cases c with
    | ignored => exact absurd hacts id
    | heartbeat s at_ =>
      have hsession : state.activeSession = some s := hacts
      rw [Change.apply, if_pos hsession, bind_eq_ok] at h
      obtain ⟨t, -, h⟩ := h
      cases h
      exact ⟨t, rfl⟩
    | _ => exact absurd hacts (hquiet trivial)
  · rw [apply_of_not_actsFor hacts] at h
    cases h
    exact ⟨_, rfl⟩

lemma apply_decides (hdecides : c.Decides) (hacts : c.ActsFor state.activeSession) (h : c.apply state = .ok state') :
    state'.activeSession = c.leaves state.activeSession ∧ c.uuid? = some state'.sourceEventUuid := by
  cases c with
  | ignored => exact absurd hdecides id
  | heartbeat s at_ => exact absurd hdecides id
  | grant s lease eventUuid reason =>
    cases h
    exact ⟨rfl, rfl⟩
  | revoke r s eventUuid =>
    have hnot : ¬ (s ≠ none ∧ s ≠ state.activeSession) := by
      simp only [Change.ActsFor] at hacts
      tauto
    rw [Change.apply, if_neg hnot] at h
    cases h
    exact ⟨rfl, rfl⟩
  | takeover old new eventUuid =>
    have hnamed : state.activeSession = old ∨ state.activeSession = new := hacts
    rw [Change.apply, if_pos hnamed] at h
    cases h
    exact ⟨rfl, rfl⟩
  | close c eventUuid =>
    cases h
    exact ⟨rfl, rfl⟩

lemma replay_quiet (hquiet : ∀ d ∈ cs, d.Decides → ¬ d.ActsFor state.activeSession)
    (h : cs.foldlM Change.apply state = .ok state') : ∃ t, state' = { state with lastHeartbeatAt := t } := by
  induction cs using List.reverseRecOn generalizing state' with
  | nil =>
    cases h
    exact ⟨_, rfl⟩
  | append_singleton cs d ih =>
    obtain ⟨middle, hmiddle, hlast⟩ := foldlM_concat_eq_ok.mp h
    obtain ⟨hcs, hd⟩ := List.forall_mem_append.mp hquiet
    obtain ⟨t, rfl⟩ := ih hcs hmiddle
    have hquiet : d.Decides → ¬ d.ActsFor ({ state with lastHeartbeatAt := t } : IssueState).activeSession :=
      hd d (by simp)
    obtain ⟨t', rfl⟩ := apply_quiet hquiet hlast
    exact ⟨t', rfl⟩

lemma apply_beat (hactive : state.activeSession = some session) (hkeeps : ¬ c.Releases session)
    (h : c.apply state = .ok state') :
    state'.activeSession = some session ∧ state'.lastHeartbeatAt = (c.beat? session).getD state.lastHeartbeatAt := by
  refine ⟨(apply_activeSession h).mpr (.inr ⟨hactive, hkeeps⟩), ?_⟩
  cases c with
  | ignored =>
    cases h
    rfl
  | heartbeat s at_ =>
    simp only [Change.apply, hactive, Option.some.injEq] at h
    split at h
    · rename_i hsession
      rw [bind_eq_ok] at h
      obtain ⟨t, rfl, h⟩ := h
      cases h
      simp [Change.beat?, hsession]
    · rename_i hsession
      cases h
      cases at_ <;> simp [Change.beat?, Ne.symm hsession]
  | revoke r s eventUuid =>
    simp only [Change.apply] at h
    split at h <;> cases h <;> rfl
  | takeover old new eventUuid =>
    simp only [Change.apply] at h
    split at h <;> cases h <;> rfl
  | _ => exact absurd trivial hkeeps

lemma replay_beats (hactive : state.activeSession = some session) (hkeeps : ∀ d ∈ cs, ¬ d.Releases session)
    (h : cs.foldlM Change.apply state = .ok state') :
    state'.activeSession = some session ∧
      state'.lastHeartbeatAt = (latest (Change.beat? session) cs).getD state.lastHeartbeatAt := by
  induction cs using List.reverseRecOn generalizing state' with
  | nil =>
    cases h
    exact ⟨hactive, rfl⟩
  | append_singleton cs d ih =>
    obtain ⟨middle, hmiddle, hlast⟩ := foldlM_concat_eq_ok.mp h
    obtain ⟨hcs, hd⟩ := List.forall_mem_append.mp hkeeps
    obtain ⟨hmiddleActive, hmiddleBeat⟩ := ih hcs hmiddle
    obtain ⟨hlastActive, hlastBeat⟩ := apply_beat hmiddleActive (hd d (by simp)) hlast
    refine ⟨hlastActive, ?_⟩
    rw [hlastBeat, hmiddleBeat, latest_concat]
    cases Change.beat? session d <;> rfl

lemma LastBeat.shown {at_ : Option Stamp} (hbeat : LastBeat session at_ cs) (h : replayChanges cs = .ok state) :
    state.activeSession = some session ∧ state.lastHeartbeatAt = at_ := by
  obtain ⟨before, lease, eventUuid, reason, after, rfl, hkeeps, rfl⟩ := hbeat
  rw [replayChanges, List.foldlM_append, bind_eq_ok] at h
  obtain ⟨middle, -, h⟩ := h
  have hgranted : (lease.state session eventUuid reason).activeSession = some session := rfl
  exact replay_beats hgranted hkeeps h

lemma lastBeat_of_active (h : replayChanges cs = .ok state) (hactive : state.activeSession = some session) :
    LastBeat session state.lastHeartbeatAt cs := by
  obtain ⟨before, d, after, hsplit, hgrants, hkeeps⟩ := (held_iff h).mp hactive
  cases d with
  | grant s lease eventUuid reason =>
    obtain rfl : s = session := hgrants
    have hlast : LastBeat s ((latest (Change.beat? s) after).getD lease.lastHeartbeatAt) cs :=
      ⟨before, lease, eventUuid, reason, after, hsplit, hkeeps, rfl⟩
    rw [(hlast.shown h).2]
    exact hlast
  | _ => exact absurd hgrants id

/-- The state names the last change that decided it. -/
lemma lastEffect_of_replay (h : replayChanges cs = .ok state) :
    state.sourceEventUuid = .null ∨ ∃ c before after holder, cs = before ++ c :: after ∧ HeldBy holder before ∧
      c.Decides ∧ c.ActsFor holder ∧ (∀ d ∈ after, d.Decides → ¬ d.ActsFor (c.leaves holder)) ∧
      c.leaves holder = state.activeSession ∧ c.uuid? = some state.sourceEventUuid := by
  induction cs using List.reverseRecOn generalizing state with
  | nil =>
    cases h
    exact .inl rfl
  | append_singleton cs d ih =>
    obtain ⟨middle, hmiddle, hlast⟩ := foldlM_concat_eq_ok.mp h
    by_cases hd : d.Decides ∧ d.ActsFor middle.activeSession
    · obtain ⟨hactive, huuid⟩ := apply_decides hd.1 hd.2 hlast
      exact .inr ⟨d, cs, [], middle.activeSession, rfl, (heldBy_iff hmiddle).mpr rfl, hd.1, hd.2, by simp,
        hactive.symm, huuid⟩
    · rw [not_and] at hd
      obtain ⟨t, rfl⟩ := apply_quiet hd hlast
      rcases ih hmiddle with hnull | ⟨c, before, after, holder, rfl, hheld, hdecides, hacts, hafter, hleaves, huuid⟩
      · exact .inl hnull
      · refine .inr ⟨c, before, after ++ [d], holder, by simp, hheld, hdecides, hacts, ?_, hleaves, huuid⟩
        refine List.forall_mem_append.mpr ⟨hafter, ?_⟩
        rw [hleaves]
        simpa using hd

/-- The effect of a change that is not a grant is had once and for all. -/
lemma apply_again {s s' : IssueState} {t : Option Stamp} (hdecides : c.Decides) (hgrant : c.writesBeat = none)
    (hacts : c.ActsFor s.activeSession) (h : c.apply s = .ok s') :
    c.apply { s' with lastHeartbeatAt := t } = .ok { s' with lastHeartbeatAt := t } := by
  cases c with
  | revoke r session eventUuid =>
    have hnot : ¬ (session ≠ none ∧ session ≠ s.activeSession) := by
      simp only [Change.ActsFor] at hacts
      tauto
    rw [Change.apply, if_neg hnot] at h
    cases h
    rw [Change.apply, if_neg hnot]
  | takeover old new eventUuid =>
    have hnamed : s.activeSession = old ∨ s.activeSession = new := hacts
    rw [Change.apply, if_pos hnamed] at h
    cases h
    rw [Change.apply]
    split <;> rfl
  | close c eventUuid =>
    cases h
    rfl
  | ignored => exact absurd hdecides id
  | heartbeat session at_ => exact absurd hdecides id
  | grant session lease eventUuid reason => cases hgrant

lemma LastEffect.again (heffect : LastEffect c cs) (h : replayChanges cs = .ok state)
    (hbeat : ∀ session lease eventUuid reason, c = .grant session lease eventUuid reason →
      state.lastHeartbeatAt = lease.lastHeartbeatAt) : c.apply state = .ok state := by
  obtain ⟨before, after, holder, rfl, hheld, hdecides, hacts, hafter⟩ := heffect
  rw [replayChanges, List.foldlM_append, bind_eq_ok] at h
  obtain ⟨s, hs, h⟩ := h
  rw [List.foldlM_cons, bind_eq_ok] at h
  obtain ⟨s', hs', h⟩ := h
  obtain rfl : s.activeSession = holder := (heldBy_iff hs).mp hheld
  have hleaves := (apply_decides hdecides hacts hs').1
  rw [← hleaves] at hafter
  obtain ⟨t, rfl⟩ := replay_quiet hafter h
  cases c with
  | grant session lease eventUuid reason =>
    cases hs'
    have ht : t = lease.lastHeartbeatAt := hbeat _ _ _ _ rfl
    rw [ht]
    rfl
  | heartbeat s at_ => exact absurd hdecides id
  | _ => exact apply_again hdecides rfl hacts hs'

/-- A change may be made once more, at the end, if and only if it is settled. -/
lemma apply_self_iff (h : replayChanges cs = .ok state) (hnull : c.uuid? ≠ some .null)
    (huuid : ∀ d ∈ cs, d.Decides → d.uuid? = c.uuid? → d = c) : c.apply state = .ok state ↔ Settled c cs := by
  have hheld : HeldBy state.activeSession cs := (heldBy_iff h).mpr rfl
  by_cases hacts : c.ActsFor state.activeSession
  · constructor
    · intro hself
      refine .inr ⟨fun hdecides => ?_, fun session at_ hwrites => ?_⟩
      · obtain ⟨-, hsource⟩ := apply_decides hdecides hacts hself
        rcases lastEffect_of_replay h with hnone | ⟨d, before, after, holder, rfl, hheld, hd, hdacts, hafter, -, hduuid⟩
        · exact absurd (hnone ▸ hsource) hnull
        · obtain rfl : d = c := huuid d (by simp) hd (hduuid.trans hsource.symm)
          exact ⟨before, after, holder, rfl, hheld, hd, hdacts, hafter⟩
      · cases c with
        | grant s lease eventUuid reason =>
          cases hwrites
          have hstate : lease.state session eventUuid reason = state := Except.ok.inj hself
          refine ⟨_, rfl, ?_⟩
          rw [← hstate] at h
          exact lastBeat_of_active h rfl
        | heartbeat s at_ =>
          cases hwrites
          have hsession : state.activeSession = some session := hacts
          rw [Change.apply, if_pos hsession, bind_eq_ok] at hself
          obtain ⟨t, rfl, hstate⟩ := hself
          have htime : t = state.lastHeartbeatAt := congrArg IssueState.lastHeartbeatAt (Except.ok.inj hstate)
          exact ⟨t, rfl, htime ▸ lastBeat_of_active h hacts⟩
        | _ => cases hwrites
    · rintro (hnot | ⟨heffect, hbeat⟩)
      · exact absurd hacts (hnot _ hheld)
      · cases c with
        | ignored => rfl
        | heartbeat s at_ =>
          obtain ⟨t, rfl, hlast⟩ := hbeat s at_ rfl
          obtain ⟨hsession, htime⟩ := hlast.shown h
          rw [Change.apply, if_pos hsession, ← htime]
          rfl
        | grant s lease eventUuid reason =>
          refine (heffect trivial).again h ?_
          rintro _ _ _ _ ⟨⟩
          obtain ⟨t, ht, hlast⟩ := hbeat s _ rfl
          rw [(hlast.shown h).2, Except.ok.inj ht]
        | _ => exact (heffect trivial).again h (by rintro _ _ _ _ ⟨⟩)
  · refine iff_of_true (apply_of_not_actsFor hacts) (.inl fun holder hholder => ?_)
    rwa [← (heldBy_iff h).mp hholder]

end Runs

/-- The copied event is settled in the changes of every issue that can be read. -/
def GateSettled (X : Externals) (events : List Json) (event : Json) : Prop :=
  ∀ repo issue cs c, changes X repo issue events = .ok cs → Reads cs → changeOf X repo issue event = .ok c →
    Settled c cs

lemma uuid?_of_changeOf {X : Externals} {repo : String} {issue : Int} {event : Json} {c : Change}
    (h : changeOf X repo issue event = .ok c) (hdecides : c.Decides) : c.uuid? = some (event.get "event_uuid") := by
  unfold changeOf at h
  split at h
  · simp only [bind_eq_ok] at h
    obtain ⟨committedAt, -, kind, -, hc⟩ := h
    have hgrant : ∀ session reason, grantOf X session (payload event) (event.get "event_uuid") committedAt reason = .ok c →
        c.uuid? = some (event.get "event_uuid") := by
      intro session reason hgrant
      cases session with
      | none =>
        cases hgrant
        exact absurd hdecides id
      | some s =>
        simp only [grantOf, bind_eq_ok, pure_eq_ok] at hgrant
        obtain ⟨lease, -, rfl⟩ := hgrant
        rfl
    cases kind with
    | claimAccepted => exact hgrant _ _ hc
    | takeoverCommitted => exact hgrant _ _ hc
    | heartbeatEvidence =>
      cases hc
      cases hsession : claimSession (payload event) <;> rw [hsession] at hdecides <;> exact absurd hdecides id
    | other =>
      cases hc
      exact absurd hdecides id
    | _ =>
      cases hc
      rfl
  · cases h
    exact absurd hdecides id

end LedgerClaimState

namespace ReapLedgerState

/-- A claim that has just been accepted. -/
def ClaimState.Fresh (claim : ClaimState) : Prop :=
  claim.lastHeartbeatAt = none ∧ claim.revokedBy = none ∧ claim.revokeEventUuid = none

/-- The mark has no effect at the end, or the effect that it has already had. -/
def SettledMark (ms : List Mark) : Mark → Prop
  | .ignored => True
  | .accept claim => ∃ before after, ms = before ++ .accept claim :: after ∧
      ∀ m ∈ after, ¬ m.AcceptsOn claim.key ∧ m.beat? claim.key = none ∧ m.revocation? claim.key = none
  | .heartbeat key at_ => (∀ claim, ¬ Recorded key claim ms) ∨
      ∃ t claim, at_ = .ok t ∧ Recorded key claim ms ∧ claim.lastHeartbeatAt = some t
  | .revoke key by_ eventUuid => (∀ claim, ¬ Recorded key claim ms) ∨
      ∃ claim, Recorded key claim ms ∧ claim.revokedBy = some by_ ∧ claim.revokeEventUuid = some eventUuid

/-- The copied event is settled in the claims, when they can be derived. -/
def ReaperSettled (X : Externals) (events : List Json) (event : Json) : Prop :=
  ∀ ms m, marks X events = .ok ms → ReadsMarks ms → markOf X event = .ok m → SettledMark ms m

section Runs

variable {ms : List Mark} {m : Mark} {claims : Claims} {key : String}

lemma recorded_accept_iff {claim : ClaimState} (hfresh : claim.Fresh)
    (huuid : ∀ other, .accept other ∈ ms → other.sourceEventUuid = claim.sourceEventUuid → other = claim) :
    Recorded claim.key claim ms ↔ SettledMark ms (.accept claim) := by
  constructor
  · rintro ⟨before, accepted, after, rfl, hkey, hafter, hclaim⟩
    obtain rfl : accepted = claim := huuid accepted (by simp) (by rw [hclaim]; rfl)
    have hbeat := congrArg ClaimState.lastHeartbeatAt hclaim
    have hrevoked := congrArg ClaimState.revokedBy hclaim
    simp only [ClaimState.touched, hfresh.1, Option.or_none] at hbeat
    simp only [ClaimState.touched, hfresh.2.1, Option.or_none] at hrevoked
    exact ⟨before, after, rfl, fun m hm => ⟨hafter m hm, latest_eq_none.mp hbeat.symm m hm,
      latest_eq_none.mp (Option.map_eq_none_iff.mp hrevoked.symm) m hm⟩⟩
  · rintro ⟨before, after, rfl, hafter⟩
    have hbeat : latest (Mark.beat? claim.key) after = none := latest_eq_none.mpr fun m hm => (hafter m hm).2.1
    have hrevoked : latest (Mark.revocation? claim.key) after = none := latest_eq_none.mpr fun m hm => (hafter m hm).2.2
    exact ⟨before, claim, after, rfl, rfl, fun m hm => (hafter m hm).1, by simp [ClaimState.touched, hbeat, hrevoked]⟩

lemma set_touched_iff {claim touched : ClaimState} (h : claims.lookup key = some claim) :
    claims.set key touched = claims ↔ touched = claim := by
  rw [Dict.set_eq_self_iff, h, Option.some.injEq, eq_comm]

/-- A mark may be made once more, at the end, if and only if it is settled. -/
lemma apply_self_iff (h : replayMarks ms = .ok claims)
    (hfresh : ∀ claim, m = .accept claim → claim.Fresh ∧ ∀ other, .accept other ∈ ms →
      other.sourceEventUuid = claim.sourceEventUuid → other = claim) :
    m.apply claims = .ok claims ↔ SettledMark ms m := by
  cases m with
  | ignored => simp [Mark.apply, SettledMark]
  | accept claim =>
    obtain ⟨hnew, huuid⟩ := hfresh claim rfl
    rw [Mark.apply, Except.ok.injEq, Dict.set_eq_self_iff, lookup_iff h, recorded_accept_iff hnew huuid]
  | heartbeat key at_ =>
    have hrecorded : ∀ claim, claims.lookup key = some claim ↔ Recorded key claim ms := fun _ => lookup_iff h
    cases hclaim : claims.lookup key with
    | none =>
      simp only [hclaim, reduceCtorEq, false_iff] at hrecorded
      simp [Mark.apply, hclaim, SettledMark, hrecorded]
    | some claim =>
      simp only [hclaim, Option.some.injEq] at hrecorded
      simp only [Mark.apply, hclaim, SettledMark, ← hrecorded, forall_eq', false_or, bind_eq_ok,
        pure_eq_ok, set_touched_iff hclaim, exists_and_left, exists_eq_left']
      constructor
      · rintro ⟨t, rfl, hsame⟩
        exact ⟨t, rfl, (congrArg ClaimState.lastHeartbeatAt hsame).symm⟩
      · rintro ⟨t, rfl, hbeat⟩
        exact ⟨t, rfl, by rw [← hbeat]⟩
  | revoke key by_ eventUuid =>
    have hrecorded : ∀ claim, claims.lookup key = some claim ↔ Recorded key claim ms := fun _ => lookup_iff h
    cases hclaim : claims.lookup key with
    | none =>
      simp only [hclaim, reduceCtorEq, false_iff] at hrecorded
      simp [Mark.apply, hclaim, SettledMark, hrecorded]
    | some claim =>
      simp only [hclaim, Option.some.injEq] at hrecorded
      simp only [Mark.apply, hclaim, SettledMark, ← hrecorded, forall_eq', false_or,
        Except.ok.injEq, set_touched_iff hclaim, exists_eq_left']
      constructor
      · intro hsame
        exact ⟨(congrArg ClaimState.revokedBy hsame).symm, (congrArg ClaimState.revokeEventUuid hsame).symm⟩
      · rintro ⟨hby, huuid⟩
        rw [← hby, ← huuid]

end Runs

lemma buildClaimState_fresh {X : Externals} {event : Json} {claim : ClaimState}
    (h : buildClaimState X event = .ok (some claim)) :
    claim.Fresh ∧ claim.sourceEventUuid = textOr X (event.get "event_uuid") := by
  unfold buildClaimState at h
  split at h
  · simp only at h
    split at h
    · split at h
      · simp only [bind_eq_ok, pure_eq_ok] at h
        obtain ⟨expiresAt, -, acceptedAt, -, hclaim⟩ := h
        cases hclaim
        exact ⟨⟨rfl, rfl, rfl⟩, rfl⟩
      · simp only [bind_eq_ok, pure_eq_ok] at h
        obtain ⟨expiresAt, -, acceptedAt, -, hclaim⟩ := h
        cases hclaim
        exact ⟨⟨rfl, rfl, rfl⟩, rfl⟩
    · cases h
  · cases h

lemma markOf_accept {X : Externals} {event : Json} {claim : ClaimState} (h : markOf X event = .ok (.accept claim)) :
    claim.Fresh ∧ claim.sourceEventUuid = textOr X (event.get "event_uuid") := by
  unfold markOf at h
  split at h
  · split at h
    · obtain ⟨built, hbuilt, haccept⟩ := map_eq_ok.mp h
      cases built with
      | none => cases haccept
      | some built =>
        cases haccept
        exact buildClaimState_fresh hbuilt
    · rename_i fields _ _
      have hmark := Except.ok.inj h
      cases hkey : keyOf (.obj fields) with
      | none =>
        rw [hkey] at hmark
        cases hmark
      | some key =>
        rw [hkey, Option.map_some, Option.getD_some, touchOf] at hmark
        split at hmark <;> cases hmark
  · cases h

end ReapLedgerState

section Ledgers

open LedgerClaimState ReapLedgerState

variable {X : Externals} {authority : Authority} {path : String} {bytes : List UInt8} {result : ReplayResult}
  {rawLines : List (List Char)} {rawLine : List Char} {event : Json}

/-- The state of an issue in a ledger. -/
def issueState (X : Externals) (bytes : List UInt8) (repo : String) (issue : Int) : Except Failure IssueState := do
  let events ← readEvents X bytes
  currentIssueState X events repo issue

/-- The claims that the reaper derives from a ledger. -/
def derivedClaims (X : Externals) (path : String) (bytes : List UInt8) : Except Failure Claims := do
  let events ← iterEvents X path (some bytes)
  deriveClaims X events

/-- A copy of a line at the end of a ledger changes nothing that replay or a reader reports. -/
def CopyInert (X : Externals) (authority : Authority) (path : String) (bytes : List UInt8) (result : ReplayResult)
    (rawLine : List Char) : Prop :=
  (∃ result', replay X authority path (some (Text.appendLine bytes rawLine)) = .ok result' ∧ result'.valid = true ∧
      result'.validEvents = result.validEvents ∧ result'.validPrefixHash = result.validPrefixHash) ∧
    (∀ repo issue, issueState X (Text.appendLine bytes rawLine) repo issue = issueState X bytes repo issue) ∧
    derivedClaims X path (Text.appendLine bytes rawLine) = derivedClaims X path bytes

lemma issueState_eq (h : replay X authority path (some bytes) = .ok result) (hvalid : result.valid = true)
    (repo : String) (issue : Int) :
    issueState X bytes repo issue = currentIssueState X (ledgerEvents X bytes) repo issue := by
  rw [issueState, readEvents_of_valid h hvalid]
  rfl

lemma derivedClaims_eq (h : replay X authority path (some bytes) = .ok result) (hvalid : result.valid = true) :
    derivedClaims X path bytes = deriveClaims X (ledgerEvents X bytes) := by
  rw [derivedClaims, iterEvents_of_valid h hvalid]
  rfl

lemma foldlM_concat_self {ε σ α : Type} {f : σ → α → Except ε σ} {xs : List α} {x : α} {s : σ} :
    (xs ++ [x]).foldlM f s = xs.foldlM f s ↔ ∀ s', xs.foldlM f s = .ok s' → f s' x = .ok s' := by
  rw [List.foldlM_append]
  cases xs.foldlM f s with
  | error failure => simp [bind, Except.bind]
  | ok s' => cases hx : f s' x <;> simp [bind, Except.bind, pure, Except.pure, hx]

lemma mem_mapM {ε α β : Type} {f : α → Except ε β} {xs : List α} {ys : List β} (h : xs.mapM f = .ok ys) {x : α}
    (hx : x ∈ xs) : ∃ y ∈ ys, f x = .ok y :=
  (mapM_eq_ok h).1 x hx

lemma gateSettled_iff (hfloat : Json.ReadsFloats X.float) (h : replay X authority path (some bytes) = .ok result)
    (hvalid : result.valid = true) (hmem : event ∈ ledgerEvents X bytes) :
    (∀ repo issue, currentIssueState X (ledgerEvents X bytes ++ [event]) repo issue =
      currentIssueState X (ledgerEvents X bytes) repo issue) ↔ GateSettled X (ledgerEvents X bytes) event := by
  obtain ⟨huuid, hne⟩ := get_event_uuid h hvalid hmem
  have hself : ∀ {repo issue cs c state}, changes X repo issue (ledgerEvents X bytes) = .ok cs →
      replayChanges cs = .ok state → changeOf X repo issue event = .ok c →
      (c.apply state = .ok state ↔ Settled c cs) := by
    intro repo issue cs c state hcs hrun hc
    by_cases hdecides : c.Decides
    · have hcuuid := uuid?_of_changeOf hc hdecides
      refine LedgerClaimState.apply_self_iff hrun (by simp [hcuuid, huuid]) fun d hd hddecides hduuid => ?_
      obtain ⟨e, he, hde⟩ := (mapM_eq_ok hcs).2 d hd
      have heuuid : e.get "event_uuid" = event.get "event_uuid" := by
        rw [uuid?_of_changeOf hde hddecides, hcuuid] at hduuid
        exact Option.some.inj hduuid
      have hsame := same_of_eventUuid hfloat h hvalid he hmem (by rw [eventUuid, heuuid, ← eventUuid])
      have hdistinct := distinct_of_readable (readable_of_mem_ledgerEvents hfloat he)
      rw [changeOf_same hsame hdistinct heuuid, hc] at hde
      exact (Except.ok.inj hde).symm
    · cases c with
      | ignored => exact LedgerClaimState.apply_self_iff hrun (by simp [Change.uuid?]) (by
          intro d _ hd hduuid
          cases d <;> simp [Change.uuid?] at hduuid hd
          all_goals exact absurd hd id)
      | heartbeat s at_ => exact LedgerClaimState.apply_self_iff hrun (by simp [Change.uuid?]) (by
          intro d _ hd hduuid
          cases d <;> simp [Change.uuid?] at hduuid hd
          all_goals exact absurd hd id)
      | _ => exact absurd trivial hdecides
  simp only [currentIssueState, foldlM_concat_self]
  constructor
  · intro hinert repo issue cs c hcs hread hc
    obtain ⟨state, hrun⟩ := reads_iff.mpr hread
    have hstate : currentIssueState X (ledgerEvents X bytes) repo issue = .ok state :=
      currentIssueState_eq_ok.mpr ⟨cs, hcs, hrun⟩
    have happly := hinert repo issue state hstate
    rw [applyEvent_eq, hc] at happly
    exact (hself hcs hrun hc).mp happly
  · intro hsettled repo issue state hstate
    obtain ⟨cs, hcs, hrun⟩ := currentIssueState_eq_ok.mp hstate
    obtain ⟨c, -, hc⟩ := mem_mapM hcs hmem
    rw [applyEvent_eq, hc]
    exact (hself hcs hrun hc).mpr (hsettled repo issue cs c hcs (reads_iff.mp ⟨state, hrun⟩) hc)

lemma reaperSettled_iff (hfloat : Json.ReadsFloats X.float) (h : replay X authority path (some bytes) = .ok result)
    (hvalid : result.valid = true) (hmem : event ∈ ledgerEvents X bytes) :
    deriveClaims X (ledgerEvents X bytes ++ [event]) = deriveClaims X (ledgerEvents X bytes) ↔
      ReaperSettled X (ledgerEvents X bytes) event := by
  obtain ⟨huuid, hne⟩ := get_event_uuid h hvalid hmem
  have hself : ∀ {ms m claims}, marks X (ledgerEvents X bytes) = .ok ms → replayMarks ms = .ok claims →
      markOf X event = .ok m → (m.apply claims = .ok claims ↔ SettledMark ms m) := by
    intro ms m claims hms hrun hm
    refine ReapLedgerState.apply_self_iff hrun ?_
    rintro claim rfl
    obtain ⟨hnew, hsource⟩ := markOf_accept hm
    refine ⟨hnew, fun other hother hsame => ?_⟩
    obtain ⟨e, he, hoe⟩ := (mapM_eq_ok hms).2 _ hother
    obtain ⟨heuuid, -⟩ := get_event_uuid h hvalid he
    have heq : eventUuid e = eventUuid event := by
      rw [(markOf_accept hoe).2, hsource, heuuid, huuid] at hsame
      exact hsame
    have hsame := same_of_eventUuid hfloat h hvalid he hmem heq
    have hdistinct := distinct_of_readable (readable_of_mem_ledgerEvents hfloat he)
    rw [markOf_same hsame hdistinct (by rw [heuuid, huuid, heq]), hm] at hoe
    cases hoe
    rfl
  rw [deriveClaims, deriveClaims, foldlM_concat_self]
  constructor
  · intro hinert ms m hms hread hm
    obtain ⟨claims, hrun⟩ := readsMarks_iff.mpr hread
    have hclaims : deriveClaims X (ledgerEvents X bytes) = .ok claims := deriveClaims_eq_ok.mpr ⟨ms, hms, hrun⟩
    have happly := hinert claims hclaims
    rw [deriveEvent_eq, hm] at happly
    exact (hself hms hrun hm).mp happly
  · intro hsettled claims hclaims
    obtain ⟨ms, hms, hrun⟩ := deriveClaims_eq_ok.mp hclaims
    obtain ⟨m, -, hm⟩ := mem_mapM hms hmem
    rw [deriveEvent_eq, hm]
    exact (hself hms hrun hm).mpr (hsettled ms m hms (readsMarks_iff.mp ⟨claims, hrun⟩) hm)

lemma ledgerEvents_copied (h : replay X authority path (some bytes) = .ok result) (hvalid : result.valid = true)
    (hlines : fileLines bytes = .ok rawLines) (hline : rawLine ∈ rawLines) (hevent : eventOfLine? X rawLine = some event) :
    ledgerEvents X (Text.appendLine bytes rawLine) = ledgerEvents X bytes ++ [event] ∧ event ∈ ledgerEvents X bytes := by
  obtain ⟨result', -, -, -, -, hlines'⟩ := replay_copied h hvalid hlines hline hevent
  have hevents := @ledgerEvents_of_lines X (some bytes) _ hlines
  have hcopied := @ledgerEvents_of_lines X (some (Text.appendLine bytes rawLine)) _ hlines'
  rw [Option.getD_some] at hevents hcopied
  rw [hcopied, hevents, List.filterMap_append, List.filterMap_cons_some hevent, List.filterMap_nil]
  exact ⟨rfl, List.mem_filterMap.mpr ⟨rawLine, hline, hevent⟩⟩

/-- A copied line is inert if and only if its event is settled for both readers. -/
theorem copy_inert_iff (hfloat : Json.ReadsFloats X.float) (h : replay X authority path (some bytes) = .ok result)
    (hvalid : result.valid = true) (hlines : fileLines bytes = .ok rawLines) (hline : rawLine ∈ rawLines)
    (hevent : eventOfLine? X rawLine = some event) :
    CopyInert X authority path bytes result rawLine ↔
      GateSettled X (ledgerEvents X bytes) event ∧ ReaperSettled X (ledgerEvents X bytes) event := by
  obtain ⟨result', h', hvalid', hcount, hhash, -⟩ := replay_copied h hvalid hlines hline hevent
  obtain ⟨hcopied, hmem⟩ := ledgerEvents_copied h hvalid hlines hline hevent
  have hreplay : ∃ result', replay X authority path (some (Text.appendLine bytes rawLine)) = .ok result' ∧
      result'.valid = true ∧ result'.validEvents = result.validEvents ∧
      result'.validPrefixHash = result.validPrefixHash := ⟨result', h', hvalid', hcount, hhash⟩
  simp only [CopyInert, hreplay, true_and, issueState_eq h hvalid, issueState_eq h' hvalid', derivedClaims_eq h hvalid,
    derivedClaims_eq h' hvalid', hcopied, gateSettled_iff hfloat h hvalid hmem, reaperSettled_iff hfloat h hvalid hmem]

end Ledgers

namespace Sample

open Library.Json

def expiredClaim : List Draft :=
  [⟨"u1", "CLAIM_ACCEPTED", "coordinator", "2026-07-16T20:00:00Z", after 0,
      .obj [("issue", .int 1), ("repository", .str "o/r"), ("session", .str "a")],
      "f39b1b9fba1e5f1f2dc5e1bcda33af058e67907c72f8f63f188f237ea0d3bb53",
      "c9f24869668cc43cbcc67e491beae44b40c6949674b2a73a8e0d1a2f1cba31bb"⟩,
    ⟨"u2", "CLAIM_EXPIRED", "reaper", "2026-07-16T20:10:00Z", after 10,
      .obj [("issue", .int 1), ("repository", .str "o/r"), ("session", .str "a")],
      "f39b1b9fba1e5f1f2dc5e1bcda33af058e67907c72f8f63f188f237ea0d3bb53",
      "5dae445e08f7b7157cd07487f40d0c1122c55adbeefe84d8681ee2ea0c3f772a"⟩]

lemma readable_expiredClaim (X : Externals) : ∀ draft ∈ expiredClaim, All (Readable X.float) draft.payload := by
  simp [expiredClaim, All, AllFields, Readable, readable_one]

lemma sorted_expiredClaim : ∀ draft ∈ expiredClaim, sorted draft.payload = draft.payload := by
  simp only [expiredClaim, List.forall_mem_cons]
  exact ⟨rfl, rfl, by simp⟩

lemma labelled_expiredClaim : Labelled ["event_uuid"] (materials none expiredClaim) := by
  simp [Labelled, expiredClaim, materials, label, Draft.chainedTo, Json.get, List.lookup, asStr?]

lemma replay_expiredClaim : ∃ result, replay (externals (digests expiredClaim)) authority "ledger.jsonl"
    (some (ledgerBytes (chained prefixed none expiredClaim))) = .ok result ∧ result.valid = true :=
  replay_sample (readable_expiredClaim _) labelled_expiredClaim (by decide) (by decide) (by decide) _

/-- The event that accepts the claim. -/
def accepted : Json :=
  .obj [("committed_at", .str "2026-07-16T20:00:00Z"),
    ("event_hash", .str "sha256:c9f24869668cc43cbcc67e491beae44b40c6949674b2a73a8e0d1a2f1cba31bb"),
    ("event_type", .str "CLAIM_ACCEPTED"), ("event_uuid", .str "u1"),
    ("payload", .obj [("issue", .int 1), ("repository", .str "o/r"), ("session", .str "a")]),
    ("payload_hash", .str "sha256:f39b1b9fba1e5f1f2dc5e1bcda33af058e67907c72f8f63f188f237ea0d3bb53"),
    ("previous_event_hash", .null), ("schemaVersion", .str "coordination-ledger-event/v1"),
    ("writer_role", .str "coordinator")]

lemma accepted_mem : accepted ∈ chained prefixed none expiredClaim := by
  exact List.mem_cons_self

end Sample

open Sample in
/-- The accepted claim copied behind its expiry gives the session its permission back. -/
theorem copy_inert_iff_expired :
    ∃ result, replay (externals (digests expiredClaim)) authority "ledger.jsonl"
        (some (ledgerBytes (chained prefixed none expiredClaim))) = .ok result ∧ result.valid = true ∧
      (∃ rawLines, fileLines (ledgerBytes (chained prefixed none expiredClaim)) = .ok rawLines ∧
        canonicalEventLine accepted ∈ rawLines) ∧
      eventOfLine? (externals (digests expiredClaim)) (canonicalEventLine accepted) = some accepted ∧
      ¬ CopyInert (externals (digests expiredClaim)) authority "ledger.jsonl"
        (ledgerBytes (chained prefixed none expiredClaim)) result (canonicalEventLine accepted) := by
  obtain ⟨result, h, hvalid⟩ := replay_expiredClaim
  have hlines := @fileLines_chained (externals (digests expiredClaim)) _ (readable_expiredClaim _)
  have hmem := List.mem_map_of_mem (f := canonicalEventLine) accepted_mem
  have hevent := eventOfLine?_chained (readable_expiredClaim (externals (digests expiredClaim))) sorted_expiredClaim _
    accepted_mem
  refine ⟨result, h, hvalid, ⟨_, hlines, hmem⟩, hevent, ?_⟩
  rintro ⟨-, hgate, -⟩
  obtain ⟨result', h', hvalid', -⟩ := replay_copied h hvalid hlines hmem hevent
  have hstate := hgate "o/r" 1
  rw [issueState_eq h hvalid, issueState_eq h' hvalid', (ledgerEvents_copied h hvalid hlines hmem hevent).1,
    ledgerEvents_chained (readable_expiredClaim _) sorted_expiredClaim] at hstate
  have hpermission := congrArg (fun state => state.toOption.map (·.permissionState)) hstate
  revert hpermission
  decide

open Sample in
/-- The same line, copied to the end of that ledger. -/
theorem copy_inert_iff_accepted :
    ∃ result, CopyInert (externals (digests expiredClaim)) authority "ledger.jsonl"
        (ledgerBytes (chained prefixed none expiredClaim)) result (canonicalEventLine accepted) ↔
      LedgerClaimState.GateSettled (externals (digests expiredClaim))
          (ledgerEvents (externals (digests expiredClaim)) (ledgerBytes (chained prefixed none expiredClaim))) accepted ∧
        ReapLedgerState.ReaperSettled (externals (digests expiredClaim))
          (ledgerEvents (externals (digests expiredClaim)) (ledgerBytes (chained prefixed none expiredClaim))) accepted := by
  obtain ⟨result, h, hvalid⟩ := replay_expiredClaim
  have hlines := @fileLines_chained (externals (digests expiredClaim)) _ (readable_expiredClaim _)
  have hmem := List.mem_map_of_mem (f := canonicalEventLine) accepted_mem
  have hevent := eventOfLine?_chained (readable_expiredClaim (externals (digests expiredClaim))) sorted_expiredClaim _
    accepted_mem
  exact ⟨result, copy_inert_iff (readsFloats _) h hvalid hlines hmem hevent⟩

end PlatformGitops.Coordination
