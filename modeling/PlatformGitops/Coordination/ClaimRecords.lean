import PlatformGitops.Coordination.LedgerClaimState
import PlatformGitops.Library.Since

/-! The claims that the reaper derives, each as what the events under its key leave of it. -/

namespace PlatformGitops.Coordination.ReapLedgerState

open Library Fallible
open CrossAi (IsoDatetime)
open LedgerClaimState (eventKind)

variable (X : Externals)

/-- What an event does to the claims. The time of a heartbeat is looked at only when there is a claim under its key. -/
inductive Mark where
  | ignored
  | accept (claim : ClaimState)
  | heartbeat (key : String) (at_ : Except Failure IsoDatetime)
  | revoke (key : String) (by_ : String) (eventUuid : String)

def touchOf (event : Json) (key : String) : Mark :=
  match eventKind (event.get "event_type") with
  | .ok .heartbeatEvidence => .heartbeat key (parseUtcZ X (event.get "committed_at") "committed_at")
  | .ok (.revocation r) => .revoke key r.name (textOr X (event.get "event_uuid"))
  | .ok _ => .ignored
  | .error failure => .heartbeat key (.error failure)

def keyOf (payload : Json) : Option String :=
  (payloadIssue payload).bind fun issue =>
    (payloadSession payload).map (claimKey (payloadRepository payload) issue)

def acceptOf : Option ClaimState → Mark
  | some claim => .accept claim
  | none => .ignored

def markOf (event : Json) : Except Failure Mark :=
  match event.get "payload" with
  | .obj fields =>
    if OfType "CLAIM_ACCEPTED" event then acceptOf <$> buildClaimState X event
    else .ok (((keyOf (.obj fields)).map (touchOf X event)).getD .ignored)
  | _ => .ok .ignored

namespace Mark

def apply (claims : Claims) : Mark → Except Failure Claims
  | .ignored => .ok claims
  | .accept claim => .ok (claims.set claim.key claim)
  | .heartbeat key at_ =>
    match claims.lookup key with
    | some claim => do
      let lastHeartbeatAt ← at_
      pure (claims.set key { claim with lastHeartbeatAt := some lastHeartbeatAt })
    | none => .ok claims
  | .revoke key by_ eventUuid =>
    match claims.lookup key with
    | some claim => .ok (claims.set key { claim with
        revokedBy := some by_
        revokeEventUuid := some eventUuid })
    | none => .ok claims

def AcceptsOn (key : String) : Mark → Prop
  | .accept claim => claim.key = key
  | _ => False

def beat? (key : String) : Mark → Option IsoDatetime
  | .heartbeat k (.ok at_) => if k = key then some at_ else none
  | _ => none

def revocation? (key : String) : Mark → Option (String × String)
  | .revoke k by_ eventUuid => if k = key then some (by_, eventUuid) else none
  | _ => none

end Mark

def marks (events : List Json) : Except Failure (List Mark) := events.mapM (markOf X)

def replayMarks (ms : List Mark) : Except Failure Claims := ms.foldlM Mark.apply []

variable {X}

lemma touch_eq {event : Json} {claims : Claims} {key : String} {claim : ClaimState}
    (h : claims.lookup key = some claim) :
    (touch X event claim >>= fun touched => pure (claims.set key touched)) = (touchOf X event key).apply claims := by
  have hself := Dict.set_eq_self h
  simp only [touch, touchOf]
  cases eventKind (event.get "event_type") with
  | error failure => simp [Mark.apply, h, bind, Except.bind]
  | ok kind =>
    cases kind with
    | heartbeatEvidence =>
      simp only [Mark.apply, h]
      cases parseUtcZ X (event.get "committed_at") "committed_at" <;> rfl
    | revocation r => simp [Mark.apply, h, bind, Except.bind, pure, Except.pure]
    | _ => simp [Mark.apply, hself, bind, Except.bind, pure, Except.pure]

lemma apply_touchOf_of_none {event : Json} {claims : Claims} {key : String} (h : claims.lookup key = none) :
    (touchOf X event key).apply claims = .ok claims := by
  unfold touchOf
  split <;> simp [Mark.apply, h]

lemma deriveEvent_eq (claims : Claims) (event : Json) :
    deriveEvent X claims event = markOf X event >>= Mark.apply claims := by
  unfold deriveEvent markOf
  cases event.get "payload" with
  | obj fields =>
    simp only
    split
    · cases buildClaimState X event with
      | error failure => rfl
      | ok claim => cases claim <;> rfl
    · cases hissue : payloadIssue (.obj fields) with
      | none => simp [keyOf, hissue, Mark.apply, bind, Except.bind]
      | some issue =>
        cases hsession : payloadSession (.obj fields) with
        | none => simp [keyOf, hissue, hsession, Mark.apply, bind, Except.bind]
        | some session =>
          simp only [keyOf, hissue, hsession, Option.bind_some, Option.map_some, Option.getD_some]
          cases hclaim : claims.lookup (claimKey (payloadRepository (.obj fields)) issue session) with
          | none => exact (apply_touchOf_of_none hclaim).symm
          | some claim => exact touch_eq hclaim
  | _ => rfl

lemma deriveClaims_eq_ok {events : List Json} {claims : Claims} :
    deriveClaims X events = .ok claims ↔ ∃ ms, marks X events = .ok ms ∧ replayMarks ms = .ok claims := by
  have hfun : deriveEvent X = fun claims event => markOf X event >>= Mark.apply claims := by
    funext claims event
    exact deriveEvent_eq claims event
  rw [deriveClaims, hfun]
  exact foldlM_bind_eq_ok

section Runs

variable {claims claims' : Claims} {ms : List Mark} {key : String} {claim : ClaimState}

/-- A claim after what happened under its key since it was accepted. -/
def ClaimState.touched (claim : ClaimState) (key : String) (ms : List Mark) : ClaimState :=
  { claim with
    lastHeartbeatAt := (latest (Mark.beat? key) ms).or claim.lastHeartbeatAt
    revokedBy := ((latest (Mark.revocation? key) ms).map (·.1)).or claim.revokedBy
    revokeEventUuid := ((latest (Mark.revocation? key) ms).map (·.2)).or claim.revokeEventUuid }

@[simp] lemma touched_nil : claim.touched key [] = claim := by
  simp [ClaimState.touched]

lemma touched_append (xs ys : List Mark) : claim.touched key (xs ++ ys) = (claim.touched key xs).touched key ys := by
  simp only [ClaimState.touched, latest_append, Option.or_assoc]
  cases latest (Mark.revocation? key) ys <;> simp

lemma apply_lookup {m : Mark} (h : m.apply claims = .ok claims') (key : String) :
    (∃ claim, m = .accept claim ∧ claim.key = key ∧ claims'.lookup key = some claim) ∨
      ¬ m.AcceptsOn key ∧ claims'.lookup key = (claims.lookup key).map fun claim => claim.touched key [m] := by
  cases m with
  | ignored =>
    cases h
    exact .inr ⟨id, by simp [ClaimState.touched, latest, Mark.beat?, Mark.revocation?]⟩
  | accept claim =>
    cases h
    by_cases hkey : claim.key = key
    · exact .inl ⟨claim, rfl, hkey, by simp [Dict.lookup_set, hkey]⟩
    · refine .inr ⟨hkey, ?_⟩
      simp [Dict.lookup_set, Ne.symm hkey, ClaimState.touched, latest, Mark.beat?, Mark.revocation?]
  | heartbeat k at_ =>
    refine .inr ⟨id, ?_⟩
    simp only [Mark.apply] at h
    cases hclaim : claims.lookup k with
    | none =>
      rw [hclaim] at h
      cases h
      by_cases hkey : k = key
      · simp [← hkey, hclaim]
      · cases at_ <;> simp [ClaimState.touched, latest, Mark.beat?, Mark.revocation?, hkey]
    | some claim =>
      rw [hclaim] at h
      simp only [bind_eq_ok, pure_eq_ok] at h
      obtain ⟨t, rfl, rfl⟩ := h
      by_cases hkey : k = key
      · simp [Dict.lookup_set, ← hkey, hclaim, ClaimState.touched, latest, Mark.beat?, Mark.revocation?]
      · simp [Dict.lookup_set, Ne.symm hkey, ClaimState.touched, latest, Mark.beat?, Mark.revocation?, hkey]
  | revoke k by_ eventUuid =>
    refine .inr ⟨id, ?_⟩
    simp only [Mark.apply] at h
    cases hclaim : claims.lookup k with
    | none =>
      rw [hclaim] at h
      cases h
      by_cases hkey : k = key
      · simp [← hkey, hclaim]
      · simp [ClaimState.touched, latest, Mark.beat?, Mark.revocation?, hkey]
    | some claim =>
      rw [hclaim] at h
      cases h
      by_cases hkey : k = key
      · simp [Dict.lookup_set, ← hkey, hclaim, ClaimState.touched, latest, Mark.beat?, Mark.revocation?]
      · simp [Dict.lookup_set, Ne.symm hkey, ClaimState.touched, latest, Mark.beat?, Mark.revocation?, hkey]

/-- What the marks under a key leave of its last accepted claim. -/
def Recorded (key : String) (claim : ClaimState) (ms : List Mark) : Prop :=
  ∃ before accepted after, ms = before ++ .accept accepted :: after ∧ accepted.key = key ∧
    (∀ m ∈ after, ¬ m.AcceptsOn key) ∧ claim = accepted.touched key after

lemma recorded_concat_accept {accepted : ClaimState} (hkey : accepted.key = key) :
    Recorded key claim (ms ++ [.accept accepted]) ↔ claim = accepted := by
  constructor
  · rintro ⟨before, other, after, hsplit, -, hafter, rfl⟩
    rcases after.eq_nil_or_concat with rfl | ⟨after, m, rfl⟩
    · obtain ⟨-, heq⟩ := List.append_inj' hsplit rfl
      cases heq
      simp
    · rw [List.concat_eq_append, ← List.cons_append, ← List.append_assoc] at hsplit
      obtain ⟨-, heq⟩ := List.append_inj' hsplit rfl
      cases heq
      exact absurd hkey (hafter (.accept accepted) (by simp))
  · rintro rfl
    exact ⟨ms, claim, [], rfl, hkey, by simp, by simp⟩

lemma recorded_concat {m : Mark} (hm : ¬ m.AcceptsOn key) :
    Recorded key claim (ms ++ [m]) ↔ ∃ old, Recorded key old ms ∧ claim = old.touched key [m] := by
  constructor
  · rintro ⟨before, accepted, after, hsplit, hkey, hafter, rfl⟩
    rcases after.eq_nil_or_concat with rfl | ⟨after, m', rfl⟩
    · obtain ⟨-, heq⟩ := List.append_inj' hsplit rfl
      cases heq
      exact absurd hkey hm
    · rw [List.concat_eq_append, ← List.cons_append, ← List.append_assoc] at hsplit
      obtain ⟨rfl, heq⟩ := List.append_inj' hsplit rfl
      cases heq
      rw [List.concat_eq_append] at hafter ⊢
      exact ⟨_, ⟨before, accepted, after, rfl, hkey, (List.forall_mem_append.mp hafter).1, rfl⟩, touched_append _ _⟩
  · rintro ⟨_, ⟨before, accepted, after, rfl, hkey, hafter, rfl⟩, rfl⟩
    refine ⟨before, accepted, after ++ [m], by simp, hkey, ?_, (touched_append _ _).symm⟩
    exact List.forall_mem_append.mpr ⟨hafter, by simpa using hm⟩

/-- The claim under a key is what was recorded under it. -/
lemma lookup_iff (h : replayMarks ms = .ok claims) : claims.lookup key = some claim ↔ Recorded key claim ms := by
  induction ms using List.reverseRecOn generalizing claims claim with
  | nil =>
    cases h
    simp [Recorded]
  | append_singleton ms m ih =>
    obtain ⟨middle, hmiddle, hlast⟩ := foldlM_concat_eq_ok.mp h
    rcases apply_lookup hlast key with ⟨accepted, rfl, hkey, hlookup⟩ | ⟨hm, hlookup⟩
    · rw [hlookup, recorded_concat_accept hkey, Option.some.injEq, eq_comm]
    · rw [hlookup, recorded_concat hm, Option.map_eq_some_iff]
      simp only [ih hmiddle, eq_comm]

/-- No heartbeat of an accepted claim has a time that cannot be read. -/
def ReadsMarks (ms : List Mark) : Prop :=
  Along (fun before m => ∀ key failure, m = .heartbeat key (.error failure) → ∀ claim, ¬ Recorded key claim before) ms

lemma readsMarks_iff : (∃ claims, replayMarks ms = .ok claims) ↔ ReadsMarks ms := by
  refine succeeds_iff_along fun before m claims h => ?_
  cases m with
  | heartbeat key at_ =>
    have hrecorded := fun claim => @lookup_iff _ _ key claim h
    cases hclaim : claims.lookup key with
    | none =>
      have hnone : ∀ claim, ¬ Recorded key claim before := fun claim hrec => by
        rw [← hrecorded claim, hclaim] at hrec
        cases hrec
      cases at_ <;> simp [Mark.apply, hclaim, hnone]
    | some claim =>
      have hsome : Recorded key claim before := (hrecorded claim).mp hclaim
      cases at_ with
      | ok t => simp [Mark.apply, hclaim, bind, Except.bind, pure, Except.pure]
      | error failure =>
        simp only [Mark.apply, hclaim, bind, Except.bind, reduceCtorEq, exists_false, false_iff]
        exact fun hnot => hnot key failure rfl claim hsome
  | revoke key by_ eventUuid => cases hclaim : claims.lookup key <;> simp [Mark.apply, hclaim]
  | _ => simp [Mark.apply]

/-- The claims are kept under their own keys. -/
structure Keyed (claims : Claims) : Prop where
  unique : Dict.Unique claims
  keys : ∀ p ∈ claims, p.2.key = p.1

lemma Keyed.key_eq (h : Keyed claims) (hlookup : claims.lookup key = some claim) : claim.key = key := by
  have hmem : (key, claim) ∈ claims := by
    rw [Dict.Unique.mem_iff h.unique]
    exact hlookup
  exact h.keys (key, claim) hmem

lemma Keyed.set (h : Keyed claims) (hkey : claim.key = key) : Keyed (claims.set key claim) := by
  refine ⟨h.unique.set, fun p hp => ?_⟩
  obtain ⟨k, c⟩ := p
  rw [Dict.Unique.mem_iff h.unique.set, Dict.lookup_set] at hp
  split at hp
  · rename_i hk
    cases hp
    exact hkey.trans hk.symm
  · exact h.key_eq hp

lemma keyed_of_replayMarks (h : replayMarks ms = .ok claims) : Keyed claims := by
  induction ms using List.reverseRecOn generalizing claims with
  | nil =>
    cases h
    exact ⟨List.nodup_nil, by simp⟩
  | append_singleton ms m ih =>
    obtain ⟨middle, hmiddle, hlast⟩ := foldlM_concat_eq_ok.mp h
    have hkeyed := ih hmiddle
    cases m with
    | ignored =>
      cases hlast
      exact hkeyed
    | accept claim =>
      cases hlast
      exact hkeyed.set rfl
    | heartbeat key at_ =>
      simp only [Mark.apply] at hlast
      cases hclaim : middle.lookup key with
      | none =>
        rw [hclaim] at hlast
        cases hlast
        exact hkeyed
      | some claim =>
        rw [hclaim] at hlast
        simp only [bind_eq_ok, pure_eq_ok] at hlast
        obtain ⟨t, -, rfl⟩ := hlast
        have hkey := hkeyed.key_eq hclaim
        exact hkeyed.set hkey
    | revoke key by_ eventUuid =>
      simp only [Mark.apply] at hlast
      cases hclaim : middle.lookup key with
      | none =>
        rw [hclaim] at hlast
        cases hlast
        exact hkeyed
      | some claim =>
        rw [hclaim] at hlast
        cases hlast
        have hkey := hkeyed.key_eq hclaim
        exact hkeyed.set hkey

end Runs

end PlatformGitops.Coordination.ReapLedgerState
