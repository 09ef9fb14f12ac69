import PlatformGitops.Coordination.ClaimChanges
import PlatformGitops.Coordination.TakeoverRecoveryFlow
import Mathlib

/-! The takeover of a claim in two steps: what the flow plans for a ledger, and what the ledgers look like whose takeovers
it has planned. -/

namespace PlatformGitops.Coordination.TakeoverRecoveryFlow

open Library Fallible
open CrossAi (IsoDatetime Stamp)
open LedgerClaimState (payload payloadSession)

/-- Of which issue the claim is to be taken over, from which session and by which. -/
structure Pair where
  repo : String
  issue : Int
  oldSession : String
  newSession : String

structure Plan where
  eventType : String
  writerRole : String
  payload : Json
  appendWith : String := "scripts/coordination/emit-ledger-event.sh"
  note : String

def flowError {α : Type} (message : String) : Except FlowFailure α := .error (.flowError message)

section Ledger

variable (pair : Pair)

def issueMatches (data : Json) (repo : String) (issue : Int) : Bool :=
  (orElse (data.get "repository") (data.get "repo")).asStr? = some repo ∧ equalsInt issue (data.get "issue")

def isClaim (repo : String) (issue : Int) (session : String) (event : Json) : Bool :=
  OfType "CLAIM_ACCEPTED" event ∧ issueMatches (payload event) repo issue ∧
    payloadSession (payload event) ["session", "claim_session"] = some session

def latestClaim (events : List Json) (repo : String) (issue : Int) (session : String) : Option Json :=
  (events.filter (isClaim repo issue session)).getLast?

def takeoverTypes : List String := ["TAKEOVER_ACCEPTED", "TAKEOVER_COMMITTED", "TAKEOVER_REJECTED"]

def isTakeover (event : Json) : Bool :=
  (event.get "event_type").asStr?.any (· ∈ takeoverTypes) ∧ issueMatches (payload event) pair.repo pair.issue ∧
    ((payload event).get "old_session").asStr? = some pair.oldSession ∧
      ((payload event).get "new_session").asStr? = some pair.newSession

def latestTakeover (events : List Json) : Option Json := (events.filter (isTakeover pair)).getLast?

end Ledger

section Phases

variable (X : Externals) (pair : Pair)

def acceptPlan (reason : String) (now : Stamp) : Plan where
  eventType := "TAKEOVER_ACCEPTED"
  writerRole := "coordinator"
  payload := .obj [("repository", .str pair.repo), ("issue", .int pair.issue), ("old_session", .str pair.oldSession),
    ("new_session", .str pair.newSession), ("reason", .str reason), ("accepted_at", .str (stampText X now)),
    ("old_permission", .bool false), ("new_permission", .bool false), ("state", .str "takeover_pending_mirror")]
  note := "append TAKEOVER_ACCEPTED first; neither old nor new session has permission until commit"

def cmdAccept (events : List Json) (reason : String) (now : Stamp) : Except FlowFailure (List Plan) :=
  if latestClaim events pair.repo pair.issue pair.oldSession = none then
    flowError "TAKEOVER_ACCEPTED requires an existing CLAIM_ACCEPTED for old session"
  else
    match latestTakeover pair events with
    | none => .ok [acceptPlan X pair reason now]
    | some existing =>
      if OfType "TAKEOVER_REJECTED" existing then .ok [acceptPlan X pair reason now]
      else flowError ("takeover already has terminal or pending event " ++
        (existing.get "event_type").asStr?.getD "None")

def parseUtcZ (value : Json) (fieldName : String) : Except FlowFailure Unit :=
  match value with
  | .str s =>
    if CrossAi.endsWithZ s then
      match X.fromisoformat (spelledOffset s) with
      | .ok _ => .ok ()
      | .error message => flowError (fieldName ++ " is not parseable: " ++ message)
    else flowError (fieldName ++ " must be an ISO-8601 UTC string ending with Z")
  | _ => flowError (fieldName ++ " must be an ISO-8601 UTC string ending with Z")

def mirrorKeys : List String := ["issue_body_verified", "project_verified", "pr_mirrors_verified"]

def validateMirrorVerification (data : Json) : Except FlowFailure Json := do
  mirrorKeys.forM fun key =>
    rejectIf (¬(data.get key).asBool? = some true) (.flowError ("mirror verification requires " ++ key ++ "=true"))
  rejectIf (¬((data.get "repository").asStr? = some pair.repo ∧ equalsInt pair.issue (data.get "issue") = true))
    (.flowError "mirror verification repository/issue mismatch")
  rejectIf (¬((data.get "old_session").asStr? = some pair.oldSession ∧
      (data.get "new_session").asStr? = some pair.newSession))
    (.flowError "mirror verification old/new session mismatch")
  parseUtcZ X (data.get "verified_at") "mirror.verified_at"
  pure data

def commitPlan (mirror existing : Json) (now : Stamp) : Plan where
  eventType := "TAKEOVER_COMMITTED"
  writerRole := "coordinator"
  payload := .obj [("repository", .str pair.repo), ("issue", .int pair.issue), ("old_session", .str pair.oldSession),
    ("new_session", .str pair.newSession), ("committed_at", .str (stampText X now)), ("state", .str "active_winner"),
    ("old_permission", .bool false), ("new_permission", .bool true), ("mirror_verification", mirror),
    ("accepted_event_uuid", existing.get "event_uuid")]
  note := "append only after issue body, Project, and PR mirrors verify"

/-- The mirror verification is loaded once the ledger is found to allow a commit. -/
def cmdCommit (events : List Json) (mirror : Except FlowFailure Json) (now : Stamp) : Except FlowFailure (List Plan) :=
  match (latestTakeover pair events).filter fun existing => decide (OfType "TAKEOVER_ACCEPTED" existing) with
  | none => flowError "TAKEOVER_COMMITTED requires latest matching takeover event to be TAKEOVER_ACCEPTED"
  | some existing => do
    let verified ← validateMirrorVerification X pair (← mirror)
    pure [commitPlan X pair verified existing now]

end Phases

/-- The event is the one of the plan. -/
def Plan.Appended (plan : Plan) (event : Json) : Prop :=
  event.get "event_type" = .str plan.eventType ∧ event.get "payload" = plan.payload

/-- Ledgers in which the takeovers of a pair were planned by the flow, each on a ledger to which no takeover of the pair
was added until its own event was; everything else is appended at any time, rejections too. -/
inductive Planned (X : Externals) (pair : Pair) : List Json → Prop
  | start : Planned X pair []
  | other {events : List Json} {event : Json} : Planned X pair events → isTakeover pair event = false →
      Planned X pair (events ++ [event])
  | rejected {events : List Json} {event : Json} : Planned X pair events → OfType "TAKEOVER_REJECTED" event →
      Planned X pair (events ++ [event])
  | accepted {events between : List Json} {event : Json} {reason : String} {now : Stamp} {plans : List Plan} {plan : Plan} :
      Planned X pair (events ++ between) → (∀ e ∈ between, isTakeover pair e = false) →
      cmdAccept X pair events reason now = .ok plans → plan ∈ plans → plan.Appended event →
      Planned X pair (events ++ between ++ [event])
  | committed {events between : List Json} {event : Json} {mirror : Except FlowFailure Json} {now : Stamp}
      {plans : List Plan} {plan : Plan} :
      Planned X pair (events ++ between) → (∀ e ∈ between, isTakeover pair e = false) →
      cmdCommit X pair events mirror now = .ok plans → plan ∈ plans → plan.Appended event →
      Planned X pair (events ++ between ++ [event])

section Spec

variable {X : Externals} {pair : Pair} {events : List Json} {event : Json} {plans : List Plan} {plan : Plan}
  {now : Stamp}

lemma latestTakeover_append {between : List Json} (h : ∀ e ∈ between, isTakeover pair e = false) :
    latestTakeover pair (events ++ between) = latestTakeover pair events := by
  have hnone : between.filter (isTakeover pair) = [] := List.filter_eq_nil_iff.mpr fun e he => by simp [h e he]
  rw [latestTakeover, List.filter_append, hnone, List.append_nil, latestTakeover]

lemma cmdAccept_eq_ok {reason : String} (h : cmdAccept X pair events reason now = .ok plans) (hplan : plan ∈ plans) :
    plan = acceptPlan X pair reason now ∧ (∃ claim ∈ events, isClaim pair.repo pair.issue pair.oldSession claim = true) ∧
      ∀ existing, latestTakeover pair events = some existing → OfType "TAKEOVER_REJECTED" existing := by
  unfold cmdAccept at h
  by_cases hclaim : latestClaim events pair.repo pair.issue pair.oldSession = none
  · rw [if_pos hclaim] at h
    cases h
  rw [if_neg hclaim] at h
  have hfound : ∃ claim ∈ events, isClaim pair.repo pair.issue pair.oldSession claim = true := by
    obtain ⟨claim, hlast⟩ := Option.ne_none_iff_exists'.mp hclaim
    exact ⟨claim, List.mem_filter.mp (List.mem_of_getLast? hlast)⟩
  cases hlatest : latestTakeover pair events with
  | none =>
    rw [hlatest] at h
    cases h
    exact ⟨List.mem_singleton.mp hplan, hfound, fun existing hsome => by cases hsome⟩
  | some existing =>
    rw [hlatest] at h
    dsimp only at h
    by_cases hrejected : OfType "TAKEOVER_REJECTED" existing
    · rw [if_pos hrejected] at h
      cases h
      refine ⟨List.mem_singleton.mp hplan, hfound, fun other hsome => ?_⟩
      obtain rfl := Option.some.inj hsome
      exact hrejected
    · rw [if_neg hrejected] at h
      cases h

lemma cmdCommit_eq_ok {mirror : Except FlowFailure Json} (h : cmdCommit X pair events mirror now = .ok plans)
    (hplan : plan ∈ plans) : ∃ existing verified, plan = commitPlan X pair verified existing now ∧
      latestTakeover pair events = some existing ∧ OfType "TAKEOVER_ACCEPTED" existing := by
  unfold cmdCommit at h
  split at h
  · cases h
  · rename_i existing hexisting
    obtain ⟨hlatest, haccepted⟩ := Option.filter_eq_some_iff.mp hexisting
    simp only [bind_eq_ok, pure_eq_ok] at h
    obtain ⟨_, -, verified, -, rfl⟩ := h
    exact ⟨existing, verified, List.mem_singleton.mp hplan, hlatest, of_decide_eq_true haccepted⟩

end Spec

namespace Sample

def externals : Externals := Coordination.Sample.externals []

def pair : Pair := ⟨"o/r", 1, "a", "b"⟩

def now : Stamp := CrossAi.utcSeconds (Coordination.Sample.after 10)

def eventOf (eventType uuid : String) (payload : Json) : Json :=
  .obj [("event_type", .str eventType), ("event_uuid", .str uuid), ("committed_at", .str "2026-07-16T20:10:00Z"),
    ("payload", payload)]

def claim : Json :=
  eventOf "CLAIM_ACCEPTED" "u1" (.obj [("repository", .str "o/r"), ("issue", .int 1), ("session", .str "a")])

def acceptance : Json := eventOf "TAKEOVER_ACCEPTED" "u2" (acceptPlan externals pair "handover" now).payload

def mirror : Json :=
  .obj [("issue_body_verified", .bool true), ("project_verified", .bool true), ("pr_mirrors_verified", .bool true),
    ("repository", .str "o/r"), ("issue", .int 1), ("old_session", .str "a"), ("new_session", .str "b"),
    ("verified_at", .str "2026-07-16T20:10:00Z")]

def commit : Json := eventOf "TAKEOVER_COMMITTED" "u3" (commitPlan externals pair mirror acceptance now).payload

def rejection : Json :=
  eventOf "TAKEOVER_REJECTED" "u4" (.obj [("repository", .str "o/r"), ("issue", .int 1), ("old_session", .str "a"),
    ("new_session", .str "b")])

lemma accept_claimed : cmdAccept externals pair [claim] "handover" now = .ok [acceptPlan externals pair "handover" now] := by
  rfl

lemma accept_rejected : cmdAccept externals pair [claim, acceptance, commit, rejection] "handover" now =
    .ok [acceptPlan externals pair "handover" now] := by
  rfl

lemma commit_accepted : cmdCommit externals pair [claim, acceptance] (.ok mirror) now =
    .ok [commitPlan externals pair mirror acceptance now] := by
  rfl

lemma planned_commit : Planned externals pair [claim, acceptance, commit] := by
  have hclaim : Planned externals pair [claim] := .other .start (by decide)
  have haccept : Planned externals pair [claim, acceptance] :=
    @Planned.accepted externals pair [claim] [] acceptance "handover" now _ _ hclaim (by simp) accept_claimed
      (List.mem_singleton_self _) ⟨rfl, rfl⟩
  exact @Planned.committed externals pair [claim, acceptance] [] commit (.ok mirror) now _ _ haccept (by simp)
    commit_accepted (List.mem_singleton_self _) ⟨rfl, rfl⟩

lemma planned_again : Planned externals pair [claim, acceptance, commit, rejection, acceptance] := by
  have hrejected : Planned externals pair [claim, acceptance, commit, rejection] := .rejected planned_commit rfl
  exact @Planned.accepted externals pair [claim, acceptance, commit, rejection] [] acceptance "handover" now _ _
    hrejected (by simp) accept_rejected (List.mem_singleton_self _) ⟨rfl, rfl⟩

end Sample

/-- What stands before a takeover event of the pair: a claim of the old session, and no other takeover that is not
rejected, or the takeover that it commits. -/
structure Follows (pair : Pair) (before : List Json) (event : Json) : Prop where
  accepted : OfType "TAKEOVER_ACCEPTED" event →
    (∃ claim ∈ before, isClaim pair.repo pair.issue pair.oldSession claim = true) ∧
      ∀ existing, latestTakeover pair before = some existing → OfType "TAKEOVER_REJECTED" existing
  committed : OfType "TAKEOVER_COMMITTED" event → ∃ existing, latestTakeover pair before = some existing ∧
    OfType "TAKEOVER_ACCEPTED" existing ∧ (payload event).get "accepted_event_uuid" = existing.get "event_uuid"

section Runs

variable {X : Externals} {pair : Pair} {events before after : List Json} {event : Json}

lemma not_ofType {eventType eventType' : String} (h : OfType eventType event) (hne : eventType ≠ eventType') :
    ¬OfType eventType' event := fun h' => hne (h.unique h')

/-- Each takeover event of the pair follows what it has to, in every ledger that was planned. -/
lemma planned_follows (h : Planned X pair events) : ∀ before event after, events = before ++ event :: after →
    isTakeover pair event = true → Follows pair before event := by
  have hsnoc {events : List Json} {last : Json}
      (ih : ∀ before event after, events = before ++ event :: after → isTakeover pair event = true → Follows pair before event)
      (hlast : isTakeover pair last = true → Follows pair events last) :
      ∀ before event after, events ++ [last] = before ++ event :: after → isTakeover pair event = true →
        Follows pair before event := by
    intro before event after heq htakeover
    obtain rfl | ⟨rest, c, rfl⟩ := List.eq_nil_or_concat after
    · obtain ⟨rfl, hevent⟩ := List.append_inj' heq rfl
      obtain rfl := List.head_eq_of_cons_eq hevent
      exact hlast htakeover
    · rw [List.concat_eq_append, ← List.cons_append, ← List.append_assoc] at heq
      exact ih before event rest (List.append_inj' heq rfl).1 htakeover
  induction h with
  | start =>
    intro before event after heq
    simp at heq
  | other _ hno ih => exact hsnoc ih fun htakeover => by simp [hno] at htakeover
  | rejected _ htype ih =>
    exact hsnoc ih fun _ => ⟨fun h => absurd h (not_ofType htype (by decide)), fun h => absurd h (not_ofType htype (by decide))⟩
  | @accepted events between event reason now plans plan _ hbetween hplans hplan hevent ih =>
    refine hsnoc ih fun _ => ?_
    obtain ⟨rfl, ⟨claim, hmem, hclaim⟩, hfree⟩ := cmdAccept_eq_ok hplans hplan
    have htype : OfType "TAKEOVER_ACCEPTED" event := hevent.1
    refine ⟨fun _ => ⟨⟨claim, List.mem_append_left _ hmem, hclaim⟩, ?_⟩, fun h => absurd h (not_ofType htype (by decide))⟩
    rw [latestTakeover_append hbetween]
    exact hfree
  | @committed events between event mirror now plans plan _ hbetween hplans hplan hevent ih =>
    refine hsnoc ih fun _ => ?_
    obtain ⟨existing, verified, rfl, hlatest, haccepted⟩ := cmdCommit_eq_ok hplans hplan
    have htype : OfType "TAKEOVER_COMMITTED" event := hevent.1
    refine ⟨fun h => absurd h (not_ofType htype (by decide)), fun _ => ⟨existing, ?_, haccepted, ?_⟩⟩
    · rw [latestTakeover_append hbetween]
      exact hlatest
    · have hpayload : payload event = (commitPlan X pair verified existing now).payload := by
        rw [payload, hevent.2]
        rfl
      rw [hpayload]
      rfl

/-- The latest takeover event of a ledger, with what stands on either side of it. -/
lemma exists_latest (h : latestTakeover pair events = some event) : ∃ before after, events = before ++ event :: after ∧
    isTakeover pair event = true ∧ ∀ e ∈ after, isTakeover pair e = false := by
  obtain ⟨front, hfilter⟩ := List.getLast?_eq_some_iff.mp h
  obtain ⟨before, after, rfl, hbefore, hafter⟩ := List.filter_eq_append_iff.mp hfilter
  obtain ⟨skipped, rest, rfl, hskipped, htakeover, hrest⟩ := List.filter_eq_cons_iff.mp hafter
  refine ⟨before ++ skipped, rest, by rw [List.append_assoc], htakeover, fun e he => ?_⟩
  simpa using List.filter_eq_nil_iff.mp hrest e he

/-- In a planned ledger each commit of a takeover names the acceptance that it completes: one of the pair before it, with
no other takeover event of the pair between them and a claim of the old session ahead of it. -/
theorem commit_completes_acceptance (h : Planned X pair events) (heq : events = before ++ event :: after)
    (htakeover : isTakeover pair event = true) (hcommitted : OfType "TAKEOVER_COMMITTED" event) :
    ∃ earlier acceptance between, before = earlier ++ acceptance :: between ∧ isTakeover pair acceptance = true ∧
      OfType "TAKEOVER_ACCEPTED" acceptance ∧ (∀ e ∈ between, isTakeover pair e = false) ∧
      (payload event).get "accepted_event_uuid" = acceptance.get "event_uuid" ∧
      ∃ claim ∈ earlier, isClaim pair.repo pair.issue pair.oldSession claim = true := by
  obtain ⟨acceptance, hlatest, haccepted, huuid⟩ := (planned_follows h before event after heq htakeover).committed hcommitted
  obtain ⟨earlier, between, rfl, hpair, hbetween⟩ := exists_latest hlatest
  have hsplit : events = earlier ++ acceptance :: (between ++ event :: after) := by
    rw [heq, List.append_assoc, List.cons_append]
  have hclaim := ((planned_follows h earlier acceptance _ hsplit hpair).accepted haccepted).1
  exact ⟨earlier, acceptance, between, rfl, hpair, haccepted, hbetween, huuid, hclaim⟩

theorem commit_completes_acceptance_sample : ∃ earlier acceptance between,
    [Sample.claim, Sample.acceptance] = earlier ++ acceptance :: between ∧ isTakeover Sample.pair acceptance = true ∧
      OfType "TAKEOVER_ACCEPTED" acceptance ∧ (∀ e ∈ between, isTakeover Sample.pair e = false) ∧
      (payload Sample.commit).get "accepted_event_uuid" = acceptance.get "event_uuid" ∧
      ∃ claim ∈ earlier, isClaim Sample.pair.repo Sample.pair.issue Sample.pair.oldSession claim = true :=
  @commit_completes_acceptance Sample.externals Sample.pair _ [Sample.claim, Sample.acceptance] [] Sample.commit
    Sample.planned_commit rfl (by decide) rfl

/-- Since a takeover event of the pair, the latest one is that event or one that came after it. -/
lemma exists_latest_since {first : Json} (before between : List Json) (hfirst : isTakeover pair first = true) :
    ∃ existing, latestTakeover pair (before ++ first :: between) = some existing ∧
      (existing = first ∨ existing ∈ between ∧ isTakeover pair existing = true) := by
  have hlatest : latestTakeover pair (before ++ first :: between) =
      (first :: between.filter (isTakeover pair)).getLast? := by
    rw [latestTakeover, List.filter_append, List.filter_cons_of_pos hfirst,
      List.getLast?_append_of_ne_nil _ (List.cons_ne_nil _ _)]
  have hsome : (first :: between.filter (isTakeover pair)).getLast? =
      some ((first :: between.filter (isTakeover pair)).getLast (List.cons_ne_nil _ _)) :=
    List.getLast?_eq_some_getLast _
  refine ⟨_, hlatest.trans hsome, ?_⟩
  obtain hsame | hlater := List.mem_cons.mp (List.getLast_mem (List.cons_ne_nil first (between.filter (isTakeover pair))))
  · exact .inl hsame
  · exact .inr (List.mem_filter.mp hlater)

lemma rejected_before_acceptance {first second : Json} {between : List Json} (h : Planned X pair events)
    (heq : events = (before ++ first :: between) ++ second :: after) (hfirst : isTakeover pair first = true)
    (hopen : ¬OfType "TAKEOVER_REJECTED" first) (hsecond : isTakeover pair second = true)
    (haccepted : OfType "TAKEOVER_ACCEPTED" second) :
    ∃ e ∈ between, isTakeover pair e = true ∧ OfType "TAKEOVER_REJECTED" e := by
  obtain ⟨existing, hlatest, hexisting⟩ := exists_latest_since before between hfirst
  have hrejected := ((planned_follows h _ second after heq hsecond).accepted haccepted).2 existing hlatest
  obtain rfl | ⟨hmem, hpair⟩ := hexisting
  · exact absurd hrejected hopen
  · exact ⟨existing, hmem, hpair, hrejected⟩

/-- In a planned ledger a takeover of the pair that was committed stands: none is accepted or committed after it unless
one was rejected in between. -/
theorem committed_takeover_stands {first second : Json} {between : List Json} (h : Planned X pair events)
    (heq : events = (before ++ first :: between) ++ second :: after) (hfirst : isTakeover pair first = true)
    (hcommitted : OfType "TAKEOVER_COMMITTED" first) (hsecond : isTakeover pair second = true)
    (hnext : OfType "TAKEOVER_ACCEPTED" second ∨ OfType "TAKEOVER_COMMITTED" second) :
    ∃ e ∈ between, isTakeover pair e = true ∧ OfType "TAKEOVER_REJECTED" e := by
  have hopen : ¬OfType "TAKEOVER_REJECTED" first := not_ofType hcommitted (by decide)
  obtain haccepted | hagain := hnext
  · exact rejected_before_acceptance h heq hfirst hopen hsecond haccepted
  · obtain ⟨acceptance, hlatest, haccepted, -⟩ := (planned_follows h _ second after heq hsecond).committed hagain
    obtain ⟨existing, hlast, hexisting⟩ := exists_latest_since before between hfirst
    obtain rfl := Option.some.inj (hlast.symm.trans hlatest)
    obtain rfl | ⟨hmem, hpair⟩ := hexisting
    · exact absurd haccepted (not_ofType hcommitted (by decide))
    · obtain ⟨front, back, rfl⟩ := List.append_of_mem hmem
      have hsplit : events = (before ++ first :: front) ++ existing :: (back ++ second :: after) := by
        rw [heq]
        simp only [List.append_assoc, List.cons_append]
      obtain ⟨e, he, hrejected⟩ := rejected_before_acceptance h hsplit hfirst hopen hpair haccepted
      exact ⟨e, List.mem_append_left _ he, hrejected⟩

theorem committed_takeover_stands_sample :
    ∃ e ∈ [Sample.rejection], isTakeover Sample.pair e = true ∧ OfType "TAKEOVER_REJECTED" e :=
  @committed_takeover_stands Sample.externals Sample.pair _ [Sample.claim, Sample.acceptance] [] Sample.commit
    Sample.acceptance [Sample.rejection] Sample.planned_again rfl (by decide) rfl (by decide) (.inl rfl)

end Runs

section Permission

open LedgerClaimState (currentIssueState applyEvent evaluateState IssueState Allowed Active allowed_iff matchesIssue)

variable {X : Externals} {pair : Pair} {events before plannedOn : List Json} {event : Json} {plans : List Plan} {plan : Plan}
  {now : Stamp} {at_ : IsoDatetime} {state : IssueState} {session : String}

lemma payload_appended {fields : List (String × Json)} (h : plan.Appended event) (hfields : plan.payload = .obj fields) :
    payload event = .obj fields := by
  rw [payload, h.2, hfields]

lemma nonEmptyStr?_str {s : String} (h : s ≠ "") : nonEmptyStr? (.str s) = some s := if_neg h

lemma matchesIssue_planned {data : Json} (hrepository : data.get "repository" = .str pair.repo)
    (hnumber : data.get "issue" = .int pair.issue) (hrepo : pair.repo ≠ "") (hissue : 0 < pair.issue) :
    matchesIssue data pair.repo pair.issue := by
  constructor
  · rw [LedgerClaimState.payloadRepo, hrepository, orElse, if_pos (by simp [truthy, hrepo])]
    exact nonEmptyStr?_str hrepo
  · rw [LedgerClaimState.payloadIssue, hnumber]
    simp [Json.asStrictInt?, hissue]

/-- What the gate does with an event of its issue. -/
lemma applied_event (h : currentIssueState X (before ++ [event]) pair.repo pair.issue = .ok state)
    (hmatches : matchesIssue (payload event) pair.repo pair.issue) {kind : LedgerClaimState.EventKind}
    (hkind : LedgerClaimState.eventKind (event.get "event_type") = .ok kind) :
    ∃ middle committedAt, LedgerClaimState.applyKind X kind (payload event) (event.get "event_uuid") committedAt middle =
      .ok state := by
  obtain ⟨middle, -, happly⟩ := foldlM_concat_eq_ok.mp h
  rw [applyEvent] at happly
  simp only [hmatches, if_true, bind_eq_ok, hkind, Except.ok.injEq, exists_eq_left'] at happly
  obtain ⟨committedAt, -, happly⟩ := happly
  exact ⟨middle, committedAt, happly⟩

/-- Once the acceptance that was planned is in the ledger, wherever other events were added, the gate allows neither the
old session nor the new one. -/
theorem accepted_takeover_allows_neither {reason : String}
    (hplans : cmdAccept X pair plannedOn reason now = .ok plans) (hplan : plan ∈ plans) (hevent : plan.Appended event)
    (hrepo : pair.repo ≠ "") (hissue : 0 < pair.issue)
    (hstate : currentIssueState X (before ++ [event]) pair.repo pair.issue = .ok state)
    (hsession : session = pair.oldSession ∨ session = pair.newSession) (hnamed : session ≠ "") :
    ¬Allowed (evaluateState X state session at_) := by
  obtain ⟨rfl, -, -⟩ := cmdAccept_eq_ok hplans hplan
  have hdata := payload_appended hevent rfl
  have hmatches : matchesIssue (payload event) pair.repo pair.issue :=
    matchesIssue_planned (by rw [hdata]; rfl) (by rw [hdata]; rfl) hrepo hissue
  have hkind : LedgerClaimState.eventKind (event.get "event_type") = .ok .takeoverAccepted := by
    rw [hevent.1]
    rfl
  obtain ⟨middle, committedAt, happly⟩ := applied_event hstate hmatches hkind
  rw [allowed_iff]
  rintro ⟨⟨hpermission, hactive⟩, -⟩
  have hnames : some session = LedgerClaimState.oldSession (payload event) ∨
      some session = LedgerClaimState.newSession (payload event) := by
    obtain rfl | rfl := hsession
    · refine .inl ?_
      rw [LedgerClaimState.oldSession, payloadSession, List.findSome?_singleton, hdata]
      exact (nonEmptyStr?_str hnamed).symm
    · refine .inr ?_
      rw [LedgerClaimState.newSession, payloadSession, List.findSome?_singleton, hdata]
      exact (nonEmptyStr?_str hnamed).symm
  simp only [LedgerClaimState.applyKind] at happly
  split_ifs at happly with hinvolved
  · cases happly
    cases hpermission
  · cases happly
    rw [← hactive] at hnames
    exact hinvolved hnames

theorem accepted_takeover_allows_neither_sample : ∃ state,
    currentIssueState Sample.externals [Sample.claim, Sample.acceptance] "o/r" 1 = .ok state ∧
      ¬Allowed (evaluateState Sample.externals state "a" ⟨Coordination.Sample.after 10, some 0⟩) := by
  obtain ⟨state, hstate⟩ : ∃ state, currentIssueState Sample.externals ([Sample.claim] ++ [Sample.acceptance]) "o/r" 1 =
      .ok state := ⟨_, rfl⟩
  exact ⟨state, hstate, accepted_takeover_allows_neither Sample.accept_claimed (List.mem_singleton_self _) ⟨rfl, rfl⟩
    (by decide) (by decide) hstate (.inl rfl) (by decide)⟩

/-- Once the commit that was planned is in the ledger, wherever other events were added, the gate allows no session but the
new one. -/
theorem committed_takeover_allows_new {mirror : Except FlowFailure Json}
    (hplans : cmdCommit X pair plannedOn mirror now = .ok plans) (hplan : plan ∈ plans) (hevent : plan.Appended event)
    (hrepo : pair.repo ≠ "") (hissue : 0 < pair.issue) (hnamed : pair.newSession ≠ "")
    (hstate : currentIssueState X (before ++ [event]) pair.repo pair.issue = .ok state) :
    Active pair.newSession state ∧ (Allowed (evaluateState X state session at_) → session = pair.newSession) := by
  obtain ⟨existing, verified, rfl, -, -⟩ := cmdCommit_eq_ok hplans hplan
  have hdata := payload_appended hevent rfl
  have hmatches : matchesIssue (payload event) pair.repo pair.issue :=
    matchesIssue_planned (by rw [hdata]; rfl) (by rw [hdata]; rfl) hrepo hissue
  have hkind : LedgerClaimState.eventKind (event.get "event_type") = .ok .takeoverCommitted := by
    rw [hevent.1]
    rfl
  obtain ⟨middle, committedAt, happly⟩ := applied_event hstate hmatches hkind
  have hnew : LedgerClaimState.newSession (payload event) = some pair.newSession := by
    rw [LedgerClaimState.newSession, payloadSession, List.findSome?_singleton, hdata]
    exact nonEmptyStr?_str hnamed
  simp only [LedgerClaimState.applyKind, hnew, LedgerClaimState.granted, bind_eq_ok, pure_eq_ok] at happly
  obtain ⟨_, -, _, -, _, -, _, -, _, -, rfl⟩ := happly
  refine ⟨⟨rfl, rfl⟩, fun hallowed => ?_⟩
  exact (Option.some.inj (allowed_iff.mp hallowed).1.2).symm

theorem committed_takeover_allows_new_sample : ∃ state,
    currentIssueState Sample.externals [Sample.claim, Sample.acceptance, Sample.commit] "o/r" 1 = .ok state ∧
      Active "b" state ∧ (Allowed (evaluateState Sample.externals state "a" ⟨Coordination.Sample.after 10, some 0⟩) →
        "a" = Sample.pair.newSession) := by
  obtain ⟨state, hstate⟩ : ∃ state, currentIssueState Sample.externals
      ([Sample.claim, Sample.acceptance] ++ [Sample.commit]) "o/r" 1 = .ok state := ⟨_, rfl⟩
  exact ⟨state, hstate, committed_takeover_allows_new Sample.commit_accepted (List.mem_singleton_self _) ⟨rfl, rfl⟩
    (by decide) (by decide) (by decide) hstate⟩

end Permission

end PlatformGitops.Coordination.TakeoverRecoveryFlow
