import PlatformGitops.Coordination.ClaimSoundness
import PlatformGitops.Coordination.InertCopies
import PlatformGitops.Coordination.LapsedClaims
import PlatformGitops.Coordination.KeyBlock

/-! The markers of pull requests, checked against a valid ledger, and the state of the issues that they claim. -/

namespace PlatformGitops.Coordination.ValidatePrMirrors

open Library Fallible
open LedgerClaimState

inductive Refusal where
  | mirrorValidation (message : String)
  | failed (failure : Failure)
deriving DecidableEq, Repr

def refuse {α : Type} (message : String) : Except Refusal α := .error (.mirrorValidation message)

def refuseIf (bad : Prop) [Decidable bad] (message : String) : Except Refusal Unit :=
  rejectIf bad (.mirrorValidation message)

def markerStart : String := "<!-- coordination-ledger-pr-mirror:v1"
def markerEnd : String := "-->"

def stateEventTypes : List (String × List String) :=
  [("active_winner", ["CLAIM_ACCEPTED", "TAKEOVER_COMMITTED"]), ("takeover_pending_mirror", ["TAKEOVER_ACCEPTED"]),
    ("superseded", ["PR_SUPERSEDED", "SUPERSEDE_ISSUE"]), ("tombstoned", ["TOMBSTONE_CHAIN"]),
    ("blocked_fail_closed", ["BLOCKED_FAIL_CLOSED", "MIRROR_DRIFT_DETECTED", "MIRROR_ORPHAN_DETECTED",
      "SECRET_SCAN_FAILED", "VERIFY_FAILED"])]

/-- The digits of a hash that fills the whole text. -/
def fullHash? (value : String) : Option String :=
  let digits := String.ofList (if "sha256:".toList.isPrefixOf value.toList then value.toList.drop 7 else value.toList)
  if IsHash digits then some digits else none

def normalizeHash (value : Json) (field : String) : Except Refusal String :=
  match value with
  | .str s =>
    match fullHash? s with
    | some digits => .ok (prefixed digits)
    | none => refuse (field ++ " must match sha256:<64-hex> or bare 64-hex")
  | _ => refuse (field ++ " must be a sha256 hash string")

def requireString (value : Json) (field : String) : Except Refusal String :=
  expect (nonEmptyStr? value) (.mirrorValidation (field ++ " must be a non-empty string"))

def requirePositiveInt (value : Json) (field : String) : Except Refusal Int :=
  expect (value.asStrictInt?.filter (0 < ·)) (.mirrorValidation (field ++ " must be a positive integer"))

variable (X : Externals)

def markerKeys : List String := ["coordination_state", "event_uuid", "event_hash", "session"]

structure Marker where
  coordinationState : String
  eventUuid : String
  eventHash : String
  session : String

def parseMarker (body : List Char) : Except Refusal Marker := do
  let block ← parseBlock
    (fun line => .mirrorValidation ("PR marker line missing ':' separator: " ++ X.repr (.str (String.ofList line))))
    markerStart.toList markerEnd.toList (.mirrorValidation "PR marker is not closed") body
  match block with
  | none => refuse "PR body missing coordination-ledger-pr-mirror:v1 marker"
  | some block => do
    let field := fun key => (block.parsed.lookup key).getD ""
    markerKeys.forM fun key => refuseIf (field key = "") ("PR marker missing " ++ key)
    let eventHash ← normalizeHash (.str (field "event_hash")) "pr_marker.event_hash"
    pure ⟨field "coordination_state", field "event_uuid", eventHash, field "session"⟩

def eventSessions (event : Json) : List String :=
  (["session", "claim_session", "old_session", "new_session", "active_session"].filterMap fun key =>
    nonEmptyStr? ((payload event).get key)).dedup

/-- The events by their identifiers; the last event with an identifier is kept. -/
def eventsByUuid (events : List Json) : Dict String Json :=
  events.foldl (fun found event =>
    match event.get "event_uuid" with
    | .str uuid => found.set uuid event
    | _ => found) []

structure Validated where
  number : Int
  coordinationState : String
  eventUuid : String
  eventHash : String
  eventType : String
  session : String
deriving DecidableEq

/-- A list or an object cannot be looked up among the types. -/
def checkType (number : Int) (state : String) (eventType : Json) : Except Refusal String := do
  let types ← expect (stateEventTypes.lookup state)
    (.mirrorValidation ("PR #" ++ toString number ++ " unknown coordination_state " ++ X.repr (.str state)))
  let message := "PR #" ++ toString number ++ " state " ++ X.repr (.str state) ++
    " cannot point at ledger event_type " ++ X.repr eventType
  match eventType with
  | .str s => if s ∈ types then .ok s else refuse message
  | .list _ => .error (.failed (.raised .typeError))
  | .obj _ => .error (.failed (.raised .typeError))
  | _ => refuse message

def checkSession (number : Int) (session : String) (event : Json) : Except Refusal Unit :=
  let sessions := eventSessions event
  refuseIf (sessions ≠ [] ∧ session ∉ sessions)
    ("PR #" ++ toString number ++ " session mismatch marker=" ++ X.repr (.str session) ++ " ledger_sessions=" ++
      X.repr (.list ((sessions.insertionSort (Json.codePointLe · ·)).map .str)))

def checkRepository (number : Int) (repository : String) (event : Json) : Except Refusal Unit :=
  match nonEmptyStr? (orElse ((payload event).get "repository") ((payload event).get "repo")) with
  | some eventRepo => refuseIf (eventRepo ≠ repository)
      ("PR #" ++ toString number ++ " repository mismatch snapshot=" ++ X.repr (.str repository) ++ " ledger=" ++
        X.repr (.str eventRepo))
  | none => .ok ()

def checkIssue (number : Int) (expectedIssue : Json) (event : Json) : Except Refusal Unit :=
  match expectedIssue with
  | .null => .ok ()
  | value => do
    let expected ← requirePositiveInt value "pull_requests[].expected_issue"
    let eventIssue := (payload event).get "issue"
    refuseIf (equalsInt expected eventIssue = false)
      ("PR #" ++ toString number ++ " expected_issue mismatch expected=" ++ toString expected ++ " ledger=" ++
        X.str eventIssue)

def validateOne (pr : List (String × Json)) (events : Dict String Json) (repository : String) :
    Except Refusal Validated := do
  let number ← requirePositiveInt ((Json.obj pr).get "number") "pull_requests[].number"
  let body ← requireString ((Json.obj pr).get "body") "pull_requests[].body"
  let marker ← parseMarker X body.toList
  let event ← expect (events.lookup marker.eventUuid)
    (.mirrorValidation ("PR #" ++ toString number ++ " marker event_uuid not present in valid ledger"))
  let actualEventHash ← normalizeHash (event.get "event_hash") "ledger.event_hash"
  refuseIf (marker.eventHash ≠ actualEventHash)
    ("PR #" ++ toString number ++ " event_hash mismatch expected=" ++ actualEventHash ++ " actual=" ++
      marker.eventHash)
  let eventType ← checkType X number marker.coordinationState (event.get "event_type")
  checkSession X number marker.session event
  checkRepository X number repository event
  checkIssue X number ((Json.obj pr).get "expected_issue") event
  pure ⟨number, marker.coordinationState, marker.eventUuid, marker.eventHash, eventType, marker.session⟩

/-- One pull request of a snapshot against a ledger that replay accepts. -/
def validate (authority : Authority) (path : String) (file : Option (List UInt8)) (pr : List (String × Json))
    (repository : String) : Except Refusal Validated := do
  let result ← (replay X authority path file).mapError .failed
  refuseIf (result.valid = false)
    ("ledger invalid; PR mirror validation fail closed line=" ++ (result.invalidLine.map toString).getD "None" ++
      " reason=" ++ result.reason.getD "None")
  let events ← (readEvents X (file.getD [])).mapError .failed
  validateOne X pr (eventsByUuid events) repository

section Events

variable (repo : String) (issue : Int) (session : String)

/-- The event ends the hold of the session on the issue: it grants the issue, or withdraws it from the session. -/
def Ends (event : Json) : Prop := (∃ other, GrantsTo repo issue other event) ∨ Withdraws repo issue session event

/-- The hold of the session that its last grant gave it has not been ended. -/
def Holds (events : List Json) : Prop := Since (GrantsTo repo issue session) (Ends repo issue session) events

/-- The gate can read the events of the issue: their times, and the expiry and heartbeats of the grants. -/
def ReadableIssue (X : Externals) (events : List Json) : Prop :=
  ∃ cs, changes X repo issue events = .ok cs ∧ Reads cs

/-- The session to which an accepted claim or a committed takeover gives the issue. -/
def holderOf (event : Json) : Option String :=
  if OfType "TAKEOVER_COMMITTED" event then newSession (payload event) else claimSession (payload event)

/-- The grant of an event is still the one in force after the later events, or a later one to the same session is; an
event that grants nothing leaves an earlier grant in force. -/
def StillInForce (before : List Json) (event : Json) (after : List Json) : Prop :=
  Holds repo issue session after ∨
    (∀ e ∈ after, ¬ Ends repo issue session e) ∧
      (holderOf event = some session ∨ holderOf event = none ∧ Holds repo issue session before)

end Events

section Markers

variable {X} {authority : Authority} {path : String} {bytes : List UInt8} {pr : List (String × Json)}
variable {repository : String} {v : Validated} {n : Int} {before after : List Json} {event : Json}

lemma lookup_eventsByUuid {uuid : String} (huuid : event.get "event_uuid" = .str uuid)
    (hlast : ∀ e ∈ after, e.get "event_uuid" ≠ .str uuid) :
    (eventsByUuid (before ++ event :: after)).lookup uuid = some event := by
  induction after using List.reverseRecOn with
  | nil => simp [eventsByUuid, huuid, Dict.lookup_set]
  | append_singleton after e ih =>
    obtain ⟨hafter, he⟩ := List.forall_mem_append.mp hlast
    have hne := he e (List.mem_singleton_self e)
    rw [← List.cons_append, ← List.append_assoc, eventsByUuid, List.foldl_append, ← eventsByUuid, List.foldl_cons,
      List.foldl_nil]
    split
    · rename_i other hother
      rw [Dict.lookup_set, if_neg, ih hafter]
      rintro rfl
      exact hne hother
    · exact ih hafter

/-- What an accepted marker says about the event that it names. -/
lemma validateOne_eq_ok {events : Dict String Json} (h : validateOne X pr events repository = .ok v) :
    ∃ event, events.lookup v.eventUuid = some event ∧ event.get "event_type" = .str v.eventType ∧
      ∃ types, stateEventTypes.lookup v.coordinationState = some types ∧ v.eventType ∈ types := by
  simp only [validateOne, bind_eq_ok, expect_eq_ok, pure_eq_ok] at h
  obtain ⟨number, -, body, -, marker, -, event, hevent, _, -, _, -, eventType, htype, _, -, _, -, _, -, rfl⟩ := h
  refine ⟨event, hevent, ?_⟩
  simp only [checkType, bind_eq_ok, expect_eq_ok] at htype
  obtain ⟨types, htypes, htype⟩ := htype
  split at htype
  · rename_i s hs
    split at htype
    · rename_i hmem
      cases htype
      exact ⟨hs, types, htypes, hmem⟩
    · cases htype
  all_goals cases htype

lemma mapError_eq_ok {ε ε' α : Type} {x : Except ε α} {f : ε → ε'} {a : α} : x.mapError f = .ok a ↔ x = .ok a := by
  cases x <;> simp [Except.mapError]

lemma validate_eq_ok (h : validate X authority path (some bytes) pr repository = .ok v) :
    ∃ result, replay X authority path (some bytes) = .ok result ∧ result.valid = true ∧
      validateOne X pr (eventsByUuid (ledgerEvents X bytes)) repository = .ok v := by
  simp only [validate, bind_eq_ok, mapError_eq_ok, refuseIf, rejectIf_eq_ok, Bool.not_eq_false] at h
  obtain ⟨result, hresult, _, hvalid, events, hread, hone⟩ := h
  rw [Option.getD_some, readEvents_of_valid hresult hvalid] at hread
  cases hread
  exact ⟨result, hresult, hvalid, hone⟩

lemma inForce_iff_holds {events : List Json} {cs : List Change} {session : String}
    (h : changes X repository n events = .ok cs) : InForce session cs ↔ Holds repository n session events := by
  induction events using List.reverseRecOn generalizing cs with
  | nil =>
    cases h
    simp [InForce, Holds, not_since_nil]
  | append_singleton events event ih =>
    obtain ⟨us, vs, hus, hvs, rfl⟩ := changes_append.mp h
    obtain ⟨c, rest, hc, hrest, rfl⟩ := changes_cons.mp hvs
    obtain rfl : [] = rest := Except.ok.inj hrest
    have hgrants : c.Grants session ↔ GrantsTo repository n session event := (changeOf_effect hc).1
    have hends : c.Ends session ↔ (∃ other, GrantsTo repository n other event) ∨ Withdraws repository n session event :=
      (changeOf_effect hc).2
    rw [InForce, Holds, since_concat, since_concat, hgrants, hends, ← Holds, ← ih hus]
    rfl

/-- The session holds an issue for the gate when it holds it by the events and these can be read. -/
lemma active_iff_holds {events : List Json} {session : String} :
    (∃ state, currentIssueState X events repository n = .ok state ∧ Active session state) ↔
      ReadableIssue repository n X events ∧ Holds repository n session events := by
  constructor
  · rintro ⟨state, hstate, hactive⟩
    obtain ⟨cs, hcs, hrun⟩ := currentIssueState_eq_ok.mp hstate
    exact ⟨⟨cs, hcs, reads_iff.mp ⟨state, hrun⟩⟩, (inForce_iff_holds hcs).mp ((active_iff hrun).mp hactive)⟩
  · rintro ⟨⟨cs, hcs, hreads⟩, hholds⟩
    obtain ⟨state, hrun⟩ := reads_iff.mpr hreads
    exact ⟨state, currentIssueState_eq_ok.mpr ⟨cs, hcs, hrun⟩, (active_iff hrun).mpr ((inForce_iff_holds hcs).mpr hholds)⟩

/-- An accepted claim or a committed takeover of the issue. -/
structure GrantEvent (repository : String) (n : Int) (event : Json) : Prop where
  issue : matchesIssue (payload event) repository n
  type : OfType "CLAIM_ACCEPTED" event ∨ OfType "TAKEOVER_COMMITTED" event

lemma GrantEvent.grantsTo_iff (h : GrantEvent repository n event) (session : String) :
    GrantsTo repository n session event ↔ holderOf event = some session := by
  obtain ⟨hissue, hclaim | htakeover⟩ := h
  · have hnot : ¬ OfType "TAKEOVER_COMMITTED" event := fun h => absurd (hclaim.unique h) (by decide)
    simp [GrantsTo, holderOf, hissue, hclaim, hnot]
  · have hnot : ¬ OfType "CLAIM_ACCEPTED" event := fun h => absurd (htakeover.unique h) (by decide)
    simp [GrantsTo, holderOf, hissue, htakeover, hnot]

lemma GrantEvent.not_withdraws (h : GrantEvent repository n event) (session : String) :
    ¬ Withdraws repository n session event := by
  have hname : ∀ eventType, OfType eventType event → eventType = "CLAIM_ACCEPTED" ∨ eventType = "TAKEOVER_COMMITTED" :=
    fun eventType htype => h.type.imp htype.unique htype.unique
  rintro ⟨-, ⟨r, hr, -⟩ | ⟨htakeover, -⟩ | ⟨c, hc⟩⟩
  · cases r <;> exact absurd (hname _ hr) (by decide)
  · exact absurd (hname _ htakeover) (by decide)
  · cases c <;> exact absurd (hname _ hc) (by decide)

lemma GrantEvent.holds_iff (h : GrantEvent repository n event) (session : String) :
    Holds repository n session (before ++ event :: after) ↔ StillInForce repository n session before event after := by
  have hends : ¬ Ends repository n session event ↔ holderOf event = none := by
    simp only [Ends, h.not_withdraws session, or_false, h.grantsTo_iff, Option.eq_none_iff_forall_ne_some, not_exists]
  rw [Holds, ← List.singleton_append, ← List.append_assoc, since_append, since_concat, h.grantsTo_iff, hends,
    StillInForce, ← Holds, ← Holds]
  tauto

lemma grantEvent_of_validateOne (h : validateOne X pr (eventsByUuid (before ++ event :: after)) repository = .ok v)
    (hactive : v.coordinationState = "active_winner") (huuid : event.get "event_uuid" = .str v.eventUuid)
    (hlast : ∀ e ∈ after, e.get "event_uuid" ≠ .str v.eventUuid)
    (hissue : matchesIssue (payload event) repository n) : GrantEvent repository n event := by
  obtain ⟨found, hfound, htype, types, htypes, hmem⟩ := validateOne_eq_ok h
  rw [lookup_eventsByUuid huuid hlast] at hfound
  cases hfound
  rw [hactive] at htypes
  cases htypes
  refine ⟨hissue, ?_⟩
  rcases List.mem_cons.mp hmem with heq | hmem
  · exact .inl (heq ▸ htype)
  · exact .inr (List.mem_singleton.mp hmem ▸ htype)

/-- An accepted marker of an active winner shows the state of its issue when the grant that it names is in force. -/
theorem marker_active_iff (h : validate X authority path (some bytes) pr repository = .ok v)
    (hactive : v.coordinationState = "active_winner") (hevents : ledgerEvents X bytes = before ++ event :: after)
    (huuid : event.get "event_uuid" = .str v.eventUuid) (hlast : ∀ e ∈ after, e.get "event_uuid" ≠ .str v.eventUuid)
    (hissue : matchesIssue (payload event) repository n) :
    (∃ state, issueState X bytes repository n = .ok state ∧ Active v.session state) ↔
      ReadableIssue repository n X (before ++ event :: after) ∧
        StillInForce repository n v.session before event after := by
  obtain ⟨result, hresult, hvalid, hone⟩ := validate_eq_ok h
  rw [hevents] at hone
  have hgrant := grantEvent_of_validateOne hone hactive huuid hlast hissue
  rw [issueState_eq hresult hvalid, hevents, active_iff_holds, hgrant.holds_iff]

end Markers

section Sample

open Sample Library.Json

/-- A claim and the takeover that gave its issue to another session. -/
def handedOver : List Draft :=
  [⟨"u1", "CLAIM_ACCEPTED", "coordinator", "2026-07-16T20:00:00Z", after 0,
      .obj [("issue", .int 1), ("repository", .str "o/r"), ("session", .str "a")],
      "f39b1b9fba1e5f1f2dc5e1bcda33af058e67907c72f8f63f188f237ea0d3bb53",
      "c9f24869668cc43cbcc67e491beae44b40c6949674b2a73a8e0d1a2f1cba31bb"⟩,
    ⟨"u2", "TAKEOVER_COMMITTED", "coordinator", "2026-07-16T20:10:00Z", after 10,
      .obj [("issue", .int 1), ("new_session", .str "b"), ("old_session", .str "a"), ("repository", .str "o/r")],
      "a314d6fe80bbe044b11a83631d403edd3e1b1eac72f671b1306f4319e4d09606",
      "d25ac6f5391d44711f029e1f80fe0e12d5f1b2e807c4d9d2db55f374e51b9dec"⟩]

lemma readable_handedOver (X : Externals) : ∀ draft ∈ handedOver, All (Readable X.float) draft.payload := by
  simp [handedOver, All, AllFields, Readable, readable_one]

lemma sorted_handedOver : ∀ draft ∈ handedOver, sorted draft.payload = draft.payload := by
  simp only [handedOver, List.forall_mem_cons]
  exact ⟨rfl, rfl, by simp⟩

lemma labelled_handedOver : Labelled ["event_uuid", "session"] (materials none handedOver) := by
  simp [Labelled, handedOver, materials, label, Draft.chainedTo, Json.get, List.lookup, asStr?]

def markerText (session : String) : String :=
  "<!-- coordination-ledger-pr-mirror:v1\ncoordination_state: active_winner\nevent_uuid: u2\n" ++
    "event_hash: sha256:d25ac6f5391d44711f029e1f80fe0e12d5f1b2e807c4d9d2db55f374e51b9dec\nsession: " ++ session ++
    "\n-->"

def pullRequest (session : String) : List (String × Json) := [("number", .int 7), ("body", .str (markerText session))]

def validated (session : String) : Validated :=
  ⟨7, "active_winner", "u2", "sha256:d25ac6f5391d44711f029e1f80fe0e12d5f1b2e807c4d9d2db55f374e51b9dec",
    "TAKEOVER_COMMITTED", session⟩

lemma replay_handedOver : ∃ result, replay (externals (digests handedOver)) authority "ledger.jsonl"
    (some (ledgerBytes (chained prefixed none handedOver))) = .ok result ∧ result.valid = true :=
  replay_sample (readable_handedOver _) labelled_handedOver (by decide) (by decide) (by decide) _

lemma ledgerEvents_handedOver : ledgerEvents (externals (digests handedOver))
    (ledgerBytes (chained prefixed none handedOver)) = chained prefixed none handedOver :=
  ledgerEvents_chained (readable_handedOver _) sorted_handedOver

lemma validate_handedOver {session : String}
    (h : (validateOne (externals (digests handedOver)) (pullRequest session)
      (eventsByUuid (chained prefixed none handedOver)) "o/r").toOption.any (· = validated session) = true) :
    validate (externals (digests handedOver)) authority "ledger.jsonl"
      (some (ledgerBytes (chained prefixed none handedOver))) (pullRequest session) "o/r" = .ok (validated session) := by
  obtain ⟨result, hresult, hvalid⟩ := replay_handedOver
  obtain ⟨v, hv, heq⟩ := ok_of_any h
  rw [decide_eq_true_eq] at heq
  have hread : (readEvents (externals (digests handedOver))
      ((some (ledgerBytes (chained prefixed none handedOver))).getD [])) = .ok (chained prefixed none handedOver) := by
    rw [Option.getD_some, readEvents_of_valid hresult hvalid, ledgerEvents_handedOver]
  rw [validate, hresult, hread]
  simp only [Except.mapError, bind, Except.bind, hvalid, refuseIf, rejectIf, Bool.true_eq_false, if_false]
  rw [hv, heq]

def claimed : Json := (chained prefixed none handedOver).headD .null

def takeover : Json := (chained prefixed none handedOver).getLastD .null

lemma chained_handedOver : chained prefixed none handedOver = [claimed] ++ takeover :: [] := rfl

/-- The takeover gave the issue to the new session. -/
lemma state_handedOver : ∃ state, issueState (externals (digests handedOver))
    (ledgerBytes (chained prefixed none handedOver)) "o/r" 1 = .ok state ∧ state.activeSession = some "b" ∧
      ReadableIssue "o/r" 1 (externals (digests handedOver)) (chained prefixed none handedOver) := by
  obtain ⟨result, hresult, hvalid⟩ := replay_handedOver
  have hstate : ((currentIssueState (externals (digests handedOver)) (chained prefixed none handedOver) "o/r"
      1).toOption.any fun state => decide (state.activeSession = some "b")) = true := by
    decide
  obtain ⟨state, hstate, hsession⟩ := ok_of_any hstate
  obtain ⟨cs, hcs, hrun⟩ := currentIssueState_eq_ok.mp hstate
  refine ⟨state, ?_, of_decide_eq_true hsession, cs, hcs, reads_iff.mp ⟨state, hrun⟩⟩
  rw [issueState_eq hresult hvalid, ledgerEvents_handedOver, hstate]

/-- The new session's marker. -/
theorem marker_active_new_session :
    ∃ state, issueState (externals (digests handedOver)) (ledgerBytes (chained prefixed none handedOver)) "o/r" 1 =
      .ok state ∧ Active (validated "b").session state := by
  have hvalidate : validate (externals (digests handedOver)) authority "ledger.jsonl"
      (some (ledgerBytes (chained prefixed none handedOver))) (pullRequest "b") "o/r" = .ok (validated "b") :=
    validate_handedOver (by decide +kernel)
  obtain ⟨-, -, -, hread⟩ := state_handedOver
  refine (marker_active_iff hvalidate rfl (ledgerEvents_handedOver.trans chained_handedOver) rfl (by simp)
    ⟨rfl, rfl⟩).mpr ⟨hread, .inr ⟨by simp, .inl ?_⟩⟩
  decide

/-- The old session's marker, which the event of its own takeover lets pass. -/
theorem marker_not_active_old_session :
    validate (externals (digests handedOver)) authority "ledger.jsonl"
        (some (ledgerBytes (chained prefixed none handedOver))) (pullRequest "a") "o/r" = .ok (validated "a") ∧
      (validated "a").coordinationState = "active_winner" ∧ takeover.get "event_uuid" = .str (validated "a").eventUuid ∧
      takeover ∈ ledgerEvents (externals (digests handedOver)) (ledgerBytes (chained prefixed none handedOver)) ∧
      matchesIssue (payload takeover) "o/r" 1 ∧
      ¬ ∃ state, issueState (externals (digests handedOver)) (ledgerBytes (chained prefixed none handedOver)) "o/r" 1 =
        .ok state ∧ Active (validated "a").session state := by
  refine ⟨validate_handedOver (by decide +kernel), rfl, rfl, ?_, ⟨rfl, rfl⟩, ?_⟩
  · rw [ledgerEvents_handedOver, chained_handedOver]
    simp
  · rintro ⟨state, hstate, -, hsession⟩
    obtain ⟨state', hstate', hsession', -⟩ := state_handedOver
    obtain rfl : state = state' := Except.ok.inj (hstate.symm.trans hstate')
    rw [hsession'] at hsession
    exact absurd hsession (by decide)

end Sample

end PlatformGitops.Coordination.ValidatePrMirrors
