import PlatformGitops.Coordination.Replay
import PlatformGitops.Library.Dict

/-! The permission gate: the state of the claim on one issue, and whether a session may act on it. -/

namespace PlatformGitops.Coordination

open Library
open CrossAi (Datetime IsoDatetime Stamp second minute utcSeconds)

variable (X : Externals)

section Datetimes

/-- The datetimes that have a calendar date of four digits. -/
def representable (t : Datetime) : Prop := -62135596800 * second ≤ t ∧ t < 253402300800 * second

instance (t : Datetime) : Decidable (representable t) := inferInstanceAs (Decidable (_ ∧ _))

def wallClock (value : IsoDatetime) : Datetime := value.instant + value.utcoffset.getD 0 * second

/-- The value in UTC; one without a zone is taken as local time. -/
def astimezone (value : IsoDatetime) : Except Failure Datetime :=
  match value.utcoffset with
  | some _ => if representable value.instant then .ok value.instant else raise .overflowError
  | none => Fallible.expect (X.localToUtc value.instant) (.raised .overflowError)

def utcZ (value : IsoDatetime) : Except Failure Stamp := utcSeconds <$> astimezone X value

/-- `value + timedelta(minutes=minutes)` -/
def addMinutes (value : IsoDatetime) (minutes : Int) : Except Failure IsoDatetime :=
  if representable (wallClock value + minutes * minute) then
    .ok { value with instant := value.instant + minutes * minute }
  else raise .overflowError

/-- The datetime that the text of a stamp is read as. -/
def stored (stamp : Stamp) : IsoDatetime := ⟨stamp.instant, some 0⟩

def replaceOffset : List Char → List Char
  | '+' :: '0' :: '0' :: ':' :: '0' :: '0' :: rest => 'Z' :: replaceOffset rest
  | c :: rest => c :: replaceOffset rest
  | [] => []

def stampText (stamp : Stamp) : String := String.ofList (replaceOffset (X.isoformat (stored stamp)).toList)

end Datetimes

section Integers

/-- `int(value)` -/
def toInt : Json → Except Failure Int
  | .int n => .ok n
  | .bool b => .ok (if b then 1 else 0)
  | .float text =>
    match X.intOfFloat text with
    | .ok n => .ok n
    | .error error => raise error
  | .str s => Fallible.expect (X.intOfText s) (.raised .valueError)
  | _ => raise .typeError

/-- `int(value or default)` -/
def intOr (value : Json) (default : Int) : Except Failure Int :=
  if truthy value then toInt X value else .ok default

end Integers

/-- The revocations of a claim. -/
inductive Revocation where
  | claimStale | claimExpired | mirrorDriftDetected | mirrorOrphanDetected | blockedFailClosed
deriving DecidableEq, Repr

def Revocation.name : Revocation → String
  | .claimStale => "CLAIM_STALE"
  | .claimExpired => "CLAIM_EXPIRED"
  | .mirrorDriftDetected => "MIRROR_DRIFT_DETECTED"
  | .mirrorOrphanDetected => "MIRROR_ORPHAN_DETECTED"
  | .blockedFailClosed => "BLOCKED_FAIL_CLOSED"

def revocations : List Revocation :=
  [.claimStale, .claimExpired, .mirrorDriftDetected, .mirrorOrphanDetected, .blockedFailClosed]

inductive Closure where
  | tombstoneChain | supersedeIssue
deriving DecidableEq, Repr

def Closure.name : Closure → String
  | .tombstoneChain => "TOMBSTONE_CHAIN"
  | .supersedeIssue => "SUPERSEDE_ISSUE"

def closures : List Closure := [.tombstoneChain, .supersedeIssue]

inductive PermissionState where
  | noClaim
  | activeWinner
  | revoked (by_ : Revocation)
  | takeoverPendingMirror
  | closed (by_ : Closure)
deriving DecidableEq, Repr

def OfType (eventType : String) (event : Json) : Prop := event.get "event_type" = .str eventType

instance (eventType : String) (event : Json) : Decidable (OfType eventType event) :=
  decidable_of_iff ((event.get "event_type").asStr? = some eventType)
    (by cases h : event.get "event_type" <;> simp [OfType, h, Json.asStr?])

lemma OfType.unique {event : Json} {eventType eventType' : String} (h : OfType eventType event)
    (h' : OfType eventType' event) : eventType = eventType' :=
  Json.str.inj (h.symm.trans h')

namespace LedgerClaimState

def claimStateError {α : Type} (message : String) : Except Failure α := .error (.claimStateError message)

def parseUtcZ (value : Json) (fieldName : String) : Except Failure (Option IsoDatetime) :=
  match value with
  | .null => .ok none
  | .str s =>
    if s = "" then .ok none
    else if CrossAi.endsWithZ s then
      match X.fromisoformat (spelledOffset s) with
      | .ok parsed => .ok (some parsed)
      | .error message => claimStateError (fieldName ++ " is not parseable: " ++ message)
    else claimStateError (fieldName ++ " must be an ISO-8601 UTC string ending with Z")
  | _ => claimStateError (fieldName ++ " must be an ISO-8601 UTC string ending with Z")

/-- The text of a time that may be missing, kept as the stamp it shows. -/
def utcZ? : Option IsoDatetime → Except Failure (Option Stamp)
  | none => .ok none
  | some value => some <$> utcZ X value

def payload (event : Json) : Json :=
  match event.get "payload" with
  | .obj fields => .obj fields
  | _ => .obj []

def payloadRepo (data : Json) : Option String := nonEmptyStr? (orElse (data.get "repository") (data.get "repo"))

def payloadIssue (data : Json) : Option Int := ((data.get "issue").asStrictInt?).filter (0 < ·)

/-- The first of the keys that holds a text. -/
def payloadSession (data : Json) (keys : List String) : Option String :=
  keys.findSome? fun key => nonEmptyStr? (data.get key)

def matchesIssue (data : Json) (repo : String) (issue : Int) : Prop :=
  payloadRepo data = some repo ∧ payloadIssue data = some issue

instance (data : Json) (repo : String) (issue : Int) : Decidable (matchesIssue data repo issue) :=
  inferInstanceAs (Decidable (_ ∧ _))

def readLine (rawLine : List Char) : Except Failure (Option Json) :=
  if strip rawLine = [] then .ok none
  else
    match Json.loads X.float (strip rawLine) with
    | some (.obj fields) => .ok (some (.obj fields))
    | some _ => .ok none
    | none =>
      match X.unreadable (strip rawLine) with
      | .decodeError _ => raise .valueError
      | .other error => raise error

/-- The objects among the lines of a ledger. -/
def readEvents (bytes : List UInt8) : Except Failure (List Json) := do
  let read ← (← fileLines bytes).mapM (readLine X)
  pure (read.filterMap id)

structure IssueState where
  permissionState : PermissionState
  activeSession : Option String
  claimExpiresAt : Option Stamp
  lastHeartbeatAt : Option Stamp
  heartbeatIntervalMinutes : Int
  heartbeatGraceMinutes : Int
  sourceEventUuid : Json
  denyCode : Option String
  reason : String

def IssueState.start : IssueState where
  permissionState := .noClaim
  activeSession := none
  claimExpiresAt := none
  lastHeartbeatAt := none
  heartbeatIntervalMinutes := 30
  heartbeatGraceMinutes := 45
  sourceEventUuid := .null
  denyCode := some "ledger_no_active_claim"
  reason := "no active claim found in ledger"

/-- What the gate does with an event of its issue, by the type of the event. -/
inductive EventKind where
  | claimAccepted
  | heartbeatEvidence
  | revocation (r : Revocation)
  | takeoverAccepted
  | takeoverCommitted
  | closure (c : Closure)
  | other
deriving DecidableEq, Repr

def eventKinds : List (String × EventKind) :=
  [("CLAIM_ACCEPTED", .claimAccepted), ("HEARTBEAT_EVIDENCE", .heartbeatEvidence)] ++
    revocations.map (fun r => (r.name, .revocation r)) ++
    [("TAKEOVER_ACCEPTED", .takeoverAccepted), ("TAKEOVER_COMMITTED", .takeoverCommitted)] ++
    closures.map (fun c => (c.name, .closure c))

/-- A list or an object cannot be looked up among the types. -/
def eventKind : Json → Except Failure EventKind
  | .str eventType => .ok ((eventKinds.lookup eventType).getD .other)
  | .list _ => raise .typeError
  | .obj _ => raise .typeError
  | _ => .ok .other

def claimSession (data : Json) : Option String := payloadSession data ["session", "claim_session"]

def oldSession (data : Json) : Option String := payloadSession data ["old_session"]

def newSession (data : Json) : Option String := payloadSession data ["new_session"]

/-- The state in which an accepted claim or a committed takeover leaves an issue. -/
def granted (session reason : String) (data eventUuid : Json) (committedAt : Option IsoDatetime) :
    Except Failure IssueState := do
  let expiresAt ← parseUtcZ X (orElse (data.get "claim_expires_at") (data.get "expires_at")) "claim_expires_at"
  let claimExpiresAt ← utcZ? X expiresAt
  let lastHeartbeatAt ← utcZ? X committedAt
  let interval ← intOr X (data.get "heartbeat_interval_minutes") 30
  let grace ← intOr X (data.get "heartbeat_grace_minutes") 45
  pure ⟨.activeWinner, some session, claimExpiresAt, lastHeartbeatAt, interval, grace, eventUuid, none, reason⟩

/-- One event of the issue. -/
def applyKind (kind : EventKind) (data eventUuid : Json) (committedAt : Option IsoDatetime) (state : IssueState) :
    Except Failure IssueState :=
  match kind with
  | .claimAccepted =>
    match claimSession data with
    | none => .ok state
    | some session => granted X session "latest claim accepted" data eventUuid committedAt
  | .heartbeatEvidence =>
    if claimSession data ≠ none ∧ claimSession data = state.activeSession then do
      let lastHeartbeatAt ← utcZ? X committedAt
      pure { state with lastHeartbeatAt := lastHeartbeatAt }
    else .ok state
  | .revocation r =>
    if claimSession data ≠ none ∧ claimSession data ≠ state.activeSession then .ok state
    else .ok { state with
      permissionState := .revoked r
      denyCode := some "ledger_claim_revoked"
      reason := "ledger event " ++ r.name ++ " revokes permission"
      sourceEventUuid := eventUuid }
  | .takeoverAccepted =>
    if state.activeSession = oldSession data ∨ state.activeSession = newSession data then
      .ok { state with
        permissionState := .takeoverPendingMirror
        activeSession := none
        denyCode := some "ledger_takeover_pending"
        reason := "takeover accepted but not committed"
        sourceEventUuid := eventUuid }
    else .ok state
  | .takeoverCommitted =>
    match newSession data with
    | none => .ok state
    | some session => granted X session "takeover committed" data eventUuid committedAt
  | .closure c => .ok { state with
      permissionState := .closed c
      activeSession := none
      denyCode := some "ledger_issue_superseded"
      reason := "ledger event " ++ c.name ++ " prevents permission"
      sourceEventUuid := eventUuid }
  | .other => .ok state

def applyEvent (repo : String) (issue : Int) (state : IssueState) (event : Json) : Except Failure IssueState :=
  let data := payload event
  if matchesIssue data repo issue then do
    let committedAt ← parseUtcZ X (event.get "committed_at") "committed_at"
    let kind ← eventKind (event.get "event_type")
    applyKind X kind data (event.get "event_uuid") committedAt state
  else .ok state

def currentIssueState (events : List Json) (repo : String) (issue : Int) : Except Failure IssueState :=
  events.foldlM (applyEvent X repo issue) .start

structure Decision where
  allowed : Bool
  denyCode : Option String
  reason : String

def Decision.deny (denyCode reason : String) : Decision := ⟨false, some denyCode, reason⟩

/-- Whether a time that may be missing lies before the present time. -/
def passed (time : Option IsoDatetime) (now : IsoDatetime) : Except Failure Bool :=
  match time with
  | some time => before time now
  | none => .ok false

def minutesOr (minutes default : Int) : Int := if minutes = 0 then default else minutes

def heartbeatDeadline (state : IssueState) : Except Failure (Option IsoDatetime) :=
  match state.lastHeartbeatAt with
  | some lastHeartbeatAt => some <$> addMinutes (stored lastHeartbeatAt)
      (minutesOr state.heartbeatIntervalMinutes 30 + minutesOr state.heartbeatGraceMinutes 45)
  | none => .ok none

def deadlineText (deadline : Option IsoDatetime) : String :=
  (deadline.map fun t => stampText X (utcSeconds t.instant)).getD "None"

def evaluateState (state : IssueState) (requestedSession : String) (now : IsoDatetime) : Except Failure Decision :=
  if state.permissionState ≠ .activeWinner then
    .ok (.deny ((state.denyCode.filter (· ≠ "")).getD "ledger_not_active")
      (if state.reason = "" then "ledger state is not active winner" else state.reason))
  else if state.activeSession ≠ some requestedSession then
    .ok (.deny "ledger_session_mismatch" ("ledger active_session=" ++ X.repr (Json.ofOption .str state.activeSession) ++
      " expected=" ++ X.repr (.str requestedSession)))
  else do
    let expiresAt := state.claimExpiresAt.map stored
    let expired ← passed expiresAt now
    if expired then pure (.deny "ledger_claim_expired" ("ledger claim expired at " ++ deadlineText X expiresAt))
    else do
      let deadline ← heartbeatDeadline state
      let stale ← passed deadline now
      if stale then
        pure (.deny "ledger_claim_stale" ("ledger heartbeat deadline passed at " ++ deadlineText X deadline))
      else pure ⟨true, none, "ledger active winner matches"⟩

/-- Replay and then the events; a ledger that replay refuses has none. -/
def replayOrInvalid (authority : Authority) (path : String) (file : Option (List UInt8)) :
    Except Failure (ReplayResult × List Json) := do
  let result ← replay X authority path file
  if result.valid then do
    let events ← readEvents X (file.getD [])
    pure (result, events)
  else pure (result, [])

end LedgerClaimState

end PlatformGitops.Coordination

/-! The reaper: the claims it derives from a ledger, and which of them have lapsed. -/

namespace PlatformGitops.Coordination.ReapLedgerState

open Library
open CrossAi (IsoDatetime)
open LedgerClaimState (eventKind)

variable (X : Externals)

structure ClaimState where
  repository : String
  issue : Int
  session : String
  acceptedAt : IsoDatetime
  expiresAt : Option IsoDatetime
  heartbeatIntervalMinutes : Int
  heartbeatGraceMinutes : Int
  lastHeartbeatAt : Option IsoDatetime
  revokedBy : Option String
  revokeEventUuid : Option String
  sourceEventUuid : String

def claimKey (repository : String) (issue : Int) (session : String) : String :=
  repository ++ "#" ++ toString issue ++ "|" ++ session

def ClaimState.key (claim : ClaimState) : String := claimKey claim.repository claim.issue claim.session

def ClaimState.heartbeatDeadline (claim : ClaimState) : Except Failure IsoDatetime :=
  addMinutes (claim.lastHeartbeatAt.getD claim.acceptedAt)
    (claim.heartbeatIntervalMinutes + claim.heartbeatGraceMinutes)

def reaperError {α : Type} (message : String) : Except Failure α := .error (.reaperError message)

def parseUtcZ (value : Json) (fieldName : String) : Except Failure IsoDatetime :=
  match value with
  | .str s =>
    if CrossAi.endsWithZ s then
      match X.fromisoformat (spelledOffset s) with
      | .ok parsed => .ok parsed
      | .error message => reaperError (fieldName ++ " is not parseable: " ++ message)
    else reaperError (fieldName ++ " must be an ISO-8601 UTC string ending with Z")
  | _ => reaperError (fieldName ++ " must be an ISO-8601 UTC string ending with Z")

def utcZText (value : IsoDatetime) : Except Failure Json := (fun stamp => .str (stampText X stamp)) <$> utcZ X value

def safeInt (value : Json) (default : Int) : Int := ((value.asStrictInt?).filter (0 < ·)).getD default

def readLine (rawLine : List Char) : Except Failure (Option Json) :=
  if strip rawLine = [] then .ok none
  else
    match Json.loads X.float (strip rawLine) with
    | some (.obj fields) => .ok (some (.obj fields))
    | some _ => .ok none
    | none =>
      match X.unreadable (strip rawLine) with
      | .decodeError message => reaperError ("ledger JSONL invalid before replay: " ++ message)
      | .other error => raise error

def iterEvents (path : String) (file : Option (List UInt8)) : Except Failure (List Json) := do
  let bytes ← Fallible.expect file (.reaperError ("ledger file not found: " ++ path))
  let read ← (← fileLines bytes).mapM (readLine X)
  pure (read.filterMap id)

def payloadIssue (payload : Json) : Option Int := ((payload.get "issue").asStrictInt?).filter (0 < ·)

def payloadRepository (payload : Json) : String :=
  (nonEmptyStr? (orElse (payload.get "repository") (payload.get "repo"))).getD "UNKNOWN/UNKNOWN"

def payloadSession (payload : Json) : Option String :=
  nonEmptyStr? (orElse (payload.get "session") (payload.get "claim_session"))

/-- `str(value or "")` -/
def textOr : Json → String
  | .str s => s
  | value => if truthy value then X.str value else ""

def buildClaimState (event : Json) : Except Failure (Option ClaimState) :=
  match event.get "payload" with
  | .obj fields =>
    let payload := Json.obj fields
    match payloadIssue payload, payloadSession payload with
    | some issue, some session => do
      let expiresRaw := orElse (payload.get "claim_expires_at") (payload.get "expires_at")
      let expiresAt ← if truthy expiresRaw then some <$> parseUtcZ X expiresRaw "claim_expires_at" else pure none
      let acceptedAt ← parseUtcZ X (event.get "committed_at") "committed_at"
      pure (some ⟨payloadRepository payload, issue, session, acceptedAt, expiresAt,
        safeInt (payload.get "heartbeat_interval_minutes") 30, safeInt (payload.get "heartbeat_grace_minutes") 45,
        none, none, none, textOr X (event.get "event_uuid")⟩)
    | _, _ => .ok none
  | _ => .ok none

/-- The claims by their keys. -/
abbrev Claims := Dict String ClaimState

/-- An event of a claim that is there. -/
def touch (event : Json) (claim : ClaimState) : Except Failure ClaimState := do
  match ← eventKind (event.get "event_type") with
  | .heartbeatEvidence => do
    let lastHeartbeatAt ← parseUtcZ X (event.get "committed_at") "committed_at"
    pure { claim with lastHeartbeatAt := some lastHeartbeatAt }
  | .revocation r => pure { claim with
      revokedBy := some r.name
      revokeEventUuid := some (textOr X (event.get "event_uuid")) }
  | _ => pure claim

def deriveEvent (claims : Claims) (event : Json) : Except Failure Claims :=
  match event.get "payload" with
  | .obj fields =>
    let payload := Json.obj fields
    if OfType "CLAIM_ACCEPTED" event then do
      match ← buildClaimState X event with
      | some claim => pure (claims.set claim.key claim)
      | none => pure claims
    else
      match payloadIssue payload, payloadSession payload with
      | some issue, some session =>
        let key := claimKey (payloadRepository payload) issue session
        match claims.lookup key with
        | some claim => do
          let touched ← touch X event claim
          pure (claims.set key touched)
        | none => .ok claims
      | _, _ => .ok claims
  | _ => .ok claims

def deriveClaims (events : List Json) : Except Failure Claims := events.foldlM (deriveEvent X) []

def finding (eventType reason : String) (payload : List (String × Json)) : Json :=
  .obj [("event_type", .str eventType), ("writer_role", .str "reaper"), ("reason", .str reason),
    ("payload", .obj payload)]

def basePayload (claim : ClaimState) (detectedAt : Json) : List (String × Json) :=
  [("repository", .str claim.repository), ("issue", .int claim.issue), ("session", .str claim.session),
    ("detected_at", detectedAt), ("claim_event_uuid", .str claim.sourceEventUuid)]

/-- Whether the lease of a claim has run out. -/
def expired (claim : ClaimState) (now : IsoDatetime) : Except Failure Bool :=
  match claim.expiresAt with
  | some expiresAt => before expiresAt now
  | none => .ok false

/-- What there is to report about one claim. -/
def detectClaim (now : IsoDatetime) (claim : ClaimState) : Except Failure (Option Json) :=
  if claim.revokedBy.any (· ≠ "") then .ok none
  else do
    let detectedAt ← utcZText X now
    if ← expired claim now then
      let expiresAt ← utcZText X (claim.expiresAt.getD now)
      pure (some (finding "CLAIM_EXPIRED" "claim lease expired"
        (basePayload claim detectedAt ++ [("claim_expires_at", expiresAt)])))
    else
      let heartbeatDeadline ← claim.heartbeatDeadline
      if ← before heartbeatDeadline now then
        let deadline ← utcZText X heartbeatDeadline
        let lastHeartbeatAt ← utcZText X (claim.lastHeartbeatAt.getD claim.acceptedAt)
        pure (some (finding "CLAIM_STALE" "heartbeat deadline passed"
          (basePayload claim detectedAt ++ [("heartbeat_deadline", deadline), ("last_heartbeat_at", lastHeartbeatAt)])))
      else pure none

def detectStaleClaims (claims : Claims) (now : IsoDatetime) : Except Failure (List Json) := do
  let found ← (claims.map (·.2)).mapM (detectClaim X now)
  pure (found.filterMap id)

end PlatformGitops.Coordination.ReapLedgerState
