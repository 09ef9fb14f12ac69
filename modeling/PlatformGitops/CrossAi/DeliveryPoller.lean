import PlatformGitops.CrossAi.Evidence
import PlatformGitops.CrossAi.Ledger
import PlatformGitops.Library.Program

/-! The poller that recovers failed webhook deliveries, and the high-water mark it keeps in the ledger. -/

namespace PlatformGitops.CrossAi

open Library

namespace Ledger

structure PollerState where
  lastSuccessAt : Option Stamp
  highWaterDeliveryId : Option Int
  highWaterDeliveredAt : Option Stamp
  highWaterGuid : Option String

def PollerState.initial : PollerState := ⟨none, none, none, none⟩

def PollerState.mark (state : PollerState) : Option Stamp × Int :=
  (state.highWaterDeliveredAt, state.highWaterDeliveryId.getD 0)

/-- The order of the marks. An empty text is before every timestamp. -/
def markLe : Option Stamp × Int → Option Stamp × Int → Prop
  | (none, m), (none, n) => m ≤ n
  | (none, _), (some _, _) => True
  | (some _, _), (none, _) => False
  | (some s, m), (some t, n) => s.seconds < t.seconds ∨ s.seconds = t.seconds ∧ m ≤ n

instance : DecidableRel markLe
  | (none, m), (none, n) => inferInstanceAs (Decidable (m ≤ n))
  | (none, _), (some _, _) => inferInstanceAs (Decidable True)
  | (some _, _), (none, _) => inferInstanceAs (Decidable False)
  | (some s, m), (some t, n) => inferInstanceAs (Decidable (s.seconds < t.seconds ∨ s.seconds = t.seconds ∧ m ≤ n))

def advancePollerAfterCallback (request : DeploymentProtectionRequest) (apiDeliveryId : Int)
    (deliveredAt recordedAt : Datetime) (ledger : ObserveLedger) (state : PollerState) : Except Failure PollerState := do
  rejectIf (apiDeliveryId < 1) "POLLER_STATE_INVALID" "API delivery ID must be positive"
  rejectIf (callbackSucceeded request ledger = false) "POLLER_CALLBACK_NOT_SUCCEEDED"
    "poller high-water requires a successful GitHub callback"
  let delivered := utcSeconds deliveredAt
  let timestamp := utcSeconds recordedAt
  if markLe state.mark (some delivered, apiDeliveryId) then
    pure ⟨some timestamp, some apiDeliveryId, some delivered, some request.deliveryId⟩
  else
    pure { state with lastSuccessAt := some timestamp }

def markPollerSuccess (recordedAt : Datetime) (state : PollerState) : PollerState :=
  { state with lastSuccessAt := some (utcSeconds recordedAt) }

end Ledger

namespace Polling

open Ledger

def targetEvent : String := "deployment_protection_rule"
def targetAction : String := "requested"
def maxPages : Nat := 5
def maxCandidates : Nat := 100

structure DeliveryItem where
  apiDeliveryId : Int
  guid : String
  deliveredAt : Datetime
  redelivery : Bool
  status : String
  statusCode : Int
  event : String
  action : Option String
  installationId : Option Int
  repositoryId : Option Int
deriving DecidableEq, Repr

/-- What the poller computes with: `within low high text` for a float that is finite and between two bounds, and the
parser of the payload of a delivery. -/
structure Parsing where
  within : Int → Int → String → Bool
  parseDelivery : Json → String → Except Failure DeploymentProtectionRequest

def shapeInvalid {α : Type} (message : String) : Except Failure α := reject "GITHUB_DELIVERY_SHAPE_INVALID" message

def integer (value : Json) (field : String) (positive : Bool) : Except Failure Int := do
  let n ← expect value.asStrictInt? "GITHUB_DELIVERY_SHAPE_INVALID" (field ++ " must be an integer")
  rejectIf (positive ∧ n < 1) "GITHUB_DELIVERY_SHAPE_INVALID" (field ++ " must be positive")
  pure n

def nullablePositive (value : Json) (field : String) : Except Failure (Option Int) :=
  match value with
  | .null => pure none
  | value => some <$> integer value field true

def optionalText (value : Json) (bound : Nat) (field : String) : Except Failure (Option String) :=
  match value with
  | .null => pure none
  | .str s => do
    rejectIf (s.toList.length > bound) "GITHUB_DELIVERY_SHAPE_INVALID" (field ++ " is invalid")
    pure (some s)
  | _ => shapeInvalid (field ++ " is invalid")

def boundedText (value : Json) (bound : Nat) (field : String) : Except Failure String := do
  let s ← expect value.asStr? "GITHUB_DELIVERY_SHAPE_INVALID" (field ++ " is invalid")
  rejectIf (s.toList.length < 1 ∨ bound < s.toList.length) "GITHUB_DELIVERY_SHAPE_INVALID" (field ++ " is invalid")
  pure s

def required : List String :=
  ["id", "guid", "delivered_at", "redelivery", "duration", "status", "status_code", "event", "action",
    "installation_id", "repository_id"]

section

variable (X : Externals) (F : Parsing)

def durationValid : Json → Bool
  | .int n => 0 ≤ n ∧ n ≤ 600
  | .float text => F.within 0 600 text
  | _ => false

def deliveryItem (value : Json) : Except Failure DeliveryItem := do
  rejectIf (∃ key ∈ required, value.item? key = none) "GITHUB_DELIVERY_SHAPE_INVALID"
    "delivery list item is incomplete"
  let apiDeliveryId ← integer (value.get "id") "delivery.id" true
  let guid ← expect (value.get "guid").asStr? "GITHUB_DELIVERY_SHAPE_INVALID" "delivery.guid is invalid"
  rejectIf (guid.toList.length ≠ 36) "GITHUB_DELIVERY_SHAPE_INVALID" "delivery.guid is invalid"
  let deliveredAt ← parseUtc X (value.get "delivered_at") "delivery.delivered_at"
  let redelivery ← expect (value.get "redelivery").asBool? "GITHUB_DELIVERY_SHAPE_INVALID"
    "delivery.redelivery is invalid"
  rejectIf (durationValid F (value.get "duration") = false) "GITHUB_DELIVERY_SHAPE_INVALID"
    "delivery.duration is invalid"
  let status ← boundedText (value.get "status") 500 "delivery.status"
  let event ← boundedText (value.get "event") 100 "delivery.event"
  let action ← optionalText (value.get "action") 100 "delivery.action"
  let statusCode ← integer (value.get "status_code") "delivery.status_code" false
  let installationId ← nullablePositive (value.get "installation_id") "delivery.installation_id"
  let repositoryId ← nullablePositive (value.get "repository_id") "delivery.repository_id"
  pure ⟨apiDeliveryId, guid.toLower, deliveredAt, redelivery, status, statusCode, event, action, installationId,
    repositoryId⟩

/-- Whether a decoded value equals a plain one. Booleans and floats are compared by their number. -/
def equals (actual : Json) : Json → Bool
  | .null => actual.isNull
  | .str s => actual.asStr? = some s
  | .int n => match actual with
    | .float text => F.within n n text
    | actual => actual.asInt? = some n
  | .bool b => match actual with
    | .float text => F.within (if b then 1 else 0) (if b then 1 else 0) text
    | actual => actual.asInt? = some (if b then 1 else 0)
  | _ => false

def exact (item : DeliveryItem) : List (String × Json) :=
  [("id", .int item.apiDeliveryId), ("guid", .str item.guid), ("redelivery", .bool item.redelivery),
    ("status", .str item.status), ("status_code", .int item.statusCode), ("event", .str item.event),
    ("action", Json.ofOption .str item.action), ("installation_id", Json.ofOption .int item.installationId),
    ("repository_id", Json.ofOption .int item.repositoryId)]

def lowered (field : String) (actual : Json) : Json :=
  match actual with
  | .str s => if field = "guid" then .str s.toLower else actual
  | _ => actual

def crossCheckDetail (item : DeliveryItem) (detail : Json) (expectedWebhookUrl : String) : Except Failure Json := do
  (exact item).forM fun p =>
    rejectIf (equals F (lowered p.1 (detail.get p.1)) p.2 = false) "GITHUB_DELIVERY_LIST_DETAIL_MISMATCH"
      ("delivery list/detail field " ++ p.1 ++ " differs")
  let deliveredAt ← parseUtc X (detail.get "delivered_at") "deliveryDetail.delivered_at"
  rejectIf (deliveredAt ≠ item.deliveredAt) "GITHUB_DELIVERY_LIST_DETAIL_MISMATCH"
    "delivery list/detail timestamp differs"
  rejectIf ((detail.get "url").asStr? ≠ some expectedWebhookUrl) "GITHUB_DELIVERY_TARGET_MISMATCH"
    "delivery target URL differs"
  let request := detail.get "request"
  rejectIf (¬ Dsse.hasFields request ["headers", "payload"]) "GITHUB_DELIVERY_SHAPE_INVALID"
    "delivery request shape is invalid"
  rejectIf ((request.get "headers").isNull = false ∧ (request.get "headers").asObj?.isNone)
    "GITHUB_DELIVERY_SHAPE_INVALID" "delivery request headers are invalid"
  rejectIf ((request.get "payload").asObj?.isNone) "GITHUB_DELIVERY_SHAPE_INVALID"
    "delivery request payload is invalid"
  rejectIf (¬ Dsse.hasFields (detail.get "response") ["headers", "payload"]) "GITHUB_DELIVERY_SHAPE_INVALID"
    "delivery response shape is invalid"
  pure (request.get "payload")

end

structure HookDeliveryPage where
  items : List Json
  nextCursor : Option String

/-- The calls of one cycle: to the clock, the hook-delivery API, the processor of a delivery and the ledger. The last one
stands for whatever else happens beside the poller. -/
inductive Effect : Type → Type
  | now : Effect Datetime
  | cycle : Effect Unit
  | pollerState : Effect PollerState
  | listDeliveries (cursor : Option String) : Effect HookDeliveryPage
  | delivery (id : Int) : Effect Json
  | processPolled (request : DeploymentProtectionRequest) : Effect Bool
  | advancePollerAfterCallback (request : DeploymentProtectionRequest) (apiDeliveryId : Int)
      (deliveredAt recordedAt : Datetime) : Effect Unit
  | markPollerSuccess (recordedAt : Datetime) : Effect Unit
  | outside : Effect Unit

abbrev Action := Prog Failure Effect

structure DeliveryPoller where
  expectedWebhookUrl : String
  expectedInstallationId : Int
  expectedRepositoryId : Int
  maxDeliveryAge : Int
  overlap : Int
  agePositive : 0 < maxDeliveryAge
  overlapPositive : 0 < overlap

section

variable (X : Externals) (F : Parsing) (P : DeliveryPoller)

def cutoffOf (now : Datetime) (state : PollerState) : Except Failure Datetime :=
  match state.highWaterDeliveredAt with
  | none => pure (now - P.maxDeliveryAge)
  | some stamp => do
    let highWater ← parseUtc X (.str stamp.text) "pollerState.high_water_delivered_at"
    pure (max (now - P.maxDeliveryAge) (highWater - P.overlap))

def cutoff (now : Datetime) : Action Datetime := do
  let state ← Prog.perform .pollerState
  Prog.ofExcept (cutoffOf X P now state)

/-- What the listing has seen so far. -/
structure Listing where
  items : List DeliveryItem
  seenIds : List Int
  previous : Option (Datetime × Int)
  pageHasOld : Bool

def scanItem (now cutoff : Datetime) (listing : Listing) (raw : Json) : Except Failure Listing := do
  let parsed ← deliveryItem X F raw
  rejectIf (∃ previous ∈ listing.previous,
    previous.1 < parsed.deliveredAt ∨ previous.1 = parsed.deliveredAt ∧ previous.2 < parsed.apiDeliveryId)
    "GITHUB_DELIVERY_ORDER_INVALID" "delivery API order is not newest-first"
  rejectIf (parsed.apiDeliveryId ∈ listing.seenIds) "GITHUB_DELIVERY_DUPLICATE" "delivery API repeated an ID"
  rejectIf (now + 30 * second < parsed.deliveredAt) "GITHUB_DELIVERY_FUTURE" "delivery timestamp is in the future"
  let order := some (parsed.deliveredAt, parsed.apiDeliveryId)
  let seenIds := parsed.apiDeliveryId :: listing.seenIds
  if parsed.deliveredAt < cutoff then
    pure ⟨listing.items, seenIds, order, true⟩
  else
    pure ⟨listing.items ++ [parsed], seenIds, order, listing.pageHasOld⟩

def listPages (now cutoff : Datetime) : Nat → Option String → Listing → Action (List DeliveryItem)
  | 0, _, _ => Prog.ofExcept (reject "GITHUB_DELIVERY_WINDOW_TRUNCATED" "delivery pagination did not terminate")
  | pages + 1, cursor, listing => do
    let page ← Prog.perform (.listDeliveries cursor)
    let listing ← Prog.ofExcept (page.items.foldlM (scanItem X F now cutoff) { listing with pageHasOld := false })
    if page.nextCursor = none ∨ listing.pageHasOld then
      pure listing.items
    else if pages = 0 then
      Prog.ofExcept (reject "GITHUB_DELIVERY_WINDOW_TRUNCATED" "delivery window exceeds page cap")
    else
      listPages now cutoff pages page.nextCursor listing

def collect (now : Datetime) : Action (List DeliveryItem) := do
  Prog.perform .cycle
  let cutoff ← cutoff X P now
  listPages X F now cutoff maxPages none ⟨[], [], none, false⟩

/-- A failed delivery of the event that the poller is for. -/
def isCandidate (item : DeliveryItem) : Bool :=
  item.event = targetEvent ∧ item.action = some targetAction ∧ item.installationId = some P.expectedInstallationId ∧
    item.repositoryId = some P.expectedRepositoryId ∧ ¬ (200 ≤ item.statusCode ∧ item.statusCode ≤ 399)

def notAfter (a b : DeliveryItem) : Bool :=
  a.deliveredAt < b.deliveredAt ∨ a.deliveredAt = b.deliveredAt ∧ a.apiDeliveryId ≤ b.apiDeliveryId

def requestOf (item : DeliveryItem) (detail : Json) : Except Failure DeploymentProtectionRequest := do
  let payload ← crossCheckDetail X F item detail P.expectedWebhookUrl
  let request ← F.parseDelivery payload item.guid
  rejectIf (request.installationId ≠ P.expectedInstallationId ∨ request.repositoryId ≠ P.expectedRepositoryId)
    "GITHUB_DELIVERY_PAYLOAD_SCOPE_MISMATCH" "payload scope differs"
  pure request

def processItem (now : Datetime) (item : DeliveryItem) : Action Unit := do
  let detail ← Prog.perform (.delivery item.apiDeliveryId)
  let request ← Prog.ofExcept (requestOf X F P item detail)
  let accepted ← Prog.perform (.processPolled request)
  Prog.ofExcept (rejectIf (accepted = false) "POLLER_CALLBACK_NOT_SUCCEEDED"
    "GitHub decision callback was not accepted")
  Prog.perform (.advancePollerAfterCallback request item.apiDeliveryId item.deliveredAt now)

def processEach (now : Datetime) : List DeliveryItem → Action Nat
  | [] => pure 0
  | item :: items => do
    processItem X F P now item
    let processed ← processEach now items
    pure (processed + 1)

def pollOnce : Action Nat := do
  let now ← Prog.perform .now
  let listed ← collect X F P now
  let candidates := listed.filter (isCandidate P)
  Prog.ofExcept (rejectIf (candidates.length > maxCandidates) "GITHUB_DELIVERY_CANDIDATE_LIMIT"
    "too many delivery candidates")
  let processed ← processEach X F P now (candidates.insertionSort fun a b => notAfter a b)
  Prog.perform (.markPollerSuccess now)
  pure processed

end

end Polling

end PlatformGitops.CrossAi
