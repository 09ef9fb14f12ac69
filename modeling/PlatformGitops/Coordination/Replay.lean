import PlatformGitops.CrossAi.Errors
import PlatformGitops.Library.JsonReading
import PlatformGitops.Library.TextFile

/-! The replay verifier of the coordination ledger. -/

namespace PlatformGitops.Coordination

open Library
open CrossAi (Datetime IsoDatetime second minute)

/-- An exception that no reader turns into a refusal of its own. -/
inductive PyError where
  | typeError | valueError | overflowError | unicodeError | attributeError
deriving DecidableEq, Repr

inductive Failure where
  | ledgerInvalid (line : Nat) (reason : String)
  | appendError (message : String)
  | claimStateError (message : String)
  | reaperError (message : String)
  | systemExit (message : String)
  | raised (error : PyError)
deriving DecidableEq, Repr

/-- What a text that is not the text of a JSON value does to its reader: a decode error with its message, or another
exception (an integer with too many digits, a lone surrogate that no encoder accepts). -/
inductive Unreadable where
  | decodeError (message : String)
  | other (error : PyError)

/-- The functions of the language's library that the scripts compute with. -/
structure Externals where
  sha256 : List UInt8 → String
  fromisoformat : String → Except String IsoDatetime
  isoformat : IsoDatetime → String
  localToUtc : Datetime → Option Datetime
  float : String → String
  intOfFloat : String → Except PyError Int
  intOfText : String → Option Int
  unreadable : List Char → Unreadable
  str : Json → String
  repr : Json → String
  upper : String → String
  lower : String → String

variable (X : Externals)

def invalid {α : Type} (line : Nat) (reason : String) : Except Failure α := .error (.ledgerInvalid line reason)

def invalidIf (bad : Prop) [Decidable bad] (line : Nat) (reason : String) : Except Failure Unit :=
  Fallible.rejectIf bad (.ledgerInvalid line reason)

def raise {α : Type} (error : PyError) : Except Failure α := .error (.raised error)

@[simp] lemma invalid_ne_ok {α : Type} {line : Nat} {reason : String} {a : α} :
    (invalid line reason : Except Failure α) = .ok a ↔ False := by
  simp [invalid]

@[simp] lemma raise_ne_ok {α : Type} {error : PyError} {a : α} : (raise error : Except Failure α) = .ok a ↔ False := by
  simp [raise]

@[simp] lemma invalidIf_eq_ok {bad : Prop} [Decidable bad] {line : Nat} {reason : String} {u : Unit} :
    invalidIf bad line reason = .ok u ↔ ¬ bad :=
  Fallible.rejectIf_eq_ok

section Values

/-- The value as a condition sees it. -/
def truthy : Json → Bool
  | .null => false
  | .bool b => b
  | .int n => n ≠ 0
  | .float text => text ≠ "0.0" ∧ text ≠ "-0.0"
  | .str s => s ≠ ""
  | .list items => items ≠ []
  | .obj fields => fields ≠ []

def orElse (a b : Json) : Json := if truthy a then a else b

/-- Comparison with an integer: a boolean is one, and so is a float without a fraction. -/
def equalsInt (n : Int) : Json → Bool
  | .int m => m = n
  | .bool b => (if b then 1 else 0) = n
  | .float text => text = toString n ++ ".0"
  | _ => false

def nonEmptyStr? : Json → Option String
  | .str s => if s = "" then none else some s
  | _ => none

end Values

section Times

/-- `a < b`: a datetime with a zone and one without cannot be ordered. -/
def before (a b : IsoDatetime) : Except Failure Bool :=
  if a.utcoffset.isSome = b.utcoffset.isSome then .ok (a.instant < b.instant) else raise .typeError

def sameTime (a b : IsoDatetime) : Bool := a.utcoffset.isSome = b.utcoffset.isSome ∧ a.instant = b.instant

/-- `a - b`, in microseconds. -/
def since (a b : IsoDatetime) : Except Failure Int :=
  if a.utcoffset.isSome = b.utcoffset.isSome then .ok (a.instant - b.instant) else raise .typeError

/-- The text with each Z spelled as an offset. -/
def spelledOffset (s : String) : String :=
  String.ofList (s.toList.flatMap fun c => if c = 'Z' then "+00:00".toList else [c])

def parseCommittedAt (value : Json) (line : Nat) : Except Failure IsoDatetime :=
  match value with
  | .str s =>
    if CrossAi.endsWithZ s then
      match X.fromisoformat (spelledOffset s) with
      | .ok parsed => .ok parsed
      | .error message => invalid line ("committed_at is not parseable: " ++ message)
    else invalid line "committed_at must be an ISO-8601 UTC string ending with Z"
  | _ => invalid line "committed_at must be an ISO-8601 UTC string ending with Z"

end Times

section Hashes

def canonicalJsonBytes (value : Json) : List UInt8 := Text.encode (Json.dumps Json.codePointLe value)

def sha256Hex (value : Json) : String := X.sha256 (canonicalJsonBytes value)

def isHashDigit (c : Char) : Bool := ('a' ≤ c ∧ c ≤ 'f') ∨ ('0' ≤ c ∧ c ≤ '9')

/-- The digits that the hash pattern finds: behind an optional prefix, and before an optional newline. -/
def matchHash? (value : String) : Option String :=
  let digits := if "sha256:".toList.isPrefixOf value.toList then value.toList.drop 7 else value.toList
  if digits.length = 64 ∧ digits.all isHashDigit then some (String.ofList digits)
  else if digits.length = 65 ∧ (digits.take 64).all isHashDigit ∧ digits.getLast? = some '\n' then
    some (String.ofList (digits.take 64))
  else none

def prefixed (digits : String) : String := "sha256:" ++ digits

def normalizeHash (value : Json) (field : String) (line : Nat) : Except Failure String :=
  match value with
  | .str s => Fallible.expect (matchHash? s)
      (.ledgerInvalid line (field ++ " must match sha256:<64-hex> or bare 64-hex"))
  | _ => invalid line (field ++ " must be a sha256 hash string")

def normalizeNullableHash (value : Json) (field : String) (line : Nat) : Except Failure (Option String) :=
  match value with
  | .null => .ok none
  | value => some <$> normalizeHash value field line

end Hashes

/-- The writers that may commit each type of event. -/
abbrev Authority := List (String × List String)

section Authority

/-- The text of a file. -/
def readText (bytes : List UInt8) : Except Failure (List Char) :=
  match Text.decode? bytes with
  | some text => .ok (Text.universalNewlines text)
  | none => raise .unicodeError

def authorizedWriters (entry : String × Json) : Except Failure (String × List String) :=
  match entry.2 with
  | .obj fields =>
    match ((Json.obj fields).get "authorizedWriters").asStrList? with
    | some writers => .ok (entry.1, writers)
    | none => .error (.systemExit ("ERR: invalid authorizedWriters for event " ++ entry.1))
  | _ => .error (.systemExit ("ERR: invalid authority event entry: " ++ X.repr (.str entry.1)))

def loadAuthority (path : String) (file : Option (List UInt8)) : Except Failure Authority := do
  let bytes ← Fallible.expect file (.systemExit ("ERR: authority fixture not found: " ++ path))
  let text ← readText bytes
  match Json.loads X.float text with
  | some (.obj fields) =>
    match (Json.obj fields).get "events" with
    | .obj events => events.mapM (authorizedWriters X)
    | _ => .error (.systemExit ("ERR: authority fixture missing object field 'events': " ++ path))
  | some _ => raise .attributeError
  | none =>
    match X.unreadable text with
    | .decodeError message => .error (.systemExit ("ERR: authority fixture invalid JSON: " ++ path ++ ": " ++ message))
    | .other error => raise error

end Authority

section Events

def expectedEventSchema : String := "coordination-ledger-event/v1"

def readEvent (lineBody : List Char) (line : Nat) : Except Failure Json :=
  match Json.loads X.float lineBody with
  | some (.obj fields) => .ok (.obj fields)
  | some _ => invalid line "ledger line must be a JSON object"
  | none =>
    match X.unreadable lineBody with
    | .decodeError message => invalid line ("invalid JSON: " ++ message)
    | .other error => raise error

def requireString (event : Json) (field : String) (line : Nat) : Except Failure String :=
  Fallible.expect (nonEmptyStr? (event.get field)) (.ledgerInvalid line (field ++ " must be a non-empty string"))

def requireCommentString (binding : Json) (field : String) (line : Nat) : Except Failure String :=
  Fallible.expect (nonEmptyStr? (binding.get field))
    (.ledgerInvalid line ("comment_binding." ++ field ++ " must be a non-empty string"))

def requirePositiveInt (value : Json) (field : String) (line : Nat) : Except Failure Unit :=
  invalidIf (¬ value.asStrictInt?.any (0 < ·)) line ("comment_binding." ++ field ++ " must be a positive integer")

def commentBindingToleranceMinutes (mode : String) : Option Int :=
  [("normal", 5), ("degraded", 15), ("recovery", 15)].lookup mode

def validateBoundComment (binding : Json) (line : Nat) (expectedPayloadHash : String) (committedAt : IsoDatetime) :
    Except Failure Unit := do
  let surface ← requireCommentString binding "surface" line
  invalidIf (surface ≠ "github_issue_comment") line "comment_binding.surface must be github_issue_comment"
  let repository ← requireCommentString binding "repository" line
  invalidIf ('/' ∉ repository.toList) line "comment_binding.repository must be owner/repo"
  requirePositiveInt (binding.get "issue") "issue" line
  requirePositiveInt (binding.get "comment_id") "comment_id" line
  requirePositiveInt (binding.get "author_id") "author_id" line
  let _ ← requireCommentString binding "author_login" line
  let _ ← requireCommentString binding "author_type" line
  let _ ← normalizeHash (binding.get "raw_body_hash") "comment_binding.raw_body_hash" line
  let actualPayloadHash ← normalizeHash (binding.get "payload_hash") "comment_binding.payload_hash" line
  invalidIf (actualPayloadHash ≠ expectedPayloadHash) line
    ("comment_binding.payload_hash mismatch expected=sha256:" ++ expectedPayloadHash ++ " actual=sha256:" ++
      actualPayloadHash)
  let createdAt ← parseCommittedAt X (binding.get "created_at") line
  let updatedAt ← parseCommittedAt X (binding.get "updated_at") line
  invalidIf (¬ sameTime updatedAt createdAt) line "comment_binding.updated_at must equal created_at"
  let verificationMode ← requireCommentString binding "verification_mode" line
  let expectedTolerance ← Fallible.expect (commentBindingToleranceMinutes verificationMode)
    (.ledgerInvalid line "comment_binding.verification_mode must be one of: degraded, normal, recovery")
  let tolerance := binding.get "timestamp_tolerance_minutes"
  invalidIf (¬ equalsInt expectedTolerance tolerance) line
    ("comment_binding.timestamp_tolerance_minutes mismatch expected=" ++ toString expectedTolerance ++ " actual=" ++
      X.str tolerance)
  let delta ← since createdAt committedAt
  invalidIf (delta.natAbs > expectedTolerance * minute) line
    ("comment_binding.created_at outside tolerance mode=" ++ verificationMode ++ " tolerance_minutes=" ++
      toString expectedTolerance)

def validateCommentBinding (event : Json) (line : Nat) (expectedPayloadHash : String) (committedAt : IsoDatetime) :
    Except Failure Unit :=
  match event.get "comment_binding" with
  | .null => .ok ()
  | .obj fields => validateBoundComment X (.obj fields) line expectedPayloadHash committedAt
  | _ => invalid line "comment_binding must be an object"

/-- The event without its own hash. -/
def hashMaterial : Json → Json
  | .obj fields => .obj (fields.filter fun p => p.1 ≠ "event_hash")
  | v => v

def previousMismatch (lastHash previous : Option String) : String :=
  "previous_event_hash mismatch expected=sha256:" ++ lastHash.getD "None" ++ " actual=sha256:" ++
    previous.getD "None"

def checkPrevious (line validEvents : Nat) (lastHash previous : Option String) : Except Failure Unit :=
  if validEvents = 0 then invalidIf (previous ≠ none) line "first event previous_event_hash must be null"
  else invalidIf (previous ≠ lastHash) line (previousMismatch lastHash previous)

def checkOrder (line : Nat) (lastCommittedAt : Option IsoDatetime) (committedAt : IsoDatetime) : Except Failure Unit :=
  match lastCommittedAt with
  | none => .ok ()
  | some last => do
    let movedBack ← before committedAt last
    invalidIf movedBack line
      ("committed_at moved backwards previous=" ++ X.isoformat last ++ " current=" ++ X.isoformat committedAt)

def validateNewEvent (authority : Authority) (event : Json) (line : Nat) (lastHash : Option String)
    (lastCommittedAt : Option IsoDatetime) (validEvents : Nat) : Except Failure (String × IsoDatetime) := do
  let schemaVersion ← requireString event "schemaVersion" line
  invalidIf (schemaVersion ≠ expectedEventSchema) line ("schemaVersion must be " ++ expectedEventSchema)
  let eventType ← requireString event "event_type" line
  let writers ← Fallible.expect (authority.lookup eventType)
    (.ledgerInvalid line ("unknown event_type " ++ X.repr (.str eventType)))
  let writerRole ← requireString event "writer_role" line
  invalidIf (writerRole ∉ writers) line
    ("writer_role " ++ X.repr (.str writerRole) ++ " is not authorized for " ++ eventType ++ "; allowed=" ++
      ", ".intercalate (writers.dedup.insertionSort (Json.codePointLe · ·)))
  let payload ← Fallible.expect (event.get "payload").asObj? (.ledgerInvalid line "payload must be an object")
  let expectedPayloadHash := sha256Hex X (.obj payload)
  let actualPayloadHash ← normalizeHash (event.get "payload_hash") "payload_hash" line
  invalidIf (actualPayloadHash ≠ expectedPayloadHash) line
    ("payload_hash mismatch expected=sha256:" ++ expectedPayloadHash ++ " actual=sha256:" ++ actualPayloadHash)
  let previousEventHash ← normalizeNullableHash (event.get "previous_event_hash") "previous_event_hash" line
  checkPrevious line validEvents lastHash previousEventHash
  let committedAt ← parseCommittedAt X (event.get "committed_at") line
  checkOrder X line lastCommittedAt committedAt
  validateCommentBinding X event line expectedPayloadHash committedAt
  let expectedEventHash := sha256Hex X (hashMaterial event)
  let actualEventHash ← normalizeHash (event.get "event_hash") "event_hash" line
  invalidIf (actualEventHash ≠ expectedEventHash) line
    ("event_hash mismatch expected=sha256:" ++ expectedEventHash ++ " actual=sha256:" ++ actualEventHash)
  pure (expectedEventHash, committedAt)

end Events

section Replaying

/-- What the characters count as blank that a text is stripped of. -/
def isBlank (c : Char) : Bool :=
  (9 ≤ c.toNat ∧ c.toNat ≤ 13) ∨ (28 ≤ c.toNat ∧ c.toNat ≤ 32) ∨ (0x2000 ≤ c.toNat ∧ c.toNat ≤ 0x200a) ∨
    c.toNat ∈ [0x85, 0xa0, 0x1680, 0x2028, 0x2029, 0x202f, 0x205f, 0x3000]

def strip (s : List Char) : List Char := ((s.dropWhile isBlank).reverse.dropWhile isBlank).reverse

structure Progress where
  lastHash : Option String
  lastCommittedAt : Option IsoDatetime
  validEvents : Nat
  duplicateEvents : Nat
  seenEventUuid : List (String × List UInt8)

def Progress.start : Progress := ⟨none, none, 0, 0, []⟩

variable (authority : Authority)

def replayEvent (event : Json) (line : Nat) (progress : Progress) : Except Failure Progress := do
  let eventUuid ← requireString event "event_uuid" line
  let canonicalEvent := canonicalJsonBytes event
  match progress.seenEventUuid.lookup eventUuid with
  | some previousDuplicate =>
    invalidIf (previousDuplicate ≠ canonicalEvent) line
      ("duplicate event_uuid " ++ X.repr (.str eventUuid) ++ " differs from first occurrence")
    pure { progress with duplicateEvents := progress.duplicateEvents + 1 }
  | none =>
    let (nextHash, committedAt) ← validateNewEvent X authority event line progress.lastHash
      progress.lastCommittedAt progress.validEvents
    pure { progress with
      seenEventUuid := (eventUuid, canonicalEvent) :: progress.seenEventUuid
      lastHash := some nextHash
      lastCommittedAt := some committedAt
      validEvents := progress.validEvents + 1 }

def replayLine (rawLine : List Char) (line : Nat) (progress : Progress) : Except Failure Progress :=
  if strip rawLine = [] then .ok progress
  else do
    let event ← readEvent X (strip rawLine) line
    replayEvent X authority event line progress

/-- The lines up to the first that is refused, with what was counted before it. -/
def replayLines : List (List Char) → Nat → Progress → Progress × Except Failure Unit
  | [], _, progress => (progress, .ok ())
  | rawLine :: rest, line, progress =>
    match replayLine X authority rawLine line progress with
    | .ok progress' => replayLines rest (line + 1) progress'
    | .error failure => (progress, .error failure)

structure ReplayResult where
  path : String
  valid : Bool
  validEvents : Nat
  duplicateEvents : Nat
  validPrefixHash : Option String
  invalidLine : Option Nat
  reason : Option String

def Progress.result (progress : Progress) (path : String) (valid : Bool) (invalidLine : Option Nat)
    (reason : Option String) : ReplayResult :=
  ⟨path, valid, progress.validEvents, progress.duplicateEvents, progress.lastHash, invalidLine, reason⟩

def fileLines (bytes : List UInt8) : Except Failure (List (List Char)) := Text.lines <$> readText bytes

/-- The replay of a ledger file; without bytes there is no file. -/
def replay (path : String) (file : Option (List UInt8)) : Except Failure ReplayResult :=
  match file with
  | none => .ok (Progress.start.result path false none (some "file not found"))
  | some bytes => do
    let (progress, outcome) := replayLines X authority (← fileLines bytes) 1 .start
    match outcome with
    | .ok () => .ok (progress.result path true none none)
    | .error (.ledgerInvalid line reason) => .ok (progress.result path false (some line) (some reason))
    | .error failure => .error failure

end Replaying

end PlatformGitops.Coordination
