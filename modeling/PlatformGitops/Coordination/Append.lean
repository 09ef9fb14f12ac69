import PlatformGitops.Coordination.Replay

/-! The writer that appends one event to a ledger, under the lock of the ledger. -/

namespace PlatformGitops.Coordination

open Library

variable (X : Externals)

structure Args where
  ledger : String
  authority : String
  eventType : String
  writerRole : String
  eventUuid : Option String
  committedAt : Option String
  expectPreviousHash : String
  keyId : Option String
  signature : Option String
  payloadJson : Option String
  payloadFile : Option String
  metadataJson : Option String
  metadataFile : Option String
  commentBindingJson : Option String
  commentBindingFile : Option String

/-- What a call reads besides its arguments and the ledger. -/
structure Surroundings where
  files : String → Option (List UInt8)
  uuid4 : String
  utcNowZ : String
  candidatePath : String

def appendError {α : Type} (message : String) : Except Failure α := .error (.appendError message)

def appendErrorIf (bad : Prop) [Decidable bad] (message : String) : Except Failure Unit :=
  Fallible.rejectIf bad (.appendError message)

def canonicalEventLine (event : Json) : List Char := Json.dumps Json.codePointLe event

section Arguments

def requireObject (value : Json) (label : String) : Except Failure Json :=
  match value with
  | .obj fields => .ok (.obj fields)
  | _ => appendError (label ++ ": value must be a JSON object")

def loadText (text : List Char) (label : String) : Except Failure Json :=
  match Json.loads X.float text with
  | some value => requireObject value label
  | none =>
    match X.unreadable text with
    | .decodeError message => appendError (label ++ ": invalid JSON: " ++ message)
    | .other error => raise error

def loadJsonValue (files : String → Option (List UInt8)) (raw path : Option String) (label : String) :
    Except Failure Json :=
  match raw, path with
  | some _, some _ => appendError (label ++ ": pass either inline JSON or file path, not both")
  | none, none => appendError (label ++ ": JSON object is required")
  | none, some path => do
    let bytes ← Fallible.expect (files path) (.appendError (label ++ ": file not found: " ++ path))
    loadText X (← readText bytes) label
  | some raw, none => loadText X raw.toList label

/-- The hash a caller expects before its event, if it expects one. -/
inductive Expectation where
  | noExpectation
  | previous (hash : Option String)

def normalizeExpectedPrevious (value : Option String) : Except Failure Expectation :=
  match value with
  | none => .ok .noExpectation
  | some value =>
    let normalized := String.ofList (strip value.toList)
    if X.upper normalized = "GENESIS" ∨ X.lower normalized ∈ ["null", "none"] then .ok (.previous none)
    else
      match matchHash? normalized with
      | some hash => .ok (.previous (some hash))
      | none => appendError "--expect-previous-hash must be GENESIS, null, sha256:<64-hex>, or bare 64-hex"

def normalizeReplayHash : Option String → Except Failure (Option String)
  | none => .ok none
  | some value => some <$> Fallible.expect (matchHash? value)
      (.appendError ("replay returned invalid prefix hash: " ++ value))

def hashLabel (hash : Option String) : String := (hash.map prefixed).getD "GENESIS"

def validateExpectedPrevious (expected : Expectation) (current : Option String) : Except Failure Unit :=
  match expected with
  | .noExpectation => .ok ()
  | .previous hash =>
    appendErrorIf (hash ≠ current) ("cas_mismatch expected=" ++ hashLabel hash ++ " actual=" ++ hashLabel current)

def failureText : Failure → String
  | .ledgerInvalid line reason => "line " ++ toString line ++ ": " ++ reason
  | _ => ""

/-- The time of an event, which the verifier must be able to read. -/
def ensureCommittedAt (value : String) : Except Failure String :=
  match parseCommittedAt X (.str value) 0 with
  | .ok _ => .ok value
  | .error failure => appendError (failureText failure)

end Arguments

section Event

/-- The text, or what a fallback gives where an argument is missing or empty. -/
def given (value : Option String) (fallback : String) : String :=
  match value with
  | some s => if s = "" then fallback else s
  | none => fallback

def loadOptional (files : String → Option (List UInt8)) (raw path : Option String) (label : String) :
    Except Failure (List (String × Json)) :=
  if raw.isSome ∨ path.isSome then do
    let value ← loadJsonValue X files raw path label
    pure [(label, value)]
  else pure []

def keyIdField (keyId : Option String) : List (String × Json) :=
  if given keyId "" = "" then [] else [("key_id", .str (given keyId ""))]

/-- A signature that is not the text of a JSON value is kept as a text. -/
def signatureField (signature : Option String) : Except Failure (List (String × Json)) :=
  let text := given signature ""
  if text = "" then .ok []
  else
    match Json.loads X.float text.toList with
    | some value => .ok [("signature", value)]
    | none =>
      match X.unreadable text.toList with
      | .decodeError _ => .ok [("signature", .str text)]
      | .other error => raise error

/-- The fields of an event that its hash is taken over. -/
def eventFields (args : Args) (context : Surroundings) (previousHash : Option String) :
    Except Failure (List (String × Json)) := do
  let payload ← loadJsonValue X context.files args.payloadJson args.payloadFile "payload"
  let committedAt ← ensureCommittedAt X (given args.committedAt context.utcNowZ)
  let metadata ← loadOptional X context.files args.metadataJson args.metadataFile "metadata"
  let commentBinding ← loadOptional X context.files args.commentBindingJson args.commentBindingFile "comment_binding"
  let signature ← signatureField X args.signature
  pure ([("schemaVersion", .str expectedEventSchema), ("event_uuid", .str (given args.eventUuid context.uuid4)),
      ("event_type", .str args.eventType), ("writer_role", .str args.writerRole), ("committed_at", .str committedAt),
      ("previous_event_hash", Json.ofOption (fun h => .str (prefixed h)) previousHash), ("payload", payload)] ++
    metadata ++ commentBinding ++ keyIdField args.keyId ++ signature ++
    [("payload_hash", .str (prefixed (sha256Hex X payload)))])

def buildEvent (args : Args) (context : Surroundings) (previousHash : Option String) : Except Failure Json := do
  let fields ← eventFields X args context previousHash
  pure (.obj (fields ++ [("event_hash", .str (prefixed (sha256Hex X (.obj fields))))]))

end Event

section Writing

/-- A ledger that is not there yet is an empty one. -/
def replayExisting (authority : Authority) (path : String) (file : Option (List UInt8)) : Except Failure ReplayResult :=
  match file with
  | none => .ok (Progress.start.result path true none none)
  | some bytes => do
    let result ← replay X authority path (some bytes)
    appendErrorIf (result.valid = false)
      ("existing_ledger_invalid line=" ++ (result.invalidLine.map toString).getD "unknown" ++
        " valid_prefix_hash=sha256:" ++ result.validPrefixHash.getD "GENESIS" ++ " reason=" ++ result.reason.getD "None")
    pure result

def ledgerTextWithCandidate (file : Option (List UInt8)) (event : Json) : Except Failure (List Char) := do
  let body ← match file with
    | none => pure []
    | some bytes => readText bytes
  pure (body ++ (if body = [] ∨ Text.endsWithNewline body then [] else ['\n']) ++ (canonicalEventLine event ++ ['\n']))

def validateCandidate (authority : Authority) (context : Surroundings) (file : Option (List UInt8)) (event : Json) :
    Except Failure ReplayResult := do
  let text ← ledgerTextWithCandidate file event
  let result ← replay X authority context.candidatePath (some (Text.encode text))
  appendErrorIf (result.valid = false)
    ("candidate_ledger_invalid line=" ++ (result.invalidLine.map toString).getD "unknown" ++
      " valid_prefix_hash=sha256:" ++ result.validPrefixHash.getD "GENESIS" ++ " reason=" ++ result.reason.getD "None")
  pure result

def appendEventLine (file : Option (List UInt8)) (event : Json) : List UInt8 :=
  let bytes := file.getD []
  bytes ++ (if bytes = [] ∨ bytes.getLast? = some 10 then [] else [10]) ++ (Text.encode (canonicalEventLine event) ++ [10])

structure Output where
  ledger : String
  eventUuid : Json
  eventType : Json
  writerRole : Json
  previousEventHash : Json
  eventHash : Json
  validEvents : Nat
  validPrefixHash : Option String

/-- The event a call appends, once it may append it. -/
def prepare (args : Args) (context : Surroundings) (file : Option (List UInt8)) : Except Failure (Authority × Json) := do
  let expected ← normalizeExpectedPrevious X (some args.expectPreviousHash)
  let authority ← loadAuthority X args.authority (context.files args.authority)
  let before ← replayExisting X authority args.ledger file
  let currentHash ← normalizeReplayHash before.validPrefixHash
  validateExpectedPrevious expected currentHash
  let event ← buildEvent X args context currentHash
  let _ ← validateCandidate X authority context file event
  pure (authority, event)

/-- One call: what is in the ledger file after it, and what it reports. -/
def main (args : Args) (context : Surroundings) (file : Option (List UInt8)) :
    Option (List UInt8) × Except Failure Output :=
  match prepare X args context file with
  | .error failure => (file, .error failure)
  | .ok (authority, event) =>
    let written := some (appendEventLine file event)
    (written, do
      let after ← replayExisting X authority args.ledger written
      pure ⟨args.ledger, event.get "event_uuid", event.get "event_type", event.get "writer_role",
        event.get "previous_event_hash", event.get "event_hash", after.validEvents,
        after.validPrefixHash.map prefixed⟩)

end Writing

end PlatformGitops.Coordination
