import Mathlib.Data.Prod.Lex
import Mathlib.Data.Rat.Floor
import Mathlib.Data.List.Sort
import PlatformGitops.Library.Fallible

/-! The script by which the server classifies the entries of a stream, page after page. -/

namespace PlatformGitops.PreEnable

open Library

inductive LuaNumber
  | finite (q : ℚ)
  | infinite (negative : Bool)
  | nan

/-- A byte of a Lua string is the character of its number; null is the light userdata by which the decoder writes
the null of a document. -/
inductive LuaValue
  | nil
  | null
  | boolean (b : Bool)
  | number (n : LuaNumber)
  | string (s : String)
  | table (fields : List (String × LuaValue))

inductive LuaError
  | attemptToIndex (type : String)
  | stillRunning

def sha1Re (value : String) : Bool :=
  value.length == 40 && value.toList.all fun c => "0123456789abcdef".toList.contains c

/-- What the server offers to the script: its JSON decoder, the spelling of numbers, and SHA-1 in lower-case hex. -/
structure Engine where
  decode : String → Option LuaValue
  tostring : LuaNumber → String
  sha1hex : String → String
  sha1hex_lower : ∀ s, sha1Re (sha1hex s) = true

namespace LuaValue

def truthy : LuaValue → Bool
  | nil | boolean false => false
  | _ => true

def isText (v : LuaValue) (s : String) : Bool :=
  match v with
  | string t => t == s
  | _ => false

def isNil : LuaValue → Bool
  | nil => true
  | _ => false

def isNull : LuaValue → Bool
  | null => true
  | _ => false

/-- The string library has no function of the one name that is looked up in a string here. -/
def index (v : LuaValue) (key : String) : Except LuaError LuaValue :=
  match v with
  | table fields => .ok ((fields.lookup key).getD nil)
  | string _ => .ok nil
  | nil => .error (.attemptToIndex "nil")
  | null => .error (.attemptToIndex "userdata")
  | boolean _ => .error (.attemptToIndex "boolean")
  | number _ => .error (.attemptToIndex "number")

def orNil (v : LuaValue) : LuaValue := if v.truthy then v else nil

/-- What a concatenation reads of a string. -/
def text : LuaValue → String
  | string s => s
  | _ => ""

end LuaValue

def lowerUuid (value : LuaValue) : Bool :=
  match value with
  | .string s =>
    let cs := s.toList
    cs.length == 36 && [8, 13, 18, 23].all (fun i => cs[i]? == some '-') &&
      (List.range 36).all (fun i => [8, 13, 18, 23].contains i ||
        cs[i]?.any (fun c => "0123456789abcdef".toList.contains c)) &&
      cs[14]?.any (fun c => "12345".toList.contains c) && cs[19]?.any (fun c => "89ab".toList.contains c)
  | _ => false

def positiveInteger (value : LuaValue) : Bool :=
  match value with
  | .number (.finite q) => decide (1 ≤ q) && decide ((⌊q⌋ : ℚ) = q)
  | .number (.infinite negative) => !negative
  | _ => false

abbrev EntryId := ℕ ×ₗ ℕ

def EntryId.text (id : EntryId) : String := toString (ofLex id).1 ++ "-" ++ toString (ofLex id).2

structure Entry where
  id : EntryId
  fields : List (String × String)

structure Group where
  name : String
  pending : ℕ
  consumers : ℕ
  lastDeliveredId : String
  entriesRead : Option ℤ
  lag : Option ℤ

/-- A stream of the server: its entries, in the strict order of their ids, and its consumer groups. -/
structure Stream where
  entries : List Entry
  ascending : entries.Pairwise (fun a b => a.id < b.id)
  maxDeletedEntryId : Option String
  groups : List Group

/-- The answer to XRANGE from the start of the stream, or from behind an id. -/
def Stream.xrange (s : Stream) (cursor : Option EntryId) (count : ℕ) : List Entry :=
  match cursor with
  | none => s.entries.take count
  | some id => (s.entries.filter (fun e => id < e.id)).take count

inductive Class
  | other
  | malformed
  | legacy
  | compatible (binding : String)
  deriving DecidableEq

def Class.label : Class → String
  | other => "other"
  | malformed => "malformed"
  | legacy => "legacy"
  | compatible _ => "compatible"

def Class.bindings : Class → List String
  | compatible binding => [binding]
  | _ => []

def readyType : String := "meeting.transcript.ready"

def bindingText (E : Engine) (tenant meeting session version run : LuaValue) : String :=
  let number := match version with
    | .number n => E.tostring n
    | _ => ""
  tenant.text ++ "|" ++ meeting.text ++ "|" ++ session.text ++ "|" ++ number ++ "|" ++ run.text

/-- The value of the last field of that name. -/
def lastValue (fields : List (String × String)) (name : String) : Option String :=
  fields.foldl (fun found field => if field.1 = name then some field.2 else found) none

def classifyReady (E : Engine) (decoded : LuaValue) : Except LuaError Class := do
  let schema ← decoded.index "schema"
  let run ← decoded.index "analysisRunId"
  if schema.isText "meeting.event.v1" && (run.isNil || run.isNull) then
    return .legacy
  let tenant ← decoded.index "tenantId"
  let meeting ← decoded.index "meetingId"
  let session ← decoded.index "transcriptSessionId"
  let version ← decoded.index "finalizationVersion"
  if schema.isText "meeting.event.v1" && lowerUuid run && lowerUuid tenant && lowerUuid meeting &&
      lowerUuid session && positiveInteger version then
    return .compatible (bindingText E tenant meeting session version run)
  return .malformed

def payloadType (decoded : LuaValue) : Except LuaError LuaValue :=
  if decoded.truthy then LuaValue.orNil <$> decoded.index "eventType" else .ok .nil

def classify (E : Engine) (outerType : Option String) (decoded : LuaValue) : Except LuaError Class := do
  let payloadType ← payloadType decoded
  if outerType == some readyType || payloadType.isText readyType then
    if !decoded.truthy || outerType != some readyType || !payloadType.isText readyType then
      return .malformed
    classifyReady E decoded
  else
    return .other

def Engine.decoded (E : Engine) (e : Entry) : LuaValue :=
  ((lastValue e.fields "payload").bind E.decode).getD .nil

def classOf (E : Engine) (e : Entry) : Except LuaError Class :=
  classify E (lastValue e.fields "eventType") (E.decoded e)

structure Scan where
  scanned : ℕ
  legacy : ℕ
  malformed : ℕ
  compatible : ℕ
  other : ℕ
  cursor : Option EntryId
  digest : String
  compatibleBindingSha1s : List String

def Scan.start : Scan := ⟨0, 0, 0, 0, 0, none, "0000000000000000000000000000000000000000", []⟩

def Scan.tally (E : Engine) (st : Scan) (c : Class) : Scan :=
  match c with
  | .other => { st with other := st.other + 1 }
  | .malformed => { st with malformed := st.malformed + 1 }
  | .legacy => { st with legacy := st.legacy + 1 }
  | .compatible binding =>
    { st with
      compatible := st.compatible + 1
      compatibleBindingSha1s := st.compatibleBindingSha1s ++ [E.sha1hex binding] }

def link (E : Engine) (digest : String) (e : Entry) (c : Class) : String :=
  E.sha1hex (digest ++ "|" ++ e.id.text ++ "|" ++ c.label)

def scanRow (E : Engine) (st : Scan) (row : Entry) : Except LuaError Scan := do
  let c ← classOf E row
  let st := st.tally E c
  return { st with digest := link E st.digest row c, scanned := st.scanned + 1, cursor := some row.id }

/-- The fuel is the length of the stream: each page that is not empty scans an entry. -/
def scanPages (E : Engine) (s : Stream) (maxEntries batchSize : ℕ) : ℕ → Scan → Except LuaError Scan
  | fuel, st =>
    if st.scanned < s.entries.length && st.scanned < maxEntries then
      let rows := s.xrange st.cursor (min batchSize (maxEntries - st.scanned))
      if rows.isEmpty then
        .ok st
      else
        match fuel with
        | 0 => .error .stillRunning
        | fuel + 1 => rows.foldlM (scanRow E) st >>= scanPages E s maxEntries batchSize fuel
    else
      .ok st

structure GroupReport where
  exists_ : Bool
  pending : ℕ
  consumers : ℕ
  lastDeliveredId : String
  entriesRead : ℤ
  lag : ℤ

def groupReport (groups : List Group) (target : String) : GroupReport :=
  groups.foldl (fun report item => if item.name = target then
      ⟨true, item.pending, item.consumers, item.lastDeliveredId, item.entriesRead.getD (-1), item.lag.getD (-1)⟩
    else report) ⟨false, 0, 0, "", -1, -1⟩

structure Summary where
  length : ℕ
  firstId : String
  lastId : String
  maxDeletedEntryId : String
  scanned : ℕ
  complete : Bool
  truncated : Bool
  legacyReadyV1 : ℕ
  malformedReady : ℕ
  compatibleReady : ℕ
  otherEvents : ℕ
  classificationDigestSha1 : String
  atomicMetadataStable : Bool
  group : GroupReport

structure Answer extends Summary where
  compatibleBindingSha1s : List String

/-- The whole script runs on one state of the stream. -/
def redisLua (E : Engine) (s : Stream) (target : String) (maxEntries batchSize : ℕ) : Except LuaError Answer := do
  let length := s.entries.length
  let st ← scanPages E s maxEntries batchSize length Scan.start
  return {
    length
    firstId := (s.entries.head?.map (·.id.text)).getD ""
    lastId := (s.entries.getLast?.map (·.id.text)).getD ""
    maxDeletedEntryId := s.maxDeletedEntryId.getD ""
    scanned := st.scanned
    complete := st.scanned == length
    truncated := decide (st.scanned < length)
    legacyReadyV1 := st.legacy
    malformedReady := st.malformed
    compatibleReady := st.compatible
    compatibleBindingSha1s := st.compatibleBindingSha1s.mergeSort (fun a b => decide (a ≤ b))
    otherEvents := st.other
    classificationDigestSha1 := st.digest
    atomicMetadataStable := s.entries.length == length
    group := groupReport s.groups target }

end PlatformGitops.PreEnable
