import PlatformGitops.Coordination.Replay
import PlatformGitops.Library.Dict
import PlatformGitops.Library.DictKey
import PlatformGitops.Library.Regex
import Mathlib.Algebra.Order.Ring.Rat
import Mathlib.Data.List.Dedup
import Mathlib.Data.List.Sort

/-! The gate on production promotions: the ledger has to show evidence for every digest that is new to production. -/

namespace PlatformGitops.Promotion

open Library
open Library.Regex (Pattern)
open Coordination (truthy orElse isBlank)

/-- An exception that ends the process. -/
inductive Raised where
  | raised
deriving DecidableEq, Repr

section Fields

/-- `get` with a default, of a value that has to be a mapping. -/
def getOr (v : Json) (key : String) (default : Json) : Except Raised Json :=
  match v with
  | .obj _ => .ok ((v.item? key).getD default)
  | _ => .error .raised

def isStr (s : String) (v : Json) : Bool := v.asStr? = some s

end Fields

section Policy

abbrev JwtValidates := Dict String Bool

/-- Why an entry is refused. -/
inductive Refusal where
  | smokeNull
  | tiersMalformed
  | tier (name : String) (status : Json)
  | zanzibar (status : Json) (required : Bool)
  | notVerified

def tierStatus (tiers : Json) (tierKey : String) : Json :=
  match tiers.get tierKey with
  | .obj fields => orElse (((Json.obj fields).item? "status").getD (.str "MISSING")) (.str "MISSING")
  | _ => .str "MISSING"

/-- Whether the service needs a green authorization tier; a list or a mapping has no policy. -/
def requiresZanzibar (jwtValidates : JwtValidates) : Json → Except Raised Bool
  | .str service => .ok ((jwtValidates.get? service).getD true)
  | .list _ | .obj _ => .error .raised
  | _ => .ok true

/-- The refusal of the tiers, if any. -/
def checkTiers (service tiers : Json) (jwtValidates : JwtValidates) : Except Raised (Option Refusal) :=
  match tiers with
  | .obj _ =>
    if ¬isStr "GREEN" (tierStatus tiers "d29_up") then .ok (some (.tier "d29_up" (tierStatus tiers "d29_up")))
    else if ¬isStr "GREEN" (tierStatus tiers "d29_functional") then
      .ok (some (.tier "d29_functional" (tierStatus tiers "d29_functional")))
    else do
      let required ← requiresZanzibar jwtValidates service
      let status := tierStatus tiers "d29_zanzibar"
      if isStr "GREEN" status ∨ (¬required ∧ isStr "AMBER" status) then pure none
      else pure (some (.zanzibar status required))
  | _ => .ok (some .tiersMalformed)

def testBlock (entry : Json) : Except Raised Json := do getOr (← getOr entry "promotion" (.obj [])) "test" (.obj [])

def checkEvidence (entry : Json) (jwtValidates : JwtValidates) : Except Raised (Option Refusal) := do
  let test ← testBlock entry
  let smoke ← getOr test "smoke_evidence" .null
  let service ← getOr entry "service" (.str "")
  if ¬truthy smoke then pure (some .smokeNull)
  else
    match ← checkTiers service smoke jwtValidates with
    | some refusal => pure (some refusal)
    | none => do
      let verifiedAt ← getOr test "verified_at" .null
      if truthy verifiedAt then pure none else pure (some .notVerified)

end Policy

section Ledger

/-- What is in a file: a text that cannot be decoded, one that is no JSON, or a value. -/
inductive Content where
  | undecodable
  | notJson
  | json (value : Json)

structure LedgerFile where
  path : String
  content : Content

/-- The value of a file, where it is JSON. -/
def readEntry (file : LedgerFile) : Except Raised (Option Json) :=
  match file.content with
  | .undecodable => .error .raised
  | .notJson => .ok none
  | .json value => .ok (some value)

def entryDigest (entry : Json) (default : Json) : Except Raised Json := do
  getOr (← getOr entry "image" (.obj [])) "digest" default

/-- The entry, where it carries the digest. -/
def matchingEntry (digest : String) (file : LedgerFile) : Except Raised (Option Json) := do
  match ← readEntry file with
  | none => pure none
  | some entry => do if isStr digest (← entryDigest entry .null) then pure (some entry) else pure none

/-- The entries that carry the digest, in the order of the files. -/
def findLedgerEntriesByDigest (digest : String) (files : List LedgerFile) : Except Raised (List Json) := do
  pure ((← files.mapM (matchingEntry digest)).filterMap id)

end Ledger

section Renders

def isHexDigit (c : Char) : Bool := ('0' ≤ c ∧ c ≤ '9') ∨ ('a' ≤ c ∧ c ≤ 'f')

def digestPattern : Pattern := .seq (.word ['s', 'h', 'a', '2', '5', '6', ':']) (.exactly isHexDigit 64)

/-- An image line; what is captured is its reference with the digest. -/
def imagePattern : Pattern :=
  .all [.word ['i', 'm', 'a', 'g', 'e', ':'], .many isBlank,
    .capture (.all [.oneOrMore (!isBlank ·), .char '@', digestPattern])]

/-- The reference before the last `@`, and the digest after it. -/
def splitReference (reference : List Char) : List Char × List Char :=
  let behind := (reference.reverse.takeWhile (· ≠ '@')).reverse
  (reference.take (reference.length - behind.length - 1), behind)

def ledgerRequiredPrefixes : List (List Char) := ["ghcr.io/halildeu/platform-".toList]

/-- The images of a rendered overlay, each with its digest. -/
def renderedImages (render : List Char) : List (List Char × List Char) :=
  (imagePattern.findIter 0 none render).map fun place => splitReference place.captured

def extractDigestsFromRender (render : List Char) : List String :=
  ((renderedImages render).filter fun image => ledgerRequiredPrefixes.any (·.isPrefixOf image.1)).map fun image =>
    String.ofList image.2

end Renders

section Gate

/-- What the gate reads besides the ledger; a render that failed is none. -/
structure GateInputs where
  changed : Option (List String)
  renderHead : Option (List Char)
  renderBase : Option (List Char)
  jwtValidates : JwtValidates

variable (inputs : GateInputs)

def prodOverlayChanged (changed : List String) : Bool :=
  changed.any fun path => path.toList.tails.any ("kustomize/overlays/prod/".toList.isPrefixOf ·)

def newDigests (renderHead renderBase : List Char) : List String :=
  (((extractDigestsFromRender renderHead).dedup).filter (· ∉ extractDigestsFromRender renderBase)).insertionSort (· ≤ ·)

/-- A digest fails without an entry, or if the first one is not verified. -/
def digestFails (files : List LedgerFile) (digest : String) : Except Raised Bool := do
  match ← findLedgerEntriesByDigest digest files with
  | [] => pure true
  | entry :: _ => do pure (← checkEvidence entry inputs.jwtValidates).isSome

def checkDigests (files : List LedgerFile) (digests : List String) : Except Raised ℕ := do
  let fails ← digests.mapM (digestFails inputs files)
  pure (if fails.any id then 1 else 0)

def mainEvidence (files : List LedgerFile) : Except Raised ℕ :=
  match inputs.changed with
  | none => .ok 2
  | some changed =>
    if prodOverlayChanged changed then
      match inputs.renderHead with
      | none => .ok 2
      | some renderHead => checkDigests inputs files (newDigests renderHead (inputs.renderBase.getD []))
    else .ok 0

/-- The status of the process. -/
def exitStatus : Except Raised ℕ → ℕ
  | .ok code => code
  | .error _ => 1

end Gate

section Lag

/-- A point in time, with an offset or without one. -/
inductive Moment where
  | aware (t : ℚ)
  | naive (t : ℚ)

/-- Whether the first is later; a moment with an offset and one without cannot be compared. -/
def Moment.later : Moment → Moment → Except Raised Bool
  | .aware a, .aware b => .ok (decide (b < a))
  | .naive a, .naive b => .ok (decide (b < a))
  | _, _ => .error .raised

/-- The readers of time stamps and of the numbers that floats stand for. -/
structure Readers where
  fromIsoFormat : String → Option Moment
  floatValue : String → ℚ

structure VerifiedRecord where
  path : String
  entry : Json
  verifiedAt : Moment
  digest : Json

variable (R : Readers) (jwtValidates : JwtValidates)

def parseIsoUtc (ts : Json) : Option Moment :=
  if truthy ts then
    match ts with
    | .str text => R.fromIsoFormat (text.replace "Z" "+00:00")
    | _ => none
  else none

/-- The record of a file, under its service, where it is verified and dated. -/
def verifiedRecord (file : LedgerFile) : Except Raised (Option (DictKey × VerifiedRecord)) := do
  match ← readEntry file with
  | none => pure none
  | some entry => do
    let svc ← getOr entry "service" (.str "")
    if ¬truthy svc then pure none
    else
      match parseIsoUtc R (← getOr (← testBlock entry) "verified_at" .null) with
      | none => pure none
      | some verifiedAt => do
        if (← checkEvidence entry jwtValidates).isSome then pure none
        else do
          let digest ← entryDigest entry (.str "")
          if ¬truthy digest then pure none
          else do
            let key ← Fallible.expect (DictKey.ofJson R.floatValue svc) .raised
            pure (some (key, ⟨file.path, entry, verifiedAt, digest⟩))

/-- The record replaces that of its service if it is later. -/
def keepLatest (latest : Dict DictKey VerifiedRecord) (p : DictKey × VerifiedRecord) : Except Raised (Dict DictKey VerifiedRecord) :=
  match latest.get? p.1 with
  | none => .ok (latest.set p.1 p.2)
  | some current => do pure (if ← p.2.verifiedAt.later current.verifiedAt then latest.set p.1 p.2 else latest)

def latestVerifiedPerService (files : List LedgerFile) : Except Raised (Dict DictKey VerifiedRecord) :=
  files.foldlM (fun latest file => do
    match ← verifiedRecord R jwtValidates file with
    | none => pure latest
    | some p => keepLatest latest p) []

/-- What the lag check reads besides the ledger: the digests in production, and the services in its scope. -/
structure LagInputs where
  prodDigests : Option (Dict String String)
  pipelineServices : List String
  now : ℚ
  lagDays : ℤ

/-- Whether a service lags behind what is verified for it. -/
def serviceLags (lag : LagInputs) (prodDigests : Dict String String) (latest : Dict DictKey VerifiedRecord) (svc : String) :
    Except Raised Bool :=
  match latest.get? (.text svc) with
  | none => .ok false
  | some record =>
    match record.verifiedAt with
    | .naive _ => .error .raised
    | .aware t =>
      .ok (¬(prodDigests.get? svc).any (isStr · record.digest) ∧ t < lag.now - 86400 * lag.lagDays)

def checkPromotionLag (lag : LagInputs) (files : List LedgerFile) : Except Raised ℕ :=
  match lag.prodDigests with
  | none => .ok 2
  | some prodDigests =>
    if jwtValidates = [] ∨ lag.pipelineServices = [] then .ok 2
    else do
      let latest ← latestVerifiedPerService R jwtValidates files
      let lags ← lag.pipelineServices.mapM (serviceLags lag prodDigests latest)
      pure (if lags.any id then 1 else 0)

end Lag

end PlatformGitops.Promotion
