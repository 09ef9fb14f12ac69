import PlatformGitops.Library.Fallible
import PlatformGitops.Library.Json

/-! What a call can fail with, what the code takes from its environment, and its timestamps. -/

namespace PlatformGitops.CrossAi

open Library

structure PolicyError where
  code : String
  message : String
deriving DecidableEq, Repr

inductive Failure where
  | policy (error : PolicyError)
  | integrityError
  | keyError (key : String)
  | unavailable
deriving DecidableEq, Repr

def policyError (code message : String) : Failure := .policy ⟨code, message⟩

def reject {α : Type} (code message : String) : Except Failure α := .error (policyError code message)

def rejectIf (bad : Prop) [Decidable bad] (code message : String) : Except Failure Unit :=
  Fallible.rejectIf bad (policyError code message)

def expect {α : Type} (x : Option α) (code message : String) : Except Failure α :=
  Fallible.expect x (policyError code message)

@[simp] lemma reject_ne_ok {α : Type} {code message : String} {a : α} :
    (reject code message : Except Failure α) = .ok a ↔ False := by
  simp [reject]

@[simp] lemma rejectIf_eq_ok {bad : Prop} [Decidable bad] {code message : String} {u : Unit} :
    rejectIf bad code message = .ok u ↔ ¬ bad :=
  Fallible.rejectIf_eq_ok

@[simp] lemma expect_eq_ok {α : Type} {x : Option α} {code message : String} {a : α} :
    expect x code message = .ok a ↔ x = some a :=
  Fallible.expect_eq_ok

/-- An instant in microseconds since the epoch, as an aware UTC datetime holds it. -/
abbrev Datetime := Int

def second : Int := 1000000
def minute : Int := 60 * second

/-- A stored timestamp: whole seconds since the epoch. Its text has a fixed width, so that the
order of the texts is the order of the instants. -/
structure Stamp where
  seconds : Int
deriving DecidableEq, Repr

def utcSeconds (value : Datetime) : Stamp := ⟨value / second⟩

def Stamp.instant (s : Stamp) : Datetime := s.seconds * second

def pad2 (n : Int) : String := if n < 10 then "0" ++ toString n else toString n

/-- Year, month and day of a day number counted from the epoch. -/
def civil (days : Int) : Int × Int × Int :=
  let z := days + 719468
  let era := z / 146097
  let doe := z % 146097
  let yoe := (doe - doe / 1460 + doe / 36524 - doe / 146096) / 365
  let doy := doe - (365 * yoe + yoe / 4 - yoe / 100)
  let mp := (5 * doy + 2) / 153
  let month := if mp < 10 then mp + 3 else mp - 9
  (yoe + era * 400 + (if month ≤ 2 then 1 else 0), month, doy - (153 * mp + 2) / 5 + 1)

def Stamp.text (s : Stamp) : String :=
  let date := civil (s.seconds / 86400)
  let time := s.seconds % 86400
  toString date.1 ++ "-" ++ pad2 date.2.1 ++ "-" ++ pad2 date.2.2 ++ "T" ++ pad2 (time / 3600) ++ ":" ++
    pad2 (time / 60 % 60) ++ ":" ++ pad2 (time % 60) ++ "Z"

example : (utcSeconds (1784232000 * second + 999999)).text = "2026-07-16T20:00:00Z" := by decide

/-- The result of parsing an ISO 8601 text: its instant and, when it names a zone, its offset. -/
structure IsoDatetime where
  instant : Datetime
  utcoffset : Option Int

inductive Schema where
  | bundle | review | trustRoot | bundleV2 | reviewV2 | trustRootV2 | revocations | runnerAdmissionLease
  | stageEvidence | stageOutcome
deriving DecidableEq, Repr

/-- The functions of libraries outside the repository, and of the language's own library, that the
code computes with. -/
structure Externals where
  sha256 : List UInt8 → String
  fromisoformat : String → Option IsoDatetime
  b64decode : String → Option (List UInt8)
  jsonLoads : List UInt8 → Option Json
  ed25519Verify : List UInt8 → List UInt8 → List UInt8 → Bool
  schemaValid : Schema → Json → Bool

def endsWithZ (s : String) : Bool := s.toList.getLast? = some 'Z'

def parseUtc (X : Externals) (value : Json) (field : String) : Except Failure Datetime :=
  let invalid : Except Failure Datetime :=
    reject "TIMESTAMP_INVALID" (field ++ " must be an RFC3339 UTC Z timestamp")
  match value with
  | .str s =>
    if endsWithZ s then
      match X.fromisoformat (String.ofList s.toList.dropLast ++ "+00:00") with
      | some parsed =>
        if parsed.utcoffset = some 0 then .ok parsed.instant
        else reject "TIMESTAMP_INVALID" (field ++ " must use UTC")
      | none => invalid
    else invalid
  | _ => invalid

end PlatformGitops.CrossAi
