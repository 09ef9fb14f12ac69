import PlatformGitops.Coordination.SplitLines
import PlatformGitops.Library.Dict
import PlatformGitops.Library.KeptLines
import Mathlib

/-! The two scripts that read the images of an overlay line by line: the one that writes the digests of a map into it,
and the one that reads the map back. -/

namespace PlatformGitops.OverlayDigests

open Library
open Coordination (isBlank isLineEnd)

abbrev Text := List Char

/-- The services that are rolled out; the two scripts list the same. -/
def requiredServices : List Text :=
  ["auth-service", "permission-service", "user-service", "variant-service", "core-data-service", "report-service",
   "schema-service", "endpoint-admin-service", "audio-gateway-service", "meeting-service", "transcript-service",
   "audit-event-consumer-service", "api-gateway"].map String.toList

def syncServices : List Text := requiredServices

section Lines

def isTab (c : Char) : Bool := c = ' ' ∨ c = '\t'

/-- A line without its newline, in front of which `$` matches too. -/
def chomp (line : Text) : Text := if line.getLast? = some '\n' then line.dropLast else line

/-- `^[ \t]*-[ \t]+name:[ \t]*\S` -/
def isEntryStart (line : Text) : Bool :=
  match line.dropWhile isTab with
  | '-' :: rest =>
    rest.head?.any isTab ∧
      ((rest.dropWhile isTab).dropPrefix? "name:".toList).any fun name => (name.dropWhile isTab).head?.any (!isBlank ·)
  | _ => false

/-- `^[ \t]+key:[ \t]*`: the indentation, and what follows. -/
def field? (key line : Text) : Option (Text × Text) :=
  if line.takeWhile isTab = [] then none
  else
    ((line.dropWhile isTab).dropPrefix? (key ++ [':'])).map fun value => (line.takeWhile isTab, value.dropWhile isTab)

def isServiceChar (c : Char) : Bool := ('a' ≤ c ∧ c ≤ 'z') ∨ ('0' ≤ c ∧ c ≤ '9') ∨ c = '-'

/-- `([a-z0-9-]+)[ \t]*$` -/
def serviceName? (s : Text) : Option Text :=
  if s.takeWhile isServiceChar ≠ [] ∧ (s.dropWhile isServiceChar).all isTab then some (s.takeWhile isServiceChar) else none

def isOwnerChar (c : Char) : Bool := c ≠ '/' ∧ ¬isBlank c

/-- The service of an image under `ghcr.io/<owner>/platform-backend-`. -/
def imageService? (image : Text) : Option Text := do
  let path ← image.dropPrefix? "ghcr.io/".toList
  if path.takeWhile isOwnerChar = [] then none
  else ((path.dropWhile isOwnerChar).dropPrefix? "/platform-backend-".toList).bind serviceName?

def canonicalImage : Text := "ghcr.io/halildeu/platform-backend-".toList

def localImage : Text := "platform-test-registry:5000/platform-backend-".toList

/-- The service that a line `newName:` names, under any owner, the canonical one, or the local registry. -/
def newNameService? (line : Text) : Option Text := (field? "newName".toList line).bind fun p => imageService? p.2

def serviceUnder? (start line : Text) : Option Text :=
  (field? "newName".toList line).bind fun p => (p.2.dropPrefix? start).bind serviceName?

def canonicalService? (line : Text) : Option Text := serviceUnder? canonicalImage line

def localService? (line : Text) : Option Text := serviceUnder? localImage line

def isHexDigit (c : Char) : Bool := ('a' ≤ c ∧ c ≤ 'f') ∨ ('0' ≤ c ∧ c ≤ '9')

def isDigest (s : Text) : Bool := s.length = 71 ∧ s.take 7 = "sha256:".toList ∧ (s.drop 7).all isHexDigit

/-- The indentation and the digest of a line `digest:`. -/
def digestLine? (line : Text) : Option (Text × Text) :=
  (field? "digest".toList line).bind fun p =>
    if isDigest (p.2.take 71) ∧ (p.2.drop 71).all isTab then some (p.1, p.2.take 71) else none

/-- The digest of a map: `^sha256:[a-f0-9]{64}$`, which a newline may follow. -/
def isDigestValue (s : Text) : Bool := isDigest (chomp s)

def keptLines (text : Text) : List Text := Text.keepEnds isLineEnd text

end Lines

section Apply

structure Walk where
  found : Dict Text (ℕ × Text × Text) := []
  currentSvc : Option Text := none

def Walk.step (walk : Walk) (p : Text × ℕ) : Walk :=
  let line := chomp p.1
  if isEntryStart line then { walk with currentSvc := none }
  else
    match newNameService? line, walk.currentSvc with
    | some svc, _ => { walk with currentSvc := some svc }
    | none, none => walk
    | none, some svc =>
      match digestLine? line with
      | some (indent, digest) => ⟨walk.found.set svc (p.2, indent, digest), none⟩
      | none => walk

/-- The place, the indentation and the digest of each service's line. -/
def indexDigestLines (lines : List Text) : Dict Text (ℕ × Text × Text) := (lines.zipIdx.foldl Walk.step {}).found

structure Options where
  check : Bool := false
  failOnChange : Bool := false

structure Edit where
  lines : List Text
  errors : List Text := []
  changes : List (Text × Text × Text) := []

def digestText (indent digest : Text) : Text := indent ++ "digest: ".toList ++ digest

def Edit.service (digestLines : Dict Text (ℕ × Text × Text)) (digestMap : Dict Text Text) (edit : Edit) (svc : Text) : Edit :=
  match digestMap.get? svc with
  | none => edit
  | some newDigest =>
    if ¬isDigestValue newDigest then { edit with errors := edit.errors ++ [svc] }
    else
      match digestLines.get? svc with
      | none => { edit with errors := edit.errors ++ [svc] }
      | some (place, indent, oldDigest) =>
        if oldDigest = newDigest then edit
        else
          { edit with
            changes := edit.changes ++ [(svc, oldDigest, newDigest)]
            lines := edit.lines.set place (digestText indent newDigest ++ ['\n']) }

def editLines (digestMap : Dict Text Text) (lines : List Text) : Edit :=
  ((digestMap.map (·.1)).mergeSort fun a b => decide (a ≤ b)).foldl
    (Edit.service (indexDigestLines lines) digestMap) { lines := lines }

/-- How the script ends, and the file that it writes. -/
structure Outcome where
  exit : ℕ
  written : Option Text := none
deriving DecidableEq

local instance instLawfulBEqName : LawfulBEq Text := inferInstance

def applyDigests (options : Options) (digestMap : Dict Text Text) (file : Option Text) : Outcome :=
  if digestMap.any (·.1 ∉ syncServices) then { exit := 1 }
  else
    match file with
    | none => { exit := 1 }
    | some text =>
      if digestMap = [] then { exit := 0 }
      else
        let edit := editLines digestMap (keptLines (Text.universalNewlines text))
        if edit.errors ≠ [] then { exit := 1 }
        else if edit.changes = [] then { exit := 0 }
        else if options.check then { exit := if options.failOnChange then 1 else 0 }
        else { exit := 0, written := some edit.lines.flatten }

end Apply

section Inspect

variable (isWord : Char → Bool)

/-- `^[ \t]*#[ \t]*LOCAL-REGISTRY-EXCEPTION:[ \t]*gitops#[0-9]+\b` -/
def isException (line : Text) : Bool :=
  match line.dropWhile isTab with
  | '#' :: comment =>
    ((comment.dropWhile isTab).dropPrefix? "LOCAL-REGISTRY-EXCEPTION:".toList).any fun marker =>
      ((marker.dropWhile isTab).dropPrefix? "gitops#".toList).any fun issue =>
        issue.head?.any Char.isDigit ∧ (issue.dropWhile Char.isDigit).head?.all (!isWord ·)
  | _ => false

structure Inspection where
  found : Dict Text Text := []
  currentService : Option Text := none
  exceptionIssue : Bool := false

local instance instLawfulBEqService : LawfulBEq Text := inferInstance

/-- One line; none where the script fails. -/
def Inspection.step (s : Inspection) (line : Text) : Option Inspection :=
  if isEntryStart line then some { s with currentService := none, exceptionIssue := false }
  else if isException isWord line then some { s with exceptionIssue := true }
  else
    match canonicalService? line, localService? line, s.currentService with
    | some service, _, _ => some { s with currentService := some service }
    | none, some service, _ =>
      if service ∈ requiredServices ∧ ¬s.exceptionIssue then none else some { s with currentService := some service }
    | none, none, none => some s
    | none, none, some service =>
      match digestLine? line with
      | none => some s
      | some (_, digest) =>
        if service ∉ requiredServices then some { s with currentService := none }
        else if (s.found.get? service).isSome then none
        else some { s with found := s.found.set service digest, currentService := none }

def inspectOverlay (file : Option Text) : Option (Dict Text Text) := do
  let text ← file
  let lines := (keptLines (Text.universalNewlines text)).map fun line => line.takeWhile (!isLineEnd ·)
  let s ← lines.foldlM (Inspection.step isWord) {}
  requiredServices.mapM fun service => (s.found.get? service).map fun digest => (service, digest)

end Inspect

end PlatformGitops.OverlayDigests
