import Mathlib.Data.List.Dedup
import Mathlib.Data.List.Sort
import PlatformGitops.EnumDrift.PairedPr

/-! The guard that compares the values of the canonical side with those of each mirror. -/

namespace PlatformGitops.EnumDrift

open Library Fallible

inductive Verdict
  | pass
  | fail
  | error
deriving DecidableEq, Repr

structure MirrorReport where
  side : MappingSide
  ref : Ref
  sha : String
  extracted : List String
  missingInMirror : List String
  missingInCanonical : List String
  duplicates : List String
deriving DecidableEq, Repr

structure CanonicalReport where
  side : MappingSide
  ref : Ref
  sha : String
  extracted : List String
  duplicates : List String
deriving DecidableEq, Repr

structure MappingReport where
  id : String
  verdict : Verdict
  canonical : Option CanonicalReport := none
  mirrors : List MirrorReport := []
  error : Option String := none
deriving DecidableEq, Repr

inductive Mode
  | paired
  | unpairedMain
deriving DecidableEq, Repr

structure Report where
  ownRepoRole : OwnRole
  pairing : Mode
  pairedPrUrl : Option String
  reciprocalPairing : Bool
  residualMainDriftRisk : Bool
  mappings : List MappingReport
deriving DecidableEq, Repr

structure Spec where
  schemaVersion : Int
  mappings : List Mapping
deriving DecidableEq, Repr

structure Args where
  ownRepo : String
  ownRole : OwnRole
  canonicalRef : Ref
  mirrorRef : Ref
  ownPrUrl : String
  prBody : String
  ownChangedPaths : Option (List String)
deriving DecidableEq, Repr

section Comparison

variable (X : Externals) (fetcher : Fetcher)

def sortedTexts (values : List String) : List String := values.insertionSort fun a b => a ≤ b

def findDuplicates (values : List String) : List String :=
  sortedTexts (values.dedup.filter fun v => 1 < values.count v)

/-- The difference of the sets, sorted. -/
def missing (values others : List String) : List String := sortedTexts (values.dedup.filter fun v => v ∉ others)

def fetchAndParse (side : MappingSide) (ref : Ref) : Except String (List String × String) :=
  match fetcher.getContents ⟨side.repo, side.path, ref⟩ with
  | .error e => .error e.message
  | .ok contents =>
    match X.parse side contents.text with
    | .error message => .error message
    | .ok extracted => .ok (extracted, contents.sha)

def mirrorReport (canonical : List String) (side : MappingSide) (ref : Ref) (fetched : List String × String) : MirrorReport where
  side := side
  ref := ref
  sha := fetched.2
  extracted := fetched.1
  missingInMirror := missing canonical fetched.1
  missingInCanonical := missing fetched.1 canonical
  duplicates := findDuplicates fetched.1

/-- The reports of the mirrors, up to the first that cannot be read. -/
def mirrorReports (canonical : List String) (ref : Ref) : List MappingSide → Except String (List MirrorReport)
  | [] => .ok []
  | side :: sides =>
    match fetchAndParse X fetcher side ref with
    | .error message => .error ("mirror " ++ side.symbol ++ ": " ++ message)
    | .ok fetched => do
      let reports ← mirrorReports canonical ref sides
      pure (mirrorReport canonical side ref fetched :: reports)

def MirrorReport.clean (r : MirrorReport) : Bool := r.missingInMirror = [] ∧ r.missingInCanonical = [] ∧ r.duplicates = []

def runMapping (mapping : Mapping) (canonicalRef mirrorRef : Ref) : MappingReport :=
  match fetchAndParse X fetcher mapping.canonical canonicalRef with
  | .error message => { id := mapping.id, verdict := .error, error := some message }
  | .ok (extracted, sha) =>
    let canonical : CanonicalReport := ⟨mapping.canonical, canonicalRef, sha, extracted, findDuplicates extracted⟩
    match mirrorReports X fetcher extracted mirrorRef mapping.mirrors with
    | .error message =>
      { id := mapping.id, verdict := .error, canonical := some canonical, error := some message }
    | .ok mirrors =>
      { id := mapping.id
        verdict := if mirrors.all (·.clean) ∧ canonical.duplicates = [] then .pass else .fail
        canonical := some canonical
        mirrors := mirrors }

end Comparison

section Pairing

def repoPair : String → Option String
  | "Halildeu/platform-backend" => some "Halildeu/platform-web"
  | "Halildeu/platform-web" => some "Halildeu/platform-backend"
  | _ => none

structure PairingFailure where
  mode : Mode
  pairedPrUrl : Option String
  message : String
  exitCode : Nat
deriving DecidableEq, Repr

structure PairingResolved where
  mode : Mode
  pairedPrUrl : Option String
  canonicalRef : Ref
  mirrorRef : Ref
  reciprocalPairing : Bool
deriving DecidableEq, Repr

variable (X : Externals) (fetcher : Fetcher) (args : Args)

def failed (mode : Mode) (url : Option String) {α : Type} (x : Except PairingError α) : Except PairingFailure α :=
  match x with
  | .ok a => .ok a
  | .error e => .error ⟨mode, url, e.message, e.exitCode⟩

/-- The canonical side is compared with the head of the paired pull request. -/
def pairedRefs (result : PairingResult) : Ref × Ref :=
  match args.ownRole with
  | .canonical => (args.canonicalRef, .commit result.pairedPull.headSha)
  | .mirror => (args.canonicalRef, args.mirrorRef)
  | .specHost => (args.canonicalRef, args.mirrorRef)

def resolvePaired (guarded : String → List String) (url : String) : Except PairingFailure PairingResolved :=
  match repoPair args.ownRepo with
  | none => .error ⟨.unpairedMain, some url, "own_repo " ++ X.repr args.ownRepo ++ " not in paired-repo registry", 2⟩
  | some other => do
    let result ← failed .unpairedMain (some url) (validatePairedPr X url args.ownRepo other args.ownPrUrl
      (match args.ownRole with | .specHost => none | _ => args.ownChangedPaths) guarded fetcher)
    failed .paired (some url) (checkCanonicalFirst args.ownRole result)
    pure ⟨.paired, some url, (pairedRefs args result).1, (pairedRefs args result).2, result.reciprocalPairing⟩

def resolvePairing (guarded : String → List String) : Except PairingFailure PairingResolved := do
  let pairedUrl ← failed .unpairedMain none (extractPairedPrUrl X args.prBody)
  match pairedUrl with
  | none => pure ⟨.unpairedMain, none, args.canonicalRef, args.mirrorRef, false⟩
  | some url =>
    -- An empty URL counts as none.
    if url = "" then pure ⟨.unpairedMain, none, args.canonicalRef, args.mirrorRef, false⟩
    else resolvePaired X fetcher args guarded url

end Pairing

section Main

variable (X : Externals) (fetcher : Fetcher) (args : Args)

def computeResidualMainDriftRisk (mode : Mode) (ownRole : OwnRole) : Bool := mode = .paired ∧ ownRole = .canonical

def Report.overallPass (r : Report) : Bool := r.mappings.all fun m => m.verdict = .pass

def failureReport (failure : PairingFailure) : Report where
  ownRepoRole := args.ownRole
  pairing := failure.mode
  pairedPrUrl := failure.pairedPrUrl
  reciprocalPairing := false
  residualMainDriftRisk := true
  mappings := [{ id := "__paired_pr__", verdict := .error, error := some failure.message }]

def mappingsReport (spec : Spec) (pairing : PairingResolved) : Report where
  ownRepoRole := args.ownRole
  pairing := pairing.mode
  pairedPrUrl := pairing.pairedPrUrl
  reciprocalPairing := pairing.reciprocalPairing
  residualMainDriftRisk := computeResidualMainDriftRisk pairing.mode args.ownRole
  mappings := spec.mappings.map fun m => runMapping X fetcher m pairing.canonicalRef pairing.mirrorRef

def exitCode (r : Report) : Nat :=
  if r.mappings.any fun m => m.verdict = .error then 2 else if r.overallPass then 0 else 1

/-- The exit code of a run and the report that it writes. `spec` is what loading and validating the spec gave. -/
def main (spec : Except String Spec) : Nat × Option Report :=
  match spec with
  | .error _ => (2, none)
  | .ok spec =>
    match resolvePairing X fetcher args (guardedPathsFromSpec spec.mappings) with
    | .error failure => (failure.exitCode, some (failureReport args failure))
    | .ok pairing => (exitCode (mappingsReport X fetcher args spec pairing), some (mappingsReport X fetcher args spec pairing))

end Main

end PlatformGitops.EnumDrift
