import PlatformGitops.Library.Fallible

/-! The protocol by which a pull request names the one on the other side. -/

namespace PlatformGitops.EnumDrift

open Library Fallible

inductive Ref
  | main
  | commit (sha : String)
deriving DecidableEq, Repr

structure ContentsKey where
  repo : String
  path : String
  ref : Ref
deriving DecidableEq, Repr

structure ContentsResult where
  text : String
  sha : String
deriving DecidableEq, Repr

structure PullKey where
  repo : String
  number : Nat
deriving DecidableEq, Repr

inductive PullState
  | opened
  | closed
deriving DecidableEq, Repr

structure PullResult where
  state : PullState
  mergedAt : Option String
  body : String
  headSha : String
  baseRef : String
deriving DecidableEq, Repr

structure FetchError where
  message : String
deriving DecidableEq, Repr

def FetchError.exitCode (_ : FetchError) : Nat := 2

/-- The answers of one process. What it has asked for once it does not ask again. -/
structure Fetcher where
  getContents : ContentsKey → Except FetchError ContentsResult
  getPull : PullKey → Except FetchError PullResult
  fetchChangedPaths : PullKey → Except String (List String)

structure MappingSide where
  repo : String
  path : String
  kind : String
  symbol : String
  anchor : Option String
deriving DecidableEq, Repr

structure Mapping where
  id : String
  canonical : MappingSide
  mirrors : List MappingSide
deriving DecidableEq, Repr

inductive OwnRole
  | canonical
  | mirror
  | specHost
deriving DecidableEq, Repr

/-- What `re` finds for the X of the protocol, `strip` and `repr` of a text, and the values that the parsers find in
a file. -/
structure Externals where
  pairedPrBlocks : String → List String
  pairedPrUrls : String → List String
  prUrl : String → Option PullKey
  strip : String → String
  repr : String → String
  parse : MappingSide → String → Except String (List String)

structure PairingResult where
  pairedPrUrl : String
  pairedPull : PullResult
  reciprocalPairing : Bool

/-- A refusal to pair, with the exit code that it leads to. -/
structure PairingError where
  message : String
  exitCode : Nat
deriving DecidableEq, Repr

def pairingError {α : Type} (message : String) : Except PairingError α := .error ⟨message, 2⟩

variable (X : Externals)

def extractPairedPrUrl (body : String) : Except PairingError (Option String) :=
  let blocks := X.pairedPrBlocks body
  if blocks = [] then .ok none
  else
    match blocks.flatMap X.pairedPrUrls with
    | [] => pairingError "cross-repo-enum-drift:paired-pr block present but no paired_pr_url line"
    | [url] => .ok (some url)
    | urls => pairingError ("multiple paired_pr_url entries (across " ++ toString blocks.length ++
        " fenced block(s)) — paired-PR protocol expects exactly one per PR; found " ++ toString urls.length)

def parsePrUrl (url : String) : Except PairingError PullKey :=
  match X.prUrl (X.strip url) with
  | some key => .ok key
  | none => pairingError ("paired_pr_url does not match GitHub PR URL shape: " ++ X.repr url)

def guardedPathsFromSpec (mappings : List Mapping) (repo : String) : List String :=
  (mappings.flatMap fun m => m.canonical :: m.mirrors).filterMap fun side =>
    if side.repo = repo then some side.path else none

def rstripSlash (s : String) : String := String.ofList (s.toList.reverse.dropWhile (· = '/')).reverse

def reciprocal (body ownPrUrl : String) : Bool :=
  match extractPairedPrUrl X body with
  | .ok (some url) => url ≠ "" ∧ rstripSlash (X.strip url) = rstripSlash (X.strip ownPrUrl)
  | _ => false

def disjoint (xs ys : List String) : Bool := xs.all fun x => x ∉ ys

def liftFetch {α : Type} : Except FetchError α → Except PairingError α
  | .ok a => .ok a
  | .error e => .error ⟨e.message, e.exitCode⟩

def liftPairing {α : Type} : Except String α → Except PairingError α
  | .ok a => .ok a
  | .error message => pairingError message

def checkOwnPaths (ownRepo : String) (ownChangedPaths : Option (List String)) (guarded : String → List String) :
    Except PairingError Unit :=
  match ownChangedPaths with
  | none => .ok ()
  | some changed => rejectIf (disjoint changed (guarded ownRepo) = true)
      ⟨"current PR does not touch any guarded path for " ++ X.repr ownRepo ++
        "; remove paired_pr_url or open the actual paired mutation", 2⟩

def validatePairedPr (pairedUrl ownRepo expectedOtherRepo ownPrUrl : String) (ownChangedPaths : Option (List String))
    (guarded : String → List String) (fetcher : Fetcher) : Except PairingError PairingResult := do
  let key ← parsePrUrl X pairedUrl
  rejectIf (key.repo = ownRepo)
    ⟨"paired PR repo mismatch: paired URL points to own repo " ++ X.repr ownRepo ++ "; expected opposite side " ++
      X.repr expectedOtherRepo, 2⟩
  rejectIf (key.repo ≠ expectedOtherRepo)
    ⟨"paired PR repo mismatch: paired URL is in " ++ X.repr key.repo ++ "; expected " ++ X.repr expectedOtherRepo, 2⟩
  let paired ← liftFetch (fetcher.getPull key)
  rejectIf (paired.baseRef ≠ "main")
    ⟨"paired PR base must be main; got " ++ X.repr paired.baseRef ++ " for " ++ pairedUrl, 2⟩
  let changed ← liftPairing (fetcher.fetchChangedPaths key)
  rejectIf (disjoint changed (guarded key.repo) = true)
    ⟨"paired PR " ++ pairedUrl ++ " does not touch any guarded path for " ++ X.repr key.repo ++
      "; paired-PR protocol requires both sides to mutate a guarded mapping", 2⟩
  checkOwnPaths X ownRepo ownChangedPaths guarded
  pure ⟨pairedUrl, paired, reciprocal X paired.body ownPrUrl⟩

/-- A violation of the merge order ends the run with 1. -/
def mergeOrderViolation (message : String) : Except PairingError Unit := .error ⟨message, 1⟩

def checkCanonicalFirst (ownRole : OwnRole) (paired : PairingResult) : Except PairingError Unit :=
  match ownRole, paired.pairedPull.state, paired.pairedPull.mergedAt with
  | .specHost, _, _ => .ok ()
  | .canonical, .closed, none =>
    mergeOrderViolation ("paired mirror PR closed without merge (" ++ paired.pairedPrUrl ++
      "); reopen or remove paired_pr_url")
  | .canonical, .closed, some _ =>
    mergeOrderViolation ("paired mirror PR already merged (" ++ paired.pairedPrUrl ++
      ") but canonical still open — canonical-first invariant violated; mirror landed first")
  | .canonical, .opened, _ => .ok ()
  | .mirror, .opened, _ =>
    mergeOrderViolation ("canonical PR " ++ paired.pairedPrUrl ++
      " must merge first; current canonical main lacks the new value-set")
  | .mirror, .closed, none =>
    mergeOrderViolation ("paired canonical PR closed without merge (" ++ paired.pairedPrUrl ++
      "); remove paired_pr_url or reopen")
  | .mirror, .closed, some _ => .ok ()

end PlatformGitops.EnumDrift
