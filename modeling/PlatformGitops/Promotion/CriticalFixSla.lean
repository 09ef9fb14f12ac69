import PlatformGitops.Coordination.Replay
import PlatformGitops.Library.Regex
import Mathlib.Algebra.Order.Ring.Rat

/-! Which deploy run is taken for the one that brought a critical fix to production. -/

namespace PlatformGitops.Promotion

open Library
open Library.Regex (Pattern)
open Coordination (orElse isBlank)

section Calls

/-- A command raises, exits with another status than zero, or hands something over. -/
inductive Reply (α : Type) where
  | raised
  | failed
  | done (a : α)

inductive MonitorError where
  | ghError
  | raised
deriving DecidableEq, Repr

/-- `createdAt` is none where it is missing or cannot be read. -/
structure DeployRun where
  databaseId : ℕ
  createdAt : Option ℚ
  headSha : String

/-- What the commands answer while one run is looked at: the files of the download, each with what it parses to; the
log; and the calls of git, of which each has a number. -/
structure RunCalls where
  download : Reply (List (Option Json))
  log : Reply (List Char)
  mergeBase : ℕ → String → String → Reply Unit

end Calls

section Log

/-- The letter in either case, with the signs that folding takes for it. -/
def anyCase (c : Char) (d : Char) : Bool :=
  d = c ∨ d = c.toUpper ∨ (c = 's' ∧ d = Char.ofNat 0x17F) ∨ (c = 'k' ∧ d = Char.ofNat 0x212A)

def wordAnyCase : List Char → Pattern
  | [] => .empty
  | c :: cs => .seq (.chars (anyCase c)) (wordAnyCase cs)

def isHexChar (c : Char) : Bool := ('0' ≤ c ∧ c ≤ '9') ∨ ('a' ≤ c ∧ c ≤ 'f') ∨ ('A' ≤ c ∧ c ≤ 'F')

def shaPattern : Pattern := .capture (.seq (.exactly isHexChar 7) (.upTo isHexChar 33))

def lineStart : Pattern := .look fun before _ => before = none ∨ before = some '\n'

def lineEnd : Pattern := .look fun _ after => after = none ∨ after = some '\n'

variable (isWordChar : Char → Bool)

def argocdPattern : Pattern :=
  .all [wordAnyCase ['a', 'r', 'g', 'o', 'c', 'd'], .oneOrMore isBlank, wordAnyCase ['a', 'p', 'p'], .oneOrMore isBlank,
    wordAnyCase ['s', 'y', 'n', 'c'], .boundary isWordChar, .many (· ≠ '\n'),
    wordAnyCase ['-', '-', 'r', 'e', 'v', 'i', 's', 'i', 'o', 'n'], .oneOrMore isBlank, shaPattern]

def summaryPattern : Pattern :=
  .all [lineStart, .many isBlank, wordAnyCase ['r', 'e', 'v', 'i', 's', 'i', 'o', 'n', ':'], .many isBlank, shaPattern,
    .many isBlank, lineEnd]

def outputPattern : Pattern :=
  .all [.boundary isWordChar, wordAnyCase ['r', 'e', 'v', 'i', 's', 'i', 'o', 'n', '='], shaPattern, .boundary isWordChar]

def revisionPatterns : List Pattern := [argocdPattern isWordChar, summaryPattern, outputPattern isWordChar]

/-- The revisions that a log names, those of the first pattern first. -/
def revisionsFromLog (log : List Char) : List String :=
  (revisionPatterns isWordChar).flatMap fun pattern => (pattern.findIter 0 none log).map fun place => String.ofList place.captured

end Log

section Correlation

variable (isWordChar : Char → Bool)

/-- A result that is not there and one that could not be fetched are both none. -/
def fetchRunArtifact (download : Reply (List (Option Json))) : Except MonitorError (Option Json) :=
  match download with
  | .raised => .error .raised
  | .failed => .ok none
  | .done [] => .ok none
  | .done (none :: _) => .ok none
  | .done (some .null :: _) => .ok none
  | .done (some payload :: _) => .ok (some payload)

def fetchRunLog (log : Reply (List Char)) : Except MonitorError (List Char) :=
  match log with
  | .raised => .error .raised
  | .failed => .ok []
  | .done text => .ok text

def isAncestor (mergeBase : String → String → Reply Unit) (mergeSha revision : String) : Except MonitorError Bool :=
  if mergeSha = "" ∨ revision = "" then .ok false
  else if mergeSha = revision then .ok true
  else
    match mergeBase mergeSha revision with
    | .raised => .error .raised
    | .failed => .ok false
    | .done () => .ok true

/-- The verdict of a structured result; a revision that is no text cannot be handed to git. -/
def artifactMatches (calls : RunCalls) (mergeSha : String) (artifact : Json) : Except MonitorError Bool :=
  match artifact with
  | .obj _ =>
    if (artifact.get "conclusion").asStr? = some "success" then
      match orElse (artifact.get "revision") (.str "") with
      | .str revision => isAncestor (calls.mergeBase 0) mergeSha revision
      | _ => if mergeSha = "" then .ok false else .error .raised
    else .ok false
  | _ => .error .raised

def anyRevision (calls : RunCalls) (mergeSha : String) : ℕ → List String → Except MonitorError Bool
  | _, [] => .ok false
  | k, revision :: revisions => do
    if ← isAncestor (calls.mergeBase k) mergeSha revision then pure true else anyRevision calls mergeSha (k + 1) revisions

def runMatches (calls : RunCalls) (mergeSha : String) (run : DeployRun) : Except MonitorError Bool := do
  match ← fetchRunArtifact calls.download with
  | some artifact => artifactMatches calls mergeSha artifact
  | none =>
    match revisionsFromLog isWordChar (← fetchRunLog calls.log) with
    | [] => if run.headSha = "" then pure false else isAncestor (calls.mergeBase 0) mergeSha run.headSha
    | revision :: revisions => anyRevision calls mergeSha 0 (revision :: revisions)

/-- The first run after the merge that is taken for a deployment of it; `calls` numbers the runs. -/
def firstMatch (calls : ℕ → RunCalls) (mergeSha : String) (mergedAt : ℚ) :
    ℕ → List DeployRun → Except MonitorError (Option DeployRun)
  | _, [] => .ok none
  | i, run :: runs => do
    if run.createdAt.any (mergedAt < ·) then
      if ← runMatches isWordChar (calls i) mergeSha run then pure (some run) else firstMatch calls mergeSha mergedAt (i + 1) runs
    else firstMatch calls mergeSha mergedAt (i + 1) runs

def findSuccessfulDeploy (listed : Reply (List DeployRun)) (calls : ℕ → RunCalls) (mergeSha : String) (mergedAt : ℚ) :
    Except MonitorError (Option DeployRun) :=
  match listed with
  | .raised => .error .raised
  | .failed => .error .ghError
  | .done runs => firstMatch isWordChar calls mergeSha mergedAt 0 runs

end Correlation

section Authority

/-- Which revisions contain which commits. -/
structure History where
  contains : String → String → Prop
  self : ∀ sha, contains sha sha

/-- Git only answers yes for a revision that contains the commit. -/
def GitTells (history : History) (calls : ℕ → RunCalls) : Prop :=
  ∀ i k mergeSha revision, (calls i).mergeBase k mergeSha revision = .done () → history.contains revision mergeSha

/-- A download hands over the result that the run has left, if any. -/
def DownloadsArtifacts (artifacts : ℕ → Option Json) (calls : ℕ → RunCalls) : Prop :=
  ∀ i files, (calls i).download = .done files → ∃ artifact, artifacts i = some artifact ∧ files = [some artifact]

/-- The result says that the run succeeded and deployed a revision with the commit. -/
def SaysDeployed (history : History) (mergeSha : String) (artifact : Json) : Prop :=
  artifact.get "conclusion" = .str "success" ∧
    ∃ revision, artifact.get "revision" = .str revision ∧ history.contains revision mergeSha

/-- The revision that a run without a readable result is judged by. -/
def FallsBack (isWordChar : Char → Bool) (history : History) (mergeSha : String) (log : Reply (List Char)) (run : DeployRun) : Prop :=
  ∃ text, fetchRunLog log = .ok text ∧
    ((revisionsFromLog isWordChar text = [] ∧ history.contains run.headSha mergeSha) ∨
      ∃ revision ∈ revisionsFromLog isWordChar text, history.contains revision mergeSha)

variable {isWordChar : Char → Bool} {history : History} {calls : ℕ → RunCalls} {mergeSha revision : String} {mergedAt : ℚ}
  {runs : List DeployRun} {run : DeployRun} {artifact : Json} {i k : ℕ}

lemma isAncestor_true (hgit : GitTells history calls) (h : isAncestor ((calls i).mergeBase k) mergeSha revision = .ok true) :
    history.contains revision mergeSha := by
  unfold isAncestor at h
  split at h
  · cases h
  · split at h
    · rename_i heq
      exact heq ▸ history.self mergeSha
    · split at h
      · cases h
      · cases h
      · rename_i hdone
        exact hgit i k mergeSha revision hdone

lemma artifactMatches_true (hgit : GitTells history calls) (h : artifactMatches (calls i) mergeSha artifact = .ok true) :
    SaysDeployed history mergeSha artifact := by
  unfold artifactMatches at h
  split at h
  · split at h
    · rename_i fields hsuccess
      refine ⟨?_, ?_⟩
      · cases hget : (Json.obj fields).get "conclusion" with
        | str s =>
          rw [hget] at hsuccess
          rw [Option.some.inj hsuccess]
        | _ =>
          rw [hget] at hsuccess
          cases hsuccess
      · split at h
        · rename_i revision hrevision
          refine ⟨revision, ?_, isAncestor_true hgit h⟩
          rw [orElse] at hrevision
          split at hrevision
          · exact hrevision
          · cases hrevision
            rw [isAncestor, if_pos (Or.inr rfl)] at h
            cases h
        · split at h
          · cases h
          · cases h
    · cases h
  · cases h

lemma anyRevision_true (hgit : GitTells history calls) {revisions : List String}
    (h : anyRevision (calls i) mergeSha k revisions = .ok true) : ∃ revision ∈ revisions, history.contains revision mergeSha := by
  induction revisions generalizing k with
  | nil => cases h
  | cons revision revisions ih =>
    obtain ⟨ancestor, hancestor, h⟩ := Fallible.bind_eq_ok.mp h
    cases ancestor with
    | true => exact ⟨revision, List.mem_cons_self, isAncestor_true hgit hancestor⟩
    | false =>
      obtain ⟨other, hother, hcontains⟩ := ih h
      exact ⟨other, List.mem_cons_of_mem _ hother, hcontains⟩

/-- What a run has shown that is taken: its result where that can be read, and else its log or its head. -/
def Shown (isWordChar : Char → Bool) (history : History) (mergeSha : String) (calls : RunCalls) (run : DeployRun) : Prop :=
  ∃ read, fetchRunArtifact calls.download = .ok read ∧
    match read with
    | some artifact => SaysDeployed history mergeSha artifact
    | none => FallsBack isWordChar history mergeSha calls.log run

lemma runMatches_true (hgit : GitTells history calls) (h : runMatches isWordChar (calls i) mergeSha run = .ok true) :
    Shown isWordChar history mergeSha (calls i) run := by
  obtain ⟨read, hread, h⟩ := Fallible.bind_eq_ok.mp h
  refine ⟨read, hread, ?_⟩
  cases read with
  | some artifact => exact artifactMatches_true hgit h
  | none =>
    obtain ⟨text, htext, h⟩ := Fallible.bind_eq_ok.mp h
    refine ⟨text, htext, ?_⟩
    split at h
    · rename_i hempty
      split at h
      · cases h
      · exact Or.inl ⟨hempty, isAncestor_true hgit h⟩
    · rename_i revision revisions hrevisions
      rw [hrevisions]
      exact Or.inr (anyRevision_true hgit h)

/-- Where the search stops, it stops at a run after the merge that has shown the deployment. -/
lemma firstMatch_some (hgit : GitTells history calls) (h : firstMatch isWordChar calls mergeSha mergedAt k runs = .ok (some run)) :
    ∃ i, runs[i]? = some run ∧ (∃ created, run.createdAt = some created ∧ mergedAt < created) ∧
      Shown isWordChar history mergeSha (calls (k + i)) run := by
  induction runs generalizing k with
  | nil => cases h
  | cons first runs ih =>
    have hlater : firstMatch isWordChar calls mergeSha mergedAt (k + 1) runs = .ok (some run) → ∃ i,
        (first :: runs)[i]? = some run ∧ (∃ created, run.createdAt = some created ∧ mergedAt < created) ∧
          Shown isWordChar history mergeSha (calls (k + i)) run := by
      intro hrest
      obtain ⟨i, hi, hcreated, hshown⟩ := ih hrest
      refine ⟨i + 1, hi, hcreated, ?_⟩
      rwa [show k + (i + 1) = k + 1 + i by omega]
    rw [firstMatch] at h
    split at h
    · rename_i hafter
      obtain ⟨taken, htaken, h⟩ := Fallible.bind_eq_ok.mp h
      cases taken with
      | true =>
        cases Fallible.pure_eq_ok.mp h
        refine ⟨0, rfl, ?_, runMatches_true hgit htaken⟩
        simpa [Option.any_eq_true] using hafter
      | false => exact hlater h
    · exact hlater h

/-- A run that is taken has shown the deployment in its structured result, wherever that could be fetched and read. -/
theorem read_result_authoritative (isWordChar : Char → Bool) (history : History) (listed : Reply (List DeployRun))
    (calls : ℕ → RunCalls) (mergeSha : String) (mergedAt : ℚ) (run : DeployRun) (hgit : GitTells history calls)
    (h : findSuccessfulDeploy isWordChar listed calls mergeSha mergedAt = .ok (some run)) :
    ∃ runs i, listed = .done runs ∧ runs[i]? = some run ∧ (∃ created, run.createdAt = some created ∧ mergedAt < created) ∧
      Shown isWordChar history mergeSha (calls i) run := by
  unfold findSuccessfulDeploy at h
  split at h
  · cases h
  · cases h
  · rename_i runs
    obtain ⟨i, hi, hcreated, hshown⟩ := firstMatch_some hgit h
    rw [Nat.zero_add] at hshown
    exact ⟨runs, i, rfl, hi, hcreated, hshown⟩

def sampleHistory : History := ⟨fun revision sha => revision = sha, fun _ => rfl⟩

def deployedResult (revision : String) : Json := .obj [("revision", .str revision), ("conclusion", .str "success")]

def sampleRun : DeployRun := ⟨1, some 1, "fix"⟩

/-- A run whose result says that the fix was deployed. -/
theorem read_result_authoritative_success :
    let calls : ℕ → RunCalls := fun _ => ⟨.done [some (deployedResult "fix")], .failed, fun _ _ _ => .failed⟩
    (GitTells sampleHistory calls ∧
        findSuccessfulDeploy Char.isAlphanum (.done [sampleRun]) calls "fix" 0 = .ok (some sampleRun)) ∧
      ∃ runs i, .done [sampleRun] = Reply.done runs ∧ runs[i]? = some sampleRun ∧
        (∃ created, sampleRun.createdAt = some created ∧ (0 : ℚ) < created) ∧
          Shown Char.isAlphanum sampleHistory "fix" (calls i) sampleRun := by
  intro calls
  have hgit : GitTells sampleHistory calls := by
    rintro i k mergeSha revision ⟨⟩
  have hfound : findSuccessfulDeploy Char.isAlphanum (.done [sampleRun]) calls "fix" 0 = .ok (some sampleRun) := by rfl
  exact ⟨⟨hgit, hfound⟩, read_result_authoritative _ _ _ _ _ _ _ hgit hfound⟩

/-- A run that rolled the fix back is taken where the download of its result fails. -/
theorem rollback_taken_without_result :
    ¬∀ (isWordChar : Char → Bool) (history : History) (runs : List DeployRun) (calls : ℕ → RunCalls)
      (artifacts : ℕ → Option Json) (mergeSha : String) (mergedAt : ℚ) (run : DeployRun),
      GitTells history calls → DownloadsArtifacts artifacts calls →
        findSuccessfulDeploy isWordChar (.done runs) calls mergeSha mergedAt = .ok (some run) →
          ∃ i, runs[i]? = some run ∧ ∀ artifact, artifacts i = some artifact → SaysDeployed history mergeSha artifact := by
  intro h
  let calls : ℕ → RunCalls := fun _ => ⟨.failed, .failed, fun _ _ _ => .failed⟩
  have hfound : findSuccessfulDeploy Char.isAlphanum (.done [sampleRun]) calls "fix" 0 = .ok (some sampleRun) := by rfl
  obtain ⟨i, -, hsays⟩ := h Char.isAlphanum sampleHistory [sampleRun] calls (fun _ => some (deployedResult "before")) "fix" 0
    sampleRun (by rintro i k mergeSha revision ⟨⟩) (by rintro i files ⟨⟩) hfound
  obtain ⟨-, revision, hrevision, hcontains⟩ := hsays _ rfl
  cases hrevision
  have hsame : "before" = "fix" := hcontains
  exact absurd hsame (by decide)

end Authority

end PlatformGitops.Promotion
