import PlatformGitops.Coordination.Append
import PlatformGitops.Coordination.AppendCas
import Mathlib.Logic.Function.Basic

/-! Runs of the branch writer against one remote branch, on any hosts and interleaved anywhere. -/

namespace PlatformGitops.Coordination

open Library

/-- The ledger file in the tree of a commit, if there is one. -/
abbrev Blob := Option (List UInt8)

/-- The file that a run commits in its working copy. A file that was not tracked shows no difference. -/
def localCommit (X : Externals) (call : Args × Surroundings) (blob : Blob) : Option Blob :=
  match main X call.1 call.2 blob with
  | (_, .error _) => none
  | (written, .ok _) => if blob = none ∨ written = blob then none else some written

/-- How far a run has come. What is pushed replaces its lease. -/
inductive Phase (Oid : Type)
  | ready
  | fetched (lease : Oid)
  | pushing (lease commit : Oid)
  | givenUp (lease commit : Oid)
  | answered (lease commit : Oid)
  | succeeded (lease commit : Oid)
  | failed

structure Branch (ι Oid : Type) where
  tip : Option Oid
  objects : Oid → Option Blob
  phase : ι → Phase Oid

namespace Branch

variable {ι Oid : Type} (s : Branch ι Oid)

/-- The ledger file of the remote branch. -/
def file : Blob := (s.tip.bind s.objects).join

def setPhase [DecidableEq ι] (i : ι) (phase : Phase Oid) : Branch ι Oid :=
  { s with phase := Function.update s.phase i phase }

def addObject [DecidableEq Oid] (oid : Oid) (blob : Blob) : Branch ι Oid :=
  { s with objects := Function.update s.objects oid (some blob) }

def moveTip (oid : Oid) : Branch ι Oid := { s with tip := some oid }

end Branch

section

variable {ι Oid : Type} [DecidableEq ι] [DecidableEq Oid]

/-- One step of one run, or of the remote on its push. The label is the run whose push moved the branch. A push takes
effect at one moment, if it still finds the lease, and its answer may be lost before and after that. An object id stands
for one content. -/
inductive BranchStep (X : Externals) (calls : ι → Args × Surroundings) :
    Option ι → Branch ι Oid → Branch ι Oid → Prop
  | fetch {s : Branch ι Oid} {i : ι} {tip : Oid} : s.phase i = .ready → s.tip = some tip →
      BranchStep X calls none s (s.setPhase i (.fetched tip))
  | noBranch {s : Branch ι Oid} {i : ι} : s.phase i = .ready → BranchStep X calls none s (s.setPhase i .failed)
  | refuse {s : Branch ι Oid} {i : ι} {lease : Oid} : s.phase i = .fetched lease →
      BranchStep X calls none s (s.setPhase i .failed)
  | commit {s : Branch ι Oid} {i : ι} {lease oid : Oid} {blob written : Blob} : s.phase i = .fetched lease →
      s.objects lease = some blob → localCommit X (calls i) blob = some written →
      s.objects oid = none ∨ s.objects oid = some written →
      BranchStep X calls none s ((s.addObject oid written).setPhase i (.pushing lease oid))
  | accept {s : Branch ι Oid} {i : ι} {lease oid : Oid} : s.phase i = .pushing lease oid → s.tip = some lease →
      BranchStep X calls (some i) s ((s.moveTip oid).setPhase i (.answered lease oid))
  | acceptLate {s : Branch ι Oid} {i : ι} {lease oid : Oid} : s.phase i = .givenUp lease oid → s.tip = some lease →
      BranchStep X calls (some i) s ((s.moveTip oid).setPhase i .failed)
  | upToDate {s : Branch ι Oid} {i : ι} {lease oid : Oid} : s.phase i = .pushing lease oid → s.tip = some oid →
      BranchStep X calls none s (s.setPhase i (.answered lease oid))
  | reject {s : Branch ι Oid} {i : ι} {lease oid : Oid} : s.phase i = .pushing lease oid →
      BranchStep X calls none s (s.setPhase i .failed)
  | giveUp {s : Branch ι Oid} {i : ι} {lease oid : Oid} : s.phase i = .pushing lease oid →
      BranchStep X calls none s (s.setPhase i (.givenUp lease oid))
  | lose {s : Branch ι Oid} {i : ι} {lease oid : Oid} : s.phase i = .answered lease oid →
      BranchStep X calls none s (s.setPhase i .failed)
  | succeed {s : Branch ι Oid} {i : ι} {lease oid : Oid} : s.phase i = .answered lease oid →
      BranchStep X calls none s (s.setPhase i (.succeeded lease oid))

/-- Any interleaving of the runs, with those that moved the branch in their order. -/
inductive Interleaved (X : Externals) (calls : ι → Args × Surroundings) (s : Branch ι Oid) :
    List ι → Branch ι Oid → Prop
  | start : Interleaved X calls s [] s
  | quiet {log : List ι} {s' s'' : Branch ι Oid} : Interleaved X calls s log s' → BranchStep X calls none s' s'' →
      Interleaved X calls s log s''
  | move {log : List ι} {i : ι} {s' s'' : Branch ι Oid} : Interleaved X calls s log s' →
      BranchStep X calls (some i) s' s'' → Interleaved X calls s (log ++ [i]) s''

end

end PlatformGitops.Coordination

/-! Appends to the remote ledger follow one another, whatever happens to the runs that make them. -/

namespace PlatformGitops.Coordination

open Library Library.Json Library.Fallible

variable {X : Externals} {ι Oid : Type} {calls : ι → Args × Surroundings}
  {s s' s'' : Branch ι Oid} {log : List ι} {i : ι}

/-- The hash that the caller of a run expects before its event. -/
def expected? (X : Externals) (call : Args × Surroundings) : Option Expectation :=
  (normalizeExpectedPrevious X (some call.1.expectPreviousHash)).toOption

/-- The new file is the old one with one event of the call, which replay accepts after the hash that it expects. -/
def AddsEvent (X : Externals) (call : Args × Surroundings) (file file' : Blob) (event : Json) : Prop :=
  ∃ authority expected line before after, loadAuthority X call.1.authority (call.2.files call.1.authority) = .ok authority ∧
    expected? X call = some (.previous expected) ∧
    Swapped X call.1 authority expected file file' line event before after

lemma addsEvent_of_localCommit (hsha : CollisionFree X) (hfloat : ReadsFloats X.float) {call : Args × Surroundings}
    {blob written : Blob} (h : localCommit X call blob = some written) : ∃ event, AddsEvent X call blob written event := by
  have hturn := main_cases hsha hfloat call.1 call.2 blob
  cases hmain : main X call.1 call.2 blob with
  | mk file outcome =>
    simp only [localCommit, hmain] at h
    simp only [turnOf, hmain, Turn.refuses, Turn.swaps, Turn.succeeds, Turn.expected?] at hturn
    cases outcome with
    | error failure => cases h
    | ok output =>
      rcases hturn with ⟨hnot, -⟩ | ⟨-, authority, expected, line, event, before, after, hauthority, hexpected, hswapped⟩
      · exact absurd ⟨output, rfl⟩ hnot
      · simp only at h
        split_ifs at h
        cases h
        exact ⟨event, authority, expected, line, before, after, hauthority, hexpected, hswapped⟩

/-- The lease and the commit of a run that has committed. -/
def Phase.commits : Phase Oid → Option (Oid × Oid)
  | .pushing lease oid | .givenUp lease oid | .answered lease oid | .succeeded lease oid => some (lease, oid)
  | _ => none

/-- The commit of a run that knows, or is about to know, that the branch has it. -/
def Phase.landed : Phase Oid → Option Oid
  | .answered _ oid | .succeeded _ oid => some oid
  | _ => none

lemma Phase.commits_of_landed {phase : Phase Oid} {oid : Oid} (h : phase.landed = some oid) :
    ∃ lease, phase.commits = some (lease, oid) := by
  cases phase with
  | answered lease commit | succeeded lease commit =>
    cases h
    exact ⟨lease, rfl⟩
  | _ => cases h

/-- A run that may still move the branch. -/
def Phase.live : Phase Oid → Bool
  | .answered _ _ | .succeeded _ _ | .failed => false
  | _ => true

/-- The events of the ledger file of the branch. -/
def Branch.events (X : Externals) (s : Branch ι Oid) : List Json := ledgerEvents X (s.file.getD [])

lemma Branch.file_of_tip {oid : Oid} {blob : Blob} (htip : s.tip = some oid) (hblob : s.objects oid = some blob) :
    s.file = blob := by
  rw [Branch.file, htip, Option.bind_some, hblob]
  rfl

/-- What stays true of the branch and of the runs that have moved it. -/
structure BranchInv (X : Externals) (calls : ι → Args × Surroundings) (s : Branch ι Oid) (log : List ι) : Prop where
  tip : ∀ oid, s.tip = some oid → ∃ blob, s.objects oid = some blob
  commits : ∀ i lease oid, (s.phase i).commits = some (lease, oid) → ∃ blob written event,
    s.objects lease = some blob ∧ s.objects oid = some written ∧ AddsEvent X (calls i) blob written event
  landed : ∀ i oid written, (s.phase i).landed = some oid → s.objects oid = some written →
    ledgerEvents X (written.getD []) <+: s.events X
  settled : ∀ i ∈ log, (s.phase i).live = false
  once : log.Nodup
  apart : log.Pairwise fun i j => expected? X (calls i) ≠ expected? X (calls j)
  older : ∀ i ∈ log, ∃ file expected, expected? X (calls i) = some (.previous expected) ∧
    HashChain previousHash? (eventDigest X) (firstOccurrences [] (ledgerEvents X (Option.getD file []))) expected ∧
    eventCount X file < eventCount X s.file

/-- No run has started, and the branch has its commit. -/
structure Branch.Initial (s : Branch ι Oid) : Prop where
  tip : ∀ oid, s.tip = some oid → ∃ blob, s.objects oid = some blob
  ready : ∀ i, s.phase i = .ready

lemma BranchInv.initial (h : s.Initial) : BranchInv X calls s [] where
  tip := h.tip
  commits i lease oid hcommits := by
    rw [h.ready i] at hcommits
    cases hcommits
  landed i oid _ hlanded := by
    rw [h.ready i] at hlanded
    cases hlanded
  settled := by simp
  once := .nil
  apart := .nil
  older := by simp

variable [DecidableEq ι]

/-- What a step leaves that does not move the branch. -/
structure QuietStep (X : Externals) (calls : ι → Args × Surroundings) (s s' : Branch ι Oid) (i : ι) (phase : Phase Oid) :
    Prop where
  phases : s'.phase = Function.update s.phase i phase
  tip : s'.tip = s.tip
  objects : ∀ oid blob, s.objects oid = some blob → s'.objects oid = some blob
  commits : ∀ lease oid, phase.commits = some (lease, oid) → (s.phase i).commits = some (lease, oid) ∨
    ∃ blob written, s'.objects lease = some blob ∧ s'.objects oid = some written ∧
      localCommit X (calls i) blob = some written
  landed : ∀ oid, phase.landed = some oid → (s.phase i).landed = some oid ∨ s.tip = some oid
  live : (s.phase i).live = false → phase.live = false

lemma QuietStep.file {phase : Phase Oid} (h : QuietStep X calls s s' i phase)
    (htip : ∀ oid, s.tip = some oid → ∃ blob, s.objects oid = some blob) : s'.file = s.file := by
  unfold Branch.file
  rw [h.tip]
  cases hs : s.tip with
  | none => rfl
  | some oid =>
    obtain ⟨blob, hblob⟩ := htip oid hs
    simp only [Option.bind_some, hblob, h.objects oid blob hblob]

/-- What a step leaves in which the push of a run takes effect. -/
structure MoveStep (s s' : Branch ι Oid) (i : ι) (lease oid : Oid) (phase : Phase Oid) : Prop where
  state : s' = (s.moveTip oid).setPhase i phase
  leased : s.tip = some lease
  commits : (s.phase i).commits = some (lease, oid)
  live : (s.phase i).live = true
  settled : phase.live = false
  same : ∀ p, phase.commits = some p → p = (lease, oid)
  landed : ∀ oid', phase.landed = some oid' → oid' = oid

/-- A push that takes effect adds the event of its run to the file that the run had fetched. -/
lemma BranchInv.added (hi : BranchInv X calls s log) {lease oid : Oid} {phase : Phase Oid}
    (hm : MoveStep s s' i lease oid phase) : ∃ event, s.objects oid = some s'.file ∧
      AddsEvent X (calls i) s.file s'.file event := by
  obtain ⟨blob, written, event, hblob, hwritten, hadds⟩ := hi.commits i lease oid hm.commits
  have hnew : s'.file = written := by
    rw [hm.state]
    exact Branch.file_of_tip rfl hwritten
  rw [hnew, Branch.file_of_tip hm.leased hblob]
  exact ⟨event, hwritten, hadds⟩

variable [DecidableEq Oid]

lemma quiet_step (h : BranchStep X calls none s s') : ∃ i phase, QuietStep X calls s s' i phase := by
  cases h with
  | @fetch _ i tip hready _ =>
    exact ⟨i, .fetched tip, rfl, rfl, by simp [Branch.setPhase], nofun, nofun, by simp [hready, Phase.live]⟩
  | @noBranch _ i hready => exact ⟨i, .failed, rfl, rfl, by simp [Branch.setPhase], nofun, nofun, fun _ => rfl⟩
  | @refuse _ i lease hfetched => exact ⟨i, .failed, rfl, rfl, by simp [Branch.setPhase], nofun, nofun, fun _ => rfl⟩
  | @commit _ i lease oid blob written hfetched hblob hlocal hfresh =>
    have hextends : ∀ o b, s.objects o = some b → (s.addObject oid written).objects o = some b := by
      intro o b ho
      by_cases hoid : o = oid
      · subst hoid
        rcases hfresh with hnone | hsame
        · cases hnone.symm.trans ho
        · cases hsame.symm.trans ho
          exact Function.update_self ..
      · exact (Function.update_of_ne hoid ..).trans ho
    refine ⟨i, .pushing lease oid, rfl, rfl, hextends, ?_, nofun, by simp [hfetched, Phase.live]⟩
    rintro _ _ ⟨⟩
    exact .inr ⟨blob, written, hextends _ _ hblob, Function.update_self .., hlocal⟩
  | @upToDate _ i lease oid hpushing htip =>
    refine ⟨i, .answered lease oid, rfl, rfl, by simp [Branch.setPhase], ?_, ?_, fun _ => rfl⟩
    · rintro _ _ ⟨⟩
      exact .inl (by rw [hpushing]; rfl)
    · rintro _ ⟨⟩
      exact .inr htip
  | @reject _ i lease oid hpushing => exact ⟨i, .failed, rfl, rfl, by simp [Branch.setPhase], nofun, nofun, fun _ => rfl⟩
  | @giveUp _ i lease oid hpushing =>
    refine ⟨i, .givenUp lease oid, rfl, rfl, by simp [Branch.setPhase], ?_, nofun, by simp [hpushing, Phase.live]⟩
    rintro _ _ ⟨⟩
    exact .inl (by rw [hpushing]; rfl)
  | @lose _ i lease oid hanswered => exact ⟨i, .failed, rfl, rfl, by simp [Branch.setPhase], nofun, nofun, fun _ => rfl⟩
  | @succeed _ i lease oid hanswered =>
    refine ⟨i, .succeeded lease oid, rfl, rfl, by simp [Branch.setPhase], ?_, ?_, fun _ => rfl⟩
    · rintro _ _ ⟨⟩
      exact .inl (by rw [hanswered]; rfl)
    · rintro _ ⟨⟩
      exact .inl (by rw [hanswered]; rfl)

lemma move_step (h : BranchStep X calls (some i) s s') : ∃ lease oid phase, MoveStep s s' i lease oid phase := by
  cases h with
  | @accept _ _ lease oid hpushing htip =>
    refine ⟨lease, oid, .answered lease oid, rfl, htip, by rw [hpushing]; rfl, by rw [hpushing]; rfl, rfl, ?_, ?_⟩
    · rintro _ ⟨⟩
      rfl
    · rintro _ ⟨⟩
      rfl
  | @acceptLate _ _ lease oid hgiven htip =>
    exact ⟨lease, oid, .failed, rfl, htip, by rw [hgiven]; rfl, by rw [hgiven]; rfl, rfl, nofun, nofun⟩

lemma BranchInv.quiet (hsha : CollisionFree X) (hfloat : ReadsFloats X.float) (hi : BranchInv X calls s log)
    (h : BranchStep X calls none s s') : BranchInv X calls s' log := by
  obtain ⟨i, phase, hq⟩ := quiet_step h
  have hfile := hq.file hi.tip
  have hevents : s'.events X = s.events X := by rw [Branch.events, hfile, Branch.events]
  have hold : ∀ j lease oid, (s.phase j).commits = some (lease, oid) → ∃ blob written event,
      s'.objects lease = some blob ∧ s'.objects oid = some written ∧ AddsEvent X (calls j) blob written event := by
    intro j lease oid hcommits
    obtain ⟨blob, written, event, hblob, hwritten, hadds⟩ := hi.commits j lease oid hcommits
    exact ⟨blob, written, event, hq.objects _ _ hblob, hq.objects _ _ hwritten, hadds⟩
  refine ⟨?_, ?_, ?_, ?_, hi.once, hi.apart, hfile ▸ hi.older⟩
  · intro oid htip
    obtain ⟨blob, hblob⟩ := hi.tip oid (hq.tip ▸ htip)
    exact ⟨blob, hq.objects _ _ hblob⟩
  · intro j lease oid hcommits
    rw [hq.phases] at hcommits
    by_cases hj : j = i
    · subst hj
      rw [Function.update_self] at hcommits
      rcases hq.commits lease oid hcommits with hbefore | ⟨blob, written, hblob, hwritten, hlocal⟩
      · exact hold j lease oid hbefore
      · obtain ⟨event, hadds⟩ := addsEvent_of_localCommit hsha hfloat hlocal
        exact ⟨blob, written, event, hblob, hwritten, hadds⟩
    · rw [Function.update_of_ne hj] at hcommits
      exact hold j lease oid hcommits
  · intro j oid written hlanded hwritten
    rw [hevents]
    have hbefore : ∀ oid, (s.phase j).landed = some oid → s'.objects oid = some written →
        ledgerEvents X (written.getD []) <+: s.events X := by
      intro oid hlanded hwritten
      obtain ⟨lease, hcommits⟩ := Phase.commits_of_landed hlanded
      obtain ⟨_, written', _, -, hwritten', -⟩ := hi.commits j lease oid hcommits
      obtain rfl : written' = written := Option.some.inj ((hq.objects _ _ hwritten').symm.trans hwritten)
      exact hi.landed j oid written' hlanded hwritten'
    rw [hq.phases] at hlanded
    by_cases hj : j = i
    · subst hj
      rw [Function.update_self] at hlanded
      rcases hq.landed oid hlanded with hlanded | htip
      · exact hbefore oid hlanded hwritten
      · obtain ⟨blob, hblob⟩ := hi.tip oid htip
        obtain rfl : blob = written := Option.some.inj ((hq.objects _ _ hblob).symm.trans hwritten)
        have hsame : ledgerEvents X (blob.getD []) = s.events X := by rw [Branch.events, Branch.file_of_tip htip hblob]
        exact hsame ▸ List.prefix_rfl
    · rw [Function.update_of_ne hj] at hlanded
      exact hbefore oid hlanded hwritten
  · intro j hj
    rw [hq.phases]
    by_cases hji : j = i
    · subst hji
      rw [Function.update_self]
      exact hq.live (hi.settled j hj)
    · rw [Function.update_of_ne hji]
      exact hi.settled j hj

lemma BranchInv.move (hsha : CollisionFree X) (hfloat : ReadsFloats X.float) (hi : BranchInv X calls s log)
    (h : BranchStep X calls (some i) s s') : BranchInv X calls s' (log ++ [i]) := by
  obtain ⟨lease, oid, phase, hm⟩ := move_step h
  obtain ⟨event, hwritten, authority, expected, line, before, after, -, hexpected, hswapped⟩ := hi.added hm
  have hgrown := hswapped.eventCount_eq
  have hevents : s'.events X = s.events X ++ [event] := hswapped.events
  have hobjects : s'.objects = s.objects := by rw [hm.state]; rfl
  have hself : s'.phase i = phase := by rw [hm.state]; exact Function.update_self ..
  have hother : ∀ j, j ≠ i → s'.phase j = s.phase j := fun j hj => by
    rw [hm.state]
    exact Function.update_of_ne hj ..
  have hnew : i ∉ log := fun hmem => by
    have hsettled := hi.settled i hmem
    rw [hm.live] at hsettled
    cases hsettled
  refine ⟨?_, ?_, ?_, ?_, ?_, ?_, ?_⟩
  · intro oid' htip
    rw [hm.state] at htip
    cases htip
    exact ⟨_, hobjects ▸ hwritten⟩
  · intro j lease' oid' hcommits
    rw [hobjects]
    by_cases hj : j = i
    · subst hj
      rw [hself] at hcommits
      cases hm.same _ hcommits
      exact hi.commits j lease oid hm.commits
    · exact hi.commits j lease' oid' (hother j hj ▸ hcommits)
  · intro j oid' written hlanded hobject
    rw [hobjects] at hobject
    by_cases hj : j = i
    · subst hj
      rw [hself] at hlanded
      obtain rfl := hm.landed oid' hlanded
      obtain rfl : s'.file = written := Option.some.inj (hwritten.symm.trans hobject)
      exact List.prefix_rfl
    · rw [hevents]
      exact (hi.landed j oid' written (hother j hj ▸ hlanded) hobject).trans (List.prefix_append _ _)
  · intro j hj
    by_cases hji : j = i
    · rw [hji, hself]
      exact hm.settled
    · rw [hother j hji]
      exact hi.settled j ((List.mem_append.mp hj).resolve_right fun h => hji (List.mem_singleton.mp h))
  · exact List.nodup_append'.mpr ⟨hi.once, List.nodup_singleton i, by simpa using hnew⟩
  · refine List.pairwise_append.mpr ⟨hi.apart, List.pairwise_singleton _ i, fun j hj k hk hsame => ?_⟩
    obtain rfl := List.mem_singleton.mp hk
    obtain ⟨file, expected', hexpected', hchain, hfewer⟩ := hi.older j hj
    have heq : some (Expectation.previous expected') = some (.previous expected) :=
      hexpected'.symm.trans (hsame.trans hexpected)
    cases heq
    have hcount := eventCount_eq_of_chain hsha hfloat hchain hswapped.chain
    omega
  · intro j hj
    rcases List.mem_append.mp hj with hj | hj
    · obtain ⟨file, expected', hexpected', hchain, hfewer⟩ := hi.older j hj
      exact ⟨file, expected', hexpected', hchain, by omega⟩
    · obtain rfl := List.mem_singleton.mp hj
      exact ⟨s.file, expected, hexpected, hswapped.chain, by omega⟩

lemma BranchInv.run (hsha : CollisionFree X) (hfloat : ReadsFloats X.float) {more : List ι} (hi : BranchInv X calls s log)
    (h : Interleaved X calls s more s') : BranchInv X calls s' (log ++ more) := by
  induction h with
  | start => rwa [List.append_nil]
  | quiet _ hstep ih => exact ih.quiet hsha hfloat hstep
  | move _ hstep ih =>
    rw [← List.append_assoc]
    exact ih.move hsha hfloat hstep

lemma BranchInv.events_prefix (hsha : CollisionFree X) (hfloat : ReadsFloats X.float) {more : List ι}
    (hi : BranchInv X calls s log) (h : Interleaved X calls s more s') : s.events X <+: s'.events X := by
  induction h with
  | start => exact List.prefix_rfl
  | quiet hrun hstep ih =>
    obtain ⟨_, _, hq⟩ := quiet_step hstep
    have hfile := hq.file (hi.run hsha hfloat hrun).tip
    rw [Branch.events] at ih ⊢
    rw [Branch.events, hfile]
    exact ih
  | @move _ _ s' s'' hrun hstep ih =>
    obtain ⟨_, _, _, hm⟩ := move_step hstep
    obtain ⟨event, -, _, _, _, _, _, -, -, hswapped⟩ := (hi.run hsha hfloat hrun).added hm
    have hevents : s''.events X = s'.events X ++ [event] := hswapped.events
    rw [hevents]
    exact ih.trans (List.prefix_append _ _)

/-- Whatever runs race for one branch: a step leaves its ledger file, or adds to it the one event of one run; no run
does so twice and no two runs that expect the same hash do; the event of a run that has reported success stays. -/
theorem remote_appends_linear (hsha : CollisionFree X) (hfloat : ReadsFloats X.float) (calls : ι → Args × Surroundings)
    (s₀ s : Branch ι Oid) (log : List ι) (hinit : s₀.Initial) (hrun : Interleaved X calls s₀ log s) :
    (∀ s', BranchStep X calls none s s' → s'.file = s.file) ∧
      (∀ i s', BranchStep X calls (some i) s s' → ∃ event, AddsEvent X (calls i) s.file s'.file event) ∧
      log.Nodup ∧ (log.Pairwise fun i j => expected? X (calls i) ≠ expected? X (calls j)) ∧
      ∀ i lease oid, s.phase i = .succeeded lease oid → ∃ file file' event, s.objects lease = some file ∧
        s.objects oid = some file' ∧ AddsEvent X (calls i) file file' event ∧
        ∀ more s', Interleaved X calls s more s' → event ∈ s'.events X := by
  have hi : BranchInv X calls s ([] ++ log) := (BranchInv.initial hinit).run hsha hfloat hrun
  rw [List.nil_append] at hi
  refine ⟨fun s' hstep => ?_, fun i s' hstep => ?_, hi.once, hi.apart, fun i lease oid hphase => ?_⟩
  · obtain ⟨_, _, hq⟩ := quiet_step hstep
    exact hq.file hi.tip
  · obtain ⟨_, _, _, hm⟩ := move_step hstep
    obtain ⟨event, -, hadds⟩ := hi.added hm
    exact ⟨event, hadds⟩
  · obtain ⟨file, file', event, hfile, hfile', hadds⟩ := hi.commits i lease oid (by rw [hphase]; rfl)
    refine ⟨file, file', event, hfile, hfile', hadds, fun more s' hlater => ?_⟩
    have hlanded := hi.landed i oid file' (by rw [hphase]; rfl) hfile'
    obtain ⟨_, _, _, _, _, -, -, hswapped⟩ := hadds
    have hmem : event ∈ ledgerEvents X (file'.getD []) := by
      rw [hswapped.events]
      exact List.mem_append_right _ (List.mem_singleton_self event)
    exact (hi.events_prefix hsha hfloat hlater).subset (hlanded.subset hmem)

section First

variable {call : Args × Surroundings} {authority : Authority} {event : Json} {progress : Progress}

/-- The first event of an empty ledger is committed when replay accepts it alone. -/
lemma localCommit_first (hfloat : ReadsFloats X.float)
    (hexpects : normalizeExpectedPrevious X (some call.1.expectPreviousHash) = .ok (.previous none))
    (hauthority : loadAuthority X call.1.authority (call.2.files call.1.authority) = .ok authority)
    (hbuild : buildEvent X call.1 call.2 none = .ok event)
    (hreplay : replayEvent X authority (sorted event) 1 .start = .ok progress) :
    localCommit X call (some []) = some (some (appendEventLine (some []) event)) := by
  have hwritable := (buildEvent_eq_ok hfloat hbuild).1
  have hempty : fileLines [] = .ok [] := fileLines_of_decode? (Text.decode?_encode [])
  have hexisting : existingLines (some []) [] := hempty
  have hrun : replayLines X authority ([] ++ [canonicalEventLine event]) 1 .start = (progress, .ok ()) := by
    rw [List.nil_append, replayLines, hwritable.replayLine_line, hreplay]
    rfl
  have hbefore : replayExisting X authority call.1.ledger (some []) = .ok (Progress.start.result call.1.ledger true none none) :=
    replayExisting_of_lines hempty rfl
  have hlines : fileLines (appendEventLine (some []) event) = .ok ([] ++ [canonicalEventLine event]) :=
    fileLines_appendEventLine hexisting hwritable
  have hafter : replayExisting X authority call.1.ledger (some (appendEventLine (some []) event)) =
      .ok (progress.result call.1.ledger true none none) :=
    replayExisting_of_lines hlines hrun
  have htext : ledgerTextWithCandidate (some []) event = .ok (canonicalEventLine event ++ ['\n']) := rfl
  have hcandidate : validateCandidate X authority call.2 (some []) event =
      .ok (progress.result call.2.candidatePath true none none) := by
    have hlines : fileLines (Text.encode (canonicalEventLine event ++ ['\n'])) = .ok ([] ++ [canonicalEventLine event]) :=
      fileLines_candidate hexisting hwritable htext
    rw [validateCandidate, htext]
    simp only [bind, Except.bind, replay_of_lines hlines hrun]
    rfl
  have hprepare : prepare X call.1 call.2 (some []) = .ok (authority, event) := by
    simp only [prepare, hexpects, hauthority, hbefore, bind, Except.bind]
    simp [Progress.result, Progress.start, normalizeReplayHash, validateExpectedPrevious, appendErrorIf, rejectIf, hbuild,
      hcandidate]
  have hne : appendEventLine (some []) event ≠ [] := by simp [appendEventLine]
  simp [localCommit, main, hprepare, hafter, hne, bind, Except.bind, pure, Except.pure]

end First

namespace Sample

/-- Two runs that start the same ledger, whose file is there and empty. -/
def starters : Bool → Args × Surroundings := fun _ => (acceptArgs, surroundings)

def emptyLedger : Branch Bool Nat where
  tip := some 0
  objects := Function.update (fun _ => none) 0 (some (some []))
  phase _ := .ready

lemma starts : ∃ written, localCommit (externals (digests claim)) (acceptArgs, surroundings) (some []) = some written := by
  have hauthority : (loadAuthority (externals (digests claim)) acceptArgs.authority
      (surroundings.files acceptArgs.authority)).toOption = some [("CLAIM_ACCEPTED", ["coordinator"])] := by
    decide +kernel
  have hreplays : ((buildEvent (externals (digests claim)) acceptArgs surroundings none).toOption.bind fun event =>
      (replayEvent (externals (digests claim)) [("CLAIM_ACCEPTED", ["coordinator"])] (sorted event) 1 .start).toOption).isSome
      = true := by decide +kernel
  obtain ⟨progress, hprogress⟩ := Option.isSome_iff_exists.mp hreplays
  obtain ⟨event, hbuild, hreplay⟩ := Option.bind_eq_some_iff.mp hprogress
  exact ⟨_, localCommit_first (readsFloats _) rfl (toOption_eq_some hauthority) (toOption_eq_some hbuild)
    (toOption_eq_some hreplay)⟩

end Sample

open Sample in
/-- Both fetch, one appends and reports it. -/
theorem remote_appends_linear_raced : ∃ s : Branch Bool Nat,
    Interleaved (externals (digests claim)) starters emptyLedger [true] s ∧ s.phase true = .succeeded 0 1 ∧
      s.phase false = .fetched 0 ∧ ∃ file file' event, s.objects 0 = some file ∧ s.objects 1 = some file' ∧
        AddsEvent (externals (digests claim)) (acceptArgs, surroundings) file file' event ∧
        ∀ more s', Interleaved (externals (digests claim)) starters s more s' →
          event ∈ s'.events (externals (digests claim)) := by
  obtain ⟨written, hwritten⟩ := starts
  have hinit : emptyLedger.Initial := by
    refine ⟨?_, fun _ => rfl⟩
    rintro _ ⟨⟩
    exact ⟨_, rfl⟩
  have hstart : Interleaved (externals (digests claim)) starters emptyLedger [] emptyLedger := .start
  have hfetched := hstart.quiet (.fetch (i := true) rfl rfl) |>.quiet (.fetch (i := false) rfl rfl)
  have hcommitted := hfetched.quiet (@BranchStep.commit _ _ _ _ _ _ _ true 0 1 _ _ rfl rfl hwritten (.inl rfl))
  have hpushed := hcommitted.move (.accept (i := true) rfl rfl)
  have hrun := hpushed.quiet (.succeed (i := true) rfl)
  exact ⟨_, hrun, rfl, rfl, (remote_appends_linear collisionFree_claim (readsFloats _) starters emptyLedger _ _ hinit
    hrun).2.2.2.2 true 0 1 rfl⟩

end PlatformGitops.Coordination
