import PlatformGitops.Coordination.Chain
import PlatformGitops.Coordination.LedgerClaimState

/-! The readers of a ledger that replay accepts read its events. -/

namespace PlatformGitops.Coordination

open Library Fallible

variable {X : Externals} {authority : Authority}

/-- The line is blank, or the text of an object. -/
def ReadableLine (X : Externals) (rawLine : List Char) : Prop :=
  strip rawLine = [] ∨ ∃ fields, Json.loads X.float (strip rawLine) = some (.obj fields)

lemma readable_of_replayLines {rawLines : List (List Char)} {line : Nat} {progress out : Progress}
    (h : replayLines X authority rawLines line progress = (out, .ok ())) :
    ∀ rawLine ∈ rawLines, ReadableLine X rawLine := by
  induction rawLines generalizing line progress with
  | nil => simp
  | cons rawLine rest ih =>
    obtain ⟨next, hline, hrest⟩ := replayLines_cons h
    refine List.forall_mem_cons.mpr ⟨?_, ih hrest⟩
    rcases replayLine_cases hline with ⟨hblank, -, -⟩ | ⟨event, hloads, hsome, -⟩
    · exact .inl hblank
    · obtain ⟨hne, hobj⟩ : strip rawLine ≠ [] ∧ event.asObj?.isSome = true := by
        simp only [eventOfLine?, hloads] at hsome
        split at hsome
        · cases hsome
        · rename_i hne
          exact ⟨hne, (Option.filter_eq_some_iff.mp hsome).2⟩
      cases event with
      | obj fields => exact .inr ⟨fields, hloads⟩
      | _ => cases hobj

lemma ReadableLine.eventOfLine? {rawLine : List Char} (h : ReadableLine X rawLine) :
    LedgerClaimState.readLine X rawLine = .ok (Coordination.eventOfLine? X rawLine) ∧
      ReapLedgerState.readLine X rawLine = .ok (Coordination.eventOfLine? X rawLine) := by
  by_cases hblank : strip rawLine = []
  · simp [LedgerClaimState.readLine, ReapLedgerState.readLine, Coordination.eventOfLine?, hblank]
  · obtain ⟨fields, hfields⟩ := h.resolve_left hblank
    simp [LedgerClaimState.readLine, ReapLedgerState.readLine, Coordination.eventOfLine?, hblank, hfields, Json.asObj?,
      Option.filter]

lemma readEvents_of_lines {bytes : List UInt8} {rawLines : List (List Char)} (hlines : fileLines bytes = .ok rawLines)
    (h : ∀ rawLine ∈ rawLines, ReadableLine X rawLine) :
    LedgerClaimState.readEvents X bytes = .ok (rawLines.filterMap (eventOfLine? X)) := by
  have hread := mapM_of_ok fun rawLine hmem => (h rawLine hmem).eventOfLine?.1
  simp only [LedgerClaimState.readEvents, hlines, bind, Except.bind, hread, pure, Except.pure, List.filterMap_map]
  rfl

lemma iterEvents_of_lines {bytes : List UInt8} {rawLines : List (List Char)} (hlines : fileLines bytes = .ok rawLines)
    (h : ∀ rawLine ∈ rawLines, ReadableLine X rawLine) (path : String) :
    ReapLedgerState.iterEvents X path (some bytes) = .ok (rawLines.filterMap (eventOfLine? X)) := by
  have hread := mapM_of_ok fun rawLine hmem => (h rawLine hmem).eventOfLine?.2
  simp only [ReapLedgerState.iterEvents, hlines, expect, bind, Except.bind, hread, pure, Except.pure,
    List.filterMap_map]
  rfl

variable {path : String} {bytes : List UInt8} {result : ReplayResult}

lemma lines_of_valid (h : replay X authority path (some bytes) = .ok result) (hvalid : result.valid = true) :
    ∃ rawLines, fileLines bytes = .ok rawLines ∧ (∀ rawLine ∈ rawLines, ReadableLine X rawLine) ∧
      ledgerEvents X bytes = rawLines.filterMap (eventOfLine? X) := by
  obtain ⟨_, rawLines, progress, hbytes, hlines, hrun, -⟩ := replay_eq_valid h hvalid
  cases hbytes
  refine ⟨rawLines, hlines, readable_of_replayLines hrun, ?_⟩
  obtain ⟨text, htext, rfl⟩ := fileLines_eq_ok hlines
  simp [ledgerEvents, htext]

/-- The gate reads the events of a valid ledger. -/
lemma readEvents_of_valid (h : replay X authority path (some bytes) = .ok result) (hvalid : result.valid = true) :
    LedgerClaimState.readEvents X bytes = .ok (ledgerEvents X bytes) := by
  obtain ⟨rawLines, hlines, hread, hevents⟩ := lines_of_valid h hvalid
  rw [readEvents_of_lines hlines hread, hevents]

/-- The reaper reads the same events. -/
lemma iterEvents_of_valid (h : replay X authority path (some bytes) = .ok result) (hvalid : result.valid = true) :
    ReapLedgerState.iterEvents X path (some bytes) = .ok (ledgerEvents X bytes) := by
  obtain ⟨rawLines, hlines, hread, hevents⟩ := lines_of_valid h hvalid
  rw [iterEvents_of_lines hlines hread, hevents]

end PlatformGitops.Coordination
