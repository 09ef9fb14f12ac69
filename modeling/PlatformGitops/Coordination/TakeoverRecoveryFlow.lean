import PlatformGitops.Coordination.Readers
import PlatformGitops.Coordination.SplitLines
import PlatformGitops.Coordination.TamperEvidence
import PlatformGitops.Library.JsonPrefix

/-! The events that the takeover and recovery flow reads, beside those that the gate reads. -/

namespace PlatformGitops.Coordination

open Library Fallible

namespace TakeoverRecoveryFlow

inductive FlowFailure where
  | flowError (message : String)
  | other (failure : Failure)
deriving DecidableEq, Repr

variable (X : Externals)

/-- The objects among the lines that the text is split into; each line is read as the gate reads it. -/
def readLines (bytes : List UInt8) : Except Failure (List Json) := do
  let read ← (splitlines (← readText bytes)).mapM (LedgerClaimState.readLine X)
  pure (read.filterMap id)

def iterEvents (path : String) (file : Option (List UInt8)) : Except FlowFailure (List Json) :=
  match file with
  | none => .error (.flowError ("ledger file not found: " ++ path))
  | some bytes => (readLines X bytes).mapError .other

end TakeoverRecoveryFlow

open TakeoverRecoveryFlow

/-- No line of the ledger has, between its first and its last character that are not blank, a character at which
`splitlines` breaks it. -/
def Unbroken (bytes : List UInt8) : Prop :=
  ∀ rawLines, fileLines bytes = .ok rawLines → ∀ rawLine ∈ rawLines, ∀ c ∈ strip rawLine, isLineEnd c = false

section Reading

variable {X : Externals} {authority : Authority} {path : String} {bytes : List UInt8} {result : ReplayResult}

lemma readText_eq_ok {text : List Char} (h : readText bytes = .ok text) : ∃ s, text = Text.universalNewlines s := by
  unfold readText at h
  split at h
  · cases h
    exact ⟨_, rfl⟩
  · cases h

/-- The flow splits the lines of the file further. -/
lemma bodies_of_text {text : List Char} (h : readText bytes = .ok text) :
    bodies (splitlines text) = (Text.lines text).flatMap pieces := by
  obtain ⟨s, rfl⟩ := readText_eq_ok h
  have hself : Text.universalNewlines (Text.universalNewlines s) = Text.universalNewlines s :=
    Text.universalNewlines_eq_self (Text.not_mem_translate false s)
  rw [bodies_splitlines, hself, pieces_eq_flatMap]

lemma noLineEnd_of_mem_text {text rawLine : List Char} (h : readText bytes = .ok text)
    (hmem : rawLine ∈ Text.lines text) : ∀ c ∈ rawLine, c ≠ '\r' ∧ c ≠ '\n' := by
  obtain ⟨s, rfl⟩ := readText_eq_ok h
  exact Text.noLineEnd_of_mem_lines hmem

lemma flatMap_pieces_of_unbroken {rawLines : List (List Char)}
    (h : ∀ rawLine ∈ rawLines, ∀ c ∈ strip rawLine, isLineEnd c = false) :
    rawLines.flatMap pieces = bodies rawLines := by
  induction rawLines with
  | nil => rfl
  | cons rawLine rawLines ih =>
    obtain ⟨hline, hlines⟩ := List.forall_mem_cons.mp h
    rw [List.flatMap_cons, pieces_of_strip hline, ih hlines, ← bodies_append]
    rfl

lemma ReadableLine.congr {rawLine rawLine' : List Char} (hstrip : strip rawLine = strip rawLine')
    (h : ReadableLine X rawLine) : ReadableLine X rawLine' := by
  rwa [ReadableLine, ← hstrip]

lemma filterMap_bodies (rawLines : List (List Char)) :
    (bodies rawLines).filterMap (eventOfLine? X) = rawLines.filterMap (eventOfLine? X) := by
  induction rawLines with
  | nil => rfl
  | cons rawLine rawLines ih =>
    have hself : eventOfLine? X (strip rawLine) = eventOfLine? X rawLine := by
      simp only [eventOfLine?, strip_strip]
    have hcons : bodies (rawLine :: rawLines) = bodies [rawLine] ++ bodies rawLines := bodies_append [rawLine] rawLines
    rw [hcons, List.filterMap_append, ih, ← List.singleton_append (l := rawLines), List.filterMap_append]
    congr 1
    by_cases hblank : strip rawLine = []
    · have hnone : eventOfLine? X rawLine = none := by simp [eventOfLine?, hblank]
      simp [bodies, hblank, hnone]
    · have hbodies : bodies [rawLine] = [strip rawLine] := by simp [bodies, hblank]
      simp only [hbodies, List.filterMap_cons, hself]

lemma readLines_of_text {text : List Char} (h : readText bytes = .ok text)
    (hread : ∀ rawLine ∈ splitlines text, ReadableLine X rawLine) :
    readLines X bytes = .ok ((splitlines text).filterMap (eventOfLine? X)) := by
  have hlines := mapM_of_ok fun rawLine hmem => (hread rawLine hmem).eventOfLine?.1
  simp only [readLines, h, bind, Except.bind, hlines, pure, Except.pure,
    List.filterMap_map]
  rfl

/-- A line that is broken up is not read. -/
lemma not_readable_of_broken {rawLine inner rest : List Char} {c : Char}
    (hends : ∀ c ∈ rawLine, c ≠ '\r' ∧ c ≠ '\n') (hread : ReadableLine X rawLine)
    (hs : strip rawLine = inner ++ c :: rest) (hc : isLineEnd c = true) (hne : strip inner ≠ []) :
    Json.loads X.float (strip inner) = none := by
  obtain ⟨fields, hfields⟩ := hread.resolve_left (by simp [hs])
  obtain ⟨before, after, hinner, hbefore, hafter⟩ := strip_spec inner
  obtain ⟨d, more, hd⟩ := List.exists_cons_of_ne_nil hne
  have hnil : before = [] := by
    cases before with
    | nil => rfl
    | cons b before =>
      have hhead : strip rawLine = b :: (before ++ (strip inner ++ after) ++ c :: rest) := by
        rw [hs]
        conv_lhs => rw [hinner]
        simp
      exact absurd (hbefore b (List.mem_cons_self ..)) (by simp [head_strip hhead])
  have hline : strip rawLine = strip inner ++ (after ++ c :: rest) := by
    rw [hs]
    conv_lhs => rw [hinner, hnil]
    simp
  have hopen : d = '\x7b' := by
    rw [hline, hd, List.cons_append] at hfields
    refine Json.head?_of_loads_obj ?_ hfields
    have hblank := head_strip hd
    by_contra hspace
    simp only [Json.isSpace, decide_eq_true_eq, Bool.not_eq_false] at hspace
    rcases hspace with rfl | rfl | rfl | rfl <;> exact absurd hblank (by decide)
  by_contra hsome
  obtain ⟨v, hv⟩ := Option.ne_none_iff_exists'.mp hsome
  have hspaces := Json.loads_append (by rw [hd, hopen]; rfl) hv (hline ▸ hfields) c (by simp)
  have hmem : c ∈ rawLine := by
    obtain ⟨pre, post, hraw, -, -⟩ := strip_spec rawLine
    rw [hraw, hs]
    simp
  obtain ⟨hcr, hlf⟩ := hends c hmem
  simp only [Json.isSpace, decide_eq_true_eq, hcr, hlf, or_false] at hspaces
  rcases hspaces with rfl | rfl <;> exact absurd hc (by decide)

lemma readLines_of_iterEvents {text : List Char} {events : List Json} (h : readText bytes = .ok text)
    (hiter : iterEvents X path (some bytes) = .ok events) :
    ∃ read, (splitlines text).mapM (LedgerClaimState.readLine X) = .ok read ∧ read.filterMap id = events := by
  simp only [iterEvents, readLines, h] at hiter
  cases hread : (splitlines text).mapM (LedgerClaimState.readLine X) with
  | error failure => simp [hread, bind, Except.bind, Except.mapError] at hiter
  | ok read =>
    refine ⟨read, rfl, ?_⟩
    simpa [hread, bind, Except.bind, Except.mapError, pure, Except.pure] using hiter

lemma readLine_ne_ok {rawLine : List Char} (hne : strip rawLine ≠ []) (hnone : Json.loads X.float (strip rawLine) = none)
    (read : Option Json) : LedgerClaimState.readLine X rawLine ≠ .ok read := by
  simp only [LedgerClaimState.readLine, if_neg hne, hnone]
  cases X.unreadable (strip rawLine) <;> simp [raise]

/-- A ledger that the flow reads has no line that it breaks up. -/
lemma unbroken_of_iterEvents (h : replay X authority path (some bytes) = .ok result) (hvalid : result.valid = true)
    {events : List Json} (hiter : iterEvents X path (some bytes) = .ok events) : Unbroken bytes := by
  obtain ⟨rawLines, hlines, hread, -⟩ := lines_of_valid h hvalid
  obtain ⟨text, htext, rfl⟩ := map_eq_ok.mp hlines
  obtain ⟨read, hread', -⟩ := readLines_of_iterEvents htext hiter
  intro rawLines hrawLines rawLine hmem
  by_contra hbroken
  simp only [not_forall, Bool.not_eq_false] at hbroken
  obtain ⟨c, hc, hend⟩ := hbroken
  obtain ⟨inner, d, rest, hs, hd, hinner⟩ := exists_lineEnd ⟨c, hc, hend⟩
  obtain ⟨hpiece, hne⟩ := mem_pieces_of_lineEnd hs hd hinner
  cases hlines.symm.trans hrawLines
  have hbody : strip inner ∈ bodies (splitlines text) :=
    bodies_of_text htext ▸ List.mem_flatMap.mpr ⟨rawLine, hmem, hpiece⟩
  obtain ⟨-, part, hpart, hstrip⟩ := mem_bodies.mp hbody
  have hnone := not_readable_of_broken (noLineEnd_of_mem_text htext hmem) (hread rawLine hmem) hs hd hne
  obtain ⟨_, -, hok⟩ := (mapM_eq_ok hread').1 part hpart
  exact readLine_ne_ok (hstrip ▸ hne) (hstrip ▸ hnone) _ hok

lemma iterEvents_of_unbroken (h : replay X authority path (some bytes) = .ok result) (hvalid : result.valid = true)
    (hunbroken : Unbroken bytes) : iterEvents X path (some bytes) = .ok (ledgerEvents X bytes) := by
  obtain ⟨rawLines, hlines, hread, hevents⟩ := lines_of_valid h hvalid
  obtain ⟨text, htext, rfl⟩ := map_eq_ok.mp hlines
  have hbodies := bodies_of_text htext
  rw [flatMap_pieces_of_unbroken (hunbroken _ hlines)] at hbodies
  have hsplit : ∀ rawLine ∈ splitlines text, ReadableLine X rawLine := by
    intro rawLine hmem
    by_cases hblank : strip rawLine = []
    · exact .inl hblank
    · obtain ⟨-, rawLine', hmem', hstrip⟩ := mem_bodies.mp (hbodies ▸ mem_bodies.mpr ⟨hblank, rawLine, hmem, rfl⟩)
      exact (hread rawLine' hmem').congr hstrip
  rw [iterEvents, readLines_of_text htext hsplit, ← filterMap_bodies, hbodies, filterMap_bodies, hevents]
  rfl

/-- The flow reads the events that the gate reads from just the ledgers without a line that it breaks up. -/
theorem iterEvents_eq_readEvents_iff (h : replay X authority path (some bytes) = .ok result)
    (hvalid : result.valid = true) :
    (∃ events, LedgerClaimState.readEvents X bytes = .ok events ∧ iterEvents X path (some bytes) = .ok events) ↔
      Unbroken bytes := by
  constructor
  · rintro ⟨events, -, hiter⟩
    exact unbroken_of_iterEvents h hvalid hiter
  · intro hunbroken
    exact ⟨_, readEvents_of_valid h hvalid, iterEvents_of_unbroken h hvalid hunbroken⟩

end Reading

section Sample

open Sample

/-- A claim with a line separator in one of its texts. -/
def separated : List Draft :=
  [⟨"u1", "CLAIM_ACCEPTED", "coordinator", "2026-07-16T20:00:00Z", after 0,
      .obj [("issue", .int 1), ("note", .str "a\u2028b"), ("repository", .str "o/r"), ("session", .str "a")],
      "33c9e9b8ffc2e7fbb94bbc84e736acd96a184f465d4a67c37f4967804242b65c",
      "d81a98ef91db105de523a89983a92208c7348cab993a63347500387f0fa702fd"⟩]

lemma readable_separated (X : Externals) : ∀ draft ∈ separated, Json.All (Json.Readable X.float) draft.payload := by
  simp [separated, Json.All, Json.AllFields, Json.Readable, readable_one]

lemma labelled_separated : Labelled ["event_uuid"] (materials none separated) := by
  simp [Labelled, separated, materials, label, Draft.chainedTo, Json.get, List.lookup, Json.asStr?]

lemma checks_separated : separated.all Draft.checks = true := by
  decide

/-- The line of the claim is broken at the separator. -/
lemma separated_broken : ¬ Unbroken (ledgerBytes (chained prefixed none separated)) := by
  intro h
  have hwritable := writable_chained (readable_separated (externals [])) prefixed none
  have hline := h _ (fileLines_chained (readable_separated (externals []))) _ (List.mem_singleton_self _) '\u2028'
  rw [(hwritable _ (List.mem_singleton_self _)).strip_line] at hline
  exact absurd (hline (by decide +kernel)) (by decide)

theorem iterEvents_ne_readEvents_separated :
    ∃ result, replay (externals (digests separated)) authority "ledger.jsonl"
        (some (ledgerBytes (chained prefixed none separated))) = .ok result ∧ result.valid = true ∧
      ¬ ∃ events, LedgerClaimState.readEvents (externals (digests separated))
          (ledgerBytes (chained prefixed none separated)) = .ok events ∧
        iterEvents (externals (digests separated)) "ledger.jsonl"
          (some (ledgerBytes (chained prefixed none separated))) = .ok events := by
  obtain ⟨result, hresult, hvalid⟩ := replay_sample (readable_separated _) labelled_separated checks_separated
    (by decide) (by decide) "ledger.jsonl"
  refine ⟨result, hresult, hvalid, ?_⟩
  rintro ⟨events, -, hiter⟩
  exact separated_broken (unbroken_of_iterEvents hresult hvalid hiter)

lemma isLineEnd_of_printable {c : Char} (h : 32 ≤ c.toNat ∧ c.toNat ≤ 126) : isLineEnd c = false := by
  simp only [isLineEnd, lineEnds, decide_eq_false_iff_not, List.mem_cons, List.not_mem_nil, or_false]
  omega

theorem iterEvents_eq_readEvents_claim :
    ∃ events, LedgerClaimState.readEvents (externals (digests claim)) (ledgerBytes (chained prefixed none claim)) =
        .ok events ∧
      iterEvents (externals (digests claim)) "ledger.jsonl" (some (ledgerBytes (chained prefixed none claim))) =
        .ok events := by
  obtain ⟨result, hresult, hvalid⟩ := replay_sample (readable_claim _) labelled_claim checks_claim
    (by decide) (by decide) "ledger.jsonl"
  refine (iterEvents_eq_readEvents_iff hresult hvalid).mpr fun rawLines hlines rawLine hmem c hc => ?_
  cases (fileLines_chained (readable_claim (externals []))).symm.trans hlines
  obtain ⟨event, hevent, rfl⟩ := List.mem_map.mp hmem
  have hwritable := writable_chained (readable_claim (externals [])) prefixed none event hevent
  rw [hwritable.strip_line] at hc
  have hplain : ∀ event ∈ chained prefixed none claim,
      (canonicalEventLine event).all (fun c => decide (32 ≤ c.toNat ∧ c.toNat ≤ 126) == true) = true := by
    decide +kernel
  exact isLineEnd_of_printable (of_decide_eq_true (forall_of_all (hplain event hevent) c hc))

end Sample

end PlatformGitops.Coordination
