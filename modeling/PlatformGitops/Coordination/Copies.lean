import PlatformGitops.Coordination.AppendCas
import PlatformGitops.Coordination.ClaimChanges
import PlatformGitops.Coordination.ClaimRecords
import PlatformGitops.Coordination.Readers

/-! Copies of an event: replay counts them only once, and the readers read them as the event itself. -/

namespace PlatformGitops.Coordination

open Library Json Fallible

variable {X : Externals} {authority : Authority}

section Replay

/-- Replay has seen each event under its uuid, spelled in the canonical form. -/
def SeenAll (events : List Json) (progress : Progress) : Prop :=
  ∀ event ∈ events, progress.seenEventUuid.lookup (eventUuid event) = some (canonicalJsonBytes event)

lemma SeenAll.event {events : List Json} {event : Json} {line : Nat} {progress progress' : Progress}
    (hseen : SeenAll events progress) (h : replayEvent X authority event line progress = .ok progress') :
    SeenAll (events ++ [event]) progress' := by
  obtain ⟨-, ⟨hold, rfl⟩ | ⟨hnew, hash, committedAt, -, rfl⟩⟩ := replayEvent_cases h
  · exact List.forall_mem_append.mpr ⟨hseen, by simpa using hold⟩
  · refine List.forall_mem_append.mpr ⟨fun e he => ?_, by simp⟩
    have hne : eventUuid e ≠ eventUuid event := by
      intro heq
      have hsome := hseen e he
      rw [heq, hnew] at hsome
      cases hsome
    have hbeq : (eventUuid e == eventUuid event) = false := by simpa using hne
    simpa [List.lookup_cons, hbeq] using hseen e he

lemma SeenAll.lines {rawLines : List (List Char)} {line : Nat} {events : List Json} {progress progress' : Progress}
    (hseen : SeenAll events progress)
    (h : replayLines X authority rawLines line progress = (progress', .ok ())) :
    SeenAll (events ++ rawLines.filterMap (eventOfLine? X)) progress' := by
  induction rawLines generalizing line events progress with
  | nil =>
    cases h
    simpa using hseen
  | cons rawLine rest ih =>
    obtain ⟨next, hline, hrest⟩ := replayLines_cons h
    obtain ⟨-, hnone, rfl⟩ | ⟨event, -, hsome, hevent⟩ := replayLine_cases hline
    · rw [List.filterMap_cons_none hnone]
      exact ih hseen hrest
    · rw [List.filterMap_cons_some hsome, ← List.singleton_append, ← List.append_assoc]
      exact ih (hseen.event hevent) hrest

lemma replayLines_append {rawLines more : List (List Char)} {line : Nat} {progress middle : Progress}
    (h : replayLines X authority rawLines line progress = (middle, .ok ())) :
    replayLines X authority (rawLines ++ more) line progress =
      replayLines X authority more (line + rawLines.length) middle := by
  induction rawLines generalizing line progress with
  | nil =>
    cases h
    rfl
  | cons rawLine rest ih =>
    obtain ⟨next, hline, hrest⟩ := replayLines_cons h
    rw [List.cons_append, replayLines, hline]
    simp only [ih hrest, List.length_cons]
    congr 1
    omega

lemma requireString_of_eventUuid {event : Json} (h : eventUuid event ≠ "") (line : Nat) :
    requireString event "event_uuid" line = .ok (eventUuid event) := by
  rw [requireString, expect_eq_ok]
  unfold eventUuid at h ⊢
  cases hvalue : event.get "event_uuid" <;> simp_all [nonEmptyStr?, asStr?]

/-- An event that was seen is counted as a duplicate, and changes nothing else. -/
lemma replayEvent_seen {event : Json} {progress : Progress} (huuid : eventUuid event ≠ "")
    (hseen : progress.seenEventUuid.lookup (eventUuid event) = some (canonicalJsonBytes event)) (line : Nat) :
    replayEvent X authority event line progress =
      .ok { progress with duplicateEvents := progress.duplicateEvents + 1 } := by
  rw [replayEvent, requireString_of_eventUuid huuid, bind_eq_ok]
  refine ⟨_, rfl, ?_⟩
  simp only [hseen, bind_eq_ok]
  exact ⟨(), invalidIf_eq_ok.mpr (by simp), rfl⟩

variable {path : String} {bytes : List UInt8} {result : ReplayResult} {rawLines : List (List Char)}
  {rawLine : List Char} {event : Json}

lemma eventOfLine?_eq_some (h : eventOfLine? X rawLine = some event) :
    strip rawLine ≠ [] ∧ Json.loads X.float (strip rawLine) = some event ∧ event.asObj?.isSome = true := by
  unfold eventOfLine? at h
  split at h
  · cases h
  · rename_i hblank
    exact ⟨hblank, Option.filter_eq_some_iff.mp h⟩

lemma readEvent_of_loads {body : List Char} (h : Json.loads X.float body = some event)
    (hobj : event.asObj?.isSome = true) (line : Nat) : readEvent X body line = .ok event := by
  cases event with
  | obj fields => rw [readEvent, h]
  | _ => cases hobj

/-- The ledger with a copy of one of its lines at the end. -/
lemma replay_copied (h : replay X authority path (some bytes) = .ok result) (hvalid : result.valid = true)
    (hlines : fileLines bytes = .ok rawLines) (hmem : rawLine ∈ rawLines) (hevent : eventOfLine? X rawLine = some event) :
    ∃ result', replay X authority path (some (Text.appendLine bytes rawLine)) = .ok result' ∧ result'.valid = true ∧
      result'.validEvents = result.validEvents ∧ result'.validPrefixHash = result.validPrefixHash ∧
      fileLines (Text.appendLine bytes rawLine) = .ok (rawLines ++ [rawLine]) := by
  obtain ⟨_, rawLines', progress, hbytes, hlines', hrun, rfl⟩ := replay_eq_valid h hvalid
  cases hbytes
  obtain rfl : rawLines = rawLines' := by
    rw [hlines] at hlines'
    exact Except.ok.inj hlines'
  obtain ⟨hstrip, hloads, hobj⟩ := eventOfLine?_eq_some hevent
  have hne : rawLine ≠ [] := by
    rintro rfl
    exact hstrip rfl
  have hplain : ∀ c ∈ rawLine, c ≠ '\r' ∧ c ≠ '\n' := by
    obtain ⟨text, -, rfl⟩ := fileLines_eq_ok hlines
    exact Text.noLineEnd_of_mem_lines hmem
  have hcopied := fileLines_appendLine hlines hplain hne
  have hin : event ∈ rawLines.filterMap (eventOfLine? X) := List.mem_filterMap.mpr ⟨rawLine, hmem, hevent⟩
  have hseen : SeenAll (rawLines.filterMap (eventOfLine? X)) progress := by
    have hstart : SeenAll [] Progress.start := by simp [SeenAll]
    simpa using hstart.lines hrun
  have huuid : eventUuid event ≠ "" := by
    have hreplayed := Replayed.start.lines hrun
    exact hreplayed.uuids event (by simpa using hin)
  have hlast : replayLine X authority rawLine (1 + rawLines.length) progress =
      .ok { progress with duplicateEvents := progress.duplicateEvents + 1 } := by
    rw [replayLine, if_neg hstrip, readEvent_of_loads hloads hobj]
    exact replayEvent_seen huuid (hseen event hin) _
  have hwhole : replayLines X authority (rawLines ++ [rawLine]) 1 .start =
      ({ progress with duplicateEvents := progress.duplicateEvents + 1 }, .ok ()) := by
    rw [replayLines_append hrun, replayLines, hlast]
    rfl
  exact ⟨_, replay_of_lines hcopied hwhole path, rfl, rfl, rfl, hcopied⟩

/-- Events of a valid ledger that have one uuid are the same event. -/
lemma same_of_eventUuid (hfloat : ReadsFloats X.float) (h : replay X authority path (some bytes) = .ok result)
    (hvalid : result.valid = true) {event' : Json} (he : event ∈ ledgerEvents X bytes)
    (he' : event' ∈ ledgerEvents X bytes) (huuid : eventUuid event = eventUuid event') : Same event event' := by
  obtain ⟨_, rawLines', progress, hbytes, hlines', hrun, rfl⟩ := replay_eq_valid h hvalid
  cases hbytes
  obtain ⟨text, htext, rfl⟩ := fileLines_eq_ok hlines'
  have hseen : SeenAll (ledgerEvents X bytes) progress := by
    have hstart : SeenAll [] Progress.start := by simp [SeenAll]
    simpa [ledgerEvents, htext] using hstart.lines hrun
  have hbytes := hseen event he
  rw [huuid, hseen event' he'] at hbytes
  exact same_of_dumps_eq (readable_of_mem_ledgerEvents hfloat he) (readable_of_mem_ledgerEvents hfloat he')
    (Text.encode_injective (Option.some.inj hbytes).symm)

/-- The uuid of an event of a valid ledger is a text. -/
lemma get_event_uuid (h : replay X authority path (some bytes) = .ok result) (hvalid : result.valid = true)
    (he : event ∈ ledgerEvents X bytes) : event.get "event_uuid" = .str (eventUuid event) ∧ eventUuid event ≠ "" := by
  obtain ⟨_, progress, hbytes, hreplayed, -, -⟩ := replayed_of_valid h hvalid
  cases hbytes
  have hne := hreplayed.uuids event he
  refine ⟨?_, hne⟩
  unfold eventUuid at hne ⊢
  cases hvalue : event.get "event_uuid" <;> simp_all [asStr?]

end Replay

section Readings

variable {v w v' w' : Json} {event event' : Json}

lemma truthy_same (h : Same v w) : truthy v = truthy w := by
  rcases h.cases with rfl | ⟨xs, ys, rfl, rfl, hnil⟩ | ⟨fields, fields', rfl, rfl, hnil⟩
  · rfl
  · simp [truthy, hnil]
  · simp [truthy, hnil]

lemma orElse_same (h : Same v w) (h' : Same v' w') : Same (orElse v v') (orElse w w') := by
  simp only [orElse, truthy_same h]
  split
  · exact h
  · exact h'

lemma nonEmptyStr?_same (h : Same v w) : nonEmptyStr? v = nonEmptyStr? w := by
  rcases h.cases with rfl | ⟨xs, ys, rfl, rfl, -⟩ | ⟨fields, fields', rfl, rfl, -⟩ <;> rfl

lemma asStrictInt?_same (h : Same v w) : v.asStrictInt? = w.asStrictInt? := by
  rcases h.cases with rfl | ⟨xs, ys, rfl, rfl, -⟩ | ⟨fields, fields', rfl, rfl, -⟩ <;> rfl

lemma intOr_same (h : Same v w) (default : Int) : intOr X v default = intOr X w default := by
  rcases h.cases with rfl | ⟨xs, ys, rfl, rfl, hnil⟩ | ⟨fields, fields', rfl, rfl, hnil⟩
  · rfl
  · simp [intOr, truthy, toInt, hnil]
  · simp [intOr, truthy, toInt, hnil]

lemma eventKind_same (h : Same v w) : LedgerClaimState.eventKind v = LedgerClaimState.eventKind w := by
  rcases h.cases with rfl | ⟨xs, ys, rfl, rfl, -⟩ | ⟨fields, fields', rfl, rfl, -⟩ <;> rfl

lemma payload_same (h : Same event event') (hd : Distinct event) :
    Same (LedgerClaimState.payload event) (LedgerClaimState.payload event') ∧
      Distinct (LedgerClaimState.payload event) := by
  have hget := h.get hd "payload"
  have hdget := distinct_get hd "payload"
  unfold LedgerClaimState.payload
  rcases hget.cases with heq | ⟨xs, ys, hv, hw, -⟩ | ⟨fields, fields', hv, hw, -⟩
  · rw [heq] at hdget ⊢
    refine ⟨.refl _, ?_⟩
    cases hvalue : event'.get "payload" with
    | obj fields =>
      rw [hvalue] at hdget
      exact hdget
    | _ => simp [Distinct, All, DistinctKeys, AllFields]
  · rw [hv, hw]
    exact ⟨.refl _, by simp [Distinct, All, DistinctKeys, AllFields]⟩
  · rw [hv] at hget hdget
    rw [hw] at hget
    rw [hv, hw]
    exact ⟨hget, hdget⟩

lemma payloadSession_same (h : Same v w) (hd : Distinct v) (keys : List String) :
    LedgerClaimState.payloadSession v keys = LedgerClaimState.payloadSession w keys := by
  have hkey : (fun key => nonEmptyStr? (v.get key)) = fun key => nonEmptyStr? (w.get key) := by
    funext key
    exact nonEmptyStr?_same (h.get hd key)
  rw [LedgerClaimState.payloadSession, LedgerClaimState.payloadSession, hkey]

lemma parseUtcZ_same (h : Same v w) (fieldName : String) :
    LedgerClaimState.parseUtcZ X v fieldName = LedgerClaimState.parseUtcZ X w fieldName ∧
      ReapLedgerState.parseUtcZ X v fieldName = ReapLedgerState.parseUtcZ X w fieldName := by
  rcases h.cases with rfl | ⟨xs, ys, rfl, rfl, -⟩ | ⟨fields, fields', rfl, rfl, -⟩ <;> exact ⟨rfl, rfl⟩

lemma leaseOf_same (h : Same v w) (hd : Distinct v) (committedAt : Option CrossAi.IsoDatetime) :
    LedgerClaimState.leaseOf X v committedAt = LedgerClaimState.leaseOf X w committedAt := by
  have hexpires := orElse_same (h.get hd "claim_expires_at") (h.get hd "expires_at")
  rw [LedgerClaimState.leaseOf, LedgerClaimState.leaseOf, (parseUtcZ_same hexpires _).1,
    intOr_same (h.get hd "heartbeat_interval_minutes"), intOr_same (h.get hd "heartbeat_grace_minutes")]

/-- The gate makes of a copy what it makes of the event. -/
lemma changeOf_same (h : Same event event') (hd : Distinct event)
    (huuid : event.get "event_uuid" = event'.get "event_uuid") (repo : String) (issue : Int) :
    LedgerClaimState.changeOf X repo issue event = LedgerClaimState.changeOf X repo issue event' := by
  obtain ⟨hpayload, hdpayload⟩ := payload_same h hd
  have hsession := payloadSession_same hpayload hdpayload
  have hissue : LedgerClaimState.matchesIssue (LedgerClaimState.payload event) repo issue ↔
      LedgerClaimState.matchesIssue (LedgerClaimState.payload event') repo issue := by
    simp only [LedgerClaimState.matchesIssue, LedgerClaimState.payloadRepo, LedgerClaimState.payloadIssue,
      nonEmptyStr?_same (orElse_same (hpayload.get hdpayload "repository") (hpayload.get hdpayload "repo")),
      asStrictInt?_same (hpayload.get hdpayload "issue")]
  have hkind : ∀ kind committedAt,
      LedgerClaimState.changeOfKind X kind (LedgerClaimState.payload event) (event.get "event_uuid") committedAt =
        LedgerClaimState.changeOfKind X kind (LedgerClaimState.payload event') (event'.get "event_uuid") committedAt := by
    intro kind committedAt
    cases kind <;> simp only [LedgerClaimState.changeOfKind, LedgerClaimState.claimSession, LedgerClaimState.oldSession,
      LedgerClaimState.newSession, LedgerClaimState.grantOf, hsession, huuid, leaseOf_same hpayload hdpayload]
  simp only [LedgerClaimState.changeOf, hissue, hkind, (parseUtcZ_same (h.get hd "committed_at") _).1,
    eventKind_same (h.get hd "event_type")]

lemma keyOf_same (h : Same v w) (hd : Distinct v) : ReapLedgerState.keyOf v = ReapLedgerState.keyOf w := by
  simp only [ReapLedgerState.keyOf, ReapLedgerState.payloadIssue, ReapLedgerState.payloadSession,
    ReapLedgerState.payloadRepository, asStrictInt?_same (h.get hd "issue"),
    nonEmptyStr?_same (orElse_same (h.get hd "session") (h.get hd "claim_session")),
    nonEmptyStr?_same (orElse_same (h.get hd "repository") (h.get hd "repo"))]

lemma ofType_same (h : Same event event') (hd : Distinct event) (eventType : String) :
    OfType eventType event ↔ OfType eventType event' := by
  rw [OfType, OfType]
  rcases (h.get hd "event_type").cases with heq | ⟨xs, ys, hv, hw, -⟩ | ⟨fields, fields', hv, hw, -⟩
  · rw [heq]
  · simp [hv, hw]
  · simp [hv, hw]

lemma buildClaimState_same (h : Same event event') (hd : Distinct event)
    (huuid : event.get "event_uuid" = event'.get "event_uuid") :
    ReapLedgerState.buildClaimState X event = ReapLedgerState.buildClaimState X event' := by
  have hpayload := h.get hd "payload"
  have hdpayload := distinct_get hd "payload"
  have hcommitted := fun fieldName => (parseUtcZ_same (X := X) (h.get hd "committed_at") fieldName).2
  rcases hpayload.cases with heq | ⟨xs, ys, hv, hw, -⟩ | ⟨fields, fields', hv, hw, -⟩
  · unfold ReapLedgerState.buildClaimState
    rw [heq, hcommitted, huuid]
  · simp [ReapLedgerState.buildClaimState, hv, hw]
  · rw [hv] at hpayload hdpayload
    rw [hw] at hpayload
    have hexpires := orElse_same (hpayload.get hdpayload "claim_expires_at") (hpayload.get hdpayload "expires_at")
    simp only [ReapLedgerState.buildClaimState, hv, hw, ReapLedgerState.payloadIssue, ReapLedgerState.payloadSession,
      ReapLedgerState.payloadRepository, asStrictInt?_same (hpayload.get hdpayload "issue"),
      nonEmptyStr?_same (orElse_same (hpayload.get hdpayload "session") (hpayload.get hdpayload "claim_session")),
      nonEmptyStr?_same (orElse_same (hpayload.get hdpayload "repository") (hpayload.get hdpayload "repo")),
      truthy_same hexpires, (parseUtcZ_same hexpires _).2, hcommitted, ReapLedgerState.safeInt,
      asStrictInt?_same (hpayload.get hdpayload "heartbeat_interval_minutes"),
      asStrictInt?_same (hpayload.get hdpayload "heartbeat_grace_minutes"), huuid]

/-- And so does the reaper. -/
lemma markOf_same (h : Same event event') (hd : Distinct event)
    (huuid : event.get "event_uuid" = event'.get "event_uuid") :
    ReapLedgerState.markOf X event = ReapLedgerState.markOf X event' := by
  have hpayload := h.get hd "payload"
  have hdpayload := distinct_get hd "payload"
  have htouch : ReapLedgerState.touchOf X event = ReapLedgerState.touchOf X event' := by
    funext key
    simp only [ReapLedgerState.touchOf, eventKind_same (h.get hd "event_type"),
      (parseUtcZ_same (h.get hd "committed_at") _).2, huuid]
  rcases hpayload.cases with heq | ⟨xs, ys, hv, hw, -⟩ | ⟨fields, fields', hv, hw, -⟩
  · simp only [ReapLedgerState.markOf, heq, ofType_same h hd, buildClaimState_same h hd huuid, htouch]
  · simp [ReapLedgerState.markOf, hv, hw]
  · rw [hv] at hpayload hdpayload
    rw [hw] at hpayload
    simp only [ReapLedgerState.markOf, hv, hw, ofType_same h hd, buildClaimState_same h hd huuid, htouch,
      keyOf_same hpayload hdpayload]

end Readings

end PlatformGitops.Coordination
