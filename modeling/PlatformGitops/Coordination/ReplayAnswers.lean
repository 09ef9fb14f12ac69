import PlatformGitops.Coordination.Written
import PlatformGitops.Library.PyJson

/-! The replay of a ledger file whose lines are any texts, and the lines at which it ends in an exception instead of an
answer. -/

namespace PlatformGitops.Coordination

open Library
open CrossAi (IsoDatetime minute)

section Model

variable (X : Externals) (decodeMessage : List Char → String) (authority : Authority)

def readEventText (lineBody : List Char) (line : Nat) : Except Failure PyJson :=
  match PyJson.loads X.float lineBody with
  | .error .decode => invalid line ("invalid JSON: " ++ decodeMessage lineBody)
  | .error .tooManyDigits => raise .valueError
  | .ok v => if v.isObj then .ok v else invalid line "ledger line must be a JSON object"

/-- An event in which a surrogate is left is refused for its uuid, or cannot be encoded. -/
def encodableEvent (event : PyJson) (line : Nat) : Except Failure Json :=
  match event.narrow with
  | some v => .ok v
  | none =>
    if (event.get "event_uuid").isNonEmptyStr then raise .unicodeError
    else invalid line "event_uuid must be a non-empty string"

def replayTextLine (rawLine : List Char) (line : Nat) (progress : Progress) : Except Failure Progress :=
  if strip rawLine = [] then .ok progress
  else do
    let event ← readEventText X decodeMessage (strip rawLine) line
    let event ← encodableEvent event line
    replayEvent X authority event line progress

def replayTextLines : List (List Char) → Nat → Progress → Progress × Except Failure Unit
  | [], _, progress => (progress, .ok ())
  | rawLine :: rest, line, progress =>
    match replayTextLine X decodeMessage authority rawLine line progress with
    | .ok progress' => replayTextLines rest (line + 1) progress'
    | .error failure => (progress, .error failure)

/-- `replay`, of a file whose texts may hold surrogates. -/
def replayText (path : String) (file : Option (List UInt8)) : Except Failure ReplayResult :=
  match file with
  | none => .ok (Progress.start.result path false none (some "file not found"))
  | some bytes => do
    let (progress, outcome) := replayTextLines X decodeMessage authority (← fileLines bytes) 1 .start
    match outcome with
    | .ok () => .ok (progress.result path true none none)
    | .error (.ledgerInvalid line reason) => .ok (progress.result path false (some line) (some reason))
    | .error failure => .error failure

end Model

section Agreement

variable {X : Externals} {decodeMessage : List Char → String} {authority : Authority} {progress : Progress}
  {rawLine : List Char} {line : Nat}

lemma replayTextLine_eq {v : Json} (h : Json.loads X.float (strip rawLine) = some v) :
    replayTextLine X decodeMessage authority rawLine line progress = replayLine X authority rawLine line progress := by
  rw [replayTextLine, replayLine, readEventText, readEvent, PyJson.loads_wide h, h]
  cases v with
  | obj fields =>
    have hnarrow := PyJson.narrow_wide (.obj fields)
    rw [PyJson.wide] at hnarrow
    simp only [PyJson.wide, PyJson.isObj, if_true, encodableEvent, hnarrow, bind, Except.bind]
  | _ => rfl

/-- Files of values without surrogates are replayed as before. -/
lemma replayTextLines_eq {lines : List (List Char)}
    (h : ∀ rawLine ∈ lines, strip rawLine = [] ∨ ∃ v, Json.loads X.float (strip rawLine) = some v) :
    replayTextLines X decodeMessage authority lines line progress = replayLines X authority lines line progress := by
  induction lines generalizing line progress with
  | nil => rfl
  | cons rawLine lines ih =>
    obtain ⟨hline, hlines⟩ := List.forall_mem_cons.mp h
    have heq : replayTextLine X decodeMessage authority rawLine line progress =
        replayLine X authority rawLine line progress := by
      rcases hline with hblank | ⟨v, hv⟩
      · rw [replayTextLine, replayLine, if_pos hblank, if_pos hblank]
      · exact replayTextLine_eq hv
    rw [replayTextLines, replayLines, heq]
    cases replayLine X authority rawLine line progress with
    | ok progress' => exact ih hlines
    | error failure => rfl

end Agreement

section Conditions

variable (X : Externals) (authority : Authority)

/-- What is checked of an event before its time is compared: its payload's hash and its time. -/
def eventHead (event : Json) (line : Nat) (lastHash : Option String) (validEvents : Nat) :
    Except Failure (String × IsoDatetime) := do
  let schemaVersion ← requireString event "schemaVersion" line
  invalidIf (schemaVersion ≠ expectedEventSchema) line ("schemaVersion must be " ++ expectedEventSchema)
  let eventType ← requireString event "event_type" line
  let writers ← Fallible.expect (authority.lookup eventType)
    (.ledgerInvalid line ("unknown event_type " ++ X.repr (.str eventType)))
  let writerRole ← requireString event "writer_role" line
  invalidIf (writerRole ∉ writers) line
    ("writer_role " ++ X.repr (.str writerRole) ++ " is not authorized for " ++ eventType ++ "; allowed=" ++
      ", ".intercalate (writers.dedup.insertionSort (Json.codePointLe · ·)))
  let payload ← Fallible.expect (event.get "payload").asObj? (.ledgerInvalid line "payload must be an object")
  let expectedPayloadHash := sha256Hex X (.obj payload)
  let actualPayloadHash ← normalizeHash (event.get "payload_hash") "payload_hash" line
  invalidIf (actualPayloadHash ≠ expectedPayloadHash) line
    ("payload_hash mismatch expected=sha256:" ++ expectedPayloadHash ++ " actual=sha256:" ++ actualPayloadHash)
  let previousEventHash ← normalizeNullableHash (event.get "previous_event_hash") "previous_event_hash" line
  checkPrevious line validEvents lastHash previousEventHash
  let committedAt ← parseCommittedAt X (event.get "committed_at") line
  pure (expectedPayloadHash, committedAt)

/-- What is checked of an event behind its times. -/
def eventTail (event : Json) (line : Nat) (committedAt : IsoDatetime) : Except Failure (String × IsoDatetime) := do
  let expectedEventHash := sha256Hex X (hashMaterial event)
  let actualEventHash ← normalizeHash (event.get "event_hash") "event_hash" line
  invalidIf (actualEventHash ≠ expectedEventHash) line
    ("event_hash mismatch expected=sha256:" ++ expectedEventHash ++ " actual=sha256:" ++ actualEventHash)
  pure (expectedEventHash, committedAt)

/-- What is checked of a bound comment before its time is compared: its time and the tolerance. -/
def commentHead (binding : Json) (line : Nat) (expectedPayloadHash : String) :
    Except Failure (IsoDatetime × String × Int) := do
  let surface ← requireCommentString binding "surface" line
  invalidIf (surface ≠ "github_issue_comment") line "comment_binding.surface must be github_issue_comment"
  let repository ← requireCommentString binding "repository" line
  invalidIf ('/' ∉ repository.toList) line "comment_binding.repository must be owner/repo"
  requirePositiveInt (binding.get "issue") "issue" line
  requirePositiveInt (binding.get "comment_id") "comment_id" line
  requirePositiveInt (binding.get "author_id") "author_id" line
  let _ ← requireCommentString binding "author_login" line
  let _ ← requireCommentString binding "author_type" line
  let _ ← normalizeHash (binding.get "raw_body_hash") "comment_binding.raw_body_hash" line
  let actualPayloadHash ← normalizeHash (binding.get "payload_hash") "comment_binding.payload_hash" line
  invalidIf (actualPayloadHash ≠ expectedPayloadHash) line
    ("comment_binding.payload_hash mismatch expected=sha256:" ++ expectedPayloadHash ++ " actual=sha256:" ++
      actualPayloadHash)
  let createdAt ← parseCommittedAt X (binding.get "created_at") line
  let updatedAt ← parseCommittedAt X (binding.get "updated_at") line
  invalidIf (¬ sameTime updatedAt createdAt) line "comment_binding.updated_at must equal created_at"
  let verificationMode ← requireCommentString binding "verification_mode" line
  let expectedTolerance ← Fallible.expect (commentBindingToleranceMinutes verificationMode)
    (.ledgerInvalid line "comment_binding.verification_mode must be one of: degraded, normal, recovery")
  let tolerance := binding.get "timestamp_tolerance_minutes"
  invalidIf (¬ equalsInt expectedTolerance tolerance) line
    ("comment_binding.timestamp_tolerance_minutes mismatch expected=" ++ toString expectedTolerance ++ " actual=" ++
      X.str tolerance)
  pure (createdAt, verificationMode, expectedTolerance)

/-- Both times have a zone, or neither has one. -/
def SameKind (a b : IsoDatetime) : Prop := a.utcoffset.isSome = b.utcoffset.isSome

/-- The times of an event that are compared are of one kind. -/
def TimesComparable (event : Json) (line : Nat) (progress : Progress) : Prop :=
  ∀ payloadHash committedAt,
    eventHead X authority event line progress.lastHash progress.validEvents = .ok (payloadHash, committedAt) →
    (∀ last, progress.lastCommittedAt = some last → SameKind committedAt last) ∧
    (checkOrder X line progress.lastCommittedAt committedAt = .ok () →
      ∀ fields, event.get "comment_binding" = .obj fields →
        ∀ createdAt mode tolerance, commentHead X (.obj fields) line payloadHash = .ok (createdAt, mode, tolerance) →
          SameKind createdAt committedAt)

/-- A line can be read and hashed, and its times can be compared. -/
def LineAnswerable (rawLine : List Char) (line : Nat) (progress : Progress) : Prop :=
  strip rawLine ≠ [] →
    PyJson.loads X.float (strip rawLine) ≠ .error .tooManyDigits ∧
    ∀ v, PyJson.loads X.float (strip rawLine) = .ok v → v.isObj = true →
      (v.narrow = none → (v.get "event_uuid").isNonEmptyStr = false) ∧
      ∀ event, v.narrow = some event → ∀ uuid, nonEmptyStr? (event.get "event_uuid") = some uuid →
        progress.seenEventUuid.lookup uuid = none → TimesComparable X authority event line progress

end Conditions

section Answers

/-- A computation returns, or refuses a line of the ledger. -/
def Answered {α : Type} : Except Failure α → Prop
  | .ok _ => True
  | .error (.ledgerInvalid _ _) => True
  | .error _ => False

variable {α β : Type} {line : Nat} {reason : String}

lemma answered_ok (a : α) : Answered (.ok a) := trivial

lemma answered_pure (a : α) : Answered (pure a) := trivial

lemma answered_invalid : Answered (invalid line reason : Except Failure α) := trivial

lemma not_answered_raise {error : PyError} : ¬ Answered (raise error : Except Failure α) := id

lemma answered_invalidIf {bad : Prop} [Decidable bad] : Answered (invalidIf bad line reason) := by
  by_cases h : bad
  · rw [invalidIf, Fallible.rejectIf, if_pos h]
    trivial
  · rw [invalidIf, Fallible.rejectIf, if_neg h]
    trivial

lemma answered_expect {x : Option α} : Answered (Fallible.expect x (.ledgerInvalid line reason)) := by
  cases x <;> trivial

lemma answered_bind {x : Except Failure α} {f : α → Except Failure β} :
    Answered (x >>= f) ↔ Answered x ∧ ∀ a, x = .ok a → Answered (f a) := by
  cases x with
  | ok a => simp [bind, Except.bind, Answered]
  | error failure => cases failure <;> simp [bind, Except.bind, Answered]

lemma answered_map {x : Except Failure α} {f : α → β} : Answered (f <$> x) ↔ Answered x := by
  cases x with
  | ok a => rfl
  | error failure => cases failure <;> rfl

variable {X : Externals} {authority : Authority} {event : Json} {field : String}

lemma answered_requireString : Answered (requireString event field line) := answered_expect

lemma answered_requireCommentString : Answered (requireCommentString event field line) := answered_expect

lemma answered_requirePositiveInt : Answered (requirePositiveInt event field line) := answered_invalidIf

lemma answered_normalizeHash : Answered (normalizeHash event field line) := by
  unfold normalizeHash
  split
  · exact answered_expect
  · exact answered_invalid

lemma answered_normalizeNullableHash : Answered (normalizeNullableHash event field line) := by
  unfold normalizeNullableHash
  split
  · exact answered_ok none
  · exact answered_map.mpr answered_normalizeHash

lemma answered_checkPrevious {validEvents : Nat} {lastHash previous : Option String} :
    Answered (checkPrevious line validEvents lastHash previous) := by
  unfold checkPrevious
  split
  · exact answered_invalidIf
  · exact answered_invalidIf

lemma answered_parseCommittedAt : Answered (parseCommittedAt X event line) := by
  unfold parseCommittedAt
  split
  · split
    · split
      · exact answered_ok _
      · exact answered_invalid
    · exact answered_invalid
  · exact answered_invalid

lemma answered_eventHead {lastHash : Option String} {validEvents : Nat} :
    Answered (eventHead X authority event line lastHash validEvents) := by
  simp only [eventHead, answered_bind, answered_requireString, answered_invalidIf, answered_expect,
    answered_normalizeHash, answered_normalizeNullableHash, answered_checkPrevious, answered_parseCommittedAt,
    answered_pure, implies_true, and_self]

lemma answered_eventTail {committedAt : IsoDatetime} : Answered (eventTail X event line committedAt) := by
  simp only [eventTail, answered_bind, answered_normalizeHash, answered_invalidIf, answered_pure, implies_true, and_self]

lemma answered_commentHead {payloadHash : String} : Answered (commentHead X event line payloadHash) := by
  simp only [commentHead, answered_bind, answered_requireCommentString, answered_invalidIf, answered_expect,
    answered_requirePositiveInt, answered_normalizeHash, answered_parseCommittedAt, answered_pure, implies_true, and_self]

lemma answered_checkOrder {last : Option IsoDatetime} {committedAt : IsoDatetime} :
    Answered (checkOrder X line last committedAt) ↔ ∀ l, last = some l → SameKind committedAt l := by
  cases last with
  | none => simp [checkOrder, answered_ok]
  | some l =>
    rw [checkOrder, answered_bind]
    by_cases h : SameKind committedAt l
    · have hbefore : before committedAt l = .ok (committedAt.instant < l.instant) := if_pos h
      simp [hbefore, answered_ok, answered_invalidIf, h]
    · have hbefore : before committedAt l = raise .typeError := if_neg h
      simp [hbefore, not_answered_raise, h]

lemma validateBoundComment_eq {payloadHash : String} {committedAt : IsoDatetime} :
    validateBoundComment X event line payloadHash committedAt =
      commentHead X event line payloadHash >>= fun p => since p.1 committedAt >>= fun delta =>
        invalidIf (delta.natAbs > p.2.2 * minute) line
          ("comment_binding.created_at outside tolerance mode=" ++ p.2.1 ++ " tolerance_minutes=" ++ toString p.2.2) := by
  simp only [validateBoundComment, commentHead, bind_assoc, pure_bind]

lemma answered_since {a b : IsoDatetime} : Answered (since a b) ↔ SameKind a b := by
  by_cases h : SameKind a b
  · have hsince : since a b = .ok (a.instant - b.instant) := if_pos h
    simp [hsince, answered_ok, h]
  · have hsince : since a b = raise .typeError := if_neg h
    simp [hsince, not_answered_raise, h]

lemma answered_validateCommentBinding {payloadHash : String} {committedAt : IsoDatetime} :
    Answered (validateCommentBinding X event line payloadHash committedAt) ↔
      ∀ fields, event.get "comment_binding" = .obj fields → ∀ createdAt mode tolerance,
        commentHead X (.obj fields) line payloadHash = .ok (createdAt, mode, tolerance) → SameKind createdAt committedAt := by
  unfold validateCommentBinding
  split
  · rename_i hnull
    simp [hnull, answered_ok]
  · rename_i fields hobj
    rw [validateBoundComment_eq]
    simp only [answered_bind, answered_commentHead, answered_since, answered_invalidIf, implies_true, and_true, true_and,
      Prod.forall, hobj, Json.obj.injEq, forall_eq']
  · rename_i hother
    refine ⟨fun _ fields hobj => absurd hobj (hother fields), fun _ => answered_invalid⟩

lemma validateNewEvent_eq {last : Option IsoDatetime} {lastHash : Option String} {validEvents : Nat} :
    validateNewEvent X authority event line lastHash last validEvents =
      eventHead X authority event line lastHash validEvents >>= fun p => checkOrder X line last p.2 >>= fun _ =>
        validateCommentBinding X event line p.1 p.2 >>= fun _ => eventTail X event line p.2 := by
  simp only [validateNewEvent, eventHead, eventTail, bind_assoc, pure_bind]

variable {progress : Progress}

lemma answered_validateNewEvent :
    Answered (validateNewEvent X authority event line progress.lastHash progress.lastCommittedAt progress.validEvents) ↔
      TimesComparable X authority event line progress := by
  rw [validateNewEvent_eq]
  simp only [answered_bind, answered_eventHead, answered_checkOrder, answered_validateCommentBinding, answered_eventTail,
    implies_true, and_true, true_and, Prod.forall, TimesComparable, Unique.forall_iff, PUnit.default_eq_unit]

lemma answered_replayEvent :
    Answered (replayEvent X authority event line progress) ↔
      ∀ uuid, nonEmptyStr? (event.get "event_uuid") = some uuid → progress.seenEventUuid.lookup uuid = none →
        TimesComparable X authority event line progress := by
  simp only [replayEvent, answered_bind, requireString, answered_expect, true_and, Fallible.expect_eq_ok]
  refine forall_congr' fun uuid => imp_congr_right fun _ => ?_
  cases hseen : progress.seenEventUuid.lookup uuid with
  | some previous => simp [answered_map, answered_invalidIf]
  | none => simp [answered_map, answered_validateNewEvent]

variable {decodeMessage : List Char → String} {rawLine : List Char}

lemma answered_replayTextLine :
    Answered (replayTextLine X decodeMessage authority rawLine line progress) ↔
      LineAnswerable X authority rawLine line progress := by
  rw [replayTextLine, LineAnswerable]
  by_cases hblank : strip rawLine = []
  · simp [hblank, answered_ok]
  · rw [if_neg hblank, answered_bind, readEventText]
    simp only [hblank, ne_eq, not_false_iff, forall_const]
    cases hread : PyJson.loads X.float (strip rawLine) with
    | error e =>
      cases e with
      | decode => simp [answered_invalid]
      | tooManyDigits => simp [not_answered_raise]
    | ok v =>
      cases hobj : v.isObj with
      | false => simp [hobj, answered_invalid]
      | true =>
        simp only [hobj, if_true, answered_ok, true_and, Except.ok.injEq, forall_eq', forall_const, answered_bind,
          encodableEvent, reduceCtorEq, not_false_iff]
        cases hnarrow : v.narrow with
        | some event => simp [answered_ok, answered_replayEvent]
        | none =>
          cases huuid : (v.get "event_uuid").isNonEmptyStr with
          | true => simp [not_answered_raise]
          | false => simp [answered_invalid]

/-- A run over lines ends in an answer exactly if each line it comes to can be answered. -/
lemma answered_replayTextLines {lines : List (List Char)} :
    Answered (replayTextLines X decodeMessage authority lines line progress).2 ↔
      ∀ before rawLine after progress', lines = before ++ rawLine :: after →
        replayTextLines X decodeMessage authority before line progress = (progress', .ok ()) →
          LineAnswerable X authority rawLine (line + before.length) progress' := by
  induction lines generalizing line progress with
  | nil => simp [replayTextLines, answered_ok]
  | cons rawLine lines ih =>
    have hfirst : Answered (replayTextLine X decodeMessage authority rawLine line progress) ↔
        LineAnswerable X authority rawLine line progress := answered_replayTextLine
    rw [replayTextLines]
    cases hline : replayTextLine X decodeMessage authority rawLine line progress with
    | error failure =>
      rw [hline] at hfirst
      constructor
      · intro h before rawLine' after progress' heq hrun
        cases before with
        | nil =>
          obtain ⟨rfl, rfl⟩ := List.cons.inj heq
          cases hrun
          refine hfirst.mp ?_
          cases failure <;> exact h
        | cons r before =>
          obtain ⟨rfl, -⟩ := List.cons.inj heq
          rw [replayTextLines, hline] at hrun
          cases hrun
      · intro h
        have hanswered := hfirst.mpr (h [] rawLine lines progress rfl rfl)
        cases failure <;> exact hanswered
    | ok next =>
      rw [hline] at hfirst
      constructor
      · intro h before rawLine' after progress' heq hrun
        cases before with
        | nil =>
          obtain ⟨rfl, rfl⟩ := List.cons.inj heq
          cases hrun
          exact hfirst.mp (answered_ok next)
        | cons r before =>
          obtain ⟨rfl, htail⟩ := List.cons.inj heq
          rw [replayTextLines, hline] at hrun
          have hlater := ih.mp h before rawLine' after progress' htail hrun
          rwa [Nat.add_assoc, Nat.add_comm 1] at hlater
      · intro h
        refine ih.mpr fun before rawLine' after progress' heq hrun => ?_
        have hlater := h (rawLine :: before) rawLine' after progress' (by rw [heq]; rfl)
          (by rw [replayTextLines, hline]; exact hrun)
        rwa [List.length_cons, Nat.add_comm before.length, ← Nat.add_assoc] at hlater

end Answers

def surrogateLine : List Char :=
  ['\x7b', '"', 'e', 'v', 'e', 'n', 't', '_', 'u', 'u', 'i', 'd', '"', ':', '"', '\\', 'u', 'd', '8', '0', '0', '"', '\x7d']

lemma fileLines_surrogate : fileLines (Text.encode (surrogateLine ++ ['\n'])) = .ok [surrogateLine] := by
  rw [fileLines, readText, Text.decode?_encode]
  decide +kernel

lemma surrogate_raises : replayTextLine (Sample.externals []) (fun _ => "Expecting value") [] surrogateLine 1 .start =
    .error (.raised .unicodeError) := by
  have hread : PyJson.loads (Sample.externals []).float (strip surrogateLine) =
      .ok (.obj [(PyJson.codePoints "event_uuid", .str [0xD800])]) := by rfl
  rw [replayTextLine, readEventText, hread]
  rfl

end PlatformGitops.Coordination
