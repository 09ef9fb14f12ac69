import PlatformGitops.Coordination.Replay
import PlatformGitops.Library.Logs

/-! What replay accepts: the events of a ledger, each with a new uuid chained to the one before. -/

namespace PlatformGitops.Coordination

open Library Fallible
open CrossAi (IsoDatetime)

variable (X : Externals)

def eventOfLine? (rawLine : List Char) : Option Json :=
  if strip rawLine = [] then none else (Json.loads X.float (strip rawLine)).filter fun v => v.asObj?.isSome

/-- The events of a ledger, in the order of their lines. -/
def ledgerEvents (bytes : List UInt8) : List Json :=
  ((Text.decode? bytes).map fun text => (Text.lines (Text.universalNewlines text)).filterMap (eventOfLine? X)).getD []

def eventUuid (event : Json) : String := ((event.get "event_uuid").asStr?).getD ""

/-- The events whose uuid no event before them has. -/
def firstOccurrences : List String → List Json → List Json
  | _, [] => []
  | seen, event :: events =>
    if eventUuid event ∈ seen then firstOccurrences seen events
    else event :: firstOccurrences (eventUuid event :: seen) events

lemma firstOccurrences_concat (seen : List String) (events : List Json) (event : Json) :
    firstOccurrences seen (events ++ [event]) = firstOccurrences seen events ++
      (if eventUuid event ∈ seen ∨ eventUuid event ∈ events.map eventUuid then [] else [event]) := by
  induction events generalizing seen with
  | nil => simp [firstOccurrences]
  | cons e events ih =>
    simp only [List.cons_append, firstOccurrences, ih, List.mem_cons, List.map_cons]
    by_cases he : eventUuid e ∈ seen
    · simp only [he, if_true]
      by_cases heq : eventUuid event = eventUuid e
      · simp [heq, he]
      · simp [heq]
    · by_cases heq : eventUuid event = eventUuid e
      · simp [heq, he]
      · simp [heq, he]

def previousHash? (event : Json) : Option String := (event.get "previous_event_hash").asStr?.bind matchHash?

def eventHash? (event : Json) : Option String := (event.get "event_hash").asStr?.bind matchHash?

def eventDigest (event : Json) : String := sha256Hex X (hashMaterial event)

lemma normalizeHash_eq_ok {value : Json} {field : String} {line : Nat} {hash : String}
    (h : normalizeHash value field line = .ok hash) : value.asStr?.bind matchHash? = some hash := by
  cases value <;> simp_all [normalizeHash, Json.asStr?]

lemma normalizeNullableHash_eq_ok {value : Json} {field : String} {line : Nat} {hash : Option String}
    (h : normalizeNullableHash value field line = .ok hash) : value.asStr?.bind matchHash? = hash := by
  cases value with
  | null => simpa [normalizeNullableHash, Json.asStr?] using h
  | str s => 
    simp only [normalizeNullableHash] at h
    cases hs : normalizeHash (.str s) field line with
    | error e => simp [hs] at h
    | ok digits =>
      have hmatch := normalizeHash_eq_ok hs
      simp_all
  | _ => simp [normalizeNullableHash, normalizeHash, invalid] at h

lemma requireString_eq_ok {event : Json} {field : String} {line : Nat} {s : String}
    (h : requireString event field line = .ok s) : event.get field = .str s ∧ s ≠ "" := by
  simp only [requireString, expect_eq_ok] at h
  cases hvalue : event.get field <;> simp_all [nonEmptyStr?]
  obtain ⟨hne, rfl⟩ := h
  exact hne

variable {X} {authority : Authority}

lemma checkPrevious_eq_ok {line validEvents : Nat} {lastHash previous : Option String} {u : Unit}
    (h : checkPrevious line validEvents lastHash previous = .ok u) :
    previous = if validEvents = 0 then none else lastHash := by
  unfold checkPrevious at h
  split at h <;> simp_all

lemma validateNewEvent_eq_ok {event : Json} {line : Nat} {lastHash : Option String}
    {lastCommittedAt : Option IsoDatetime} {validEvents : Nat} {out : String × IsoDatetime}
    (h : validateNewEvent X authority event line lastHash lastCommittedAt validEvents = .ok out) :
    out.1 = eventDigest X event ∧ eventHash? event = some out.1 ∧
      previousHash? event = (if validEvents = 0 then none else lastHash) := by
  simp only [validateNewEvent, bind_eq_ok, pure_eq_ok, invalidIf_eq_ok, not_not, exists_and_left] at h
  obtain ⟨-, -, -, -, -, -, -, -, -, -, -, -, -, -, -, -, -, -, previous, hprevious, _, hcheck, committedAt, -, -, -,
    -, -, hash, hhash, rfl, -, rfl⟩ := h
  refine ⟨rfl, normalizeHash_eq_ok hhash, ?_⟩
  rw [previousHash?, normalizeNullableHash_eq_ok hprevious, checkPrevious_eq_ok hcheck]

/-- The digits of a digest. -/
def IsHash (hash : String) : Prop := hash.toList.length = 64 ∧ hash.toList.all isHashDigit = true

instance (hash : String) : Decidable (IsHash hash) := inferInstanceAs (Decidable (_ ∧ _))

lemma IsHash.prefixed {hash : String} (h : IsHash hash) : matchHash? (prefixed hash) = some hash := by
  have hdrop : (Coordination.prefixed hash).toList = "sha256:".toList ++ hash.toList := String.toList_append
  have hmatch : "sha256:".toList.isPrefixOf ("sha256:".toList ++ hash.toList) = true := by simp
  have hlen : "sha256:".toList.length = 7 := rfl
  simp only [matchHash?, hdrop, hmatch, if_true, List.drop_left' hlen, h.1, h.2, and_self, String.ofList_toList]

lemma IsHash.bare {hash : String} (h : IsHash hash) : matchHash? hash = some hash := by
  have hmatch : "sha256:".toList.isPrefixOf hash.toList = false := by
    by_contra hlabel
    obtain ⟨rest, hrest⟩ := List.isPrefixOf_iff_prefix.mp (Bool.not_eq_false _ ▸ hlabel)
    have hdigit := List.all_eq_true.mp h.2 's' (by rw [← hrest]; simp)
    exact absurd hdigit (by decide)
  simp only [matchHash?, hmatch, Bool.false_eq_true, if_false, h.1, h.2, and_self, if_true, String.ofList_toList]

lemma isHash_of_matchHash? {value hash : String} (h : matchHash? value = some hash) : IsHash hash := by
  simp only [matchHash?] at h
  generalize (if "sha256:".toList.isPrefixOf value.toList then value.toList.drop 7 else value.toList) = digits at h
  split_ifs at h with hdigits hnewline
  · cases h
    simpa [IsHash] using hdigits
  · cases h
    obtain ⟨hlen, hall, -⟩ := hnewline
    simpa [IsHash, hlen] using hall

/-- What replay has learnt from the events so far. -/
structure Replayed (X : Externals) (events : List Json) (progress : Progress) : Prop where
  chain : HashChain previousHash? (eventDigest X) (firstOccurrences [] events) progress.lastHash
  count : progress.validEvents = (firstOccurrences [] events).length
  seen : ∀ uuid, progress.seenEventUuid.lookup uuid =
    (events.find? fun event => eventUuid event = uuid).map canonicalJsonBytes
  uuids : ∀ event ∈ events, eventUuid event ≠ ""
  hashes : ∀ event ∈ firstOccurrences [] events, eventHash? event = some (eventDigest X event)

lemma Replayed.start : Replayed X [] .start :=
  ⟨.nil, rfl, fun _ => rfl, by simp, by simp [firstOccurrences]⟩

lemma mem_uuids_iff {events : List Json} {uuid : String} :
    (events.find? fun event => eventUuid event = uuid).isSome ↔ uuid ∈ events.map eventUuid := by
  simp [List.find?_isSome]

lemma replayEvent_cases {event : Json} {line : Nat} {progress progress' : Progress}
    (h : replayEvent X authority event line progress = .ok progress') :
    eventUuid event ≠ "" ∧
    (progress.seenEventUuid.lookup (eventUuid event) = some (canonicalJsonBytes event) ∧
        progress' = { progress with duplicateEvents := progress.duplicateEvents + 1 } ∨
      progress.seenEventUuid.lookup (eventUuid event) = none ∧ ∃ hash committedAt,
        validateNewEvent X authority event line progress.lastHash progress.lastCommittedAt progress.validEvents =
          .ok (hash, committedAt) ∧
        progress' = { progress with
          seenEventUuid := (eventUuid event, canonicalJsonBytes event) :: progress.seenEventUuid
          lastHash := some hash, lastCommittedAt := some committedAt, validEvents := progress.validEvents + 1 }) := by
  simp only [replayEvent, bind_eq_ok] at h
  obtain ⟨uuid, huuid, h⟩ := h
  obtain ⟨hget, hne⟩ := requireString_eq_ok huuid
  have heq : eventUuid event = uuid := by simp [eventUuid, hget, Json.asStr?]
  rw [heq]
  refine ⟨hne, ?_⟩
  cases hseen : progress.seenEventUuid.lookup uuid with
  | some previous =>
    simp only [hseen, bind_eq_ok, invalidIf_eq_ok, pure_eq_ok, not_not] at h
    obtain ⟨-, rfl, rfl⟩ := h
    exact .inl ⟨rfl, rfl⟩
  | none =>
    simp only [hseen, bind_eq_ok, pure_eq_ok] at h
    obtain ⟨⟨hash, committedAt⟩, hvalid, rfl⟩ := h
    exact .inr ⟨rfl, hash, committedAt, hvalid, rfl⟩

lemma Replayed.event {events : List Json} {event : Json} {line : Nat} {progress progress' : Progress}
    (hprogress : Replayed X events progress) (h : replayEvent X authority event line progress = .ok progress') :
    Replayed X (events ++ [event]) progress' := by
  obtain ⟨hne, ⟨hseen, rfl⟩ | ⟨hseen, hash, committedAt, hvalid, rfl⟩⟩ := replayEvent_cases h
  · have hold : eventUuid event ∈ events.map eventUuid := by
      rw [← mem_uuids_iff, ← Option.isSome_map (f := canonicalJsonBytes), ← hprogress.seen, hseen]
      rfl
    have hfirst : firstOccurrences [] (events ++ [event]) = firstOccurrences [] events := by
      simp [firstOccurrences_concat, hold]
    refine ⟨?_, ?_, fun uuid => ?_, ?_, ?_⟩
    · rw [hfirst]
      exact hprogress.chain
    · rw [hfirst]
      exact hprogress.count
    · rw [hprogress.seen, List.find?_append]
      by_cases huuid : eventUuid event = uuid
      · subst huuid
        rw [hprogress.seen] at hseen
        obtain ⟨first, hfind, -⟩ := Option.map_eq_some_iff.mp hseen
        simp [hfind]
      · simp [huuid]
    · exact List.forall_mem_append.mpr ⟨hprogress.uuids, by simpa using hne⟩
    · rw [hfirst]
      exact hprogress.hashes
  · have hnew : eventUuid event ∉ events.map eventUuid := by
      rw [← mem_uuids_iff, ← Option.isSome_map (f := canonicalJsonBytes), ← hprogress.seen, hseen]
      simp
    have hfirst : firstOccurrences [] (events ++ [event]) = firstOccurrences [] events ++ [event] := by
      simp [firstOccurrences_concat, hnew]
    obtain ⟨rfl, hhash, hprevious⟩ := validateNewEvent_eq_ok hvalid
    have htip : previousHash? event = progress.lastHash := by
      rw [hprevious]
      split_ifs with hzero
      · have hempty : firstOccurrences [] events = [] := by
          rw [← List.length_eq_zero_iff, ← hprogress.count, hzero]
        exact (hprogress.chain.tip_eq_none hempty).symm
      · rfl
    refine ⟨?_, ?_, fun uuid => ?_, ?_, ?_⟩
    · rw [hfirst]
      exact hprogress.chain.snoc htip
    · rw [hfirst, hprogress.count]
      simp
    · rw [List.find?_append, List.lookup_cons, hprogress.seen]
      by_cases huuid : eventUuid event = uuid
      · subst huuid
        rw [hprogress.seen] at hseen
        have hfind := Option.map_eq_none_iff.mp hseen
        simp [hfind]
      · have hbeq : (uuid == eventUuid event) = false := by simpa using Ne.symm huuid
        simp [huuid, hbeq]
    · exact List.forall_mem_append.mpr ⟨hprogress.uuids, by simpa using hne⟩
    · rw [hfirst]
      exact List.forall_mem_append.mpr ⟨hprogress.hashes, by simpa using hhash⟩

lemma readEvent_eq_ok {body : List Char} {line : Nat} {event : Json} (h : readEvent X body line = .ok event) :
    Json.loads X.float body = some event ∧ event.asObj?.isSome := by
  unfold readEvent at h
  split at h
  · cases h
    rename_i hloads
    exact ⟨hloads, rfl⟩
  · simp at h
  · split at h <;> simp at h

/-- A line is blank or an event. -/
lemma replayLine_cases {rawLine : List Char} {line : Nat} {progress progress' : Progress}
    (h : replayLine X authority rawLine line progress = .ok progress') :
    strip rawLine = [] ∧ eventOfLine? X rawLine = none ∧ progress' = progress ∨
      ∃ event, Json.loads X.float (strip rawLine) = some event ∧ eventOfLine? X rawLine = some event ∧
        replayEvent X authority event line progress = .ok progress' := by
  unfold replayLine at h
  split at h
  · rename_i hblank
    cases h
    exact .inl ⟨hblank, by simp [eventOfLine?, hblank], rfl⟩
  · rename_i hblank
    rw [bind_eq_ok] at h
    obtain ⟨event, hread, hevent⟩ := h
    obtain ⟨hloads, hobj⟩ := readEvent_eq_ok hread
    exact .inr ⟨event, hloads, by simp [eventOfLine?, hblank, hloads, hobj], hevent⟩

lemma replayLines_cons {rawLine : List Char} {rest : List (List Char)} {line : Nat} {progress out : Progress}
    (h : replayLines X authority (rawLine :: rest) line progress = (out, .ok ())) :
    ∃ progress', replayLine X authority rawLine line progress = .ok progress' ∧
      replayLines X authority rest (line + 1) progress' = (out, .ok ()) := by
  rw [replayLines] at h
  split at h
  · exact ⟨_, by assumption, h⟩
  · simp at h

lemma Replayed.lines {rawLines : List (List Char)} {line : Nat} {events : List Json} {progress progress' : Progress}
    (hprogress : Replayed X events progress)
    (h : replayLines X authority rawLines line progress = (progress', .ok ())) :
    Replayed X (events ++ rawLines.filterMap (eventOfLine? X)) progress' := by
  induction rawLines generalizing line events progress with
  | nil =>
    cases h
    simpa using hprogress
  | cons rawLine rest ih =>
    obtain ⟨next, hline, hrest⟩ := replayLines_cons h
    obtain ⟨-, hnone, rfl⟩ | ⟨event, -, hsome, hevent⟩ := replayLine_cases hline
    · rw [List.filterMap_cons_none hnone]
      exact ih hprogress hrest
    · rw [List.filterMap_cons_some hsome, ← List.singleton_append, ← List.append_assoc]
      exact ih (hprogress.event hevent) hrest

lemma fileLines_eq_ok {bytes : List UInt8} {rawLines : List (List Char)} (h : fileLines bytes = .ok rawLines) :
    ∃ text, Text.decode? bytes = some text ∧ rawLines = Text.lines (Text.universalNewlines text) := by
  unfold fileLines readText at h
  cases htext : Text.decode? bytes with
  | none =>
    rw [htext] at h
    cases h
  | some text =>
    rw [htext] at h
    cases h
    exact ⟨text, rfl, rfl⟩

lemma fileLines_of_decode? {bytes : List UInt8} {text : List Char} (h : Text.decode? bytes = some text) :
    fileLines bytes = .ok (Text.lines (Text.universalNewlines text)) := by
  rw [fileLines, readText, h]
  rfl

/-- What a valid replay comes from. -/
lemma replay_eq_valid {path : String} {file : Option (List UInt8)} {result : ReplayResult}
    (h : replay X authority path file = .ok result) (hvalid : result.valid = true) :
    ∃ bytes rawLines progress, file = some bytes ∧ fileLines bytes = .ok rawLines ∧
      replayLines X authority rawLines 1 .start = (progress, .ok ()) ∧
      result = progress.result path true none none := by
  unfold replay at h
  split at h
  · cases h
    cases hvalid
  · rw [bind_eq_ok] at h
    obtain ⟨rawLines, hlines, h⟩ := h
    generalize hout : replayLines X authority rawLines 1 .start = out at h
    obtain ⟨progress, outcome⟩ := out
    simp only at h
    split at h
    · cases h
      exact ⟨_, rawLines, progress, rfl, hlines, hout, rfl⟩
    · cases h
      cases hvalid
    · cases h

lemma replay_of_lines {bytes : List UInt8} {rawLines : List (List Char)} {progress : Progress}
    (hlines : fileLines bytes = .ok rawLines)
    (hreplay : replayLines X authority rawLines 1 .start = (progress, .ok ())) (path : String) :
    replay X authority path (some bytes) = .ok (progress.result path true none none) := by
  simp only [replay, hlines, bind, Except.bind, hreplay]

lemma replayed_of_valid {path : String} {file : Option (List UInt8)} {result : ReplayResult}
    (h : replay X authority path file = .ok result) (hvalid : result.valid = true) :
    ∃ bytes progress, file = some bytes ∧ Replayed X (ledgerEvents X bytes) progress ∧
      result.validEvents = progress.validEvents ∧ result.validPrefixHash = progress.lastHash := by
  obtain ⟨bytes, rawLines, progress, rfl, hlines, hreplay, rfl⟩ := replay_eq_valid h hvalid
  obtain ⟨text, htext, rfl⟩ := fileLines_eq_ok hlines
  refine ⟨bytes, progress, rfl, ?_, rfl, rfl⟩
  have hreplayed := Replayed.start.lines hreplay
  simpa [ledgerEvents, htext] using hreplayed

end PlatformGitops.Coordination
