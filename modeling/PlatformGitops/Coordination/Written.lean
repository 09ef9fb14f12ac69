import PlatformGitops.Coordination.Append
import PlatformGitops.Coordination.Chain
import Mathlib.Data.List.Induction

/-! Ledgers written line by line in the canonical form. -/

namespace PlatformGitops.Coordination

open Library Json Fallible

/-- The text of an event is read back, as the same event. -/
structure Writable (X : Externals) (event : Json) : Prop where
  readable : All (Readable X.float) event
  isObject : event.asObj?.isSome = true

def ledgerText (events : List Json) : List Char := events.flatMap fun event => canonicalEventLine event ++ ['\n']

def ledgerBytes (events : List Json) : List UInt8 := Text.encode (ledgerText events)

def sorted (event : Json) : Json := sortKeys codePointLe event

section Lines

variable {X : Externals} {authority : Authority} {event : Json}

lemma plainFloat_of_readable {v : Json} (h : Readable X.float v) : PlainFloat v := by
  cases v with
  | float text => exact FloatText.printable h
  | _ => trivial

lemma isObject_sorted {v : Json} (h : v.asObj?.isSome = true) : (sorted v).asObj?.isSome = true := by
  cases v with
  | obj fields => rfl
  | _ => cases h

namespace Writable

lemma printable (h : Writable X event) : ∀ c ∈ canonicalEventLine event, 32 ≤ c.toNat :=
  dumps_printable (h.readable.imp fun _ => plainFloat_of_readable)

lemma one_line (h : Writable X event) : ∀ c ∈ canonicalEventLine event, c ≠ '\r' ∧ c ≠ '\n' := by
  intro c hc
  have hc := h.printable c hc
  constructor <;> rintro rfl <;> exact absurd hc (by decide)

lemma braces (h : Writable X event) : ∃ body, canonicalEventLine event = '\x7b' :: body ++ ['\x7d'] := by
  obtain ⟨fields, hfields⟩ := Option.isSome_iff_exists.mp h.isObject
  cases event with
  | obj fields => exact ⟨_, dumps_obj codePointLe fields⟩
  | _ => cases hfields

lemma line_ne_nil (h : Writable X event) : canonicalEventLine event ≠ [] := by
  obtain ⟨body, hbody⟩ := h.braces
  simp [hbody]

lemma strip_line (h : Writable X event) : strip (canonicalEventLine event) = canonicalEventLine event := by
  obtain ⟨body, hbody⟩ := h.braces
  have hopen : isBlank '\x7b' = false := by decide
  have hclose : isBlank '\x7d' = false := by decide
  simp [strip, hbody, hopen, hclose]

lemma loads_line (h : Writable X event) : Json.loads X.float (canonicalEventLine event) = some (sorted event) :=
  loads_dumps codePointLe h.readable

lemma readable_sorted (h : Writable X event) : All (Readable X.float) (sorted event) := by
  refine (same_sortKeys codePointLe event).all (fun _ => trivial) (fun _ _ hperm hn => ?_) h.readable
  exact hperm.nodup_iff.mp hn

lemma sorted_isObject (h : Writable X event) : (sorted event).asObj?.isSome = true :=
  isObject_sorted h.isObject

lemma eventOfLine (h : Writable X event) : eventOfLine? X (canonicalEventLine event) = some (sorted event) := by
  simp [eventOfLine?, h.strip_line, h.line_ne_nil, h.loads_line, h.sorted_isObject]

lemma readEvent_line (h : Writable X event) (line : Nat) :
    readEvent X (canonicalEventLine event) line = .ok (sorted event) := by
  have hobj := h.sorted_isObject
  rw [readEvent, h.loads_line]
  cases hsorted : sorted event with
  | obj fields => rfl
  | _ =>
    rw [hsorted] at hobj
    cases hobj

lemma replayLine_line (h : Writable X event) (line : Nat) (progress : Progress) :
    replayLine X authority (canonicalEventLine event) line progress =
      replayEvent X authority (sorted event) line progress := by
  simp only [replayLine, h.strip_line, h.line_ne_nil, if_false, h.readEvent_line]
  rfl

end Writable

lemma lines_ledgerText {events : List Json} (h : ∀ event ∈ events, Writable X event) :
    Text.lines (Text.universalNewlines (ledgerText events)) = events.map canonicalEventLine := by
  induction events using List.reverseRecOn with
  | nil => rfl
  | append_singleton events event ih =>
    obtain ⟨hevents, hevent⟩ := List.forall_mem_append.mp h
    have hevent := hevent event (by simp)
    have hended : ledgerText events = [] ∨ Text.endsWithNewline (ledgerText events) = true := by
      rcases events.eq_nil_or_concat with rfl | ⟨events, last, rfl⟩
      · exact .inl rfl
      · exact .inr (by simp [ledgerText, Text.endsWithNewline])
    have happended := Text.lines_appended hevent.one_line hevent.line_ne_nil (ledgerText events)
    rw [if_pos hended, List.append_nil, ih hevents] at happended
    have htext : ledgerText (events ++ [event]) = ledgerText events ++ (canonicalEventLine event ++ ['\n']) := by
      simp [ledgerText]
    rw [htext, happended, List.map_append, List.map_singleton]

lemma ledgerEvents_ledgerText {events : List Json} (h : ∀ event ∈ events, Writable X event) :
    ledgerEvents X (ledgerBytes events) = events.map sorted := by
  rw [ledgerEvents, ledgerBytes, Text.decode?_encode, Option.map_some, Option.getD_some, lines_ledgerText h, List.filterMap_map]
  induction events with
  | nil => rfl
  | cons event events ih =>
    obtain ⟨hevent, hevents⟩ := List.forall_mem_cons.mp h
    rw [List.filterMap_cons_some (by exact hevent.eventOfLine), ih hevents, List.map_cons]

/-- The events of a ledger replayed one after the other. -/
def replayEvents (X : Externals) (authority : Authority) : List Json → Nat → Progress → Except Failure Progress
  | [], _, progress => .ok progress
  | event :: events, line, progress => do
    let progress ← replayEvent X authority event line progress
    replayEvents X authority events (line + 1) progress

lemma replayLines_written {events : List Json} (h : ∀ event ∈ events, Writable X event) {line : Nat}
    {progress progress' : Progress} (hreplay : replayEvents X authority (events.map sorted) line progress = .ok progress') :
    replayLines X authority (events.map canonicalEventLine) line progress = (progress', .ok ()) := by
  induction events generalizing line progress with
  | nil =>
    cases hreplay
    rfl
  | cons event events ih =>
    obtain ⟨hevent, hevents⟩ := List.forall_mem_cons.mp h
    rw [List.map_cons, replayEvents, bind_eq_ok] at hreplay
    obtain ⟨next, hnext, hrest⟩ := hreplay
    rw [List.map_cons, replayLines, hevent.replayLine_line, hnext]
    exact ih hevents hrest

/-- A ledger that was written in the canonical form is valid when its events are, each in its turn. -/
lemma replay_written {events : List Json} (h : ∀ event ∈ events, Writable X event) {progress : Progress} (path : String)
    (hreplay : replayEvents X authority (events.map sorted) 1 .start = .ok progress) :
    replay X authority path (some (ledgerBytes events)) = .ok (progress.result path true none none) := by
  refine replay_of_lines ?_ (replayLines_written h hreplay) path
  rw [ledgerBytes, fileLines_of_decode? (Text.decode?_encode _), lines_ledgerText h]

end Lines

namespace Sample

/-- The rows of the authority table that the sample ledgers need. -/
def authority : Authority :=
  [("CLAIM_ACCEPTED", ["coordinator"]), ("HEARTBEAT_EVIDENCE", ["coordinator"]), ("CLAIM_EXPIRED", ["reaper"]),
    ("VERIFY_FAILED", ["reaper", "coordinator", "ci_via_coordinator_identity"]), ("TAKEOVER_COMMITTED", ["coordinator"]),
    ("TOMBSTONE_CHAIN", ["coordinator"])]

/-- An event before it is chained, with its time and the digests of its payload and of its hashed fields. -/
structure Draft where
  eventUuid : String
  eventType : String
  writerRole : String
  committedAt : String
  instant : CrossAi.Datetime
  payload : Json
  payloadHash : String
  eventHash : String

def Draft.chainedTo (draft : Draft) (previous eventHash : Option String) : Json :=
  .obj ([("committed_at", .str draft.committedAt)] ++ (eventHash.map fun h => ("event_hash", Json.str h)).toList ++
    [("event_type", .str draft.eventType), ("event_uuid", .str draft.eventUuid), ("payload", draft.payload),
      ("payload_hash", .str (prefixed draft.payloadHash)),
      ("previous_event_hash", ofOption (fun h => .str (prefixed h)) previous),
      ("schemaVersion", .str expectedEventSchema), ("writer_role", .str draft.writerRole)])

/-- The events of a ledger, each with its own hash spelled in the given way. -/
def chained (spell : String → String) : Option String → List Draft → List Json
  | _, [] => []
  | previous, draft :: drafts =>
    draft.chainedTo previous (some (spell draft.eventHash)) :: chained spell (some draft.eventHash) drafts

/-- What the replay of a ledger hashes. -/
def materials : Option String → List Draft → List (Json × String)
  | _, [] => []
  | previous, draft :: drafts =>
    (draft.payload, draft.payloadHash) :: (draft.chainedTo previous none, draft.eventHash) ::
      materials (some draft.eventHash) drafts

def digests (drafts : List Draft) : List (List UInt8 × String) :=
  (materials none drafts).map fun p => (canonicalJsonBytes p.1, p.2)

def sha256 (table : List (List UInt8 × String)) (bytes : List UInt8) : String :=
  (table.lookup bytes).getD (String.ofList ('x' :: bytes.map Char.ofUInt8))

/-- Minutes after the start of the sample ledgers. -/
def times : List (String × Int) :=
  [("2026-07-16T20:00:00+00:00", 0), ("2026-07-16T20:10:00+00:00", 10), ("2026-07-16T20:20:00+00:00", 20),
    ("2026-07-16T20:30:00+00:00", 30), ("2026-07-16T22:00:00+00:00", 120)]

def start : CrossAi.Datetime := 1784232000 * CrossAi.second

def after (minutes : Int) : CrossAi.Datetime := start + minutes * CrossAi.minute

def externals (table : List (List UInt8 × String)) : Externals where
  sha256 := sha256 table
  fromisoformat s := match times.lookup s with
    | some minutes => .ok ⟨after minutes, some 0⟩
    | none => .error "Invalid isoformat string"
  isoformat _ := "2026-07-16T20:00:00+00:00"
  localToUtc := some
  float _ := "Infinity"
  intOfFloat _ := .error .overflowError
  intOfText _ := none
  unreadable _ := .decodeError "Expecting value: line 1 column 1 (char 0)"
  str _ := "None"
  repr _ := "None"
  upper s := s
  lower s := s

lemma readsFloats (table : List (List UInt8 × String)) : ReadsFloats (externals table).float := by
  intro s text rest h
  obtain ⟨⟨digits, more⟩, -, h⟩ := Option.bind_eq_some_iff.mp h
  simp only at h
  split at h
  · split at h <;> cases h
  · cases h
    have hliteral : ("Infinity".toList, Json.float "Infinity") ∈ literals := by simp [literals]
    exact .inl hliteral

lemma readable_one : (1 : Nat) < 10 ^ maxIntDigits :=
  Nat.one_lt_pow (by decide) (by decide)

section Replaying

variable {X : Externals} {authority : Authority}

lemma writable_chainedTo {draft : Draft} (h : All (Readable X.float) draft.payload)
    (previous eventHash : Option String) : Writable X (draft.chainedTo previous eventHash) := by
  refine ⟨?_, rfl⟩
  cases previous <;> cases eventHash <;> simp [Draft.chainedTo, All, AllFields, Readable, ofOption, h]

lemma writable_chained {drafts : List Draft}
    (h : ∀ draft ∈ drafts, All (Readable X.float) draft.payload) (spell : String → String)
    (previous : Option String) : ∀ event ∈ chained spell previous drafts, Writable X event := by
  induction drafts generalizing previous with
  | nil => simp [chained]
  | cons draft drafts ih =>
    obtain ⟨hdraft, hdrafts⟩ := List.forall_mem_cons.mp h
    exact List.forall_mem_cons.mpr ⟨writable_chainedTo hdraft _ _, ih hdrafts _⟩

lemma sorted_chainedTo (draft : Draft) (previous eventHash : Option String) :
    sorted (draft.chainedTo previous eventHash) =
      ({ draft with payload := sorted draft.payload } : Draft).chainedTo previous eventHash := by
  have h1 : codePointLe "committed_at" "event_hash" = true := by decide
  have h2 : codePointLe "committed_at" "event_type" = true := by decide
  have h3 : codePointLe "event_hash" "event_type" = true := by decide
  have h4 : codePointLe "event_type" "event_uuid" = true := by decide
  have h5 : codePointLe "event_uuid" "payload" = true := by decide
  have h6 : codePointLe "payload" "payload_hash" = true := by decide
  have h7 : codePointLe "payload_hash" "previous_event_hash" = true := by decide
  have h8 : codePointLe "previous_event_hash" "schemaVersion" = true := by decide
  have h9 : codePointLe "schemaVersion" "writer_role" = true := by decide
  cases previous <;> cases eventHash <;>
    simp [sorted, Draft.chainedTo, sortKeys, sortFields, List.insertionSort, h1, h2, h3, h4, h5, h6, h7, h8, h9, ofOption]

/-- An event that passes every check but those on its place in the chain. -/
structure Draft.Passes (draft : Draft) (X : Externals) (authority : Authority) : Prop where
  uuid : draft.eventUuid ≠ ""
  writer : draft.eventType ≠ "" ∧ draft.writerRole ≠ "" ∧ ∃ writers,
    authority.lookup draft.eventType = some writers ∧ draft.writerRole ∈ writers
  time : ∀ line, parseCommittedAt X (.str draft.committedAt) line = .ok ⟨draft.instant, some 0⟩
  isObject : draft.payload.asObj?.isSome = true
  payloadHash : IsHash draft.payloadHash
  eventHash : IsHash draft.eventHash

lemma sha256Hex_sorted (v : Json) : sha256Hex X (sorted v) = sha256Hex X v := by
  rw [sha256Hex, sha256Hex, canonicalJsonBytes, canonicalJsonBytes, sorted, dumps_sortKeys keyOrder_codePointLe]

/-- What the checks read of an event. -/
structure Draft.Reads (draft : Draft) (X : Externals) (previous : Option String) (spelling : String) (event : Json) :
    Prop where
  schemaVersion : event.get "schemaVersion" = .str expectedEventSchema
  eventType : event.get "event_type" = .str draft.eventType
  eventUuid : event.get "event_uuid" = .str draft.eventUuid
  writerRole : event.get "writer_role" = .str draft.writerRole
  payload : ∃ fields, event.get "payload" = .obj fields ∧ sha256Hex X (.obj fields) = draft.payloadHash
  payloadHash : event.get "payload_hash" = .str (prefixed draft.payloadHash)
  previous : event.get "previous_event_hash" = ofOption (fun h => .str (prefixed h)) previous
  committedAt : event.get "committed_at" = .str draft.committedAt
  commentBinding : event.get "comment_binding" = .null
  eventHash : event.get "event_hash" = .str spelling
  digest : sha256Hex X (hashMaterial event) = draft.eventHash

lemma reads_sorted {draft : Draft} {previous : Option String} {spelling : String}
    (hobject : draft.payload.asObj?.isSome = true) (hpayload : sha256Hex X draft.payload = draft.payloadHash)
    (hevent : sha256Hex X (draft.chainedTo previous none) = draft.eventHash) :
    draft.Reads X previous spelling (sorted (draft.chainedTo previous (some spelling))) := by
  obtain ⟨fields, hfields⟩ := Option.isSome_iff_exists.mp (isObject_sorted hobject)
  have hobj : sorted draft.payload = .obj fields := by
    cases hsorted : sorted draft.payload <;> simp_all [asObj?]
  have hmaterial : hashMaterial (sorted (draft.chainedTo previous (some spelling))) =
      sorted (draft.chainedTo previous none) := by
    rw [sorted_chainedTo, sorted_chainedTo]
    simp [Draft.chainedTo, hashMaterial]
  have hdigest : sha256Hex X (hashMaterial (sorted (draft.chainedTo previous (some spelling)))) = draft.eventHash := by
    rw [hmaterial, sha256Hex_sorted, hevent]
  have hsum : sha256Hex X (.obj fields) = draft.payloadHash := by rw [← hobj, sha256Hex_sorted, hpayload]
  rw [sorted_chainedTo, hobj] at hdigest ⊢
  exact ⟨rfl, rfl, rfl, rfl, ⟨fields, rfl, hsum⟩, rfl, rfl, rfl, rfl, rfl, hdigest⟩

section Checks

lemma invalidIf_of_not {bad : Prop} [Decidable bad] (h : ¬ bad) (line : Nat) (reason : String) :
    invalidIf bad line reason = .ok () :=
  invalidIf_eq_ok.mpr h

variable {draft : Draft} {previous : Option String} {spelling : String} {event : Json} {line : Nat}

lemma Draft.Reads.previous_ok (hreads : draft.Reads X previous spelling event)
    (hprevious : ∀ hash ∈ previous, matchHash? (prefixed hash) = some hash) :
    normalizeNullableHash (event.get "previous_event_hash") "previous_event_hash" line = .ok previous := by
  rw [hreads.previous]
  cases previous with
  | none => rfl
  | some hash => simp [ofOption, normalizeNullableHash, normalizeHash, hprevious hash rfl, expect]

lemma checkPrevious_ok {validEvents : Nat} (hzero : validEvents = 0 → previous = none) :
    checkPrevious line validEvents previous previous = .ok () := by
  unfold checkPrevious
  split_ifs with h
  · simp [hzero h]
  · simp

lemma checkOrder_ok {lastCommittedAt : Option CrossAi.IsoDatetime} {instant : CrossAi.Datetime}
    (htime : ∀ last ∈ lastCommittedAt, last.utcoffset = some 0 ∧ last.instant ≤ instant) :
    checkOrder X line lastCommittedAt ⟨instant, some 0⟩ = .ok () := by
  cases lastCommittedAt with
  | none => rfl
  | some last =>
    obtain ⟨hzone, hle⟩ := htime last rfl
    have hnot : ¬ instant < last.instant := not_lt.mpr hle
    simp [checkOrder, before, hzone, hnot]

lemma validateNewEvent_reads (h : draft.Passes X authority) (hreads : draft.Reads X previous spelling event)
    (hspelling : matchHash? spelling = some draft.eventHash)
    (hprevious : ∀ hash ∈ previous, matchHash? (prefixed hash) = some hash) {validEvents : Nat}
    (hzero : validEvents = 0 → previous = none) {lastCommittedAt : Option CrossAi.IsoDatetime}
    (htime : ∀ last ∈ lastCommittedAt, last.utcoffset = some 0 ∧ last.instant ≤ draft.instant) :
    validateNewEvent X authority event line previous lastCommittedAt validEvents =
      .ok (draft.eventHash, ⟨draft.instant, some 0⟩) := by
  obtain ⟨htype, hrole, writers, hwriters, hmem⟩ := h.writer
  obtain ⟨fields, hfields, hsum⟩ := hreads.payload
  simp [validateNewEvent, requireString, nonEmptyStr?, hreads.schemaVersion, hreads.eventType, hreads.writerRole,
    hfields, asObj?, expectedEventSchema, htype, hrole, hwriters, hmem, hsum, normalizeHash, hreads.payloadHash,
    h.payloadHash.prefixed, expect, hreads.previous_ok hprevious, checkPrevious_ok hzero, hreads.committedAt, h.time,
    checkOrder_ok htime, validateCommentBinding, hreads.commentBinding, hreads.eventHash, hspelling, hreads.digest,
    invalidIf_of_not, Functor.map, Except.map]

end Checks

/-- Each event has its digests, passes the checks that do not depend on its place, and is no older than the one
before. -/
structure Acceptable (X : Externals) (authority : Authority) (previous : Option String) (drafts : List Draft) : Prop where
  passes : ∀ draft ∈ drafts, draft.Passes X authority
  uuids : (drafts.map (·.eventUuid)).Nodup
  times : drafts.Pairwise fun draft later => draft.instant ≤ later.instant
  digest : ∀ p ∈ materials previous drafts, sha256Hex X p.1 = p.2

structure Follows (progress : Progress) (previous : Option String) (drafts : List Draft) : Prop where
  lastHash : progress.lastHash = previous
  zero : progress.validEvents = 0 → previous = none
  hash : ∀ hash ∈ previous, matchHash? (prefixed hash) = some hash
  unseen : ∀ draft ∈ drafts, progress.seenEventUuid.lookup draft.eventUuid = none
  time : ∀ draft ∈ drafts, ∀ last ∈ progress.lastCommittedAt, last.utcoffset = some 0 ∧ last.instant ≤ draft.instant

lemma replayEvents_chained {drafts : List Draft} {previous : Option String} {progress : Progress} {line : Nat}
    {spell : String → String} (h : Acceptable X authority previous drafts) (hfollows : Follows progress previous drafts)
    (hspell : ∀ draft ∈ drafts, matchHash? (spell draft.eventHash) = some draft.eventHash) :
    ∃ progress', replayEvents X authority ((chained spell previous drafts).map sorted) line progress = .ok progress' ∧
      progress'.lastHash = (drafts.getLast?.map (·.eventHash)).or previous ∧
      progress'.validEvents = progress.validEvents + drafts.length := by
  induction drafts generalizing previous progress line with
  | nil => exact ⟨progress, rfl, by simpa using hfollows.lastHash, rfl⟩
  | cons draft drafts ih =>
    obtain ⟨hpasses, hrest⟩ := List.forall_mem_cons.mp h.passes
    obtain ⟨hnew, hnodup⟩ := List.nodup_cons.mp h.uuids
    obtain ⟨htime, htimes⟩ := List.pairwise_cons.mp h.times
    obtain ⟨hpayload, hdigest⟩ := List.forall_mem_cons.mp h.digest
    obtain ⟨hevent, hdigest⟩ := List.forall_mem_cons.mp hdigest
    obtain ⟨hunseen, hunseens⟩ := List.forall_mem_cons.mp hfollows.unseen
    obtain ⟨hlast, -⟩ := List.forall_mem_cons.mp hfollows.time
    obtain ⟨hspelling, hspellings⟩ := List.forall_mem_cons.mp hspell
    have hreads := @reads_sorted X draft previous (spell draft.eventHash) hpasses.isObject hpayload hevent
    have hstep := @validateNewEvent_reads X authority draft previous _ _ line hpasses hreads hspelling hfollows.hash
      _ hfollows.zero _ hlast
    set event := sorted (draft.chainedTo previous (some (spell draft.eventHash))) with hdef
    obtain ⟨next, hnext⟩ : ∃ next : Progress, next = { progress with
        seenEventUuid := (draft.eventUuid, canonicalJsonBytes event) :: progress.seenEventUuid
        lastHash := some draft.eventHash, lastCommittedAt := some ⟨draft.instant, some 0⟩
        validEvents := progress.validEvents + 1 } := ⟨_, rfl⟩
    have hreplay : replayEvent X authority event line progress = .ok next := by
      simp [replayEvent, requireString, nonEmptyStr?, hreads.eventUuid, hpasses.uuid, expect, hunseen, hfollows.lastHash,
        hstep, hnext]
    have hfollows' : Follows next (some draft.eventHash) drafts := by
      refine ⟨by rw [hnext], by simp [hnext], by simpa using hpasses.eventHash.prefixed, fun later hlater => ?_,
        fun later hlater last hlast => ?_⟩
      · have hne : (later.eventUuid == draft.eventUuid) = false := by
          rw [beq_eq_false_iff_ne]
          exact fun heq => hnew (List.mem_map.mpr ⟨later, hlater, heq⟩)
        rw [hnext, List.lookup_cons, hne]
        exact hunseens later hlater
      · rw [hnext] at hlast
        cases hlast
        exact ⟨rfl, htime later hlater⟩
    obtain ⟨progress', hrun, hhash, hcount⟩ := @ih _ _ (line + 1) ⟨hrest, hnodup, htimes, hdigest⟩ hfollows' hspellings
    refine ⟨progress', ?_, ?_, ?_⟩
    · rw [chained, List.map_cons, replayEvents, ← hdef, hreplay]
      exact hrun
    · rw [hhash, List.getLast?_cons]
      cases drafts.getLast? <;> rfl
    · rw [hcount, hnext, List.length_cons]
      simp only
      omega

end Replaying

section Tables

lemma lookup_of_mem {table : List (List UInt8 × String)}
    (h : ∀ p ∈ table, ∀ q ∈ table, p.1 = q.1 → p.2 = q.2) {p : List UInt8 × String} (hp : p ∈ table) :
    table.lookup p.1 = some p.2 := by
  have hsome : (table.lookup p.1).isSome := by
    rw [List.lookup_isSome_iff]
    exact ⟨p, hp, beq_self_eq_true _⟩
  obtain ⟨hash, hhash⟩ := Option.isSome_iff_exists.mp hsome
  obtain ⟨l₁, l₂, htable, -⟩ := List.lookup_eq_some_iff.mp hhash
  have hmem : (p.1, hash) ∈ table := by simp [htable]
  rw [hhash, h p hp _ hmem rfl]

/-- The fields that tell what a ledger hashes apart. -/
def label (keys : List String) (v : Json) : List (Option String) := keys.map fun key => (v.get key).asStr?

lemma label_eq {X : Externals} {v w : Json} (hv : All (Readable X.float) v) (hw : All (Readable X.float) w)
    (h : canonicalJsonBytes v = canonicalJsonBytes w) (keys : List String) : label keys v = label keys w := by
  have hsame := same_of_dumps_eq hv hw (Text.encode_injective h)
  have hdistinct : Distinct v := hv.imp fun _ => Readable.distinctKeys
  exact List.map_congr_left fun key _ => (hsame.get hdistinct key).asStr?_eq

/-- Digests that go with the labels of what is hashed. -/
def Labelled (keys : List String) (rows : List (Json × String)) : Prop :=
  ∀ p ∈ rows, ∀ q ∈ rows, label keys p.1 = label keys q.1 → p.2 = q.2

lemma readable_materials {X : Externals} {drafts : List Draft}
    (h : ∀ draft ∈ drafts, All (Readable X.float) draft.payload) (previous : Option String) :
    ∀ p ∈ materials previous drafts, All (Readable X.float) p.1 := by
  induction drafts generalizing previous with
  | nil => simp [materials]
  | cons draft drafts ih =>
    obtain ⟨hdraft, hdrafts⟩ := List.forall_mem_cons.mp h
    exact List.forall_mem_cons.mpr ⟨hdraft,
      List.forall_mem_cons.mpr ⟨(writable_chainedTo hdraft _ _).readable, ih hdrafts _⟩⟩

lemma sha256Hex_materials {drafts : List Draft} {keys : List String}
    (hread : ∀ draft ∈ drafts, All (Readable (externals []).float) draft.payload)
    (hlabels : Labelled keys (materials none drafts)) :
    ∀ p ∈ materials none drafts, sha256Hex (externals (digests drafts)) p.1 = p.2 := by
  intro p hp
  have hmem : (canonicalJsonBytes p.1, p.2) ∈ digests drafts := List.mem_map_of_mem hp
  have hlookup := lookup_of_mem (fun a ha b hb hab => ?_) hmem
  · simp only [sha256Hex, externals, sha256, hlookup, Option.getD_some]
  · obtain ⟨v, hv, rfl⟩ := List.mem_map.mp ha
    obtain ⟨w, hw, rfl⟩ := List.mem_map.mp hb
    have hreads := @readable_materials (externals []) drafts hread none
    exact hlabels v hv w hw (label_eq (hreads v hv) (hreads w hw) hab keys)

/-- The checks on an event alone. -/
def Draft.checks (draft : Draft) : Bool :=
  draft.eventUuid ≠ "" ∧ draft.eventType ≠ "" ∧ draft.writerRole ≠ "" ∧
    (authority.lookup draft.eventType).any (draft.writerRole ∈ ·) ∧ CrossAi.endsWithZ draft.committedAt ∧
    (times.lookup (spelledOffset draft.committedAt)).any (draft.instant = after ·) ∧
    draft.payload.asObj?.isSome ∧ IsHash draft.payloadHash ∧ IsHash draft.eventHash

lemma passes_of_checks {draft : Draft} (h : draft.checks = true) (table : List (List UInt8 × String)) :
    draft.Passes (externals table) authority := by
  simp only [Draft.checks, decide_eq_true_eq, Option.any_eq_true] at h
  obtain ⟨huuid, htype, hrole, ⟨writers, hwriters, hmem⟩, hz, ⟨minutes, hminutes, hinstant⟩, hobj, hpayload, hevent⟩ := h
  refine ⟨huuid, ⟨htype, hrole, writers, hwriters, by simpa using hmem⟩, fun line => ?_, hobj, hpayload, hevent⟩
  simp [parseCommittedAt, hz, externals, hminutes, hinstant]

lemma acceptable {drafts : List Draft} {keys : List String}
    (hread : ∀ draft ∈ drafts, All (Readable (externals []).float) draft.payload)
    (hlabels : Labelled keys (materials none drafts)) (hchecks : drafts.all Draft.checks = true)
    (huuids : (drafts.map (·.eventUuid)).Nodup)
    (htimes : drafts.Pairwise fun draft later => draft.instant ≤ later.instant) :
    Acceptable (externals (digests drafts)) authority none drafts :=
  ⟨fun draft hdraft => passes_of_checks (List.all_eq_true.mp hchecks draft hdraft) _, huuids, htimes,
    sha256Hex_materials hread hlabels⟩

lemma Follows.start (drafts : List Draft) : Follows .start none drafts :=
  ⟨rfl, fun _ => rfl, by simp, fun _ _ => rfl, fun _ _ _ hlast => by cases hlast⟩

/-- A written ledger is valid, up to the hash of its last event. -/
lemma replay_chained {X : Externals} {authority : Authority} {drafts : List Draft}
    (hread : ∀ draft ∈ drafts, All (Readable X.float) draft.payload) (h : Acceptable X authority none drafts)
    {spell : String → String} (hspell : ∀ draft ∈ drafts, matchHash? (spell draft.eventHash) = some draft.eventHash)
    (path : String) :
    ∃ result, replay X authority path (some (ledgerBytes (chained spell none drafts))) = .ok result ∧
      result.valid = true ∧ result.validEvents = drafts.length ∧
      result.validPrefixHash = drafts.getLast?.map (·.eventHash) := by
  obtain ⟨progress, hrun, hhash, hcount⟩ := @replayEvents_chained X authority _ _ _ 1 _ h (Follows.start drafts) hspell
  refine ⟨_, replay_written (writable_chained hread spell none) path hrun, rfl, ?_, ?_⟩
  · simpa [Progress.result, Progress.start] using hcount
  · simpa [Progress.result] using hhash

lemma ledgerEvents_chained {X : Externals} {drafts : List Draft}
    (hread : ∀ draft ∈ drafts, All (Readable X.float) draft.payload)
    (hsorted : ∀ draft ∈ drafts, sorted draft.payload = draft.payload) :
    ledgerEvents X (ledgerBytes (chained prefixed none drafts)) = chained prefixed none drafts := by
  rw [ledgerEvents_ledgerText (writable_chained hread prefixed none)]
  generalize none = previous
  induction drafts generalizing previous with
  | nil => rfl
  | cons draft drafts ih =>
    obtain ⟨hread, hreads⟩ := List.forall_mem_cons.mp hread
    obtain ⟨hdraft, hdrafts⟩ := List.forall_mem_cons.mp hsorted
    rw [chained, List.map_cons, ih hreads hdrafts, sorted_chainedTo, hdraft]

lemma fileLines_chained {X : Externals} {drafts : List Draft}
    (hread : ∀ draft ∈ drafts, All (Readable X.float) draft.payload) :
    fileLines (ledgerBytes (chained prefixed none drafts)) = .ok ((chained prefixed none drafts).map canonicalEventLine) := by
  rw [ledgerBytes, fileLines_of_decode? (Text.decode?_encode _), lines_ledgerText (writable_chained hread prefixed none)]

lemma eventOfLine?_chained {X : Externals} {drafts : List Draft}
    (hread : ∀ draft ∈ drafts, All (Readable X.float) draft.payload)
    (hsorted : ∀ draft ∈ drafts, sorted draft.payload = draft.payload) :
    ∀ event ∈ chained prefixed none drafts, eventOfLine? X (canonicalEventLine event) = some event := by
  have hwritable := writable_chained hread prefixed none
  have hevents : (chained prefixed none drafts).map sorted = chained prefixed none drafts := by
    rw [← ledgerEvents_ledgerText hwritable, ledgerEvents_chained hread hsorted]
  have hself := List.map_inj_left.mp (hevents.trans (List.map_id _).symm)
  intro event hmem
  rw [(hwritable event hmem).eventOfLine, hself event hmem, id]

lemma replay_sample {drafts : List Draft} {keys : List String}
    (hread : ∀ draft ∈ drafts, All (Readable (externals (digests drafts)).float) draft.payload)
    (hlabels : Labelled keys (materials none drafts)) (hchecks : drafts.all Draft.checks = true)
    (huuids : (drafts.map (·.eventUuid)).Nodup)
    (htimes : drafts.Pairwise fun draft later => draft.instant ≤ later.instant) (path : String) :
    ∃ result, replay (externals (digests drafts)) authority path
      (some (ledgerBytes (chained prefixed none drafts))) = .ok result ∧ result.valid = true := by
  have haccept := acceptable hread hlabels hchecks huuids htimes
  obtain ⟨result, hresult, hvalid, -⟩ := replay_chained hread haccept
    (fun draft hdraft => (haccept.passes draft hdraft).eventHash.prefixed) path
  exact ⟨result, hresult, hvalid⟩

end Tables

end Sample

end PlatformGitops.Coordination
