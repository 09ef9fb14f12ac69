import PlatformGitops.Coordination.TamperEvidence

/-! Each call of the append writer is a compare-and-swap on the hash of the last event. -/

namespace PlatformGitops.Coordination

open Library Json Fallible

variable {X : Externals} {authority : Authority}

section Lines

/-- The lines of a ledger that may not be there yet. -/
def existingLines (file : Option (List UInt8)) (rawLines : List (List Char)) : Prop :=
  match file with
  | none => rawLines = []
  | some bytes => fileLines bytes = .ok rawLines

lemma fileLines_appendLine {bytes : List UInt8} {rawLines : List (List Char)} {line : List Char}
    (hlines : fileLines bytes = .ok rawLines) (hline : ∀ c ∈ line, c ≠ '\r' ∧ c ≠ '\n') (hne : line ≠ []) :
    fileLines (Text.appendLine bytes line) = .ok (rawLines ++ [line]) := by
  obtain ⟨text, htext, rfl⟩ := fileLines_eq_ok hlines
  rw [fileLines_of_decode? (Text.decode?_appendLine htext), Text.lines_appended hline hne]

lemma fileLines_appendEventLine {file : Option (List UInt8)} {rawLines : List (List Char)} {event : Json}
    (hfile : existingLines file rawLines) (h : Writable X event) :
    fileLines (appendEventLine file event) = .ok (rawLines ++ [canonicalEventLine event]) := by
  have hlines : fileLines (file.getD []) = .ok rawLines := by
    cases file with
    | none =>
      obtain rfl : rawLines = [] := hfile
      exact fileLines_of_decode? (Text.decode?_encode [])
    | some bytes => exact hfile
  exact fileLines_appendLine hlines h.one_line h.line_ne_nil

lemma fileLines_candidate {file : Option (List UInt8)} {rawLines : List (List Char)} {event : Json} {text : List Char}
    (hfile : existingLines file rawLines) (h : Writable X event)
    (htext : ledgerTextWithCandidate file event = .ok text) :
    fileLines (Text.encode text) = .ok (rawLines ++ [canonicalEventLine event]) := by
  rw [fileLines_of_decode? (Text.decode?_encode _)]
  cases file with
  | none =>
    have happended := Text.lines_appended h.one_line h.line_ne_nil []
    cases htext
    obtain rfl : rawLines = [] := hfile
    exact congrArg _ happended
  | some bytes =>
    obtain ⟨body, hbody, rfl⟩ := fileLines_eq_ok hfile
    have happended := Text.lines_appended_text h.one_line h.line_ne_nil body
    simp only [ledgerTextWithCandidate, readText, hbody] at htext
    cases htext
    rw [← happended]

lemma replayLines_concat {rawLines : List (List Char)} {rawLine : List Char} {line : Nat} {progress out : Progress}
    (h : replayLines X authority (rawLines ++ [rawLine]) line progress = (out, .ok ())) :
    ∃ middle, replayLines X authority rawLines line progress = (middle, .ok ()) ∧
      replayLine X authority rawLine (line + rawLines.length) middle = .ok out := by
  induction rawLines generalizing line progress with
  | nil =>
    obtain ⟨next, hnext, hrest⟩ := replayLines_cons h
    cases hrest
    exact ⟨progress, rfl, hnext⟩
  | cons first rest ih =>
    obtain ⟨next, hnext, hrest⟩ := replayLines_cons h
    obtain ⟨middle, hmiddle, hlast⟩ := ih hrest
    refine ⟨middle, ?_, ?_⟩
    · rw [replayLines, hnext]
      exact hmiddle
    · rwa [List.length_cons, Nat.add_comm rest.length, ← Nat.add_assoc]

end Lines

section Events

variable {files : String → Option (List UInt8)} {label : String}

lemma loadText_eq_ok (hfloat : ReadsFloats X.float) {text : List Char} {value : Json}
    (h : loadText X text label = .ok value) : All (Readable X.float) value ∧ value.asObj?.isSome = true := by
  unfold loadText at h
  split at h
  · rename_i read hread
    have hreadable := loads_readable hfloat hread
    cases read with
    | obj fields =>
      cases h
      exact ⟨hreadable, rfl⟩
    | _ => cases h
  · split at h <;> cases h

lemma loadJsonValue_eq_ok (hfloat : ReadsFloats X.float) {raw path : Option String} {value : Json}
    (h : loadJsonValue X files raw path label = .ok value) :
    All (Readable X.float) value ∧ value.asObj?.isSome = true := by
  unfold loadJsonValue at h
  split at h
  · cases h
  · cases h
  · rw [bind_eq_ok] at h
    obtain ⟨bytes, -, h⟩ := h
    rw [bind_eq_ok] at h
    obtain ⟨text, -, h⟩ := h
    exact loadText_eq_ok hfloat h
  · exact loadText_eq_ok hfloat h

lemma readable_str (s : String) : All (Readable X.float) (.str s) := by
  simp [All, Readable]

/-- A field that an event may have. -/
def OptionalField (X : Externals) (key : String) (fields : List (String × Json)) : Prop :=
  fields = [] ∨ ∃ value, All (Readable X.float) value ∧ fields = [(key, value)]

lemma loadOptional_eq_ok (hfloat : ReadsFloats X.float) {raw path : Option String} {fields : List (String × Json)}
    (h : loadOptional X files raw path label = .ok fields) : OptionalField X label fields := by
  unfold loadOptional at h
  split at h
  · simp only [bind_eq_ok, pure_eq_ok] at h
    obtain ⟨value, hvalue, rfl⟩ := h
    exact .inr ⟨value, (loadJsonValue_eq_ok hfloat hvalue).1, rfl⟩
  · cases h
    exact .inl rfl

lemma optionalField_keyId (keyId : Option String) : OptionalField X "key_id" (keyIdField keyId) := by
  unfold keyIdField
  split
  · exact .inl rfl
  · exact .inr ⟨_, readable_str _, rfl⟩

lemma signatureField_eq_ok (hfloat : ReadsFloats X.float) {signature : Option String} {fields : List (String × Json)}
    (h : signatureField X signature = .ok fields) : OptionalField X "signature" fields := by
  simp only [signatureField] at h
  split at h
  · cases h
    exact .inl rfl
  · split at h
    · rename_i read hread
      cases h
      exact .inr ⟨read, loads_readable hfloat hread, rfl⟩
    · split at h
      · cases h
        exact .inr ⟨_, readable_str _, rfl⟩
      · cases h

lemma eventFields_eq_ok (hfloat : ReadsFloats X.float) {args : Args} {context : Surroundings}
    {previousHash : Option String} {fields : List (String × Json)}
    (h : eventFields X args context previousHash = .ok fields) :
    (∀ p ∈ fields, All (Readable X.float) p.2) ∧ (fields.map (·.1)).Nodup ∧ "event_hash" ∉ fields.map (·.1) ∧
      ∀ rest, (Json.obj (fields ++ rest)).get "previous_event_hash" =
        ofOption (fun h => .str (prefixed h)) previousHash := by
  simp only [eventFields, bind_eq_ok, pure_eq_ok] at h
  obtain ⟨payload, hpayload, committedAt, -, metadata, hmetadata, binding, hbinding, signature, hsignature, rfl⟩ := h
  have hkey := @optionalField_keyId X args.keyId
  have hmetadata := loadOptional_eq_ok hfloat hmetadata
  have hbinding := loadOptional_eq_ok hfloat hbinding
  have hsignature := signatureField_eq_ok hfloat hsignature
  have hpayload := (loadJsonValue_eq_ok hfloat hpayload).1
  have hprevious : All (Readable X.float) (ofOption (fun h => .str (prefixed h)) previousHash) := by
    cases previousHash <;> trivial
  have hoptional : ∀ {key : String} {fields : List (String × Json)}, OptionalField X key fields →
      ∀ p ∈ fields, All (Readable X.float) p.2 := by
    rintro key fields (rfl | ⟨value, hvalue, rfl⟩) <;> simp [*]
  refine ⟨?_, ?_, ?_, fun rest => ?_⟩
  · simp only [List.forall_mem_append, List.forall_mem_cons, List.not_mem_nil, IsEmpty.forall_iff, implies_true, and_true]
    exact ⟨⟨⟨⟨⟨⟨readable_str _, readable_str _, readable_str _, readable_str _, readable_str _, hprevious, hpayload⟩, hoptional hmetadata⟩,
      hoptional hbinding⟩, hoptional hkey⟩, hoptional hsignature⟩, readable_str _⟩
  · rcases hmetadata with rfl | ⟨_, -, rfl⟩ <;> rcases hbinding with rfl | ⟨_, -, rfl⟩ <;>
      rcases hkey with hkey | ⟨_, -, hkey⟩ <;> rcases hsignature with rfl | ⟨_, -, rfl⟩ <;> rw [hkey] <;> simp
  · rcases hmetadata with rfl | ⟨_, -, rfl⟩ <;> rcases hbinding with rfl | ⟨_, -, rfl⟩ <;>
      rcases hkey with hkey | ⟨_, -, hkey⟩ <;> rcases hsignature with rfl | ⟨_, -, rfl⟩ <;> rw [hkey] <;> simp
  · simp [Json.get, List.lookup]

/-- An event that a call builds is written as one line, and names the hash it was built on. -/
lemma buildEvent_eq_ok (hfloat : ReadsFloats X.float) {args : Args} {context : Surroundings}
    {previousHash : Option String} {event : Json} (h : buildEvent X args context previousHash = .ok event) :
    Writable X event ∧ event.get "previous_event_hash" = ofOption (fun h => .str (prefixed h)) previousHash := by
  simp only [buildEvent, bind_eq_ok, pure_eq_ok] at h
  obtain ⟨fields, hfields, rfl⟩ := h
  obtain ⟨hread, hnodup, hfresh, hprevious⟩ := eventFields_eq_ok hfloat hfields
  refine ⟨⟨all_obj.mpr ⟨?_, ?_⟩, rfl⟩, hprevious _⟩
  · simp only [Readable, List.map_append, List.map_cons, List.map_nil]
    exact List.Nodup.append hnodup (by simp) (by simpa using hfresh)
  · exact List.forall_mem_append.mpr ⟨hread, by simpa using readable_str _⟩

end Events

section Calls

lemma appendErrorIf_eq_ok {bad : Prop} [Decidable bad] {message : String} {u : Unit} :
    appendErrorIf bad message = .ok u ↔ ¬ bad :=
  rejectIf_eq_ok

lemma ledgerEvents_of_lines {file : Option (List UInt8)} {rawLines : List (List Char)}
    (h : existingLines file rawLines) : ledgerEvents X (file.getD []) = rawLines.filterMap (eventOfLine? X) := by
  cases file with
  | none =>
    obtain rfl : rawLines = [] := h
    have hempty : Text.decode? [] = some [] := Text.decode?_encode []
    simp [ledgerEvents, hempty, Text.universalNewlines, Text.translate, Text.lines]
  | some bytes =>
    obtain ⟨text, htext, rfl⟩ := fileLines_eq_ok h
    simp [ledgerEvents, htext]

lemma replayExisting_eq_ok {path : String} {file : Option (List UInt8)} {result : ReplayResult}
    (h : replayExisting X authority path file = .ok result) :
    ∃ rawLines progress, existingLines file rawLines ∧
      replayLines X authority rawLines 1 .start = (progress, .ok ()) ∧ result = progress.result path true none none := by
  cases file with
  | none =>
    cases h
    exact ⟨[], .start, rfl, rfl, rfl⟩
  | some bytes =>
    simp only [replayExisting, bind_eq_ok, pure_eq_ok, appendErrorIf_eq_ok, Bool.not_eq_false] at h
    obtain ⟨result', hreplay, -, hvalid, rfl⟩ := h
    obtain ⟨_, rawLines, progress, hbytes, hlines, hrun, hresult⟩ := replay_eq_valid hreplay hvalid
    cases hbytes
    exact ⟨rawLines, progress, hlines, hrun, hresult⟩

lemma replayExisting_of_lines {path : String} {bytes : List UInt8} {rawLines : List (List Char)} {progress : Progress}
    (hlines : fileLines bytes = .ok rawLines)
    (hrun : replayLines X authority rawLines 1 .start = (progress, .ok ())) :
    replayExisting X authority path (some bytes) = .ok (progress.result path true none none) := by
  simp only [replayExisting, replay_of_lines hlines hrun]
  rfl

/-- The event of a call is not one that the ledger has already: it names the last of them as the one before. -/
lemma not_duplicate (hsha : CollisionFree X) {events : List Json} {progress : Progress} {event : Json}
    (h : Replayed X events progress) (hread : ∀ event ∈ events, All (Readable X.float) event)
    (hevent : All (Readable X.float) event) (hprevious : previousHash? event = progress.lastHash) :
    progress.seenEventUuid.lookup (eventUuid event) ≠ some (canonicalJsonBytes event) := by
  intro hseen
  rw [h.seen] at hseen
  obtain ⟨first, hfind, hbytes⟩ := Option.map_eq_some_iff.mp hseen
  have hsame := same_of_dumps_eq (hread first (List.mem_of_find?_eq_some hfind)) hevent (Text.encode_injective hbytes)
  have hdistinct := distinct_of_readable (hread first (List.mem_of_find?_eq_some hfind))
  have hlink : previousHash? first = progress.lastHash := by
    rw [← hprevious, previousHash?, previousHash?, (hsame.get hdistinct _).asStr?_eq]
  have hmem : first ∈ firstOccurrences [] events := mem_firstOccurrences_of_find? (by simp) hfind
  obtain ⟨shorter, hchain, hlt, hsub⟩ := h.chain.before hmem
  have hrelated := h.chain.forall₂ (R := fun _ _ => True) (hlink ▸ hchain) fun e he e' he' hdigest => by
    have he := hread e (mem_firstOccurrences he)
    have he' := hread e' (mem_firstOccurrences (hsub e' he'))
    have hsame := same_of_eventDigest_eq hsha he he' hdigest
    exact ⟨trivial, Same.previousHash?_eq hsame (distinct_of_readable (readable_hashMaterial he))⟩
  exact absurd hrelated.length_eq hlt.ne'

lemma normalizeReplayHash_eq {hash current : Option String} (h : normalizeReplayHash hash = .ok current)
    (hhash : ∀ digits ∈ hash, IsHash digits) : current = hash := by
  cases hash with
  | none =>
    cases h
    rfl
  | some digits =>
    rw [normalizeReplayHash, (hhash digits rfl).bare] at h
    cases h
    rfl

/-- The last hash of a replay is the hash of an event. -/
lemma isHash_lastHash {events : List Json} {progress : Progress} (h : Replayed X events progress) :
    ∀ digits ∈ progress.lastHash, IsHash digits := by
  rintro digits hdigits
  have hchain := h.chain
  rw [Option.mem_def] at hdigits
  rw [hdigits] at hchain
  obtain ⟨event, hmem, hdigest⟩ := hchain.tip_mem
  have hhash := h.hashes event hmem
  rw [hdigest, eventHash?, Option.bind_eq_some_iff] at hhash
  obtain ⟨value, -, hmatch⟩ := hhash
  exact isHash_of_matchHash? hmatch

lemma previousHash?_built {event : Json} {current : Option String}
    (h : event.get "previous_event_hash" = ofOption (fun h => .str (prefixed h)) current)
    (hcurrent : ∀ digits ∈ current, IsHash digits) : previousHash? event = current := by
  rw [previousHash?, h]
  cases current with
  | none => rfl
  | some digits => exact (hcurrent digits rfl).prefixed

/-- What a call has checked before it writes. -/
structure Prepared (X : Externals) (args : Args) (authority : Authority) (event : Json) (expected : Option String)
    (file : Option (List UInt8)) (rawLines : List (List Char)) (old new : Progress) : Prop where
  expects : normalizeExpectedPrevious X (some args.expectPreviousHash) = .ok (.previous expected)
  lines : existingLines file rawLines
  writable : Writable X event
  replayed : replayLines X authority rawLines 1 .start = (old, .ok ())
  current : old.lastHash = expected
  links : previousHash? (sorted event) = expected
  candidate : replayLines X authority (rawLines ++ [canonicalEventLine event]) 1 .start = (new, .ok ())

lemma prepare_eq_ok (hfloat : ReadsFloats X.float) {args : Args} {context : Surroundings} {file : Option (List UInt8)}
    {event : Json} (h : prepare X args context file = .ok (authority, event)) :
    loadAuthority X args.authority (context.files args.authority) = .ok authority ∧
      ∃ expected rawLines old new, Prepared X args authority event expected file rawLines old new := by
  simp only [prepare, bind_eq_ok, pure_eq_ok, Prod.mk.injEq] at h
  obtain ⟨expectation, hexpectation, authority', hauthority, before, hbefore, current, hcurrent, _, hcheck, event', hbuild, result,
    hcandidate, rfl, rfl⟩ := h
  obtain ⟨rawLines, old, hlines, hrun, rfl⟩ := replayExisting_eq_ok hbefore
  have hreplayed := Replayed.start.lines hrun
  obtain rfl : current = old.lastHash := normalizeReplayHash_eq hcurrent (isHash_lastHash hreplayed)
  obtain ⟨hwritable, hprevious⟩ := buildEvent_eq_ok hfloat hbuild
  obtain ⟨expected, rfl, rfl⟩ : ∃ expected, expectation = .previous expected ∧ expected = old.lastHash := by
    cases expectation with
    | noExpectation =>
      simp only [normalizeExpectedPrevious] at hexpectation
      split_ifs at hexpectation
      · cases hexpectation
      · split at hexpectation <;> cases hexpectation
    | previous expected =>
      refine ⟨expected, rfl, ?_⟩
      simpa [validateExpectedPrevious, appendErrorIf_eq_ok] using hcheck
  simp only [validateCandidate, bind_eq_ok, pure_eq_ok, appendErrorIf_eq_ok, Bool.not_eq_false] at hcandidate
  obtain ⟨text, htext, result', hreplay, -, hvalid, rfl⟩ := hcandidate
  obtain ⟨_, candidateLines, new, hbytes, hcandidateLines, hrun', -⟩ := replay_eq_valid hreplay hvalid
  cases hbytes
  rw [fileLines_candidate hlines hwritable htext] at hcandidateLines
  cases hcandidateLines
  have hbuilt := previousHash?_built hprevious (isHash_lastHash hreplayed)
  have hsame := (same_sortKeys codePointLe event').get (distinct_of_readable hwritable.readable) "previous_event_hash"
  refine ⟨hauthority, _, rawLines, old, new, hexpectation, hlines, hwritable, hrun, rfl, ?_, hrun'⟩
  rw [← hbuilt, previousHash?, previousHash?, hsame.asStr?_eq]
  rfl

/-- The file has its old content, a newline if one was missing, and one more line, which replay accepts as one more
event: it follows the hash that was expected and its own hash is the new one. -/
structure Swapped (X : Externals) (args : Args) (authority : Authority) (expected : Option String)
    (file file' : Option (List UInt8)) (line : List Char) (event : Json) (before after : ReplayResult) : Prop where
  oneLine : line ≠ [] ∧ ∀ c ∈ line, c ≠ '\r' ∧ c ≠ '\n'
  content : file' = some (file.getD [] ++ (if file.getD [] = [] ∨ (file.getD []).getLast? = some 10 then [] else [10]) ++
    (Text.encode line ++ [10]))
  events : ledgerEvents X (file'.getD []) = ledgerEvents X (file.getD []) ++ [event]
  fresh : eventUuid event ∉ (ledgerEvents X (file.getD [])).map eventUuid
  replayed : replayExisting X authority args.ledger file = .ok before
  replayed' : replay X authority args.ledger file' = .ok after
  valid : after.valid = true
  count : after.validEvents = before.validEvents + 1
  matched : before.validPrefixHash = expected
  links : previousHash? event = expected
  hash : eventHash? event = after.validPrefixHash ∧ after.validPrefixHash.isSome = true

/-- A call that may write swaps the last hash. -/
lemma Prepared.swapped (hsha : CollisionFree X) (hfloat : ReadsFloats X.float) {args : Args}
    {file : Option (List UInt8)} {event : Json} {expected : Option String} {rawLines : List (List Char)}
    {old new : Progress} (h : Prepared X args authority event expected file rawLines old new) :
    Swapped X args authority expected file (some (appendEventLine file event)) (canonicalEventLine event) (sorted event)
      (old.result args.ledger true none none) (new.result args.ledger true none none) := by
  have hevents := ledgerEvents_of_lines (X := X) h.lines
  have hreplayed := Replayed.start.lines h.replayed
  rw [List.nil_append, ← hevents] at hreplayed
  have hlines := fileLines_appendEventLine h.lines h.writable
  obtain ⟨middle, hmiddle, hlast⟩ := replayLines_concat h.candidate
  rw [h.replayed] at hmiddle
  cases hmiddle
  rw [h.writable.replayLine_line] at hlast
  have hread : ∀ event ∈ ledgerEvents X (file.getD []), All (Readable X.float) event :=
    fun _ => readable_of_mem_ledgerEvents hfloat
  have hsorted := h.writable.readable_sorted
  have hfresh := not_duplicate hsha hreplayed hread hsorted (h.links.trans h.current.symm)
  obtain ⟨-, ⟨hseen, -⟩ | ⟨hseen, hash, committedAt, hvalid, rfl⟩⟩ := replayEvent_cases hlast
  · exact absurd hseen hfresh
  · obtain ⟨-, hhash, -⟩ := validateNewEvent_eq_ok hvalid
    refine ⟨⟨h.writable.line_ne_nil, h.writable.one_line⟩, rfl, ?_, ?_, ?_, replay_of_lines hlines h.candidate _, rfl,
      rfl, h.current, h.links, hhash, rfl⟩
    · have hwritten := @ledgerEvents_of_lines X (some (appendEventLine file event)) _ hlines
      rw [hwritten, hevents, List.filterMap_append, List.filterMap_cons_some h.writable.eventOfLine, List.filterMap_nil]
    · rw [← mem_uuids_iff, ← Option.isSome_map (f := canonicalJsonBytes), ← hreplayed.seen, hseen]
      simp
    · cases file with
      | none => 
        obtain rfl : rawLines = [] := h.lines
        cases h.replayed
        rfl
      | some bytes => exact replayExisting_of_lines h.lines h.replayed

/-- One call of a run: the ledger before and after it. -/
structure Turn where
  args : Args
  context : Surroundings
  before : Option (List UInt8)
  after : Option (List UInt8)
  outcome : Except Failure Output

def turnOf (X : Externals) (args : Args) (context : Surroundings) (file : Option (List UInt8)) : Turn :=
  ⟨args, context, file, (main X args context file).1, (main X args context file).2⟩

/-- The calls on one ledger, in the order in which they held its lock. -/
def turns (X : Externals) : List (Args × Surroundings) → Option (List UInt8) → List Turn
  | [], _ => []
  | (args, context) :: calls, file =>
    turnOf X args context file :: turns X calls (main X args context file).1

def Turn.succeeds (turn : Turn) : Prop := ∃ output, turn.outcome = .ok output

def Turn.refuses (turn : Turn) : Prop := ¬ turn.succeeds ∧ turn.after = turn.before

/-- The hash that the caller expects before its event. -/
def Turn.expected? (X : Externals) (turn : Turn) : Option Expectation :=
  (normalizeExpectedPrevious X (some turn.args.expectPreviousHash)).toOption

def Turn.swaps (X : Externals) (turn : Turn) : Prop :=
  turn.succeeds ∧ ∃ authority expected line event before after,
    loadAuthority X turn.args.authority (turn.context.files turn.args.authority) = .ok authority ∧
    turn.expected? X = some (.previous expected) ∧
    Swapped X turn.args authority expected turn.before turn.after line event before after

lemma main_cases (hsha : CollisionFree X) (hfloat : ReadsFloats X.float) (args : Args) (context : Surroundings)
    (file : Option (List UInt8)) :
    (turnOf X args context file).refuses ∨ (turnOf X args context file).swaps X := by
  cases hprepare : prepare X args context file with
  | error failure =>
    refine .inl ⟨?_, ?_⟩
    · rintro ⟨output, houtput⟩
      simp [turnOf, main, hprepare] at houtput
    · simp [turnOf, main, hprepare]
  | ok prepared =>
    obtain ⟨authority, event⟩ := prepared
    obtain ⟨hauthority, expected, rawLines, old, new, hprepared⟩ := prepare_eq_ok hfloat hprepare
    have hswapped := hprepared.swapped hsha hfloat
    have hafter : replayExisting X authority args.ledger (some (appendEventLine file event)) =
        .ok (new.result args.ledger true none none) :=
      replayExisting_of_lines (fileLines_appendEventLine hprepared.lines hprepared.writable) hprepared.candidate
    have hwritten : (main X args context file).1 = some (appendEventLine file event) := by simp only [main, hprepare]
    refine .inr ⟨?_, authority, expected, canonicalEventLine event, sorted event, old.result args.ledger true none none,
      new.result args.ledger true none none, hauthority, ?_, ?_⟩
    · simp only [Turn.succeeds, turnOf, main, hprepare, hafter]
      exact ⟨_, rfl⟩
    · simp [Turn.expected?, turnOf, hprepared.expects, Except.toOption]
    · rw [turnOf, hwritten]
      exact hswapped

/-- How many different events a ledger has. -/
def eventCount (X : Externals) (file : Option (List UInt8)) : Nat :=
  (firstOccurrences [] (ledgerEvents X (file.getD []))).length

lemma Swapped.eventCount_eq {args : Args} {expected : Option String} {file file' : Option (List UInt8)}
    {line : List Char} {event : Json} {before after : ReplayResult}
    (h : Swapped X args authority expected file file' line event before after) :
    eventCount X file' = eventCount X file + 1 := by
  have hnew : ¬ eventUuid event ∈ (ledgerEvents X (file.getD [])).map eventUuid := h.fresh
  simp only [eventCount, h.events, firstOccurrences_concat, List.not_mem_nil, false_or, hnew, if_false,
    List.length_append, List.length_singleton]

lemma Swapped.chain {args : Args} {expected : Option String} {file file' : Option (List UInt8)}
    {line : List Char} {event : Json} {before after : ReplayResult}
    (h : Swapped X args authority expected file file' line event before after) :
    HashChain previousHash? (eventDigest X) (firstOccurrences [] (ledgerEvents X (file.getD []))) expected := by
  obtain ⟨rawLines, progress, hlines, hrun, hresult⟩ := replayExisting_eq_ok h.replayed
  have hreplayed := Replayed.start.lines hrun
  have hexpected : progress.lastHash = expected := by
    rw [← h.matched, hresult]
    rfl
  rw [ledgerEvents_of_lines hlines, ← hexpected]
  exact hreplayed.chain

lemma eventCount_le (hsha : CollisionFree X) (hfloat : ReadsFloats X.float) {calls : List (Args × Surroundings)}
    {file : Option (List UInt8)} {turn : Turn} (h : turn ∈ turns X calls file) :
    eventCount X file ≤ eventCount X turn.before := by
  induction calls generalizing file with
  | nil => cases h
  | cons call calls ih =>
    obtain ⟨args, context⟩ := call
    rcases List.mem_cons.mp h with rfl | h
    · exact le_rfl
    · have hrest := ih h
      rcases main_cases hsha hfloat args context file with hrefuses | ⟨-, authority, _, _, _, _, _, -, -, hswapped⟩
      · have hsame := hrefuses.2
        simp only [turnOf] at hsame
        rwa [hsame] at hrest
      · have hcount := hswapped.eventCount_eq
        simp only [turnOf] at hcount
        omega

/-- Two ledgers with one last hash have as many events. -/
lemma eventCount_eq_of_chain (hsha : CollisionFree X) (hfloat : ReadsFloats X.float) {file file' : Option (List UInt8)}
    {expected : Option String}
    (h : HashChain previousHash? (eventDigest X) (firstOccurrences [] (ledgerEvents X (file.getD []))) expected)
    (h' : HashChain previousHash? (eventDigest X) (firstOccurrences [] (ledgerEvents X (file'.getD []))) expected) :
    eventCount X file = eventCount X file' := by
  refine (h.forall₂ (R := fun _ _ => True) h' fun event he event' he' hdigest => ?_).length_eq
  have hread := readable_of_mem_ledgerEvents hfloat (mem_firstOccurrences he)
  have hread' := readable_of_mem_ledgerEvents hfloat (mem_firstOccurrences he')
  have hsame := same_of_eventDigest_eq hsha hread hread' hdigest
  exact ⟨trivial, Same.previousHash?_eq hsame (distinct_of_readable (readable_hashMaterial hread))⟩

lemma Turn.refuses_or_swaps (hsha : CollisionFree X) (hfloat : ReadsFloats X.float) {calls : List (Args × Surroundings)}
    {file : Option (List UInt8)} {turn : Turn} (h : turn ∈ turns X calls file) : turn.refuses ∨ turn.swaps X := by
  induction calls generalizing file with
  | nil => cases h
  | cons call calls ih =>
    rcases List.mem_cons.mp h with rfl | h
    · exact main_cases hsha hfloat call.1 call.2 file
    · exact ih h

end Calls

/-- Each call refuses and leaves the ledger, or swaps its last hash; no two calls swap the same one. -/
theorem append_is_compare_and_swap (hsha : CollisionFree X) (hfloat : ReadsFloats X.float)
    (calls : List (Args × Surroundings)) (file : Option (List UInt8)) :
    (∀ turn ∈ turns X calls file, turn.refuses ∨ turn.swaps X) ∧
      (turns X calls file).Pairwise fun turn later =>
        turn.succeeds → later.succeeds → turn.expected? X ≠ later.expected? X := by
  refine ⟨fun turn => Turn.refuses_or_swaps hsha hfloat, ?_⟩
  induction calls generalizing file with
  | nil => exact .nil
  | cons call calls ih =>
    refine List.pairwise_cons.mpr ⟨fun later hlater hsucceeds hsucceeds' hsame => ?_, ih _⟩
    obtain ⟨_, authority, expected, _, _, _, _, -, hexpected, hswapped⟩ :=
      (main_cases hsha hfloat call.1 call.2 file).resolve_left fun h => h.1 hsucceeds
    obtain ⟨_, authority', expected', _, _, _, _, -, hexpected', hswapped'⟩ :=
      (Turn.refuses_or_swaps hsha hfloat hlater).resolve_left fun h => h.1 hsucceeds'
    rw [hexpected'] at hsame
    have heq : some (Expectation.previous expected) = some (Expectation.previous expected') := hexpected ▸ hsame
    cases heq
    have hlen := eventCount_eq_of_chain hsha hfloat hswapped.chain hswapped'.chain
    have hgrown := hswapped.eventCount_eq
    have hlater := eventCount_le hsha hfloat hlater
    simp only [turnOf] at hlen hgrown
    omega

namespace Sample

def acceptArgs : Args where
  ledger := "ledger.jsonl"
  authority := "authority.json"
  eventType := "CLAIM_ACCEPTED"
  writerRole := "coordinator"
  eventUuid := some "u1"
  committedAt := some "2026-07-16T20:00:00Z"
  expectPreviousHash := "null"
  keyId := none
  signature := none
  payloadJson := some "\x7b\"issue\":1,\"repository\":\"o/r\",\"session\":\"a\"\x7d"
  payloadFile := none
  metadataJson := none
  metadataFile := none
  commentBindingJson := none
  commentBindingFile := none

def surroundings : Surroundings where
  files path :=
    if path = "authority.json" then
      some (Text.encode
        "\x7b\"events\":\x7b\"CLAIM_ACCEPTED\":\x7b\"authorizedWriters\":[\"coordinator\"]\x7d\x7d\x7d".toList)
    else none
  uuid4 := "8c5fe5a9-5a2c-4cf8-b6f7-0d2f3f1f4a9e"
  utcNowZ := "2026-07-16T20:00:00Z"
  candidatePath := "/tmp/tmp0"

end Sample

open Sample in
/-- Two calls that start the same ledger. -/
theorem append_is_compare_and_swap_twice :
    (∀ turn ∈ turns (externals (digests claim)) [(acceptArgs, surroundings), (acceptArgs, surroundings)] none,
      turn.refuses ∨ turn.swaps (externals (digests claim))) ∧
      (turns (externals (digests claim)) [(acceptArgs, surroundings), (acceptArgs, surroundings)] none).Pairwise
        fun turn later => turn.succeeds → later.succeeds →
          turn.expected? (externals (digests claim)) ≠ later.expected? (externals (digests claim)) :=
  append_is_compare_and_swap collisionFree_claim (readsFloats _) _ none

end PlatformGitops.Coordination
