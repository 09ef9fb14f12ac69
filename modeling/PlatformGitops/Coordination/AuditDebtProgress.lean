import PlatformGitops.Coordination.RetryAuditDebt
import PlatformGitops.Coordination.Written

/-! What a run of the audit debt retry records: the debts outstanding in the part of the queue that it reads. -/

namespace PlatformGitops.Coordination.RetryAuditDebt

open Library Fallible

variable {X : Externals}

/-- The objects of the queue that a run reads. -/
def window (X : Externals) (rawLines : List (List Char)) (limit : Nat) : List Json :=
  (rawLines.filterMap (eventOfLine? X)).take limit

def IsDebt (X : Externals) (records : List Json) (intentId : String) : Prop :=
  ∃ item ∈ records, ∃ debt, debt? X item = .ok (some debt) ∧ debt.intentId = intentId

def IsMarked (records : List Json) (intentId : String) : Prop :=
  ∃ item ∈ records, terminalId? item = .ok (some intentId)

/-- A debt with neither a marker nor an event. -/
structure Outstanding (X : Externals) (records : List Json) (recorded : List String) (intentId : String) : Prop where
  debt : IsDebt X records intentId
  unmarked : ¬ IsMarked records intentId
  unrecorded : intentId ∉ recorded

/-- A record on which no run fails. -/
structure Passable (X : Externals) (item : Json) : Prop where
  status : ∃ marked, terminalId? item = .ok marked
  debt : ∃ debt, debt? X item = .ok debt

section Queue

variable {rawLine : List Char} {rawLines : List (List Char)} {records : List Json}

lemma eventOfLine?_of_readLine {item : Option Json} (h : readLine X rawLine = .ok item) :
    eventOfLine? X rawLine = item := by
  by_cases hblank : strip rawLine = []
  · simpa [readLine, eventOfLine?, hblank] using h
  · simp only [readLine, hblank, if_false] at h
    simp only [eventOfLine?, hblank, if_false]
    cases hloads : Json.loads X.float (strip rawLine) with
    | none =>
      simp only [hloads] at h
      split at h
      · simpa using h
      · cases h
    | some v =>
      cases v <;> simp_all [Json.asObj?, Option.filter]

lemma readLine_of_readable (h : ReadableLine X rawLine) : readLine X rawLine = .ok (eventOfLine? X rawLine) := by
  by_cases hblank : strip rawLine = []
  · simp [readLine, eventOfLine?, hblank]
  · obtain ⟨fields, hfields⟩ := h.resolve_left hblank
    simp [readLine, eventOfLine?, hblank, hfields, Json.asObj?, Option.filter]

lemma loadLines_eq {limit : Nat} (h : ∀ rawLine ∈ rawLines, ∃ item, readLine X rawLine = .ok item) :
    loadLines X rawLines limit = .ok (window X rawLines limit) := by
  induction rawLines generalizing limit with
  | nil => cases limit <;> rfl
  | cons rawLine rest ih =>
    obtain ⟨⟨item, hitem⟩, hrest⟩ := List.forall_mem_cons.mp h
    have hevent := eventOfLine?_of_readLine hitem
    cases limit with
    | zero => simp [loadLines, window]
    | succ limit =>
      cases item with
      | none =>
        simp only [loadLines, hitem, bind, Except.bind, ih hrest]
        simp [window, hevent]
      | some item =>
        simp only [loadLines, hitem, bind, Except.bind, ih hrest]
        simp [window, hevent, pure, Except.pure]

lemma terminalIds_eq (h : ∀ item ∈ records, ∃ marked, terminalId? item = .ok marked) :
    ∃ terminal, terminalIds records = .ok terminal ∧ ∀ id, id ∈ terminal ↔ IsMarked records id := by
  choose! marked hmarked using h
  refine ⟨(records.map marked).filterMap id, ?_, fun id => ?_⟩
  · simp [terminalIds, mapM_of_ok hmarked, bind, Except.bind, pure, Except.pure]
  · simp only [List.filterMap_map, List.mem_filterMap, IsMarked]
    constructor
    · rintro ⟨item, hmem, hid⟩
      exact ⟨item, hmem, (hmarked item hmem).trans (congrArg _ hid)⟩
    · rintro ⟨item, hmem, hid⟩
      exact ⟨item, hmem, Except.ok.inj ((hmarked item hmem).symm.trans hid)⟩

lemma isDebt_cons {item : Json} {id : String} :
    IsDebt X (item :: records) id ↔
      (∃ debt, debt? X item = .ok (some debt) ∧ debt.intentId = id) ∨ IsDebt X records id := by
  simp [IsDebt]

/-- The pending debts are those neither seen nor marked, each once. -/
lemma pendingFrom_eq {terminal : List String} (seen : List String) (h : ∀ item ∈ records, ∃ debt, debt? X item = .ok debt) :
    ∃ pending, pendingFrom X terminal seen records = .ok pending ∧ (pending.map (·.intentId)).Nodup ∧
      ∀ id, id ∈ pending.map (·.intentId) ↔ IsDebt X records id ∧ id ∉ seen ∧ id ∉ terminal := by
  induction records generalizing seen with
  | nil => exact ⟨[], rfl, List.nodup_nil, by simp [IsDebt]⟩
  | cons item rest ih =>
    obtain ⟨⟨found, hfound⟩, hrest⟩ := List.forall_mem_cons.mp h
    cases found with
    | none =>
      obtain ⟨pending, hpending, hnodup, hmem⟩ := ih seen hrest
      refine ⟨pending, by simpa [pendingFrom, hfound, bind, Except.bind] using hpending, hnodup, fun id => ?_⟩
      simp [hmem, isDebt_cons, hfound]
    | some debt =>
      by_cases hskip : debt.intentId ∈ seen ∨ debt.intentId ∈ terminal
      · obtain ⟨pending, hpending, hnodup, hmem⟩ := ih seen hrest
        refine ⟨pending, ?_, hnodup, fun id => ?_⟩
        · simpa [pendingFrom, hfound, bind, Except.bind, hskip] using hpending
        · rw [hmem, isDebt_cons, hfound]
          constructor
          · rintro ⟨hdebt, hnew⟩
            exact ⟨.inr hdebt, hnew⟩
          · rintro ⟨⟨_, hsame, rfl⟩ | hdebt, hseen, hterminal⟩
            · cases hsame
              exact absurd hskip (not_or.mpr ⟨hseen, hterminal⟩)
            · exact ⟨hdebt, hseen, hterminal⟩
      · obtain ⟨pending, hpending, hnodup, hmem⟩ := ih (debt.intentId :: seen) hrest
        refine ⟨debt :: pending, ?_, ?_, fun id => ?_⟩
        · simp [pendingFrom, hfound, bind, Except.bind, hskip, hpending, pure, Except.pure]
        · refine List.nodup_cons.mpr ⟨fun hagain => ?_, hnodup⟩
          exact ((hmem _).mp hagain).2.1 List.mem_cons_self
        · rw [List.map_cons, List.mem_cons, hmem, isDebt_cons, hfound, List.mem_cons, not_or]
          constructor
          · rintro (rfl | ⟨hdebt, ⟨-, hseen⟩, hterminal⟩)
            · exact ⟨.inl ⟨debt, rfl, rfl⟩, not_or.mp hskip⟩
            · exact ⟨.inr hdebt, hseen, hterminal⟩
          · rintro ⟨⟨_, hsame, rfl⟩ | hdebt, hseen, hterminal⟩
            · cases hsame
              exact .inl rfl
            · by_cases heq : id = debt.intentId
              · exact .inl heq
              · exact .inr ⟨hdebt, ⟨heq, hseen⟩, hterminal⟩

end Queue

section Runs

variable {authority : Authority} {path : String} {bytes : List UInt8} {result : ReplayResult}

lemma checkoutLedger_of_valid (h : replay X authority path (some bytes) = .ok result) (hvalid : result.valid = true) :
    checkoutLedger X authority path bytes = .ok (expectedHash result, denyIds (ledgerEvents X bytes)) := by
  obtain ⟨rawLines, hlines, hread, hevents⟩ := lines_of_valid h hvalid
  have hmapM := mapM_of_ok fun rawLine hmem => readLine_of_readable (hread rawLine hmem)
  simp only [checkoutLedger, h, hvalid, Except.mapError, hlines, hmapM, bind, Except.bind, retryIf, rejectIf, pure,
    Except.pure, hevents, List.filterMap_map]
  rfl

/-- What the emitter answers when it succeeds. -/
def Succeeds (emitOne : Emitter) : Prop :=
  ∀ item expect, ∃ result append, emitOne item expect = .ok result ∧ appendResult result = .ok append

/-- The hash that the marker of an emission gives. -/
def appendedHash (result : Json) : Json := ((appendResult result).toOption.getD .null).get "event_hash"

def markerOf (args : Args) (now : String) (emission : Planned × Json) : Json :=
  emittedMarker args now emission.1 (appendedHash emission.2) emission.2

lemma emitFrom_of_succeeds {emitOne : Emitter} (h : Succeeds emitOne) (args : Args) (now : String) (expect : Json)
    (plan : List Planned) :
    ∃ emission, emitFrom emitOne args now expect plan = .ok emission ∧ emission.failed = none ∧
      emission.emitted.map Prod.fst = plan ∧ emission.markers = emission.emitted.map (markerOf args now) := by
  induction plan generalizing expect with
  | nil => exact ⟨_, rfl, rfl, rfl, rfl⟩
  | cons item rest ih =>
    obtain ⟨result, append, hresult, happend⟩ := h item expect
    obtain ⟨later, hlater, hfailed, hemitted, hmarkers⟩ := ih
      (orElse (append.get "valid_prefix_hash") (orElse (append.get "event_hash") expect))
    refine ⟨⟨(item, result) :: later.emitted, markerOf args now (item, result) :: later.markers, later.failed⟩,
      ?_, hfailed, ?_, ?_⟩
    · simp only [emitFrom, hresult, happend, hlater, bind, Except.bind, markerOf, appendedHash, Except.toOption,
        Option.getD_some]
      rfl
    · rw [List.map_cons, hemitted]
    · rw [List.map_cons, hmarkers]

def Report.emittedIds (report : Report) : List String := report.emitted.map (·.1.denyEventIntentId)

/-- A debt without a marker that the ledger records. -/
structure AlreadyRecorded (X : Externals) (records : List Json) (recorded : List String) (intentId : String) :
    Prop where
  debt : IsDebt X records intentId
  unmarked : ¬ IsMarked records intentId
  recorded : intentId ∈ recorded

/-- A run emits the outstanding debts of its window, once each, and marks these and the ones recorded before. -/
structure Progresses (X : Externals) (args : Args) (now : String) (records : List Json) (recorded : List String)
    (report : Report) : Prop where
  failed : report.failed = none
  emitted : ∀ id, id ∈ report.emittedIds ↔ Outstanding X records recorded id
  nodup : report.emittedIds.Nodup
  drained : ∀ later, recorded ⊆ later → report.emittedIds ⊆ later → ∀ id, ¬ Outstanding X records later id
  markers : ∃ already : List String, already.Nodup ∧ (∀ id, id ∈ already ↔ AlreadyRecorded X records recorded id) ∧
    report.markers = already.map (alreadyMarker args now) ++ report.emitted.map (markerOf args now)

lemma map_makePlan (eventUuidForIntent : String → String) (debts : List Debt) :
    (makePlan X eventUuidForIntent debts).map (·.denyEventIntentId) = debts.map (·.intentId) := by
  simp [makePlan]

/-- What a run reports, from what it reads and from what its emitter answers. -/
def reportOf (X : Externals) (eventUuidForIntent : String → String) (args : Args) (now : String)
    (pending : List Debt) (recorded : List String) (emission : Emission) : Report :=
  ⟨pending.length, (pending.filter fun debt => debt.intentId ∈ recorded).length,
    makePlan X eventUuidForIntent (pending.filter fun debt => debt.intentId ∉ recorded), emission.emitted,
    emission.failed,
    (pending.filter fun debt => debt.intentId ∈ recorded).map (fun debt => alreadyMarker args now debt.intentId) ++
      emission.markers⟩

lemma progresses_of_pending {args : Args} {now : String} {records : List Json} {recorded : List String}
    {terminal : List String} {pending : List Debt} {eventUuidForIntent : String → String} {emission : Emission}
    (hterminal : ∀ id, id ∈ terminal ↔ IsMarked records id) (hnodup : (pending.map (·.intentId)).Nodup)
    (hpending : ∀ id, id ∈ pending.map (·.intentId) ↔ IsDebt X records id ∧ id ∉ ([] : List String) ∧ id ∉ terminal)
    (hfailed : emission.failed = none)
    (hemitted : emission.emitted.map Prod.fst =
      makePlan X eventUuidForIntent (pending.filter fun debt => debt.intentId ∉ recorded))
    (hmarkers : emission.markers = emission.emitted.map (markerOf args now)) :
    Progresses X args now records recorded (reportOf X eventUuidForIntent args now pending recorded emission) := by
  have hids : emission.emitted.map (·.1.denyEventIntentId) =
      (pending.map (·.intentId)).filter fun id => id ∉ recorded := by
    calc emission.emitted.map (·.1.denyEventIntentId)
        = (emission.emitted.map Prod.fst).map (·.denyEventIntentId) := (List.map_map).symm
      _ = (pending.filter fun debt => debt.intentId ∉ recorded).map (·.intentId) := by rw [hemitted, map_makePlan]
      _ = (pending.map (·.intentId)).filter fun id => id ∉ recorded := by
        rw [List.filter_map]
        rfl
  have hout (id : String) : id ∈ emission.emitted.map (·.1.denyEventIntentId) ↔ Outstanding X records recorded id := by
    rw [hids, List.mem_filter, hpending, hterminal, decide_eq_true_eq]
    constructor
    · rintro ⟨⟨hdebt, -, hmarked⟩, hrecorded⟩
      exact ⟨hdebt, hmarked, hrecorded⟩
    · rintro ⟨hdebt, hmarked, hrecorded⟩
      exact ⟨⟨hdebt, List.not_mem_nil, hmarked⟩, hrecorded⟩
  refine ⟨hfailed, hout, ?_, ?_, ?_⟩
  · rw [Report.emittedIds, reportOf, hids]
    exact hnodup.filter _
  · rintro later hbefore hafter id ⟨hdebt, hmarked, hnew⟩
    refine hnew (hafter ((hout id).mpr ⟨hdebt, hmarked, fun hrecorded => hnew (hbefore hrecorded)⟩))
  · refine ⟨(pending.map (·.intentId)).filter fun id => id ∈ recorded, hnodup.filter _, fun id => ?_, ?_⟩
    · rw [List.mem_filter, hpending, hterminal, decide_eq_true_eq]
      constructor
      · rintro ⟨⟨hdebt, -, hmarked⟩, hrecorded⟩
        exact ⟨hdebt, hmarked, hrecorded⟩
      · rintro ⟨hdebt, hmarked, hrecorded⟩
        exact ⟨⟨hdebt, List.not_mem_nil, hmarked⟩, hrecorded⟩
    · rw [reportOf, hmarkers, List.filter_map, List.map_map]
      rfl

variable {args : Args} {queue : Option (List UInt8)} {ledger : List UInt8} {rawLines : List (List Char)}
  {emitOne : Emitter}

lemma main_eq {terminal : List String} {pending : List Debt} {emission : Emission}
    {eventUuidForIntent : String → String} {now : String}
    (hresult : replay X authority args.ledgerPath (some ledger) = .ok result) (hvalid : result.valid = true)
    (hqueue : queueLines queue = .ok rawLines) (hread : ∀ rawLine ∈ rawLines, ∃ item, readLine X rawLine = .ok item)
    (hrun : args.planOnly = false) (hterminal : terminalIds (window X rawLines args.limit) = .ok terminal)
    (hpending : pendingRecords X (window X rawLines args.limit) terminal = .ok pending)
    (hemission : emitFrom emitOne args now (.str (expectedHash result)) (makePlan X eventUuidForIntent
      (pending.filter fun debt => debt.intentId ∉ denyIds (ledgerEvents X ledger))) = .ok emission) :
    main X eventUuidForIntent authority args queue ledger emitOne now =
      .ok (reportOf X eventUuidForIntent args now pending (denyIds (ledgerEvents X ledger)) emission) := by
  simp only [main, loadQueue, hqueue, loadLines_eq hread, hterminal, hpending, checkoutLedger_of_valid hresult hvalid,
    hrun, hemission, bind, Except.bind, pure, Except.pure]
  rfl

theorem main_progresses (hvalid : ∃ result, replay X authority args.ledgerPath (some ledger) = .ok result ∧
      result.valid = true)
    (hqueue : queueLines queue = .ok rawLines) (hread : ∀ rawLine ∈ rawLines, ∃ item, readLine X rawLine = .ok item)
    (hpass : ∀ item ∈ window X rawLines args.limit, Passable X item) (hrun : args.planOnly = false)
    (hemit : Succeeds emitOne) (eventUuidForIntent : String → String) (now : String) :
    ∃ report, main X eventUuidForIntent authority args queue ledger emitOne now = .ok report ∧
      Progresses X args now (window X rawLines args.limit) (denyIds (ledgerEvents X ledger)) report := by
  obtain ⟨result, hresult, hvalid⟩ := hvalid
  obtain ⟨terminal, hterminalIds, hterminal⟩ := terminalIds_eq fun item hitem => (hpass item hitem).status
  obtain ⟨pending, hpendingFrom, hnodup, hpending⟩ := pendingFrom_eq (X := X) []
    fun item hitem => (hpass item hitem).debt
  obtain ⟨emission, hemission, hfailed, hemitted, hmarkers⟩ := emitFrom_of_succeeds hemit args now
    (.str (expectedHash result)) (makePlan X eventUuidForIntent
      (pending.filter fun debt => debt.intentId ∉ denyIds (ledgerEvents X ledger)))
  exact ⟨_, main_eq hresult hvalid hqueue hread hrun hterminalIds hpendingFrom hemission,
    progresses_of_pending hterminal hnodup hpending hfailed hemitted hmarkers⟩

end Runs

section Sample

open Sample

def denyAuthority : Authority := [("DENY_RECORDED", ["coordinator"])]

def deniedId : String := "aaaaaaaaaaaaaaaaaaaaaaaaaaaaaaaaaaaaaaaaaaaaaaaaaaaaaaaaaaaaaaaa"

/-- A ledger that records the denied intent. -/
def denied : List Draft :=
  [⟨"u1", "DENY_RECORDED", "coordinator", "2026-07-16T20:00:00Z", after 0,
      .obj [("deny_event_intent_id", .str deniedId)],
      "de11cb6de3e80722aed8f51764fdc7ca5facf88869cc87ef12182db0d4b33315",
      "4eb37cacc606d8e1f7414eccef73929ef02cca957c0233c512571cc2cd4e1642"⟩]

def debtRecord : Json :=
  .obj [("intent", .obj [("allowed", .bool false), ("deny_code", .str "project_truth_stale"),
      ("deny_event_intent_id", .str deniedId), ("issue", .str "o/r#1"), ("operation", .str "deploy"),
      ("session", .str "s")]),
    ("schemaVersion", .str debtSchema), ("status", .str "blocked_audit_debt")]

def otherRecord : Json := .obj [("note", .str "x")]

def runArgs (limit : Nat) : Args :=
  ⟨".local/coordination-audit-debt.jsonl", "origin", "coordination-ledger", "coordination-ledger/events.jsonl", limit,
    false⟩

def emitter : Emitter := fun _ _ => .ok (.obj [("branch_append", .obj [("append", .obj [])])])

lemma succeeds_emitter : Succeeds emitter := fun _ _ => ⟨_, _, rfl, rfl⟩

lemma readable_denied (X : Externals) : ∀ draft ∈ denied, Json.All (Json.Readable X.float) draft.payload := by
  simp [denied, Json.All, Json.AllFields, Json.Readable]

lemma sorted_denied : ∀ draft ∈ denied, sorted draft.payload = draft.payload := by
  simp only [denied, List.forall_mem_cons]
  exact ⟨rfl, by simp⟩

lemma labelled_denied : Labelled ["event_uuid"] (materials none denied) := by
  simp [Labelled, denied, materials, label, Draft.chainedTo, Json.get, List.lookup_cons, Json.asStr?]

lemma passes_denied (table : List (List UInt8 × String)) :
    ∀ draft ∈ denied, draft.Passes (externals table) denyAuthority := by
  simp only [denied, List.forall_mem_singleton]
  refine ⟨by decide, ⟨by decide, by decide, ["coordinator"], rfl, by simp⟩, fun line => ?_, rfl, by decide, by decide⟩
  have hz : CrossAi.endsWithZ "2026-07-16T20:00:00Z" = true := by decide
  have htime : times.lookup (spelledOffset "2026-07-16T20:00:00Z") = some 0 := by decide
  simp [parseCommittedAt, hz, externals, htime]

lemma acceptable_denied : Acceptable (externals (digests denied)) denyAuthority none denied :=
  ⟨passes_denied _, by decide, by simp [denied], sha256Hex_materials (readable_denied _) labelled_denied⟩

def sample : Externals := externals (digests denied)

def ledgerOf (drafts : List Draft) : List UInt8 := ledgerBytes (chained prefixed none drafts)

def recordedIn (drafts : List Draft) : List String := denyIds (ledgerEvents sample (ledgerOf drafts))

lemma replay_denied (path : String) :
    ∃ result, replay sample denyAuthority path (some (ledgerOf denied)) = .ok result ∧ result.valid = true := by
  obtain ⟨result, hresult, hvalid, -⟩ := replay_chained (readable_denied _) acceptable_denied
    (fun draft hdraft => (acceptable_denied.passes draft hdraft).eventHash.prefixed) path
  exact ⟨result, hresult, hvalid⟩

lemma replay_empty (path : String) :
    ∃ result, replay sample denyAuthority path (some (ledgerOf [])) = .ok result ∧ result.valid = true := by
  have haccept : Acceptable sample denyAuthority none [] := ⟨by simp, by simp, by simp, by simp [materials]⟩
  obtain ⟨result, hresult, hvalid, -⟩ := replay_chained (by simp) haccept (by simp) path
  exact ⟨result, hresult, hvalid⟩

lemma recordedIn_denied : recordedIn denied = [deniedId] := by
  rw [recordedIn, ledgerOf, ledgerEvents_chained (readable_denied _) sorted_denied]
  rfl

lemma recordedIn_empty : recordedIn [] = [] := by
  rw [recordedIn, ledgerOf, ledgerEvents_chained (by simp) (by simp)]
  rfl

lemma writable_records (X : Externals) : ∀ record ∈ [otherRecord, debtRecord], Writable X record := by
  simp only [List.forall_mem_cons]
  refine ⟨⟨?_, rfl⟩, ⟨?_, rfl⟩, by simp⟩ <;>
    simp [otherRecord, debtRecord, Json.All, Json.AllFields, Json.Readable, deniedId, debtSchema]

/-- A queue of the given records is read record by record. -/
lemma queue_reads {records : List Json} (h : ∀ record ∈ records, Writable X record)
    (hsorted : ∀ record ∈ records, sorted record = record) :
    ∃ rawLines, queueLines (some (ledgerBytes records)) = .ok rawLines ∧
      (∀ rawLine ∈ rawLines, ∃ item, readLine X rawLine = .ok item) ∧
      rawLines.filterMap (eventOfLine? X) = records := by
  refine ⟨records.map canonicalEventLine, ?_, ?_, ?_⟩
  · rw [queueLines, ledgerBytes, fileLines_of_decode? (Text.decode?_encode _), lines_ledgerText h, Except.mapError]
  · simp only [List.forall_mem_map]
    intro record hmem
    obtain ⟨fields, hfields⟩ := Option.isSome_iff_exists.mp (h record hmem).sorted_isObject
    have hobj : sorted record = .obj fields := by
      cases hrecord : sorted record <;> simp_all [Json.asObj?]
    have hloads := (h record hmem).loads_line
    rw [hobj] at hloads
    exact ⟨_, readLine_of_readable (.inr ⟨fields, by rw [(h record hmem).strip_line, hloads]⟩)⟩
  · rw [List.filterMap_map]
    have hself : ∀ record ∈ records, eventOfLine? X (canonicalEventLine record) = some record := by
      intro record hmem
      rw [(h record hmem).eventOfLine, hsorted record hmem]
    exact (List.filterMap_congr hself).trans List.filterMap_some

lemma sorted_records : ∀ record ∈ [otherRecord, debtRecord], sorted record = record := by
  simp only [List.forall_mem_cons]
  exact ⟨rfl, rfl, by simp⟩

lemma debt?_debtRecord : ∃ debt, debt? sample debtRecord = .ok (some debt) ∧ debt.intentId = deniedId :=
  ⟨_, rfl, rfl⟩

/-- A run on a queue of the given records, a valid ledger and an emitter that succeeds. -/
structure SampleRun (args : Args) (records : List Json) (drafts : List Draft) (report : Report) : Prop where
  queue : ∃ rawLines, queueLines (some (ledgerBytes records)) = .ok rawLines ∧
    rawLines.filterMap (eventOfLine? sample) = records
  valid : ∃ result, replay sample denyAuthority args.ledgerPath (some (ledgerOf drafts)) = .ok result ∧
    result.valid = true
  succeeds : Succeeds emitter
  run : main sample id denyAuthority args (some (ledgerBytes records)) (ledgerOf drafts) emitter
    "2026-07-16T20:00:00Z" = .ok report

lemma sampleRun {records : List Json} {drafts : List Draft} {limit : Nat} {pending : List Debt}
    (hsub : ∀ record ∈ records, record ∈ [otherRecord, debtRecord])
    (hvalid : ∃ result, replay sample denyAuthority (runArgs limit).ledgerPath (some (ledgerOf drafts)) = .ok result ∧
      result.valid = true)
    (hterminal : terminalIds (records.take limit) = .ok [])
    (hpending : pendingRecords sample (records.take limit) [] = .ok pending)
    (hrecorded : pending.filter (fun debt => debt.intentId ∉ recordedIn drafts) = []) :
    SampleRun (runArgs limit) records drafts
      (reportOf sample id (runArgs limit) "2026-07-16T20:00:00Z" pending (recordedIn drafts) ⟨[], [], none⟩) := by
  obtain ⟨rawLines, hlines, hread, hrecords⟩ := queue_reads
    (fun record hmem => writable_records sample record (hsub record hmem))
    (fun record hmem => sorted_records record (hsub record hmem))
  obtain ⟨result, hresult, hvalid⟩ := hvalid
  have hwindow : window sample rawLines (runArgs limit).limit = records.take limit := by
    rw [window, hrecords, runArgs]
  refine ⟨⟨rawLines, hlines, hrecords⟩, ⟨result, hresult, hvalid⟩, succeeds_emitter,
    main_eq hresult hvalid hlines hread rfl (hwindow ▸ hterminal) (hwindow ▸ hpending) ?_⟩
  change emitFrom _ _ _ _ (makePlan _ _ (pending.filter fun debt => debt.intentId ∉ recordedIn drafts)) = _
  rw [hrecorded]
  rfl

/-- A debt after the window stays outstanding, and a debt that the ledger records gets a marker. -/
theorem main_not_progresses :
    (∃ report, SampleRun (runArgs 1) [otherRecord, debtRecord] [] report ∧
      Outstanding sample [otherRecord, debtRecord] (recordedIn []) deniedId ∧ report.emitted = []) ∧
    ∃ report, SampleRun (runArgs 20) [debtRecord] denied report ∧
      (∀ id, ¬ Outstanding sample [debtRecord] (recordedIn denied) id) ∧ report.markers ≠ [] := by
  obtain ⟨debt, hdebt, hid⟩ := debt?_debtRecord
  constructor
  · refine ⟨_, sampleRun (by simp) (replay_empty _) rfl rfl rfl, ⟨⟨debtRecord, by simp, debt, hdebt, hid⟩, ?_, ?_⟩, rfl⟩
    · rintro ⟨item, hmem, hmarked⟩
      rcases List.mem_pair.mp hmem with rfl | rfl <;> cases hmarked
    · rw [recordedIn_empty]
      exact List.not_mem_nil
  · have hpending : pendingRecords sample ([debtRecord].take 20) [] = .ok [debt] := by
      rw [pendingRecords, List.take_of_length_le (by simp), pendingFrom, hdebt]
      rfl
    refine ⟨_, sampleRun (by simp) (replay_denied _) rfl hpending (by simp [recordedIn_denied, hid]), ?_, ?_⟩
    · rintro id ⟨⟨item, hmem, found, hfound, rfl⟩, -, hunrecorded⟩
      cases List.mem_singleton.mp hmem
      cases hdebt.symm.trans hfound
      exact hunrecorded (by simp [recordedIn_denied, hid])
    · simp [reportOf, recordedIn_denied, hid]

/-- The run on the debt alone and a ledger without it. -/
theorem main_progresses_debt :
    ∃ report, main sample id denyAuthority (runArgs 20) (some (ledgerBytes [debtRecord])) (ledgerOf []) emitter
        "2026-07-16T20:00:00Z" = .ok report ∧
      Progresses sample (runArgs 20) "2026-07-16T20:00:00Z" [debtRecord] (recordedIn []) report := by
  obtain ⟨rawLines, hlines, hread, hrecords⟩ := queue_reads
    (fun record hmem => writable_records sample record (List.mem_cons_of_mem _ hmem))
    (fun record hmem => sorted_records record (List.mem_cons_of_mem _ hmem))
  have hwindow : window sample rawLines (runArgs 20).limit = [debtRecord] := by
    rw [window, hrecords]
    rfl
  obtain ⟨report, hrun, hprogress⟩ := main_progresses (replay_empty _) hlines hread
    (by rw [hwindow]; exact List.forall_mem_singleton.mpr ⟨⟨none, rfl⟩, ⟨_, rfl⟩⟩) rfl succeeds_emitter id
    "2026-07-16T20:00:00Z"
  exact ⟨report, hrun, hwindow ▸ hprogress⟩

end Sample

end PlatformGitops.Coordination.RetryAuditDebt
