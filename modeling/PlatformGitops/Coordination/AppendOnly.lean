import PlatformGitops.Coordination.Copies
import PlatformGitops.Coordination.TamperEvidence
import PlatformGitops.Coordination.WovenLines
import Mathlib

/-! The gate on ledger changes: the lines of the old ledger come first in the new one. -/

namespace PlatformGitops.Coordination

open Library Json Fallible

namespace EnforceAppendOnlyLedger

structure Args where
  old : String
  new : String
  authority : String

inductive Stop where
  | appendOnlyError (reason : String)
  | failed (failure : Failure)
deriving DecidableEq, Repr

structure Report where
  oldEvents : Nat
  newEvents : Nat
  appendedLines : Nat
deriving DecidableEq, Repr

section Gate

variable (X : Externals) (files : String → Option (List UInt8))

def nonEmptyLines (path : String) : Except Failure (List (List Char)) :=
  match files path with
  | none => .ok []
  | some bytes => do
    let text ← readText bytes
    pure (bodies (splitlines text))

def replay (path authorityPath label : String) : Except Stop ReplayResult := do
  let authority ← (loadAuthority X authorityPath (files authorityPath)).mapError .failed
  let result ← (Coordination.replay X authority path (files path)).mapError .failed
  rejectIf (result.valid = false) (.appendOnlyError (label ++ " ledger invalid line=" ++
    (result.invalidLine.map toString).getD "None" ++ " reason=" ++ result.reason.getD "None"))
  pure result

/-- The old lines from the given index on stand at their places among the new ones. -/
def checkPrefix (newLines : List (List Char)) : List (List Char) → Nat → Except Stop Unit
  | [], _ => .ok ()
  | expected :: oldLines, index => do
    rejectIf (newLines[index]? ≠ some expected)
      (.appendOnlyError ("ledger prefix mismatch at non-empty line " ++ toString (index + 1)))
    checkPrefix newLines oldLines (index + 1)

def replayUnlessEmpty (lines : List (List Char)) (path authorityPath label : String) : Except Stop (Option ReplayResult) :=
  if lines = [] then pure none else some <$> replay X files path authorityPath label

def main (args : Args) : Except Stop Report := do
  let oldLines ← (nonEmptyLines files args.old).mapError .failed
  let newLines ← (nonEmptyLines files args.new).mapError .failed
  rejectIf (newLines.length < oldLines.length) (.appendOnlyError "new ledger is shorter than old ledger")
  checkPrefix newLines oldLines 0
  let oldReplay ← replayUnlessEmpty X files oldLines args.old args.authority "old"
  let newReplay ← replayUnlessEmpty X files newLines args.new args.authority "new"
  pure ⟨(oldReplay.map (·.validEvents)).getD 0, (newReplay.map (·.validEvents)).getD 0, newLines.length - oldLines.length⟩

/-- The exit status: an error that is not caught ends the interpreter with one, too. -/
def exit (args : Args) : Nat :=
  match main X files args with
  | .ok _ => 0
  | .error _ => 1

end Gate

section Inversion

variable {X : Externals} {files : String → Option (List UInt8)} {args : Args} {path authorityPath label : String}

lemma checkPrefix_eq_ok {newLines oldLines : List (List Char)} {index : Nat}
    (h : checkPrefix newLines oldLines index = .ok ()) : oldLines <+: newLines.drop index := by
  induction oldLines generalizing index with
  | nil => exact List.nil_prefix
  | cons expected oldLines ih =>
    simp only [checkPrefix, bind_eq_ok, rejectIf_eq_ok, ne_eq, not_not] at h
    obtain ⟨-, hline, h⟩ := h
    obtain ⟨hlt, hget⟩ := List.getElem?_eq_some_iff.mp hline
    rw [List.drop_eq_getElem_cons hlt, hget, List.prefix_cons_inj]
    exact ih h

lemma mapError_eq_ok {ε ε' α : Type} {f : ε → ε'} {x : Except ε α} {a : α} (h : x.mapError f = .ok a) : x = .ok a := by
  cases x with
  | ok b =>
    cases h
    rfl
  | error e => cases h

lemma replay_eq_ok {result : ReplayResult} (h : replay X files path authorityPath label = .ok result) :
    ∃ authority, Coordination.replay X authority path (files path) = .ok result ∧ result.valid = true := by
  simp only [replay, bind_eq_ok, rejectIf_eq_ok, pure_eq_ok, Bool.not_eq_false] at h
  obtain ⟨authority, -, result', hreplay, _, hvalid, rfl⟩ := h
  exact ⟨authority, mapError_eq_ok hreplay, hvalid⟩

/-- What a ledger went through that has lines. -/
def Accepted (X : Externals) (path : String) (bytes : List UInt8) : Prop :=
  ∃ authority result, Coordination.replay X authority path (some bytes) = .ok result ∧ result.valid = true

lemma accepted_of_replayUnlessEmpty {lines : List (List Char)} {out : Option ReplayResult} {bytes : List UInt8}
    (hfile : files path = some bytes) (hne : lines ≠ [])
    (h : replayUnlessEmpty X files lines path authorityPath label = .ok out) : Accepted X path bytes := by
  rw [replayUnlessEmpty, if_neg hne, map_eq_ok] at h
  obtain ⟨result, hresult, -⟩ := h
  obtain ⟨authority, hreplay, hvalid⟩ := replay_eq_ok hresult
  exact ⟨authority, result, hfile ▸ hreplay, hvalid⟩

lemma nonEmptyLines_eq_ok {lines : List (List Char)} {bytes : List UInt8} (hfile : files path = some bytes)
    (h : nonEmptyLines files path = .ok lines) :
    ∃ rawLines, fileLines bytes = .ok rawLines ∧ lines = rawLines.flatMap pieces := by
  simp only [nonEmptyLines, hfile, bind_eq_ok, pure_eq_ok] at h
  obtain ⟨text, htext, rfl⟩ := h
  refine ⟨Text.lines text, ?_, ?_⟩
  · rw [fileLines, htext]
    rfl
  · rw [bodies_splitlines, pieces_universalNewlines, pieces_eq_flatMap]

lemma main_eq_ok {report : Report} {old new : List UInt8} (hold : files args.old = some old)
    (hnew : files args.new = some new) (h : main X files args = .ok report) :
    ∃ rawLines rawLines', fileLines old = .ok rawLines ∧ fileLines new = .ok rawLines' ∧
      rawLines.flatMap pieces <+: rawLines'.flatMap pieces ∧
      (rawLines.flatMap pieces ≠ [] → Accepted X args.old old) ∧
      (rawLines'.flatMap pieces ≠ [] → Accepted X args.new new) := by
  simp only [main, bind_eq_ok] at h
  obtain ⟨oldLines, holdLines, newLines, hnewLines, _, -, _, hfront, oldReplay, holdReplay, newReplay, hnewReplay, -⟩ := h
  obtain ⟨rawLines, hlines, rfl⟩ := nonEmptyLines_eq_ok hold (mapError_eq_ok holdLines)
  obtain ⟨rawLines', hlines', rfl⟩ := nonEmptyLines_eq_ok hnew (mapError_eq_ok hnewLines)
  exact ⟨rawLines, rawLines', hlines, hlines', checkPrefix_eq_ok hfront,
    fun hne => accepted_of_replayUnlessEmpty hold hne holdReplay,
    fun hne => accepted_of_replayUnlessEmpty hnew hne hnewReplay⟩

lemma nonEmptyLines_of_lines {rawLines : List (List Char)} {bytes : List UInt8} (hfile : files path = some bytes)
    (h : fileLines bytes = .ok rawLines) : nonEmptyLines files path = .ok (rawLines.flatMap pieces) := by
  obtain ⟨text, htext, rfl⟩ := map_eq_ok.mp h
  simp only [nonEmptyLines, hfile, htext, bind, Except.bind, pure, Except.pure]
  rw [bodies_splitlines, pieces_universalNewlines, pieces_eq_flatMap]

lemma checkPrefix_of_prefix {newLines oldLines : List (List Char)} {index : Nat} (h : oldLines <+: newLines.drop index) :
    checkPrefix newLines oldLines index = .ok () := by
  induction oldLines generalizing index with
  | nil => rfl
  | cons expected oldLines ih =>
    obtain ⟨more, hmore⟩ := h
    have hget : newLines[index]? = some expected := by
      rw [← List.head?_drop, ← hmore]
      rfl
    have hrest : oldLines <+: newLines.drop (index + 1) := by
      rw [← List.tail_drop, ← hmore]
      exact List.prefix_append oldLines more
    simp [checkPrefix, rejectIf, hget, ih hrest, bind, Except.bind]

lemma exit_of_accepted {authority : Authority} {old new : List UInt8} {result result' : ReplayResult}
    {rawLines rawLines' : List (List Char)} (hold : files args.old = some old) (hnew : files args.new = some new)
    (hauthority : loadAuthority X args.authority (files args.authority) = .ok authority)
    (h : Coordination.replay X authority args.old (some old) = .ok result) (hvalid : result.valid = true)
    (h' : Coordination.replay X authority args.new (some new) = .ok result') (hvalid' : result'.valid = true)
    (hlines : fileLines old = .ok rawLines) (hlines' : fileLines new = .ok rawLines') (hfront : rawLines <+: rawLines') :
    exit X files args = 0 := by
  have hreplay (path label : String) (bytes : List UInt8) (result : ReplayResult) (hfile : files path = some bytes)
      (h : Coordination.replay X authority path (some bytes) = .ok result) (hvalid : result.valid = true) :
      replay X files path args.authority label = .ok result := by
    simp [replay, hauthority, hfile, h, hvalid, rejectIf, Except.mapError, bind, Except.bind, pure, Except.pure]
  have hunless (lines : List (List Char)) (path label : String) (bytes : List UInt8) (result : ReplayResult)
      (hfile : files path = some bytes) (h : Coordination.replay X authority path (some bytes) = .ok result)
      (hvalid : result.valid = true) : ∃ out, replayUnlessEmpty X files lines path args.authority label = .ok out := by
    by_cases hempty : lines = []
    · exact ⟨none, by rw [replayUnlessEmpty, if_pos hempty]; rfl⟩
    · exact ⟨some result, by rw [replayUnlessEmpty, if_neg hempty, hreplay path label bytes result hfile h hvalid]; rfl⟩
  obtain ⟨out, hout⟩ := hunless (rawLines.flatMap pieces) args.old "old" old result hold h hvalid
  obtain ⟨out', hout'⟩ := hunless (rawLines'.flatMap pieces) args.new "new" new result' hnew h' hvalid'
  obtain ⟨more, rfl⟩ := hfront
  have hpieces : rawLines.flatMap pieces <+: (rawLines ++ more).flatMap pieces := by
    rw [List.flatMap_append]
    exact List.prefix_append _ _
  have hcheck : checkPrefix ((rawLines ++ more).flatMap pieces) (rawLines.flatMap pieces) 0 = .ok () :=
    checkPrefix_of_prefix hpieces
  have hlength := Nat.not_lt.mpr hpieces.length_le
  simp only [exit, main, nonEmptyLines_of_lines hold hlines, nonEmptyLines_of_lines hnew hlines', Except.mapError, bind,
    Except.bind, rejectIf, if_neg hlength, hcheck, hout, hout', pure, Except.pure]

end Inversion

section Events

variable {X : Externals} {path path' : String} {bytes bytes' : List UInt8} {event event' : Json}

lemma gapless_of_matchHash? {value hash : String} (h : matchHash? value = some hash) : Gapless value := by
  have hmark {c : Char} (hc : isHashDigit c = true) : isMark c = true := by
    simp only [isHashDigit, Bool.decide_or, Bool.or_eq_true, decide_eq_true_eq, Char.le_def] at hc
    simp only [isMark, Bool.and_eq_true, decide_eq_true_eq]
    rcases hc with hc | hc
    · exact ⟨le_trans (by decide) hc.1, lt_of_le_of_lt hc.2 (by decide)⟩
    · exact ⟨le_trans (by decide) hc.1, lt_of_le_of_lt hc.2 (by decide)⟩
  have hdigits {digits : List Char} (h : (if digits.length = 64 ∧ digits.all isHashDigit then some (String.ofList digits)
      else if digits.length = 65 ∧ (digits.take 64).all isHashDigit ∧ digits.getLast? = some '\n' then
        some (String.ofList (digits.take 64)) else none) = some hash) :
      ∀ c ∈ digits, isMark c = true ∨ isSpace c = true := by
    split_ifs at h with hall hline
    · exact fun c hc => .inl (hmark (List.all_eq_true.mp hall.2 c hc))
    · obtain ⟨hlength, htake, hlast⟩ := hline
      obtain ⟨more, rfl⟩ := List.getLast?_eq_some_iff.mp hlast
      have hmore : more.length = 64 := by simpa using hlength
      rw [← hmore, List.take_left] at htake
      rw [List.forall_mem_append]
      refine ⟨fun c hc => .inl (hmark (List.all_eq_true.mp htake c hc)), ?_⟩
      rw [List.forall_mem_singleton]
      exact .inr (by decide)
  rw [matchHash?] at h
  by_cases hfront : "sha256:".toList.isPrefixOf value.toList = true
  · rw [if_pos hfront] at h
    obtain ⟨rest, hrest⟩ := List.isPrefixOf_iff_prefix.mp hfront
    have hdrop : value.toList.drop 7 = rest := by rw [← hrest]; rfl
    rw [hdrop] at h
    rw [Gapless, ← hrest, List.forall_mem_append]
    exact ⟨fun c hc => .inl (forall_of_all (p := isMark) (by decide) c hc), hdigits h⟩
  · rw [if_neg hfront] at h
    exact hdigits h

/-- The same event without its own hash. -/
lemma hashMaterial_same (h : Same event event') : Same (hashMaterial event) (hashMaterial event') := by
  induction h with
  | refl v => exact .refl _
  | trans _ _ ihu ihv => exact ihu.trans ihv
  | item before after hitem _ => exact .item before after hitem
  | value before after key hvalue _ =>
    simp only [hashMaterial, List.filter_append, List.filter_cons]
    split
    · exact .value _ _ key hvalue
    · exact .refl _
  | order hperm => exact .order (hperm.filter _)

/-- The object with one field in front. -/
def consField (p : String × Json) : Json → Json
  | .obj fields => .obj (p :: fields)
  | v => v

lemma cons_same {p : String × Json} {fields fields' : List (String × Json)} (h : Same (.obj fields) (.obj fields')) :
    Same (.obj (p :: fields)) (.obj (p :: fields')) := by
  have hcons : ∀ v w, Same v w → Same (consField p v) (consField p w) := by
    intro v w h
    induction h with
    | refl v => exact .refl _
    | trans _ _ ihu ihv => exact ihu.trans ihv
    | item before after hitem _ => exact .item before after hitem
    | value before after key hvalue _ => exact .value (p :: before) after key hvalue
    | order hperm => exact .order (hperm.cons p)
  exact hcons _ _ h

lemma perm_filter_of_lookup {fields : List (String × Json)} {key : String} {v : Json} (hn : (fields.map (·.1)).Nodup)
    (h : fields.lookup key = some v) : fields.Perm ((key, v) :: fields.filter fun p => p.1 ≠ key) := by
  induction fields with
  | nil => cases h
  | cons p fields ih =>
    rw [List.map_cons, List.nodup_cons] at hn
    by_cases hp : key = p.1
    · subst hp
      rw [List.lookup_cons, beq_self_eq_true] at h
      obtain rfl := Option.some.inj h
      have hself : fields.filter (fun q => q.1 ≠ p.1) = fields := by
        rw [List.filter_eq_self]
        intro q hq
        exact decide_eq_true fun heq => hn.1 (List.mem_map.mpr ⟨q, hq, heq⟩)
      rw [List.filter_cons_of_neg (by simp), hself]
    · have hne : (key == p.1) = false := by simpa using hp
      rw [List.lookup_cons, hne] at h
      rw [List.filter_cons_of_pos (by simpa using Ne.symm hp)]
      exact ((ih hn.2 h).cons p).trans (List.Perm.swap _ _ _)

/-- The same event with the same hash. -/
lemma same_of_hashMaterial {fields fields' : List (String × Json)} {hash : Json} (hd : Distinct (.obj fields))
    (hd' : Distinct (.obj fields')) (h : Same (hashMaterial (.obj fields)) (hashMaterial (.obj fields')))
    (hhash : fields.lookup "event_hash" = some hash) (hhash' : fields'.lookup "event_hash" = some hash) :
    Same (.obj fields) (.obj fields') :=
  (Same.order (perm_filter_of_lookup hd.self hhash)).trans
    ((cons_same h).trans (Same.order (perm_filter_of_lookup hd'.self hhash')).symm)

/-- Each event of an accepted ledger has its own digest. -/
lemma eventHash?_of_accepted (hfloat : ReadsFloats X.float) (h : Accepted X path bytes)
    (hmem : event ∈ ledgerEvents X bytes) : eventHash? event = some (eventDigest X event) := by
  obtain ⟨authority, result, hreplay, hvalid⟩ := h
  obtain ⟨_, progress, hbytes, hreplayed, -, -⟩ := replayed_of_valid hreplay hvalid
  cases hbytes
  have hsome := mem_uuids_iff.mpr (List.mem_map_of_mem (f := eventUuid) hmem)
  obtain ⟨first, hfind⟩ := Option.isSome_iff_exists.mp hsome
  have hfirst : eventUuid first = eventUuid event := by simpa using List.find?_some hfind
  have hsame := same_of_eventUuid hfloat hreplay hvalid (List.mem_of_find?_eq_some hfind) hmem hfirst
  have hdistinct := distinct_of_readable (readable_of_mem_ledgerEvents hfloat (List.mem_of_find?_eq_some hfind))
  have hdistinct' := distinct_of_readable
    (readable_hashMaterial (readable_of_mem_ledgerEvents hfloat (List.mem_of_find?_eq_some hfind)))
  have hhash := hreplayed.hashes first (mem_firstOccurrences_of_find? List.not_mem_nil hfind)
  have hdigest : eventDigest X first = eventDigest X event := by
    rw [eventDigest, eventDigest, sha256Hex, sha256Hex, canonicalJsonBytes, canonicalJsonBytes,
      (hashMaterial_same hsame).dumps_eq keyOrder_codePointLe hdistinct']
  rw [← hdigest, ← hhash, eventHash?, eventHash?, (hsame.get hdistinct "event_hash").asStr?_eq]

/-- Lines that differ in gaps only hold one event, if both are accepted. -/
lemma same_of_woven (hsha : CollisionFree X) (hfloat : ReadsFloats X.float) (h : Accepted X path bytes)
    (h' : Accepted X path' bytes') {b c : List Char} (hwoven : Woven NoMore b c) (hmem : event ∈ ledgerEvents X bytes)
    (hmem' : event' ∈ ledgerEvents X bytes') (hb : loads X.float b = some event) (hc : loads X.float c = some event')
    (hobj : event.asObj?.isSome = true) (hobj' : event'.asObj?.isSome = true) : Same event event' := by
  have hread := readable_of_mem_ledgerEvents hfloat hmem
  have hread' := readable_of_mem_ledgerEvents hfloat hmem'
  have hhash := eventHash?_of_accepted hfloat h hmem
  have hhash' := eventHash?_of_accepted hfloat h' hmem'
  cases event with
  | obj fields =>
    cases event' with
    | obj fields' =>
      obtain ⟨text, htext, hmatch⟩ := Option.bind_eq_some_iff.mp hhash
      have hget : (Json.obj fields).get "event_hash" = .str text := by
        cases hvalue : (Json.obj fields).get "event_hash" <;> simp_all [asStr?]
      have hkey : Gapless "event_hash" := fun c hc => .inl (forall_of_all (p := isMark) (by decide) c hc)
      have hget' := loads_woven_get hwoven hb hc hkey (gapless_of_matchHash? hmatch) hget
      have hdigest : eventDigest X (.obj fields) = eventDigest X (.obj fields') := by
        rw [eventHash?, hget', asStr?, Option.bind_some, hmatch] at hhash'
        exact Option.some.inj hhash'
      have hlookup {more : List (String × Json)} (hmore : (Json.obj more).get "event_hash" = .str text) :
          more.lookup "event_hash" = some (.str text) := by
        rw [Json.get] at hmore
        cases hlook : more.lookup "event_hash" with
        | none =>
          rw [hlook] at hmore
          cases hmore
        | some v =>
          rw [hlook] at hmore
          exact congrArg some hmore
      exact same_of_hashMaterial (distinct_of_readable hread) (distinct_of_readable hread')
        (same_of_eventDigest_eq hsha hread hread' hdigest) (hlookup hget) (hlookup hget')
    | _ => cases hobj'
  | _ => cases hobj

end Events

section Prefix

variable {X : Externals} {path path' : String} {bytes bytes' : List UInt8} {rawLines rawLines' : List (List Char)}

lemma body_of_mem (hlines : fileLines bytes = .ok rawLines) {b : List Char} (h : b ∈ bodies rawLines) : Body b := by
  obtain ⟨text, -, rfl⟩ := fileLines_eq_ok hlines
  obtain ⟨hne, rawLine, hmem, rfl⟩ := mem_bodies.mp h
  refine ⟨strip_strip rawLine, hne, fun c hc => ?_⟩
  obtain ⟨before, after, hsplit, -, -⟩ := strip_spec rawLine
  have hc : c ∈ rawLine := by
    rw [hsplit]
    exact List.mem_append_right _ (List.mem_append_left _ hc)
  exact (Text.noLineEnd_of_mem_lines hmem c hc).symm

lemma flatMap_bodies (rawLines : List (List Char)) : (bodies rawLines).flatMap pieces = rawLines.flatMap pieces := by
  induction rawLines with
  | nil => rfl
  | cons rawLine rawLines ih =>
    rw [← List.singleton_append, bodies_append, List.flatMap_append, List.flatMap_append, ih]
    by_cases hblank : strip rawLine = []
    · have hpieces : pieces rawLine = [] := by
        rw [← pieces_strip, hblank]
        rfl
      have hnone : bodies [rawLine] = [] := by simp [bodies, hblank]
      rw [hnone, List.flatMap_nil, List.flatMap_singleton, hpieces]
    · have hone : bodies [rawLine] = [strip rawLine] := by simp [bodies, hblank]
      rw [hone, List.flatMap_singleton, List.flatMap_singleton, pieces_strip]

lemma eventOfLine?_strip (rawLine : List Char) : eventOfLine? X (strip rawLine) = eventOfLine? X rawLine := by
  rw [eventOfLine?, eventOfLine?, strip_strip]

lemma filterMap_bodies (rawLines : List (List Char)) :
    (bodies rawLines).filterMap (eventOfLine? X) = rawLines.filterMap (eventOfLine? X) := by
  induction rawLines with
  | nil => rfl
  | cons rawLine rawLines ih =>
    rw [← List.singleton_append, bodies_append, List.filterMap_append, List.filterMap_append, ih]
    by_cases hblank : strip rawLine = []
    · simp [bodies, hblank, eventOfLine?]
    · have hone : bodies [rawLine] = [strip rawLine] := by simp [bodies, hblank]
      rw [hone, List.filterMap_cons, List.filterMap_cons, eventOfLine?_strip]

/-- The bodies of an accepted ledger are those of its events. -/
lemma events_of_accepted (hlines : fileLines bytes = .ok rawLines) (h : Accepted X path bytes) {b : List Char}
    (hb : b ∈ bodies rawLines) : ∃ event, loads X.float b = some event ∧ event.asObj?.isSome = true ∧
      eventOfLine? X b = some event ∧ event ∈ ledgerEvents X bytes := by
  obtain ⟨authority, result, hreplay, hvalid⟩ := h
  obtain ⟨_, hlines', hread, hevents⟩ := lines_of_valid hreplay hvalid
  obtain rfl := Except.ok.inj (hlines.symm.trans hlines')
  obtain ⟨hne, rawLine, hmem, rfl⟩ := mem_bodies.mp hb
  obtain ⟨fields, hfields⟩ := (hread rawLine hmem).resolve_left hne
  have hevent : eventOfLine? X rawLine = some (.obj fields) := by
    rw [eventOfLine?, if_neg hne, hfields]
    rfl
  refine ⟨.obj fields, hfields, rfl, (eventOfLine?_strip rawLine).trans hevent, ?_⟩
  rw [hevents]
  exact List.mem_filterMap.mpr ⟨rawLine, hmem, hevent⟩

/-- A ledger is accepted, or has blank lines only. -/
lemma readEvents_of_gate (hlines : fileLines bytes = .ok rawLines)
    (h : rawLines.flatMap pieces ≠ [] → Accepted X path bytes) :
    LedgerClaimState.readEvents X bytes = .ok ((bodies rawLines).filterMap (eventOfLine? X)) := by
  rw [filterMap_bodies]
  refine readEvents_of_lines hlines fun rawLine hmem => ?_
  by_cases hblank : strip rawLine = []
  · exact .inl hblank
  · have hbody : strip rawLine ∈ bodies rawLines := mem_bodies.mpr ⟨hblank, rawLine, hmem, rfl⟩
    have hne : rawLines.flatMap pieces ≠ [] := by
      rw [← flatMap_bodies]
      obtain ⟨p, hp⟩ := List.exists_mem_of_ne_nil _ (body_of_mem hlines hbody).pieces_ne_nil
      exact List.ne_nil_of_mem (List.mem_flatMap.mpr ⟨_, hbody, hp⟩)
    obtain ⟨authority, result, hreplay, hvalid⟩ := h hne
    obtain ⟨_, hlines', hread, -⟩ := lines_of_valid hreplay hvalid
    obtain rfl := Except.ok.inj (hlines.symm.trans hlines')
    exact hread rawLine hmem

lemma forall₂_same (hsha : CollisionFree X) (hfloat : ReadsFloats X.float) (h : Accepted X path bytes)
    (h' : Accepted X path' bytes') {bs cs : List (List Char)} (hwoven : List.Forall₂ (Woven NoMore) bs cs)
    (hbs : ∀ b ∈ bs, ∃ event, loads X.float b = some event ∧ event.asObj?.isSome = true ∧
      eventOfLine? X b = some event ∧ event ∈ ledgerEvents X bytes)
    (hcs : ∀ c ∈ cs, ∃ event, loads X.float c = some event ∧ event.asObj?.isSome = true ∧
      eventOfLine? X c = some event ∧ event ∈ ledgerEvents X bytes') :
    List.Forall₂ Same (bs.filterMap (eventOfLine? X)) (cs.filterMap (eventOfLine? X)) := by
  induction hwoven with
  | nil => exact .nil
  | cons hbc _ ih =>
    obtain ⟨⟨event, hloads, hobj, hevent, hmem⟩, hbs⟩ := List.forall_mem_cons.mp hbs
    obtain ⟨⟨event', hloads', hobj', hevent', hmem'⟩, hcs⟩ := List.forall_mem_cons.mp hcs
    rw [List.filterMap_cons_some hevent, List.filterMap_cons_some hevent']
    exact .cons (same_of_woven hsha hfloat h h' hbc hmem hmem' hloads hloads' hobj hobj') (ih hbs hcs)

/-- The events of the old ledger come first among those of the new one. -/
theorem old_events_come_first (hsha : CollisionFree X) (hfloat : ReadsFloats X.float)
    {files : String → Option (List UInt8)} {args : Args} {old new : List UInt8} (hold : files args.old = some old)
    (hnew : files args.new = some new) (h : exit X files args = 0) :
    ∃ events kept appended, LedgerClaimState.readEvents X old = .ok events ∧
      LedgerClaimState.readEvents X new = .ok (kept ++ appended) ∧ List.Forall₂ Same events kept := by
  obtain ⟨report, hreport⟩ : ∃ report, main X files args = .ok report := by
    unfold exit at h
    split at h
    · exact ⟨_, by assumption⟩
    · cases h
  obtain ⟨rawLines, rawLines', hlines, hlines', hfront, haccepted, haccepted'⟩ := main_eq_ok hold hnew hreport
  have hread := readEvents_of_gate hlines haccepted
  have hread' := readEvents_of_gate hlines' haccepted'
  by_cases hempty : rawLines.flatMap pieces = []
  · have hnil : bodies rawLines = [] := by
      rw [← flatMap_bodies] at hempty
      refine List.eq_nil_iff_forall_not_mem.mpr fun b hb => ?_
      exact (body_of_mem hlines hb).pieces_ne_nil (List.flatMap_eq_nil_iff.mp hempty b hb)
    rw [hnil] at hread
    exact ⟨[], [], _, hread, hread', .nil⟩
  · have hne : rawLines'.flatMap pieces ≠ [] := by
      intro hnil
      rw [hnil, List.prefix_nil] at hfront
      exact hempty hfront
    have hevents := fun b hb => @events_of_accepted X args.old old rawLines hlines (haccepted hempty) b hb
    have hevents' := fun b hb => @events_of_accepted X args.new new rawLines' hlines' (haccepted' hne) b hb
    rw [← flatMap_bodies rawLines, ← flatMap_bodies rawLines'] at hfront
    obtain ⟨kept, more, hkept, hwoven⟩ := woven_bodies (fun b => body_of_mem hlines) (fun c => body_of_mem hlines')
      (fun b hb => by
        obtain ⟨event, hloads, -⟩ := hevents b hb
        exact Option.isSome_of_eq_some hloads)
      (fun c hc => by
        obtain ⟨event, hloads, -⟩ := hevents' c hc
        exact Option.isSome_of_eq_some hloads) hfront
    rw [hkept, List.filterMap_append] at hread'
    refine ⟨_, _, _, hread, hread', forall₂_same hsha hfloat (haccepted hempty) (haccepted' hne) hwoven hevents ?_⟩
    intro c hc
    exact hevents' c (by rw [hkept]; exact List.mem_append_left _ hc)

end Prefix

namespace Sample

open Coordination.Sample

/-- A note with a line separator in it, and an event after it. -/
def noted : List Draft :=
  [⟨"u1", "CLAIM_ACCEPTED", "coordinator", "2026-07-16T20:00:00Z", after 0,
      .obj [("issue", .int 1), ("note", .str "a\u2028b"), ("repository", .str "o/r"), ("session", .str "a")],
      "33c9e9b8ffc2e7fbb94bbc84e736acd96a184f465d4a67c37f4967804242b65c",
      "d81a98ef91db105de523a89983a92208c7348cab993a63347500387f0fa702fd"⟩,
    ⟨"u2", "CLAIM_ACCEPTED", "coordinator", "2026-07-16T20:10:00Z", after 10,
      .obj [("issue", .int 1), ("repository", .str "o/r"), ("session", .str "a")],
      "f39b1b9fba1e5f1f2dc5e1bcda33af058e67907c72f8f63f188f237ea0d3bb53",
      "f9559695a2beefaea7c39138faabb5df57220f2ce058d71a74b145c33df3f3c1"⟩]

def files (path : String) : Option (List UInt8) :=
  if path = "old.jsonl" then some (ledgerBytes (chained prefixed none (noted.take 1)))
  else if path = "new.jsonl" then some (ledgerBytes (chained prefixed none noted))
  else surroundings.files path

def claimAuthority : Authority := [("CLAIM_ACCEPTED", ["coordinator"])]

lemma authority_files :
    loadAuthority (externals (digests noted)) "authority.json" (files "authority.json") = .ok claimAuthority := by
  have hload : (loadAuthority (externals (digests noted)) "authority.json" (files "authority.json")).toOption =
      some claimAuthority := by decide +kernel
  exact toOption_eq_some hload

lemma readable_noted (X : Externals) : ∀ draft ∈ noted, All (Readable X.float) draft.payload := by
  simp [noted, All, AllFields, Readable, readable_one]

lemma acceptable_noted : Acceptable (externals (digests noted)) authority none noted := by
  have hlabels : Labelled ["event_uuid", "note"] (materials none noted) := by
    simp [Labelled, noted, materials, label, Draft.chainedTo, Json.get, List.lookup, asStr?]
  exact acceptable (readable_noted _) hlabels (by decide) (by decide) (by decide)

lemma acceptable_claims : Acceptable (externals (digests noted)) claimAuthority none noted := by
  refine ⟨fun draft hdraft => ?_, acceptable_noted.uuids, acceptable_noted.times, acceptable_noted.digest⟩
  obtain ⟨huuid, ⟨htype, hrole, -⟩, htime, hobject, hpayload, hevent⟩ := acceptable_noted.passes draft hdraft
  refine ⟨huuid, ⟨htype, hrole, ["coordinator"], ?_⟩, htime, hobject, hpayload, hevent⟩
  simp only [noted, List.mem_cons, List.not_mem_nil, or_false] at hdraft
  rcases hdraft with rfl | rfl <;> exact ⟨rfl, by decide⟩

lemma acceptable_first : Acceptable (externals (digests noted)) claimAuthority none (noted.take 1) where
  passes draft hdraft := acceptable_claims.passes draft (List.mem_of_mem_take hdraft)
  uuids := by decide
  times := by decide
  digest p hp := acceptable_noted.digest p (List.mem_append_left _ hp)

lemma collisionFree_noted : CollisionFree (externals (digests noted)) := by
  refine collisionFree_digests (isHash_materials acceptable_noted) ?_
  simp [noted, materials]

lemma exit_noted : exit (externals (digests noted)) files ⟨"old.jsonl", "new.jsonl", "authority.json"⟩ = 0 := by
  have hspell {drafts : List Draft} (h : Acceptable (externals (digests noted)) claimAuthority none drafts) :
      ∀ draft ∈ drafts, matchHash? (prefixed draft.eventHash) = some draft.eventHash :=
    fun draft hdraft => (h.passes draft hdraft).eventHash.prefixed
  have hfirst : ∀ draft ∈ noted.take 1, All (Readable (externals (digests noted)).float) draft.payload :=
    fun draft hdraft => readable_noted _ draft (List.mem_of_mem_take hdraft)
  have hall := readable_noted (externals (digests noted))
  obtain ⟨result, hresult, hvalid, -⟩ := replay_chained hfirst acceptable_first (hspell acceptable_first) "old.jsonl"
  obtain ⟨result', hresult', hvalid', -⟩ := replay_chained hall acceptable_claims (hspell acceptable_claims) "new.jsonl"
  refine exit_of_accepted rfl rfl authority_files hresult hvalid hresult' hvalid' (fileLines_chained hfirst)
    (fileLines_chained hall) ?_
  simp [noted, chained]

end Sample

open Coordination.Sample Sample in
theorem old_events_come_first_separated : ∃ events kept appended,
    LedgerClaimState.readEvents (externals (digests noted)) (ledgerBytes (chained prefixed none (noted.take 1))) = .ok events ∧
      LedgerClaimState.readEvents (externals (digests noted)) (ledgerBytes (chained prefixed none noted)) =
        .ok (kept ++ appended) ∧ List.Forall₂ Same events kept :=
  old_events_come_first collisionFree_noted (readsFloats _) rfl rfl exit_noted

end EnforceAppendOnlyLedger

end PlatformGitops.Coordination
