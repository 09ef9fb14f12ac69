import PlatformGitops.Coordination.Replay
import PlatformGitops.Library.JsonGaps
import PlatformGitops.Library.JsonPrefix
import PlatformGitops.OverlayDigests.Attribution
import Mathlib

/-! The map of digests as it is dispatched: how the contract prints it, and how it reads what it is sent. -/

namespace PlatformGitops.OverlayDigests

open Library Fallible
open Coordination (strip)

/-- Images that are built with the others and rolled out with none. -/
def buildOnlyServices : List Text := ["discovery-server", "notification-orchestrator"].map String.toList

def allowedPayloadServices : List Text := requiredServices ++ buildOnlyServices

inductive PayloadError where
  | empty
  | notJson
  | stringifiedNotJson
  | notObject
  | unknownKeys (keys : List Text)
  | missingKeys (services : List Text)
  | badDigest (service : Text)
deriving DecidableEq

abbrev Payload := List (String × Json)

section Printing

/-- All texts of a map that is printed are ASCII. -/
def compact (digests : Dict Text Text) : Text :=
  Json.dumps Json.codePointLe (.obj (digests.map fun p => (String.ofList p.1, .str (String.ofList p.2))))

def printed (digests : Dict Text Text) : Text := compact digests ++ ['\n']

end Printing

section Normalize

variable (float : String → String)

def unquoted : Json → Except PayloadError Json
  | .str text => expect (Json.loads float text.toList) .stringifiedNotJson
  | value => pure value

def objectOf : Json → Except PayloadError Payload
  | .obj payload => pure payload
  | _ => .error .notObject

/-- The object of a payload, which may be given as the text of the object. -/
def decodePayload (raw : Text) : Except PayloadError Payload := do
  let value ← expect (Json.loads float raw) .notJson
  objectOf (← unquoted float value)

def payloadDigest (payload : Payload) (service : Text) : Except PayloadError Text :=
  match payload.lookup (String.ofList service) with
  | some (.str digest) => if isDigest digest.toList then .ok digest.toList else .error (.badDigest service)
  | _ => .error (.badDigest service)

local instance instLawfulBEqKey : LawfulBEq Text := inferInstance

def checkKnown (payload : Payload) : Except PayloadError Unit :=
  let unknown := (payload.map (·.1.toList)).filter (· ∉ allowedPayloadServices)
  rejectIf (unknown ≠ []) (.unknownKeys (unknown.mergeSort fun a b => decide (a ≤ b)))

def checkComplete (payload : Payload) : Except PayloadError Unit :=
  let missing := requiredServices.filter fun service => (payload.lookup (String.ofList service)).isNone
  rejectIf (missing ≠ []) (.missingKeys missing)

def checkBuilt (payload : Payload) (service : Text) : Except PayloadError Unit :=
  if (payload.lookup (String.ofList service)).isSome then do
    let _ ← payloadDigest payload service
    pure ()
  else pure ()

def normalizePayload (payload : Payload) : Except PayloadError (Dict Text Text) := do
  checkKnown payload
  checkComplete payload
  let normalized ← requiredServices.mapM fun service => do pure (service, ← payloadDigest payload service)
  buildOnlyServices.forM (checkBuilt payload)
  pure normalized

/-- The command `normalize`, up to what it prints. -/
def normalize (raw : Text) : Except PayloadError (Dict Text Text) :=
  if strip raw = [] then .error .empty
  else do normalizePayload (← decodePayload float raw)

end Normalize

/-- A digest for each service that is rolled out. -/
structure FullMap (digests : Dict Text Text) : Prop where
  services : digests.map (·.1) = requiredServices
  digest : ∀ p ∈ digests, isDigest p.2 = true

section Reading

variable {float : String → String} {digests : Dict Text Text} {payload : Payload} {raw : Text} {service digest : Text}

lemma objectOf_eq_ok {value : Json} : objectOf value = .ok payload ↔ value = .obj payload := by
  cases value <;> simp [objectOf]

lemma decodePayload_eq_ok : decodePayload float raw = .ok payload ↔
    ∃ value, Json.loads float raw = some value ∧ unquoted float value = .ok (.obj payload) := by
  simp only [decodePayload, bind_eq_ok, expect_eq_ok, objectOf_eq_ok, exists_eq_right]

lemma payloadDigest_eq_ok : payloadDigest payload service = .ok digest ↔
    payload.lookup (String.ofList service) = some (.str (String.ofList digest)) ∧ isDigest digest = true := by
  unfold payloadDigest
  split
  · rename_i text hlookup
    rw [hlookup]
    constructor
    · intro h
      split_ifs at h with hdigest
      cases h
      exact ⟨by simp, hdigest⟩
    · rintro ⟨htext, hdigest⟩
      obtain rfl := Json.str.inj (Option.some.inj htext)
      rw [String.toList_ofList, if_pos hdigest]
  · rename_i hno
    exact iff_of_false (by rintro ⟨⟩) fun h => hno _ h.1

/-- The digests of the services that are rolled out, as the payload has them, and nothing else that is not a digest of
a service that is built. -/
structure Normalized (payload : Payload) (digests : Dict Text Text) : Prop where
  known : ∀ p ∈ payload, p.1.toList ∈ allowedPayloadServices
  full : FullMap digests
  given : ∀ p ∈ digests, payload.lookup (String.ofList p.1) = some (.str (String.ofList p.2))
  built : ∀ service ∈ buildOnlyServices, ∀ v, payload.lookup (String.ofList service) = some v →
    ∃ digest, v = .str (String.ofList digest) ∧ isDigest digest = true

lemma pairs_eq_ok : (requiredServices.mapM fun service => do pure (service, ← payloadDigest payload service)) = .ok digests ↔
    FullMap digests ∧ ∀ p ∈ digests, payload.lookup (String.ofList p.1) = some (.str (String.ofList p.2)) := by
  rw [mapM_eq_ok_iff]
  have hpair (services : List Text) : List.Forall₂ (fun (service : Text) (p : Text × Text) => (do
      pure (service, ← payloadDigest payload service) : Except PayloadError (Text × Text)) = .ok p) services digests ↔
      digests.map (·.1) = services ∧ ∀ p ∈ digests,
        payload.lookup (String.ofList p.1) = some (.str (String.ofList p.2)) ∧ isDigest p.2 = true := by
    induction digests generalizing services with
    | nil => cases services <;> simp
    | cons p digests ih =>
      cases services with
      | nil => simp
      | cons service services =>
        rw [List.forall₂_cons, ih, List.map_cons, List.cons.injEq, List.forall_mem_cons]
        have hp : (do pure (service, ← payloadDigest payload service) : Except PayloadError (Text × Text)) = .ok p ↔
            p.1 = service ∧ payload.lookup (String.ofList p.1) = some (.str (String.ofList p.2)) ∧ isDigest p.2 = true := by
          simp only [bind_eq_ok, pure_eq_ok, payloadDigest_eq_ok]
          constructor
          · rintro ⟨digest, h, rfl⟩
            exact ⟨rfl, h⟩
          · rintro ⟨rfl, h⟩
            exact ⟨p.2, h, rfl⟩
        rw [hp]
        tauto
  rw [hpair]
  constructor
  · rintro ⟨hservices, h⟩
    exact ⟨⟨hservices, fun p hp => (h p hp).2⟩, fun p hp => (h p hp).1⟩
  · rintro ⟨⟨hservices, hdigest⟩, h⟩
    exact ⟨hservices, fun p hp => ⟨h p hp, hdigest p hp⟩⟩

lemma checkKnown_eq_ok {u : Unit} : checkKnown payload = .ok u ↔ ∀ p ∈ payload, p.1.toList ∈ allowedPayloadServices := by
  simp only [checkKnown, rejectIf_eq_ok, not_not, List.filter_eq_nil_iff, List.forall_mem_map, decide_eq_true_eq]

lemma checkComplete_eq_ok {u : Unit} : checkComplete payload = .ok u ↔
    ∀ service ∈ requiredServices, (payload.lookup (String.ofList service)).isSome = true := by
  simp only [checkComplete, rejectIf_eq_ok, not_not, List.filter_eq_nil_iff, Bool.not_eq_true,
    Option.isNone_eq_false_iff]

lemma checkBuilt_eq_ok {u : Unit} : checkBuilt payload service = .ok u ↔
    ∀ v, payload.lookup (String.ofList service) = some v →
      ∃ digest, v = .str (String.ofList digest) ∧ isDigest digest = true := by
  unfold checkBuilt
  cases hv : payload.lookup (String.ofList service) with
  | none => simp
  | some v =>
    simp only [Option.isSome_some, if_true, bind_eq_ok, payloadDigest_eq_ok, hv, Option.some.injEq, pure_eq_ok, and_true,
      forall_eq']

lemma normalizePayload_eq_ok : normalizePayload payload = .ok digests ↔ Normalized payload digests := by
  unfold normalizePayload
  simp only [bind_eq_ok, checkKnown_eq_ok, checkComplete_eq_ok, pairs_eq_ok, pure_eq_ok]
  constructor
  · rintro ⟨-, hknown, -, -, normalized, ⟨hfull, hgiven⟩, ⟨⟩, hbuilt, rfl⟩
    exact ⟨hknown, hfull, hgiven, fun service hservice => checkBuilt_eq_ok.mp (forM_eq_ok.mp hbuilt service hservice)⟩
  · intro h
    have hbuilt : buildOnlyServices.forM (checkBuilt payload) = .ok () :=
      forM_eq_ok.mpr fun service hservice => checkBuilt_eq_ok.mpr (h.built service hservice)
    refine ⟨(), h.known, (), fun service hservice => ?_, digests, ⟨h.full, h.given⟩, (), hbuilt, rfl⟩
    rw [← h.full.services] at hservice
    obtain ⟨p, hp, rfl⟩ := List.mem_map.mp hservice
    rw [h.given p hp, Option.isSome_some]

end Reading

section Printed

variable {float : String → String} {digests : Dict Text Text} {raw : Text}

/-- The payload that is printed of a map. -/
def payloadOf (digests : Dict Text Text) : Payload := digests.map fun p => (String.ofList p.1, .str (String.ofList p.2))

lemma keys_payloadOf : (payloadOf digests).map (·.1) = (digests.map (·.1)).map String.ofList := by
  simp [payloadOf]

lemma nodup_keys (h : FullMap digests) : ((payloadOf digests).map (·.1)).Nodup := by
  rw [keys_payloadOf, h.services]
  decide +kernel

lemma lookup_payloadOf {fields : Payload} (hperm : fields.Perm (payloadOf digests)) (h : FullMap digests) (key : String)
    (v : Json) : fields.lookup key = some v ↔ (key, v) ∈ payloadOf digests := by
  have hnodup : (fields.map (·.1)).Nodup := (hperm.map (·.1)).nodup_iff.mpr (nodup_keys h)
  rw [← Json.mem_iff_lookup hnodup, hperm.mem_iff]

/-- A full map is read back from any payload with its fields. -/
lemma normalized_of_perm {fields : Payload} (hperm : fields.Perm (payloadOf digests)) (h : FullMap digests) :
    Normalized fields digests where
  known := by
    intro p hp
    obtain ⟨q, hq, rfl⟩ := List.mem_map.mp (hperm.mem_iff.mp hp)
    have hservice : q.1 ∈ requiredServices := h.services ▸ List.mem_map_of_mem hq
    rw [String.toList_ofList]
    exact List.mem_append_left _ hservice
  full := h
  given p hp := (lookup_payloadOf hperm h _ _).mpr (List.mem_map_of_mem hp)
  built := by
    intro service hservice v hv
    obtain ⟨q, hq, heq⟩ := List.mem_map.mp ((lookup_payloadOf hperm h _ _).mp hv)
    obtain ⟨-, rfl⟩ := Prod.mk.inj heq
    exact ⟨q.2, rfl, h.digest q hq⟩

lemma readable_payload (h : FullMap digests) : Json.All (Json.Readable float) (.obj (payloadOf digests)) := by
  rw [Json.all_obj]
  refine ⟨nodup_keys h, fun p hp => ?_⟩
  obtain ⟨q, -, rfl⟩ := List.mem_map.mp hp
  trivial

lemma loads_compact (float : String → String) (h : FullMap digests) :
    ∃ fields, Json.loads float (compact digests) = some (.obj fields) ∧ fields.Perm (payloadOf digests) := by
  refine ⟨_, Json.loads_dumps Json.codePointLe (readable_payload h), ?_⟩
  refine (List.perm_insertionSort _ _).trans ?_
  rw [Json.sortFields_eq, payloadOf, List.map_map]
  rfl

lemma compact_open (digests : Dict Text Text) : ∃ more, compact digests = '\x7b' :: more := by
  rw [compact, Json.dumps_obj]
  exact ⟨_, rfl⟩

/-- The newline that ends what is printed is not read. -/
lemma loads_printed {v : Json} (h : Json.loads float (compact digests) = some v) :
    Json.loads float (printed digests) = some v := by
  obtain ⟨more, hopen⟩ := compact_open digests
  have hskip : Json.skipSpace (compact digests) = compact digests := by
    rw [hopen]
    rfl
  have hskip' : Json.skipSpace (printed digests) = printed digests := by
    rw [printed, hopen]
    rfl
  simp only [Json.loads, Option.bind_eq_bind, Option.bind_eq_some_iff, hskip, hskip'] at h ⊢
  obtain ⟨⟨w, rest⟩, hscan, hrest⟩ := h
  have hlen : (compact digests).length + 1 ≤ (printed digests).length + 1 := by simp [printed]
  have happend := (Json.scan_append _ _ hlen ['\n']).1 _ _ _ hscan (.inr (by rw [hopen]; rfl))
  refine ⟨(w, rest ++ ['\n']), happend, ?_⟩
  split at hrest
  · rename_i hnil
    have hspaces : Json.skipSpace (rest ++ ['\n']) = [] := by
      refine List.dropWhile_eq_nil_iff.mpr fun c hc => ?_
      obtain hc | hc := List.mem_append.mp hc
      · exact List.dropWhile_eq_nil_iff.mp hnil c hc
      · obtain rfl := List.mem_singleton.mp hc
        rfl
    rw [if_pos hspaces]
    exact hrest
  · cases hrest

lemma strip_ne_nil {c : Char} {text : Text} (hc : Coordination.isBlank c = false) : strip (c :: text) ≠ [] := by
  rw [strip, List.dropWhile_cons_of_neg (by simp [hc])]
  intro hnil
  have hall := List.dropWhile_eq_nil_iff.mp (List.reverse_eq_nil_iff.mp hnil) c (by simp)
  rw [hc] at hall
  cases hall

/-- What is printed of a full map, and the text of it as a JSON string, are read as the map. -/
lemma normalize_printed (float : String → String) (h : FullMap digests) :
    normalize float (printed digests) = .ok digests ∧
    normalize float (dumpsStr (String.ofList (compact digests))) = .ok digests := by
  obtain ⟨fields, hfields, hperm⟩ := loads_compact float h
  have hread := normalizePayload_eq_ok.mpr (normalized_of_perm hperm h)
  constructor
  · have hne : strip (printed digests) ≠ [] := by
      obtain ⟨more, hopen⟩ := compact_open digests
      rw [printed, hopen]
      exact strip_ne_nil rfl
    rw [normalize, if_neg hne]
    exact bind_eq_ok.mpr ⟨fields, decodePayload_eq_ok.mpr ⟨.obj fields, loads_printed hfields, rfl⟩, hread⟩
  · have hstring : Json.loads float (dumpsStr (String.ofList (compact digests))) =
        some (.str (String.ofList (compact digests))) :=
      Json.loads_dumps Json.codePointLe (v := .str (String.ofList (compact digests))) trivial
    have hne : strip (dumpsStr (String.ofList (compact digests))) ≠ [] := strip_ne_nil rfl
    rw [normalize, if_neg hne]
    refine bind_eq_ok.mpr ⟨fields, decodePayload_eq_ok.mpr ⟨_, hstring, ?_⟩, hread⟩
    rw [unquoted, String.toList_ofList, expect_eq_ok]
    exact hfields

lemma normalize_eq_ok : normalize float raw = .ok digests ↔
    strip raw ≠ [] ∧ ∃ payload, decodePayload float raw = .ok payload ∧ Normalized payload digests := by
  unfold normalize
  split_ifs with hempty
  · simp [hempty]
  · simp only [bind_eq_ok, normalizePayload_eq_ok, ne_eq, hempty, not_false_eq_true, true_and]

lemma strip_ne_nil_of_loads {text : Text} {v : Json} (h : Json.loads float text = some v) : strip text ≠ [] := by
  simp only [Json.loads, Option.bind_eq_bind, Option.bind_eq_some_iff] at h
  obtain ⟨⟨w, rest⟩, hscan, -⟩ := h
  obtain ⟨c, more, hskip, hmark⟩ := Json.marked_of_scanValue hscan
  have hmem : c ∈ text := (List.dropWhile_suffix _).subset (by rw [← Json.skipSpace, hskip]; exact List.mem_cons_self)
  intro hnil
  obtain ⟨before, after, htext, hbefore, hafter⟩ := Coordination.strip_spec text
  rw [hnil, List.nil_append] at htext
  have hblank : Coordination.isBlank c = true := by
    rw [htext] at hmem
    exact (List.mem_append.mp hmem).elim (hbefore c) (hafter c)
  simp only [Json.isMark, Bool.and_eq_true, decide_eq_true_eq] at hmark
  simp only [Coordination.isBlank, decide_eq_true_eq, List.mem_cons, List.not_mem_nil, or_false] at hblank
  omega

/-- A payload that is sent as a JSON string is read as the object that the string has the text of, once. -/
theorem normalize_quoted (float : String → String) (text : String) (digests : Dict Text Text) :
    normalize float (dumpsStr text) = .ok digests ↔
      (∃ payload, Json.loads float text.toList = some (.obj payload)) ∧ normalize float text.toList = .ok digests := by
  have hstring : Json.loads float (dumpsStr text) = some (.str text) :=
    Json.loads_dumps Json.codePointLe (v := .str text) trivial
  have hne : strip (dumpsStr text) ≠ [] := strip_ne_nil rfl
  simp only [normalize_eq_ok, decodePayload_eq_ok, hstring, Option.some.injEq, exists_eq_left', unquoted, expect_eq_ok,
    hne, ne_eq, not_false_eq_true, true_and]
  constructor
  · rintro ⟨payload, hload, hnormalized⟩
    exact ⟨⟨payload, hload⟩, strip_ne_nil_of_loads hload, payload, ⟨.obj payload, hload, rfl⟩, hnormalized⟩
  · rintro ⟨⟨payload, hload⟩, -, payload', ⟨value, hvalue, hunquoted⟩, hnormalized⟩
    obtain rfl := Option.some.inj (hload.symm.trans hvalue)
    obtain rfl := Json.obj.inj (Except.ok.inj hunquoted)
    exact ⟨payload, hload, hnormalized⟩

/-- Normalizing again what was printed, or the text of it, changes nothing. -/
theorem normalize_idem (float : String → String) (raw : Text) :
    (normalize float raw >>= fun digests => normalize float (printed digests)) = normalize float raw ∧
      (normalize float raw >>= fun digests => normalize float (dumpsStr (String.ofList (compact digests)))) =
        normalize float raw := by
  cases h : normalize float raw with
  | error e => exact ⟨rfl, rfl⟩
  | ok digests =>
    obtain ⟨-, payload, -, hnormalized⟩ := normalize_eq_ok.mp h
    obtain ⟨hprinted, hquoted⟩ := normalize_printed float hnormalized.full
    exact ⟨bind_eq_ok.mpr ⟨digests, rfl, hprinted⟩, bind_eq_ok.mpr ⟨digests, rfl, hquoted⟩⟩

end Printed

section Inspected

variable {isWord : Char → Bool} {s t : Inspection} {lines : List Text}

/-- The values that are found are digests. -/
def Inspection.Exact (s : Inspection) : Prop := ∀ service digest, s.found.get? service = some digest → isDigest digest = true

lemma Inspection.Exact.step (h : s.Exact) {line : Text} (hstep : s.step isWord line = some t) : t.Exact := by
  unfold Inspection.step at hstep
  split_ifs at hstep
  · cases hstep
    exact h
  · cases hstep
    exact h
  · split at hstep
    · cases hstep
      exact h
    · split_ifs at hstep
      cases hstep
      exact h
    · cases hstep
      exact h
    · split at hstep
      · cases hstep
        exact h
      · rename_i hline
        split_ifs at hstep
        · cases hstep
          intro service digest hfound
          simp only [Dict.get?, Dict.lookup_set] at hfound
          split_ifs at hfound
          · cases hfound
            obtain ⟨_, _, -, -, -, -, -, hdigest⟩ := digestLine?_eq_some.mp hline
            exact hdigest
          · exact h service digest hfound
        · cases hstep
          exact h

lemma Inspection.Exact.fold (h : s.Exact) (hfold : lines.foldlM (Inspection.step isWord) s = some t) : t.Exact := by
  induction lines generalizing s with
  | nil =>
    cases hfold
    exact h
  | cons line lines ih =>
    rw [List.foldlM_cons, Option.bind_eq_bind, Option.bind_eq_some_iff] at hfold
    obtain ⟨next, hnext, hrest⟩ := hfold
    exact ih (h.step hnext) hrest

lemma map_fst_of_mapM {g : Text → Option Text} {services : List Text} {digests : Dict Text Text}
    (h : (services.mapM fun service => (g service).map fun digest => (service, digest)) = some digests) :
    digests.map (·.1) = services := by
  induction services generalizing digests with
  | nil =>
    cases h
    rfl
  | cons service services ih =>
    simp only [List.mapM_cons, Option.bind_eq_bind, Option.bind_eq_some_iff, Option.map_eq_some_iff, Option.pure_def,
      Option.some.injEq] at h
    obtain ⟨p, ⟨digest, -, rfl⟩, rest, hrest, rfl⟩ := h
    rw [List.map_cons, ih hrest]

lemma fullMap_of_inspect {file : Option Text} {digests : Dict Text Text} (h : inspectOverlay isWord file = some digests) :
    FullMap digests := by
  simp only [inspectOverlay, Option.bind_eq_bind, Option.bind_eq_some_iff] at h
  obtain ⟨text, -, s, hfold, hpairs⟩ := h
  have hexact : s.Exact := Inspection.Exact.fold (fun _ _ hnone => by cases hnone) hfold
  refine ⟨map_fst_of_mapM hpairs, fun p hp => ?_⟩
  obtain ⟨service, -, hservice⟩ := mapM_eq_some hpairs p hp
  obtain ⟨digest, hdigest, rfl⟩ := Option.map_eq_some_iff.mp hservice
  exact hexact service digest hdigest

/-- What the contract prints of an overlay is a payload that it reads as the same map, also in a JSON string. -/
theorem normalize_inspected (float : String → String) (isWord : Char → Bool) (file : Option Text) :
    ((inspectOverlay isWord file).map fun digests => normalize float (printed digests)) =
        (inspectOverlay isWord file).map .ok ∧
      ((inspectOverlay isWord file).map fun digests => normalize float (dumpsStr (String.ofList (compact digests)))) =
        (inspectOverlay isWord file).map .ok := by
  have hread (digests : Dict Text Text) (h : inspectOverlay isWord file = some digests) :=
    normalize_printed float (fullMap_of_inspect h)
  generalize inspectOverlay isWord file = inspected at hread ⊢
  cases inspected with
  | none => simp only [Option.map_none, and_self]
  | some digests =>
    obtain ⟨hprinted, hquoted⟩ := hread digests rfl
    simp only [Option.map_some, hprinted, hquoted, and_self]

end Inspected

end PlatformGitops.OverlayDigests
