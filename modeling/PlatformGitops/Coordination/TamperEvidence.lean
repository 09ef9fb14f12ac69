import PlatformGitops.Coordination.Written
import Mathlib

/-! The hash of the last event commits to all events before it. -/

namespace PlatformGitops.Coordination

open Library Json

/-- No two canonical byte strings have one digest. -/
def CollisionFree (X : Externals) : Prop :=
  ∀ v w, sha256Hex X v = sha256Hex X w → canonicalJsonBytes v = canonicalJsonBytes w

/-- The same event, up to the spelling of its own hash. -/
def SameEvent (event event' : Json) : Prop :=
  Same (hashMaterial event) (hashMaterial event') ∧
    ∃ hash, eventHash? event = some hash ∧ eventHash? event' = some hash

section Material

variable {float : String → String} {event event' : Json}

lemma readable_hashMaterial (h : All (Readable float) event) : All (Readable float) (hashMaterial event) := by
  cases event with
  | obj fields =>
    rw [all_obj] at h
    rw [hashMaterial, all_obj]
    refine ⟨?_, fun p hp => h.2 p (List.mem_of_mem_filter hp)⟩
    exact (List.filter_sublist.map Prod.fst).nodup h.1
  | _ => exact h

lemma lookup_filter_ne {fields : List (String × Json)} {key removed : String} (h : key ≠ removed) :
    (fields.filter fun p => p.1 ≠ removed).lookup key = fields.lookup key := by
  induction fields with
  | nil => rfl
  | cons p fields ih =>
    obtain ⟨k, v⟩ := p
    by_cases hk : k = removed
    · have hne : (key == k) = false := by simpa [hk] using h
      rw [List.filter_cons_of_neg (by simpa using hk), ih, List.lookup_cons, hne]
    · rw [List.filter_cons_of_pos (by simpa using hk), List.lookup_cons, List.lookup_cons, ih]

lemma get_hashMaterial {key : String} (h : key ≠ "event_hash") : (hashMaterial event).get key = event.get key := by
  cases event with
  | obj fields => simp only [hashMaterial, Json.get, lookup_filter_ne h]
  | _ => rfl

lemma Same.previousHash?_eq (h : Same (hashMaterial event) (hashMaterial event'))
    (hd : Distinct (hashMaterial event)) : previousHash? event = previousHash? event' := by
  have hget := (h.get hd "previous_event_hash").asStr?_eq
  rw [get_hashMaterial (by decide), get_hashMaterial (by decide)] at hget
  rw [previousHash?, previousHash?, hget]

end Material

variable {X : Externals}

lemma distinct_of_readable {v : Json} (h : All (Readable X.float) v) : Distinct v :=
  h.imp fun _ => Readable.distinctKeys

lemma same_of_eventDigest_eq (hsha : CollisionFree X) {event event' : Json} (h : All (Readable X.float) event)
    (h' : All (Readable X.float) event') (hdigest : eventDigest X event = eventDigest X event') :
    Same (hashMaterial event) (hashMaterial event') :=
  same_of_dumps_eq (readable_hashMaterial h) (readable_hashMaterial h') (Text.encode_injective (hsha _ _ hdigest))

lemma mem_firstOccurrences {seen : List String} {events : List Json} {event : Json}
    (h : event ∈ firstOccurrences seen events) : event ∈ events := by
  induction events generalizing seen with
  | nil => cases h
  | cons e events ih =>
    rw [firstOccurrences] at h
    split at h
    · exact List.mem_cons_of_mem _ (ih h)
    · rcases List.mem_cons.mp h with rfl | h
      · exact List.mem_cons_self
      · exact List.mem_cons_of_mem _ (ih h)

lemma mem_firstOccurrences_of_find? {seen : List String} {events : List Json} {event : Json} {uuid : String}
    (hseen : uuid ∉ seen) (h : events.find? (fun event => eventUuid event = uuid) = some event) :
    event ∈ firstOccurrences seen events := by
  induction events generalizing seen with
  | nil => cases h
  | cons e events ih =>
    by_cases he : eventUuid e = uuid
    · simp only [List.find?_cons, he, decide_true, Option.some.injEq] at h
      subst h
      simp [firstOccurrences, he, hseen]
    · simp only [List.find?_cons, he, decide_false] at h
      rw [firstOccurrences]
      split_ifs
      · exact ih hseen h
      · exact List.mem_cons_of_mem _ (ih (by simp [hseen, Ne.symm he]) h)

lemma readable_of_mem_ledgerEvents (hfloat : ReadsFloats X.float) {bytes : List UInt8} {event : Json}
    (h : event ∈ ledgerEvents X bytes) : All (Readable X.float) event := by
  simp only [ledgerEvents] at h
  cases htext : Text.decode? bytes with
  | none => simp [htext] at h
  | some text =>
    simp only [htext, Option.map_some, Option.getD_some, List.mem_filterMap] at h
    obtain ⟨rawLine, -, hevent⟩ := h
    simp only [eventOfLine?] at hevent
    split at hevent
    · cases hevent
    · exact loads_readable hfloat (Option.filter_eq_some_iff.mp hevent).1

/-- Two replays that end in one hash went through the same new events. -/
lemma Replayed.forall₂ (hsha : CollisionFree X) {events events' : List Json} {progress progress' : Progress}
    (h : Replayed X events progress) (h' : Replayed X events' progress')
    (hread : ∀ event ∈ events, All (Readable X.float) event) (hread' : ∀ event ∈ events', All (Readable X.float) event)
    (hhash : progress.lastHash = progress'.lastHash) :
    List.Forall₂ SameEvent (firstOccurrences [] events) (firstOccurrences [] events') := by
  refine h.chain.forall₂ (hhash ▸ h'.chain) fun event he event' he' hdigest => ?_
  have hsame := same_of_eventDigest_eq hsha (hread _ (mem_firstOccurrences he)) (hread' _ (mem_firstOccurrences he'))
    hdigest
  have hdistinct := distinct_of_readable (readable_hashMaterial (hread _ (mem_firstOccurrences he)))
  refine ⟨⟨hsame, eventDigest X event, h.hashes event he, ?_⟩, Same.previousHash?_eq hsame hdistinct⟩
  rw [h'.hashes event' he', hdigest]

/-- Two valid ledgers with one prefix hash hold the same events. -/
theorem equal_prefix_hash_equal_events (hsha : CollisionFree X) (hfloat : ReadsFloats X.float) {authority : Authority}
    {path path' : String} {bytes bytes' : List UInt8} {result result' : ReplayResult}
    (h : replay X authority path (some bytes) = .ok result) (hvalid : result.valid = true)
    (h' : replay X authority path' (some bytes') = .ok result') (hvalid' : result'.valid = true)
    (hhash : result.validPrefixHash = result'.validPrefixHash) :
    List.Forall₂ SameEvent (firstOccurrences [] (ledgerEvents X bytes)) (firstOccurrences [] (ledgerEvents X bytes')) := by
  obtain ⟨_, progress, hbytes, hreplayed, -, hlast⟩ := replayed_of_valid h hvalid
  obtain ⟨_, progress', hbytes', hreplayed', -, hlast'⟩ := replayed_of_valid h' hvalid'
  cases hbytes
  cases hbytes'
  exact hreplayed.forall₂ hsha hreplayed' (fun _ => readable_of_mem_ledgerEvents hfloat)
    (fun _ => readable_of_mem_ledgerEvents hfloat) (by rw [← hlast, hhash, hlast'])

namespace Sample

lemma ofUInt8_injective : Function.Injective Char.ofUInt8 := by
  intro a b h
  exact UInt8.toUInt32_inj.mp (congrArg Char.val h)

lemma head?_ne_of_isHash {hash : String} (h : IsHash hash) : hash.toList.head? ≠ some 'x' := by
  intro hhead
  have hdigit := List.all_eq_true.mp h.2 'x' (List.mem_of_head? hhead)
  exact absurd hdigit (by decide)

lemma isHash_materials {X : Externals} {drafts : List Draft} {previous : Option String}
    (h : Acceptable X authority previous drafts) : ∀ p ∈ materials previous drafts, IsHash p.2 := by
  obtain ⟨hpasses, -, -, -⟩ := h
  induction drafts generalizing previous with
  | nil => simp [materials]
  | cons draft drafts ih =>
    obtain ⟨hdraft, hdrafts⟩ := List.forall_mem_cons.mp hpasses
    exact List.forall_mem_cons.mpr ⟨hdraft.payloadHash, List.forall_mem_cons.mpr ⟨hdraft.eventHash, ih hdrafts⟩⟩

/-- Digests that are told apart: no two rows have one, and other texts are their own. -/
lemma collisionFree {table : List (List UInt8 × String)} (hhex : ∀ p ∈ table, p.2.toList.head? ≠ some 'x')
    (htable : ∀ p ∈ table, ∀ q ∈ table, p.2 = q.2 → p.1 = q.1) : CollisionFree (externals table) := by
  have hfresh : ∀ (bytes : List UInt8) (p : List UInt8 × String), p ∈ table →
      p.2 ≠ String.ofList ('x' :: bytes.map Char.ofUInt8) := by
    intro bytes p hp heq
    refine hhex p hp ?_
    simp [heq]
  have hmem : ∀ (bytes : List UInt8) (hash : String), table.lookup bytes = some hash → (bytes, hash) ∈ table := by
    intro bytes hash h
    obtain ⟨l₁, l₂, rfl, -⟩ := List.lookup_eq_some_iff.mp h
    simp
  intro v w h
  simp only [sha256Hex, externals, sha256] at h
  cases hv : table.lookup (canonicalJsonBytes v) with
  | some hash =>
    cases hw : table.lookup (canonicalJsonBytes w) with
    | some hash' =>
      rw [hv, hw] at h
      exact htable _ (hmem _ _ hv) _ (hmem _ _ hw) h
    | none =>
      rw [hv, hw] at h
      exact absurd h (hfresh _ _ (hmem _ _ hv))
  | none =>
    cases hw : table.lookup (canonicalJsonBytes w) with
    | some hash' =>
      rw [hv, hw] at h
      exact absurd h.symm (hfresh _ _ (hmem _ _ hw))
    | none =>
      rw [hv, hw] at h
      have hmap := (List.cons.inj (String.ofList_injective h)).2
      exact List.map_injective_iff.mpr ofUInt8_injective hmap

lemma collisionFree_digests {drafts : List Draft}
    (hhex : ∀ p ∈ materials none drafts, IsHash p.2)
    (hrows : ∀ p ∈ materials none drafts, ∀ q ∈ materials none drafts, p.2 = q.2 → p.1 = q.1) :
    CollisionFree (externals (digests drafts)) := by
  refine collisionFree ?_ ?_
  · rintro _ hp
    obtain ⟨p, hp', rfl⟩ := List.mem_map.mp hp
    exact head?_ne_of_isHash (hhex p hp')
  · rintro _ hp _ hq heq
    obtain ⟨p, hp', rfl⟩ := List.mem_map.mp hp
    obtain ⟨q, hq', rfl⟩ := List.mem_map.mp hq
    rw [hrows p hp' q hq' heq]

def claim : List Draft :=
  [⟨"u1", "CLAIM_ACCEPTED", "coordinator", "2026-07-16T20:00:00Z", after 0,
      .obj [("issue", .int 1), ("repository", .str "o/r"), ("session", .str "a")],
      "f39b1b9fba1e5f1f2dc5e1bcda33af058e67907c72f8f63f188f237ea0d3bb53",
      "c9f24869668cc43cbcc67e491beae44b40c6949674b2a73a8e0d1a2f1cba31bb"⟩,
    ⟨"u2", "HEARTBEAT_EVIDENCE", "coordinator", "2026-07-16T20:10:00Z", after 10,
      .obj [("issue", .int 1), ("repository", .str "o/r"), ("session", .str "a")],
      "f39b1b9fba1e5f1f2dc5e1bcda33af058e67907c72f8f63f188f237ea0d3bb53",
      "11c598eff393bd7fec3b343f3c83584be3479a9c2009b47b4b61c6fb02c1ad50"⟩]

lemma readable_claim (X : Externals) : ∀ draft ∈ claim, All (Readable X.float) draft.payload := by
  simp [claim, All, AllFields, Readable, readable_one]

lemma labelled_claim : Labelled ["event_uuid"] (materials none claim) := by
  simp [Labelled, claim, materials, label, Draft.chainedTo, Json.get, List.lookup_cons, asStr?]

lemma checks_claim : claim.all Draft.checks = true := by
  decide

lemma acceptable_claim : Acceptable (externals (digests claim)) authority none claim :=
  acceptable (readable_claim _) labelled_claim checks_claim (by decide) (by decide)

lemma collisionFree_claim : CollisionFree (externals (digests claim)) := by
  refine collisionFree_digests (isHash_materials acceptable_claim) ?_
  simp [claim, materials]

end Sample

open Sample Library in
/-- The hashes of the events spelled in two ways. -/
theorem equal_prefix_hash_equal_events_respelled :
    List.Forall₂ SameEvent
      (firstOccurrences [] (ledgerEvents (externals (digests claim)) (ledgerBytes (chained prefixed none claim))))
      (firstOccurrences [] (ledgerEvents (externals (digests claim)) (ledgerBytes (chained id none claim)))) := by
  have hprefixed : ∀ draft ∈ claim, matchHash? (prefixed draft.eventHash) = some draft.eventHash :=
    fun draft hdraft => (acceptable_claim.passes draft hdraft).eventHash.prefixed
  have hbare : ∀ draft ∈ claim, matchHash? (id draft.eventHash) = some draft.eventHash :=
    fun draft hdraft => (acceptable_claim.passes draft hdraft).eventHash.bare
  obtain ⟨result, hresult, hvalid, -, hhash⟩ :=
    replay_chained (readable_claim _) acceptable_claim hprefixed "ledger.jsonl"
  obtain ⟨result', hresult', hvalid', -, hhash'⟩ :=
    replay_chained (readable_claim _) acceptable_claim hbare "ledger.jsonl"
  exact equal_prefix_hash_equal_events collisionFree_claim (readsFloats _) hresult hvalid hresult' hvalid'
    (hhash.trans hhash'.symm)

end PlatformGitops.Coordination
