import Mathlib.Data.List.Sort
import Mathlib.Data.List.Dedup
import PlatformGitops.Library.Fallible
import PlatformGitops.PreEnable.RedisLua
import PlatformGitops.PreEnable.RedisTally

/-! What the collector accepts of the answer of the scan. -/

namespace PlatformGitops.PreEnable

open Library

/-- A table of the script in the document: without elements it is written as an object. -/
inductive JsonTable
  | object
  | array (items : List String)

def encodeTable : List String → JsonTable
  | [] => .object
  | items => .array items

structure Printed extends Summary where
  compatibleBindingSha1s : JsonTable

/-- The client prints the document that the script returned, or the text of an error. -/
inductive Output
  | document (printed : Printed)
  | errorText

def redisCli : Except LuaError Answer → Output
  | .ok a => .document ⟨a.toSummary, encodeTable a.compatibleBindingSha1s⟩
  | .error _ => .errorText

def parseJsonOutput (result : Output) (label : String) : Except String Printed :=
  match result with
  | .document printed => .ok printed
  | .errorText => .error (label ++ " returned invalid JSON")

/-- SHA-256 of the canonical document of a list, and of the text of the script. -/
structure Sha256 where
  canonical : List String → String
  script : String

def bindingSetSha256FromSha1s (H : Sha256) (values : List String) : Except String String :=
  let hashes := values.mergeSort (fun a b => decide (a ≤ b))
  if hashes.any (fun value => !sha1Re value) then
    .error "compatible binding hashes must be lowercase SHA-1"
  else
    .ok (H.canonical hashes)

structure Server where
  host : String
  port : ℕ
  tls : Bool

structure Collected extends Summary where
  compatibleBindingSetSha256 : String
  compatibleBindingUniqueCount : ℕ
  compatibleBindingUniqueSetSha256 : String
  collected : Bool
  host : String
  port : ℕ
  tls : Bool
  scriptSha256 : String

def collectPrinted (H : Sha256) (server : Server) (payload : Printed) : Except String Collected := do
  let invalid := "Redis compatible binding inventory is invalid"
  match payload.compatibleBindingSha1s with
  | .object => .error invalid
  | .array bindingHashes =>
    if bindingHashes.length ≠ payload.compatibleReady then .error invalid
    let set ← bindingSetSha256FromSha1s H bindingHashes
    let unique := bindingHashes.dedup.mergeSort (fun a b => decide (a ≤ b))
    let uniqueSet ← bindingSetSha256FromSha1s H unique
    return ⟨payload.toSummary, set, unique.length, uniqueSet, true, server.host, server.port, server.tls, H.script⟩

def collectRedis (E : Engine) (H : Sha256) (server : Server) (s : Stream) (group : String) (maxEntries : ℕ) :
    Except String Collected := do
  let payload ← parseJsonOutput (redisCli (redisLua E s group maxEntries 500)) "Redis atomic stream scan"
  collectPrinted H server payload

variable {E : Engine} {H : Sha256} {server : Server} {s : Stream} {group : String} {maxEntries : ℕ} {a : Answer}
  {c : Collected} {l : List Entry}

/-- The answer classifies the entries up to the bound, each of them once, and the collector hands it on. -/
structure Complete (E : Engine) (H : Sha256) (s : Stream) (maxEntries : ℕ) (a : Answer) (c : Collected) : Prop where
  handed : c.toSummary = a.toSummary
  total : c.legacyReadyV1 + c.malformedReady + c.compatibleReady + c.otherEvents = c.scanned
  scanned : c.scanned = min c.length maxEntries
  length : c.length = s.entries.length
  complete : c.complete = true ↔ s.entries.length ≤ maxEntries
  once : (s.entries.take maxEntries).map (classOf E) = (classes E (s.entries.take maxEntries)).map .ok
  legacy : c.legacyReadyV1 = (classes E (s.entries.take maxEntries)).count .legacy
  malformed : c.malformedReady = (classes E (s.entries.take maxEntries)).count .malformed
  other : c.otherEvents = (classes E (s.entries.take maxEntries)).count .other
  digest : c.classificationDigestSha1 = chain E (s.entries.take maxEntries)
  hashes : a.compatibleBindingSha1s.Perm ((bindings E (s.entries.take maxEntries)).map E.sha1hex)
  oneEach : a.compatibleBindingSha1s.length = c.compatibleReady
  set : c.compatibleBindingSetSha256 = H.canonical (a.compatibleBindingSha1s.mergeSort fun x y => decide (x ≤ y))
  uniqueCount : c.compatibleBindingUniqueCount = a.compatibleBindingSha1s.dedup.length

/-- The scan returns, and the collector accepts a complete classification. -/
def Classifies (E : Engine) (H : Sha256) (server : Server) (s : Stream) (group : String) (maxEntries : ℕ) : Prop :=
  ∃ a c, redisLua E s group maxEntries 500 = .ok a ∧ collectRedis E H server s group maxEntries = .ok c ∧
    Complete E H s maxEntries a c

lemma redisLua_ok (h : redisLua E s group maxEntries 500 = .ok a) :
    ∃ st, (s.entries.take maxEntries).foldlM (scanRow E) Scan.start = .ok st ∧
      a.compatibleBindingSha1s = st.compatibleBindingSha1s.mergeSort (fun a b => decide (a ≤ b)) ∧
      a.legacyReadyV1 = st.legacy ∧ a.malformedReady = st.malformed ∧ a.compatibleReady = st.compatible ∧
      a.otherEvents = st.other ∧ a.scanned = st.scanned ∧ a.length = s.entries.length ∧
      a.complete = (st.scanned == s.entries.length) ∧ a.classificationDigestSha1 = st.digest := by
  rw [redisLua, scanPages_start (by omega), Fallible.bind_eq_ok] at h
  obtain ⟨st, hst, h⟩ := h
  cases h
  exact ⟨st, hst, rfl, rfl, rfl, rfl, rfl, rfl, rfl, rfl, rfl⟩

lemma redisLua_ok_iff : (∃ a, redisLua E s group maxEntries 500 = .ok a) ↔
    ∀ e ∈ s.entries.take maxEntries, (E.decoded e).indexable = true := by
  rw [← @rows_ok_iff E Scan.start]
  constructor
  · rintro ⟨a, h⟩
    obtain ⟨st, hst, -⟩ := redisLua_ok h
    exact ⟨st, hst⟩
  · rintro ⟨st, hst⟩
    rw [redisLua, scanPages_start (by omega), hst]
    exact ⟨_, rfl⟩

lemma classes_all_ok (h : ∀ e ∈ l, (E.decoded e).indexable = true) :
    l.map (classOf E) = (classes E l).map .ok := by
  induction l with
  | nil => rfl
  | cons e l ih =>
    rw [List.forall_mem_cons] at h
    obtain ⟨c, hclass⟩ : ∃ c, classOf E e = .ok c := classify_ok_iff.mpr h.1
    rw [List.map_cons, ih h.2, hclass]
    simp [classes, hclass, Except.toOption]

lemma bindings_ne_nil_iff : bindings E l ≠ [] ↔ ∃ e ∈ l, ∃ b, classOf E e = .ok (.compatible b) := by
  constructor
  · intro h
    obtain ⟨b, hb⟩ := List.exists_mem_of_ne_nil _ h
    obtain ⟨c, hc, hbc⟩ := List.mem_flatMap.mp hb
    obtain ⟨e, he, hclass⟩ := List.mem_filterMap.mp hc
    refine ⟨e, he, b, ?_⟩
    rw [Fallible.toOption_eq_some hclass]
    cases c with
    | compatible binding => rw [List.mem_singleton.mp hbc]
    | _ => simp [Class.bindings] at hbc
  · rintro ⟨e, he, b, hb⟩ hnil
    have hmem : b ∈ bindings E l := by
      refine List.mem_flatMap.mpr ⟨.compatible b, ?_, by simp [Class.bindings]⟩
      exact List.mem_filterMap.mpr ⟨e, he, by simp [hb, Except.toOption]⟩
    simp [hnil] at hmem

lemma bindingSetSha256_ok {values : List String} (h : ∀ v ∈ values, sha1Re v = true) :
    bindingSetSha256FromSha1s H values = .ok (H.canonical (values.mergeSort fun a b => decide (a ≤ b))) := by
  rw [bindingSetSha256FromSha1s, if_neg]
  simp only [List.any_eq_true, Bool.not_eq_true', not_exists, not_and, Bool.not_eq_false]
  intro v hv
  exact h v (List.mem_mergeSort.mp hv)

/-- A document with hashes, as many as it counts, is accepted; without one it is not. -/
lemma collectPrinted_ok (hcount : a.compatibleBindingSha1s.length = a.compatibleReady)
    (hsha : ∀ v ∈ a.compatibleBindingSha1s, sha1Re v = true) (hne : a.compatibleBindingSha1s ≠ []) :
    ∃ c, collectPrinted H server ⟨a.toSummary, encodeTable a.compatibleBindingSha1s⟩ = .ok c ∧
      c.toSummary = a.toSummary ∧ c.compatibleBindingSetSha256 =
        H.canonical (a.compatibleBindingSha1s.mergeSort fun x y => decide (x ≤ y)) ∧
      c.compatibleBindingUniqueCount = a.compatibleBindingSha1s.dedup.length := by
  have harray : encodeTable a.compatibleBindingSha1s = .array a.compatibleBindingSha1s := by
    cases h : a.compatibleBindingSha1s with
    | nil => exact absurd h hne
    | cons v values => rfl
  have hunique : ∀ v ∈ a.compatibleBindingSha1s.dedup.mergeSort (fun x y => decide (x ≤ y)), sha1Re v = true := by
    intro v hv
    exact hsha v (List.mem_dedup.mp (List.mem_mergeSort.mp hv))
  let unique := a.compatibleBindingSha1s.dedup.mergeSort (fun x y => decide (x ≤ y))
  have hcollect : collectPrinted H server ⟨a.toSummary, .array a.compatibleBindingSha1s⟩ =
      .ok ⟨a.toSummary, H.canonical (a.compatibleBindingSha1s.mergeSort fun x y => decide (x ≤ y)), unique.length,
        H.canonical (unique.mergeSort fun x y => decide (x ≤ y)), true, server.host, server.port, server.tls,
        H.script⟩ := by
    simp only [collectPrinted, hcount, ne_eq, not_true_eq_false, if_false, bindingSetSha256_ok hsha,
      bindingSetSha256_ok hunique, bind, Except.bind]
    rfl
  rw [harray]
  exact ⟨_, hcollect, rfl, rfl, List.length_mergeSort _⟩

lemma collectRedis_inventory (h : collectRedis E H server s group maxEntries = .ok c) :
    ∃ a, redisLua E s group maxEntries 500 = .ok a ∧ a.compatibleBindingSha1s ≠ [] := by
  cases hlua : redisLua E s group maxEntries 500 with
  | error err =>
    rw [collectRedis, hlua] at h
    cases h
  | ok a =>
    refine ⟨a, rfl, ?_⟩
    intro hnil
    rw [collectRedis, hlua] at h
    simp [redisCli, parseJsonOutput, hnil, encodeTable, bind, Except.bind, collectPrinted] at h

/-- The scan always ends in a complete classification that is accepted, as long as no payload up to the bound is a
number, true or null, and one of the entries up to it is compatible. -/
theorem redis_scan_complete_iff (E : Engine) (H : Sha256) (server : Server) (s : Stream) (group : String)
    (maxEntries : ℕ) :
    Classifies E H server s group maxEntries ↔
      (∀ e ∈ s.entries.take maxEntries, (E.decoded e).indexable = true) ∧
        ∃ e ∈ s.entries.take maxEntries, ∃ binding, classOf E e = .ok (.compatible binding) := by
  rw [← bindings_ne_nil_iff, ← @redisLua_ok_iff E s group maxEntries]
  constructor
  · rintro ⟨a, c, hlua, hcollect, -⟩
    obtain ⟨a', hlua', hne⟩ := collectRedis_inventory hcollect
    obtain ⟨st, hst, hhashes, -⟩ := redisLua_ok hlua'
    have htally := rows_tally tally_start hst
    refine ⟨⟨a, hlua⟩, fun hnil => hne ?_⟩
    rw [List.nil_append] at htally
    rw [hhashes, htally.hashes, hnil, List.map_nil, List.mergeSort_nil]
  · rintro ⟨⟨a, hlua⟩, hne⟩
    obtain ⟨st, hst, hhashes, hlegacy, hmalformed, hcompatible, hother, hscanned, hlength, hcomplete, hdigest⟩ :=
      redisLua_ok hlua
    have htally := rows_tally tally_start hst
    rw [List.nil_append] at htally
    have hperm : a.compatibleBindingSha1s.Perm ((bindings E (s.entries.take maxEntries)).map E.sha1hex) := by
      rw [hhashes, htally.hashes]
      exact List.mergeSort_perm _ _
    have hcount : a.compatibleBindingSha1s.length = a.compatibleReady := by
      rw [hperm.length_eq, List.length_map, hcompatible, htally.compatible]
    have hsha : ∀ v ∈ a.compatibleBindingSha1s, sha1Re v = true := by
      intro v hv
      obtain ⟨b, -, rfl⟩ := List.mem_map.mp (hperm.mem_iff.mp hv)
      exact E.sha1hex_lower b
    have hhashesNe : a.compatibleBindingSha1s ≠ [] := by
      intro hnil
      rw [hnil, List.nil_perm, List.map_eq_nil_iff] at hperm
      exact hne hperm
    obtain ⟨c, hc, hsummary, hset, hunique⟩ := @collectPrinted_ok H server a hcount hsha hhashesNe
    have htaken : st.scanned = min maxEntries s.entries.length := by rw [htally.scanned, List.length_take]
    refine ⟨a, c, hlua, ?_, ?_⟩
    · rw [collectRedis, hlua]
      exact hc
    · constructor
      case handed => exact hsummary
      case total => rw [hsummary, hlegacy, hmalformed, hcompatible, hother, hscanned, htally.total]
      case scanned => rw [hsummary, hscanned, hlength, htaken, Nat.min_comm]
      case length => rw [hsummary, hlength]
      case complete =>
        rw [hsummary, hcomplete, beq_iff_eq, htaken]
        omega
      case once =>
        exact classes_all_ok (rows_ok_iff.mp ⟨st, hst⟩)
      case legacy => rw [hsummary, hlegacy, htally.legacy]
      case malformed => rw [hsummary, hmalformed, htally.malformed]
      case other => rw [hsummary, hother, htally.other]
      case digest => rw [hsummary, hdigest, htally.digest]
      case hashes => exact hperm
      case oneEach => rw [hsummary, hcount]
      case set => exact hset
      case uniqueCount => exact hunique

/-- A decoder that reads the payload 42. -/
def readsNumber : Engine where
  decode payload := if payload = "42" then some (.number (.finite 42)) else none
  tostring _ := ""
  sha1hex _ := "0000000000000000000000000000000000000000"
  sha1hex_lower _ := by decide

def numberStream : Stream where
  entries := [⟨toLex (1, 0), [("eventType", "meeting.audio.stored"), ("payload", "42")]⟩]
  ascending := List.pairwise_singleton _ _
  maxDeletedEntryId := some "0-0"
  groups := []

def emptyStream : Stream := ⟨[], List.Pairwise.nil, some "0-0", []⟩

/-- A payload that is a number breaks the scan off, and a stream without entries is refused. -/
theorem redis_scan_incomplete :
    ¬ Classifies readsNumber ⟨fun _ => "", ""⟩ ⟨"localhost", 6379, false⟩ numberStream "live-analysis" 100000 ∧
      ¬ Classifies readsNumber ⟨fun _ => "", ""⟩ ⟨"localhost", 6379, false⟩ emptyStream "live-analysis" 100000 := by
  constructor
  · rintro ⟨a, c, hlua, -⟩
    have h := redisLua_ok_iff.mp ⟨a, hlua⟩ _ (List.mem_singleton_self _)
    simp [Engine.decoded, lastValue, readsNumber, LuaValue.indexable] at h
  · rintro ⟨a, c, -, hcollect, -⟩
    obtain ⟨a', hlua, hne⟩ := collectRedis_inventory hcollect
    obtain ⟨st, hst, hhashes, -⟩ := redisLua_ok hlua
    cases hst
    exact hne (hhashes.trans List.mergeSort_nil)

end PlatformGitops.PreEnable
