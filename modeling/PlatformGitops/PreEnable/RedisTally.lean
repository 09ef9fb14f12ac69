import Mathlib.Data.Prod.Lex
import Mathlib.Data.List.Sort
import PlatformGitops.Library.Fallible
import PlatformGitops.PreEnable.RedisLua

/-! A scan page after page counts every entry once, from the first one on and in order. -/

namespace PlatformGitops.PreEnable

open Library

variable {E : Engine} {s : Stream} {st st' : Scan} {l pre : List Entry} {e : Entry} {c : Class} {v : LuaValue}
  {outerType : Option String} {maxEntries batchSize fuel n : ℕ}

def LuaValue.indexable : LuaValue → Bool
  | null | boolean true | number _ => false
  | _ => true

lemma index_table (fields : List (String × LuaValue)) (key : String) :
    (LuaValue.table fields).index key = .ok ((fields.lookup key).getD .nil) := rfl

lemma classifyReady_table (fields : List (String × LuaValue)) :
    ∃ c, classifyReady E (.table fields) = .ok c := by
  simp only [classifyReady, index_table, bind, Except.bind]
  split
  · exact ⟨_, rfl⟩
  · split
    · exact ⟨_, rfl⟩
    · exact ⟨_, rfl⟩

lemma isText_nil (t : String) : LuaValue.nil.isText t = false := rfl

lemma classify_untyped (h : payloadType v = .ok .nil) : ∃ c, classify E outerType v = .ok c := by
  rw [classify, h]
  simp only [bind, Except.bind, isText_nil, Bool.or_false, Bool.not_false, Bool.or_true, if_true]
  split
  · exact ⟨_, rfl⟩
  · exact ⟨_, rfl⟩

/-- The classification breaks off on what can not be indexed, and on nothing else. -/
lemma classify_ok_iff : (∃ c, classify E outerType v = .ok c) ↔ v.indexable = true := by
  cases v with
  | nil => exact iff_of_true (classify_untyped rfl) rfl
  | null => exact iff_of_false (by rintro ⟨c, h⟩; cases h) Bool.false_ne_true
  | boolean b =>
    cases b with
    | false => exact iff_of_true (classify_untyped rfl) rfl
    | true => exact iff_of_false (by rintro ⟨c, h⟩; cases h) Bool.false_ne_true
  | number n => exact iff_of_false (by rintro ⟨c, h⟩; cases h) Bool.false_ne_true
  | string t => exact iff_of_true (classify_untyped rfl) rfl
  | table fields =>
    refine iff_of_true ?_ rfl
    have htype : payloadType (.table fields) = .ok ((fields.lookup "eventType").getD .nil).orNil := rfl
    rw [classify, htype]
    simp only [LuaValue.truthy, Bool.not_true, Bool.false_or, bind, Except.bind]
    split
    · split
      · exact ⟨_, rfl⟩
      · exact classifyReady_table fields
    · exact ⟨_, rfl⟩

def classes (E : Engine) (l : List Entry) : List Class := l.filterMap fun e => (classOf E e).toOption

/-- The digest of the classification, link after link. -/
def chain (E : Engine) (l : List Entry) : String :=
  l.foldl (fun digest e => match classOf E e with
    | .ok c => link E digest e c
    | .error _ => digest) Scan.start.digest

def bindings (E : Engine) (l : List Entry) : List String := (classes E l).flatMap Class.bindings

/-- The scan has counted these entries, and no others. -/
structure Tally (E : Engine) (l : List Entry) (st : Scan) : Prop where
  scanned : st.scanned = l.length
  total : st.legacy + st.malformed + st.compatible + st.other = st.scanned
  legacy : st.legacy = (classes E l).count .legacy
  malformed : st.malformed = (classes E l).count .malformed
  other : st.other = (classes E l).count .other
  compatible : st.compatible = (bindings E l).length
  hashes : st.compatibleBindingSha1s = (bindings E l).map E.sha1hex
  cursor : st.cursor = l.getLast?.map (·.id)
  digest : st.digest = chain E l

lemma tally_start : Tally E [] Scan.start := by
  constructor <;> rfl

lemma classes_concat (h : classOf E e = .ok c) : classes E (l ++ [e]) = classes E l ++ [c] := by
  simp [classes, List.filterMap_append, h, Except.toOption]

lemma chain_concat (h : classOf E e = .ok c) : chain E (l ++ [e]) = link E (chain E l) e c := by
  simp [chain, List.foldl_append, h]

lemma scanRow_eq_ok : scanRow E st e = .ok st' ↔ ∃ c, classOf E e = .ok c ∧
    st' = { st.tally E c with digest := link E st.digest e c, scanned := st.scanned + 1, cursor := some e.id } := by
  rw [scanRow, Fallible.bind_eq_ok]
  constructor
  · rintro ⟨c, hc, h⟩
    cases h
    refine ⟨c, hc, ?_⟩
    cases c <;> rfl
  · rintro ⟨c, hc, rfl⟩
    refine ⟨c, hc, ?_⟩
    cases c <;> rfl

/-- One row is counted in one class. -/
lemma scanRow_tally (ht : Tally E pre st) (h : scanRow E st e = .ok st') : Tally E (pre ++ [e]) st' := by
  obtain ⟨c, hc, rfl⟩ := scanRow_eq_ok.mp h
  have htotal := ht.total
  have hlegacy := ht.legacy
  have hmalformed := ht.malformed
  have hother := ht.other
  have hcompatible := ht.compatible
  have hbindings : bindings E (pre ++ [e]) = bindings E pre ++ c.bindings := by
    rw [bindings, classes_concat hc, List.flatMap_append, ← bindings, List.flatMap_singleton]
  constructor
  case scanned => simp [ht.scanned]
  case cursor => simp
  case digest => rw [chain_concat hc, ← ht.digest]
  case hashes =>
    rw [hbindings, List.map_append, ← ht.hashes]
    cases c <;> simp [Scan.tally, Class.bindings]
  case compatible =>
    rw [hbindings, List.length_append, ← hcompatible]
    cases c <;> simp [Scan.tally, Class.bindings]
  case total =>
    cases c <;> simp only [Scan.tally] <;> omega
  all_goals
    rw [classes_concat hc, List.count_append]
    cases c <;> simp [Scan.tally, hlegacy, hmalformed, hother]

lemma rows_tally (ht : Tally E pre st) (h : l.foldlM (scanRow E) st = .ok st') : Tally E (pre ++ l) st' := by
  induction l generalizing pre st with
  | nil =>
    cases h
    simpa using ht
  | cons e l ih =>
    rw [List.foldlM_cons, Fallible.bind_eq_ok] at h
    obtain ⟨next, hrow, hrows⟩ := h
    simpa using ih (scanRow_tally ht hrow) hrows

lemma rows_ok_iff : (∃ st', l.foldlM (scanRow E) st = .ok st') ↔ ∀ e ∈ l, (E.decoded e).indexable = true := by
  induction l generalizing st with
  | nil => exact iff_of_true ⟨st, rfl⟩ (by simp)
  | cons e l ih =>
    rw [List.forall_mem_cons, List.foldlM_cons, ← @classify_ok_iff E (E.decoded e) (lastValue e.fields "eventType")]
    constructor
    · rintro ⟨st', h⟩
      obtain ⟨next, hrow, hrows⟩ := Fallible.bind_eq_ok.mp h
      obtain ⟨c, hc, -⟩ := scanRow_eq_ok.mp hrow
      exact ⟨⟨c, hc⟩, ih.mp ⟨st', hrows⟩⟩
    · rintro ⟨⟨c, hc⟩, hl⟩
      obtain ⟨st', hrows⟩ := ih.mpr hl
      exact ⟨st', Fallible.bind_eq_ok.mpr ⟨_, scanRow_eq_ok.mpr ⟨c, hc, rfl⟩, hrows⟩⟩

/-- Behind the last id that was scanned stand the entries that were not. -/
lemma xrange_behind (s : Stream) (n count : ℕ) :
    s.xrange ((s.entries.take n).getLast?.map (·.id)) count = (s.entries.drop n).take count := by
  obtain hnil | ⟨before, e, hlast⟩ := (s.entries.take n).eq_nil_or_concat
  · rw [hnil]
    rcases List.take_eq_nil_iff.mp hnil with rfl | hentries
    · rfl
    · simp [Stream.xrange, hentries]
  · rw [List.concat_eq_append] at hlast
    have hsplit : s.entries = (before ++ [e]) ++ s.entries.drop n := by rw [← hlast, List.take_append_drop]
    have hasc := s.ascending
    rw [hsplit, List.pairwise_append, List.pairwise_append] at hasc
    obtain ⟨⟨-, -, hbefore⟩, -, hafter⟩ := hasc
    have hold : (before ++ [e]).filter (fun x => e.id < x.id) = [] := by
      rw [List.filter_eq_nil_iff]
      intro x hx
      rcases List.mem_append.mp hx with hx | hx
      · simpa using (hbefore x hx e (by simp)).le
      · simp [List.mem_singleton.mp hx]
    have hnew : (s.entries.drop n).filter (fun x => e.id < x.id) = s.entries.drop n := by
      rw [List.filter_eq_self]
      intro x hx
      simpa using hafter e (by simp) x hx
    rw [hlast]
    simp only [List.getLast?_append, List.getLast?_singleton, Option.some_or, Option.map_some, Stream.xrange]
    conv_lhs => rw [hsplit, List.filter_append, hold, hnew, List.nil_append]

/-- The pages are the entries from where the scan stands, up to the bound. -/
lemma scanPages_eq (hbatch : 0 < batchSize) (ht : Tally E (s.entries.take n) st) (hn : n ≤ s.entries.length)
    (hfuel : s.entries.length - n ≤ fuel) :
    scanPages E s maxEntries batchSize fuel st =
      ((s.entries.drop n).take (min s.entries.length maxEntries - n)).foldlM (scanRow E) st := by
  have hscanned : st.scanned = n := by rw [ht.scanned, List.length_take, Nat.min_eq_left hn]
  induction fuel generalizing st n with
  | zero =>
    have hmin : min s.entries.length maxEntries - n = 0 := by omega
    have hguard : ¬ n < s.entries.length := by omega
    simp [scanPages, hscanned, hmin, hguard, pure, Except.pure]
  | succ fuel ih =>
    rw [scanPages, hscanned]
    by_cases hguard : n < s.entries.length ∧ n < maxEntries
    · obtain ⟨hlength, hmax⟩ := hguard
      have hrows := xrange_behind s n (min batchSize (maxEntries - n))
      rw [← ht.cursor] at hrows
      have hcount := congrArg List.length hrows
      rw [List.length_take, List.length_drop] at hcount
      simp only [hlength, hmax, decide_true, Bool.and_self, if_true]
      have hsome : (s.xrange st.cursor (min batchSize (maxEntries - n))).isEmpty = false := by
        rw [List.isEmpty_eq_false_iff, ← List.length_pos_iff]
        omega
      rw [hsome, if_neg Bool.false_ne_true]
      set k := (s.xrange st.cursor (min batchSize (maxEntries - n))).length with hk
      have hpage : s.xrange st.cursor (min batchSize (maxEntries - n)) = (s.entries.drop n).take k := by
        rw [hcount, hrows, List.take_eq_take_iff, List.length_drop]
        omega
      have hrest : (s.entries.drop n).take (min s.entries.length maxEntries - n) =
          (s.entries.drop n).take k ++ (s.entries.drop (n + k)).take (min s.entries.length maxEntries - (n + k)) := by
        rw [← List.drop_drop, ← List.take_add]
        congr 1
        omega
      rw [hpage, hrest, List.foldlM_append]
      cases hfold : ((s.entries.drop n).take k).foldlM (scanRow E) st with
      | error err => rfl
      | ok next =>
        have hnext := rows_tally ht hfold
        rw [← List.take_add] at hnext
        refine ih hnext (by omega) (by omega) ?_
        rw [hnext.scanned, List.length_take]
        omega
    · have hmin : min s.entries.length maxEntries - n = 0 := by omega
      have hfalse : (decide (n < s.entries.length) && decide (n < maxEntries)) = false := by
        rw [Bool.and_eq_false_iff, decide_eq_false_iff_not, decide_eq_false_iff_not]
        omega
      simp [hfalse, hmin, pure, Except.pure]

lemma scanPages_start (hbatch : 0 < batchSize) :
    scanPages E s maxEntries batchSize s.entries.length Scan.start =
      (s.entries.take maxEntries).foldlM (scanRow E) Scan.start := by
  rw [scanPages_eq (n := 0) hbatch tally_start (Nat.zero_le _) (Nat.sub_le _ _), List.drop_zero, Nat.sub_zero,
    List.take_eq_take_iff.mpr (by omega : min (min s.entries.length maxEntries) s.entries.length = min maxEntries _)]

end PlatformGitops.PreEnable
