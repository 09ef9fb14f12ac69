import Mathlib.Data.List.InsertIdx
import Mathlib.Tactic.Common

/-! The places of a list where something is found, and what becomes of them when the list is edited at one place. -/

namespace PlatformGitops.Library

variable {α β : Type} {f : α → Option β} {u v xs ys : List α} {x y : α} {b b' : β} {start i : ℕ} {places : List ℕ}

/-- What is found in a list, each with its place; the first element has the given place. -/
def found (f : α → Option β) (xs : List α) (start : ℕ) : List (ℕ × β) :=
  (xs.zipIdx start).filterMap fun p => (f p.1).map (p.2, ·)

/-- The elements at other places. -/
def without (places : List ℕ) (xs : List α) (start : ℕ) : List α :=
  ((xs.zipIdx start).filter fun p => p.2 ∉ places).map (·.1)

/-- Where a place is once an element is inserted. -/
def shifted (place i : ℕ) : ℕ := if i < place then i else i + 1

lemma found_append (f : α → Option β) (xs ys : List α) (start : ℕ) :
    found f (xs ++ ys) start = found f xs start ++ found f ys (start + xs.length) := by
  simp only [found, List.zipIdx_append, List.filterMap_append]

lemma found_cons_none (h : f x = none) : found f (x :: xs) start = found f xs (start + 1) := by
  rw [found, List.zipIdx_cons, List.filterMap_cons_none (by simp [h])]
  rfl

lemma found_cons_some (h : f x = some b) : found f (x :: xs) start = (start, b) :: found f xs (start + 1) := by
  rw [found, List.zipIdx_cons, List.filterMap_cons_some (b := (start, b)) (by simp [h])]
  rfl

lemma found_eq_nil_iff : found f xs start = [] ↔ ∀ x ∈ xs, f x = none := by
  induction xs generalizing start with
  | nil => simp [found]
  | cons x xs ih =>
    rw [List.forall_mem_cons]
    cases hx : f x with
    | none => simp [found_cons_none hx, ih]
    | some b => simp [found_cons_some hx]

lemma found_succ (f : α → Option β) (xs : List α) (start : ℕ) :
    found f xs (start + 1) = (found f xs start).map fun p => (p.1 + 1, p.2) := by
  induction xs generalizing start with
  | nil => rfl
  | cons x xs ih =>
    cases hx : f x with
    | none => rw [found_cons_none hx, found_cons_none hx, ih]
    | some b => rw [found_cons_some hx, found_cons_some hx, ih, List.map_cons]

lemma place_of_mem_found {p : ℕ × β} (h : p ∈ found f xs start) : start ≤ p.1 ∧ p.1 < start + xs.length := by
  induction xs generalizing start with
  | nil => cases h
  | cons x xs ih =>
    have hrest (h : p ∈ found f xs (start + 1)) : start ≤ p.1 ∧ p.1 < start + (x :: xs).length := by
      have hplace := ih h
      rw [List.length_cons]
      omega
    cases hx : f x with
    | none => exact hrest (found_cons_none hx ▸ h)
    | some b =>
      rw [found_cons_some hx] at h
      rcases List.mem_cons.mp h with rfl | h
      · rw [List.length_cons]
        omega
      · exact hrest h

/-- The one element in which something is found. -/
lemma found_eq_singleton (h : found f xs start = [(i, b)]) :
    ∃ u x v, xs = u ++ x :: v ∧ i = start + u.length ∧ f x = some b ∧ (∀ a ∈ u, f a = none) ∧ ∀ a ∈ v, f a = none := by
  induction xs generalizing start with
  | nil => cases h
  | cons x xs ih =>
    cases hx : f x with
    | none =>
      rw [found_cons_none hx] at h
      obtain ⟨u, y, v, rfl, rfl, hy, hu, hv⟩ := ih h
      exact ⟨x :: u, y, v, rfl, by rw [List.length_cons]; omega, hy, List.forall_mem_cons.mpr ⟨hx, hu⟩, hv⟩
    | some c =>
      rw [found_cons_some hx, List.cons.injEq] at h
      obtain ⟨hfirst, hrest⟩ := h
      obtain ⟨rfl, rfl⟩ := Prod.mk.inj hfirst
      exact ⟨[], x, xs, rfl, rfl, hx, List.forall_mem_nil _, found_eq_nil_iff.mp hrest⟩

section Replaced

lemma set_middle (u v : List α) (x y : α) : (u ++ x :: v).set u.length y = u ++ y :: v := by
  simp

lemma found_replaced (hx : f x = none) (hy : f y = none) : found f (u ++ y :: v) start = found f (u ++ x :: v) start := by
  rw [found_append, found_append, found_cons_none hx, found_cons_none hy]

lemma found_replaced_self (h : found f (u ++ x :: v) start = [(start + u.length, b)]) (hx : f x = some b)
    (hy : f y = some b') : found f (u ++ y :: v) start = [(start + u.length, b')] := by
  rw [found_append, found_cons_some hx] at h
  rw [found_append, found_cons_some hy]
  have hlength := congrArg List.length h
  simp only [List.length_append, List.length_cons, List.length_nil] at hlength
  rw [List.length_eq_zero_iff.mp (show (found f u start).length = 0 by omega),
    List.length_eq_zero_iff.mp (show (found f v (start + u.length + 1)).length = 0 by omega), List.nil_append]

lemma without_append (places : List ℕ) (xs ys : List α) (start : ℕ) :
    without places (xs ++ ys) start = without places xs start ++ without places ys (start + xs.length) := by
  simp only [without, List.zipIdx_append, List.filter_append, List.map_append]

lemma without_cons (places : List ℕ) (x : α) (xs : List α) (start : ℕ) :
    without places (x :: xs) start = (if start ∈ places then [] else [x]) ++ without places xs (start + 1) := by
  rw [without, List.zipIdx_cons, List.filter_cons]
  split_ifs <;> simp_all [without]

lemma without_replaced (h : start + u.length ∈ places) :
    without places (u ++ y :: v) start = without places (u ++ x :: v) start := by
  rw [without_append, without_append, without_cons, without_cons, if_pos h, if_pos h]

end Replaced

section Inserted

lemma insertIdx_middle (u v : List α) (y : α) : (u ++ v).insertIdx u.length y = u ++ y :: v := by
  induction u with
  | nil => rw [List.nil_append, List.length_nil, List.insertIdx_zero, List.nil_append]
  | cons x u ih => rw [List.cons_append, List.length_cons, List.insertIdx_succ_cons, ih, List.cons_append]

lemma found_map_shifted (h : ∀ p ∈ found f xs start, p.1 < i) :
    (found f xs start).map (fun p => (shifted i p.1, p.2)) = found f xs start := by
  conv_rhs => rw [← List.map_id (found f xs start)]
  refine List.map_congr_left fun p hp => ?_
  rw [shifted, if_pos (h p hp)]
  rfl

lemma found_inserted (hy : f y = none) : found f (u ++ y :: v) start =
    (found f (u ++ v) start).map fun p => (shifted (start + u.length) p.1, p.2) := by
  rw [found_append, found_append, found_cons_none hy, List.map_append, found_map_shifted, found_succ]
  · congr 1
    refine List.map_congr_left fun p hp => ?_
    rw [shifted, if_neg (Nat.not_lt.mpr (place_of_mem_found hp).1)]
  · exact fun p hp => (place_of_mem_found hp).2

lemma found_inserted_self (h : found f (u ++ v) start = []) (hy : f y = some b) :
    found f (u ++ y :: v) start = [(start + u.length, b)] := by
  have hnone := List.forall_mem_append.mp (found_eq_nil_iff.mp h)
  rw [found_append, found_cons_some hy, found_eq_nil_iff.mpr hnone.1, found_eq_nil_iff.mpr hnone.2, List.nil_append]

lemma without_congr {places' : List ℕ} (h : ∀ i, start ≤ i → i < start + xs.length → (i ∈ places ↔ i ∈ places')) :
    without places xs start = without places' xs start := by
  induction xs generalizing start with
  | nil => rfl
  | cons x xs ih =>
    rw [List.length_cons] at h
    rw [without_cons, without_cons, ih fun i hle hlt => h i (by omega) (by omega)]
    simp only [h start (Nat.le_refl _) (by omega)]

lemma without_succ (places : List ℕ) (xs : List α) (start : ℕ) :
    without (places.map (· + 1)) xs (start + 1) = without places xs start := by
  induction xs generalizing start with
  | nil => rfl
  | cons x xs ih =>
    have hmem : start + 1 ∈ places.map (· + 1) ↔ start ∈ places := by simp
    rw [without_cons, without_cons, ih]
    simp only [hmem]

lemma without_inserted (places : List ℕ) (u v : List α) (y : α) (start : ℕ) :
    without ((start + u.length) :: places.map (shifted (start + u.length))) (u ++ y :: v) start =
      without places (u ++ v) start := by
  have hlow (i : ℕ) (hi : i < start + u.length) :
      i ∈ (start + u.length) :: places.map (shifted (start + u.length)) ↔ i ∈ places := by
    simp only [List.mem_cons, List.mem_map, shifted]
    constructor
    · rintro (rfl | ⟨j, hj, hji⟩)
      · omega
      · split_ifs at hji with hlt
        · exact hji ▸ hj
        · omega
    · exact fun h => .inr ⟨i, h, if_pos hi⟩
  have hhigh (i : ℕ) (hi : start + u.length + 1 ≤ i) :
      i ∈ (start + u.length) :: places.map (shifted (start + u.length)) ↔ i ∈ places.map (· + 1) := by
    simp only [List.mem_cons, List.mem_map, shifted]
    constructor
    · rintro (rfl | ⟨j, hj, hji⟩)
      · omega
      · split_ifs at hji with hlt
        · omega
        · exact ⟨j, hj, hji⟩
    · rintro ⟨j, hj, rfl⟩
      exact .inr ⟨j, hj, if_neg (by omega)⟩
  rw [without_append, without_append, without_cons, if_pos List.mem_cons_self, List.nil_append,
    without_congr fun i _ hi => hlow i hi, without_congr fun i hi _ => hhigh i hi, without_succ]

end Inserted

end PlatformGitops.Library
