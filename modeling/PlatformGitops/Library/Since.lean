import PlatformGitops.Library.Fallible
import Mathlib.Data.List.Induction

/-! What the end of a run still shows of its elements: what began and was not ended since, and what was written
last. -/

namespace PlatformGitops.Library

variable {ε σ α β : Type}

/-- Two places in one list are in one order or the other, or the same place. -/
lemma split_cases {xs xs' ys ys' : List α} {x y : α} (h : xs ++ x :: xs' = ys ++ y :: ys') :
    (∃ between, ys = xs ++ x :: between ∧ xs' = between ++ y :: ys') ∨ (xs = ys ∧ x = y ∧ xs' = ys') ∨
      ∃ between, xs = ys ++ y :: between ∧ ys' = between ++ x :: xs' := by
  rcases List.append_eq_append_iff.mp h with ⟨between, rfl, hrest⟩ | ⟨between, rfl, hrest⟩
  · cases between with
    | nil =>
      cases hrest
      exact .inr (.inl ⟨by simp, rfl, rfl⟩)
    | cons z between =>
      cases hrest
      exact .inl ⟨between, rfl, rfl⟩
  · cases between with
    | nil =>
      cases hrest
      exact .inr (.inl ⟨by simp, rfl, rfl⟩)
    | cons z between =>
      cases hrest
      exact .inr (.inr ⟨between, rfl, rfl⟩)

/-- An element starts it, and none after that one stops it. -/
def Since (start stop : α → Prop) (xs : List α) : Prop :=
  ∃ before x after, xs = before ++ x :: after ∧ start x ∧ ∀ y ∈ after, ¬ stop y

section Since

variable {start stop stop' : α → Prop} {xs ys : List α}

lemma not_since_nil : ¬ Since start stop ([] : List α) := by
  rintro ⟨before, x, after, h, -⟩
  simp at h

lemma since_concat {x : α} : Since start stop (xs ++ [x]) ↔ start x ∨ Since start stop xs ∧ ¬ stop x := by
  constructor
  · rintro ⟨before, y, after, h, hstart, hafter⟩
    rcases after.eq_nil_or_concat with rfl | ⟨after, z, rfl⟩
    · obtain ⟨-, hxy⟩ := List.append_inj' h rfl
      cases hxy
      exact .inl hstart
    · rw [List.concat_eq_append, ← List.cons_append, ← List.append_assoc] at h
      obtain ⟨rfl, hxz⟩ := List.append_inj' h rfl
      cases hxz
      rw [List.concat_eq_append, List.forall_mem_append] at hafter
      exact .inr ⟨⟨before, y, after, rfl, hstart, hafter.1⟩, hafter.2 x (by simp)⟩
  · rintro (hstart | ⟨⟨before, y, after, rfl, hstart, hafter⟩, hstop⟩)
    · exact ⟨xs, x, [], rfl, hstart, by simp⟩
    · refine ⟨before, y, after ++ [x], by simp, hstart, ?_⟩
      exact List.forall_mem_append.mpr ⟨hafter, by simpa using hstop⟩

lemma since_append : Since start stop (xs ++ ys) ↔ Since start stop ys ∨ Since start stop xs ∧ ∀ y ∈ ys, ¬ stop y := by
  induction ys using List.reverseRecOn with
  | nil => simp [not_since_nil]
  | append_singleton ys y ih =>
    rw [← List.append_assoc, since_concat, ih, since_concat, List.forall_mem_append]
    simp only [List.forall_mem_singleton]
    tauto

lemma Since.mono (h : Since start stop xs) (hstop : ∀ y, stop' y → stop y) : Since start stop' xs := by
  obtain ⟨before, x, after, hxs, hstart, hafter⟩ := h
  exact ⟨before, x, after, hxs, hstart, fun y hy h => hafter y hy (hstop y h)⟩

/-- What one step does to a property of the state says when the property holds after a run. -/
lemma holds_iff_since {f : σ → α → Except ε σ} {Holds : σ → Prop}
    (hstep : ∀ s x s', f s x = .ok s' → (Holds s' ↔ start x ∨ Holds s ∧ ¬ stop x)) {s s' : σ}
    (hs : ¬ Holds s) (h : xs.foldlM f s = .ok s') : Holds s' ↔ Since start stop xs := by
  induction xs using List.reverseRecOn generalizing s' with
  | nil =>
    cases h
    simp [hs, not_since_nil]
  | append_singleton xs x ih =>
    obtain ⟨middle, hmiddle, hlast⟩ := Fallible.foldlM_concat_eq_ok.mp h
    rw [hstep _ _ _ hlast, ih hmiddle, since_concat]

end Since

/-- What the last element that writes something has written. -/
def latest (write : α → Option β) (xs : List α) : Option β := xs.foldl (fun last x => (write x).or last) none

section Latest

variable {write : α → Option β} {xs ys : List α}

@[simp] lemma latest_nil : latest write [] = none := rfl

@[simp] lemma latest_concat {x : α} : latest write (xs ++ [x]) = (write x).or (latest write xs) := by
  simp [latest]

lemma latest_append : latest write (xs ++ ys) = (latest write ys).or (latest write xs) := by
  induction ys using List.reverseRecOn with
  | nil => simp
  | append_singleton ys y ih => rw [← List.append_assoc, latest_concat, ih, latest_concat, Option.or_assoc]

lemma latest_cons {x : α} : latest write (x :: xs) = (latest write xs).or (write x) := by
  rw [← List.singleton_append, latest_append]
  congr 1
  simp [latest]

lemma latest_eq_none : latest write xs = none ↔ ∀ x ∈ xs, write x = none := by
  induction xs using List.reverseRecOn with
  | nil => simp
  | append_singleton xs x ih => 
    rw [latest_concat, Option.or_eq_none_iff, ih, List.forall_mem_append, List.forall_mem_singleton, and_comm]

lemma latest_eq_some {b : β} :
    latest write xs = some b ↔ Since (write · = some b) (fun x => write x ≠ none) xs := by
  induction xs using List.reverseRecOn with
  | nil => simp [not_since_nil]
  | append_singleton xs x ih =>
    rw [latest_concat, since_concat, ← ih]
    cases write x <;> simp

end Latest

/-- Each element stands well behind the elements before it. -/
def Along (P : List α → α → Prop) (xs : List α) : Prop :=
  ∀ before x after, xs = before ++ x :: after → P before x

section Along

variable {P : List α → α → Prop} {xs : List α}

@[simp] lemma along_nil : Along P [] := by
  rintro before x after h
  simp at h

lemma along_concat {x : α} : Along P (xs ++ [x]) ↔ Along P xs ∧ P xs x := by
  constructor
  · intro h
    refine ⟨?_, h xs x [] rfl⟩
    rintro before y after rfl
    exact h before y (after ++ [x]) (by simp)
  · rintro ⟨hxs, hx⟩ before y after h
    rcases after.eq_nil_or_concat with rfl | ⟨after, z, rfl⟩
    · obtain ⟨rfl, hxy⟩ := List.append_inj' h rfl
      cases hxy
      exact hx
    · rw [List.concat_eq_append, ← List.cons_append, ← List.append_assoc] at h
      obtain ⟨rfl, -⟩ := List.append_inj' h rfl
      exact hxs before y after rfl

/-- A run comes to its end if and only if each step can be taken where it stands. -/
lemma succeeds_iff_along {f : σ → α → Except ε σ} {s : σ}
    (hstep : ∀ xs x s', xs.foldlM f s = .ok s' → ((∃ t, f s' x = .ok t) ↔ P xs x)) :
    (∃ s', xs.foldlM f s = .ok s') ↔ Along P xs := by
  induction xs using List.reverseRecOn with
  | nil => simp [pure, Except.pure]
  | append_singleton xs x ih =>
    rw [along_concat, ← ih]
    simp only [Fallible.foldlM_concat_eq_ok]
    constructor
    · rintro ⟨t, s', hs', ht⟩
      exact ⟨⟨s', hs'⟩, (hstep xs x s' hs').mp ⟨t, ht⟩⟩
    · rintro ⟨⟨s', hs'⟩, hx⟩
      obtain ⟨t, ht⟩ := (hstep xs x s' hs').mpr hx
      exact ⟨t, s', hs', ht⟩

end Along

end PlatformGitops.Library
