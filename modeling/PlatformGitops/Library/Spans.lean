import Mathlib.Data.List.DropRight
import Mathlib.Data.List.Induction
import Mathlib.Data.List.TakeWhile
import Mathlib.Tactic.Common

/-! Lists cut where a predicate starts or stops to hold. -/

namespace PlatformGitops.Library

variable {α : Type} {p : α → Bool} {w after s : List α}

/-- A property that is computed for a list is computed for each of its elements. -/
lemma forall_of_all {b : Bool} (h : s.all (p · == b) = true) : ∀ c ∈ s, p c = b := by
  simpa using h

/-- A run of elements that satisfy the predicate, up to the first that does not. -/
lemma span_run (hw : ∀ c ∈ w, p c = true) (hafter : after.head?.any p = false) :
    (w ++ after).takeWhile p = w ∧ (w ++ after).dropWhile p = after := by
  rw [List.takeWhile_append_of_pos hw, List.dropWhile_append_of_pos hw]
  cases after with
  | nil => exact ⟨by simp, rfl⟩
  | cons c after =>
    rw [List.takeWhile_cons_of_neg (by simpa using hafter), List.dropWhile_cons_of_neg (by simpa using hafter)]
    exact ⟨List.append_nil _, rfl⟩

lemma head_dropWhile (p : α → Bool) (s : List α) : (s.dropWhile p).head?.any p = false := by
  have hhead := List.head?_dropWhile_not p s
  cases hdrop : (s.dropWhile p).head? with
  | none => rfl
  | some c =>
    rw [hdrop] at hhead
    exact hhead

/-- What comes after the last element that satisfies the predicate. -/
lemma exists_last_run (p : α → Bool) (s : List α) :
    ∃ u w, s = u ++ w ∧ (∀ c ∈ w, p c = false) ∧ (u = [] ∨ ∃ c, u.getLast? = some c ∧ p c = true) := by
  induction s using List.reverseRecOn with
  | nil => exact ⟨[], [], rfl, List.forall_mem_nil _, .inl rfl⟩
  | append_singleton s c ih =>
    obtain ⟨u, w, rfl, hw, hu⟩ := ih
    cases hc : p c with
    | true => exact ⟨u ++ w ++ [c], [], by simp, List.forall_mem_nil _, .inr ⟨c, by simp, hc⟩⟩
    | false =>
      refine ⟨u, w ++ [c], by simp, ?_, hu⟩
      simpa [or_imp, forall_and, hc] using hw

end PlatformGitops.Library
