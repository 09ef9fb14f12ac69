import Mathlib.Algebra.Order.Group.Defs
import Mathlib.Data.List.Basic
import Mathlib.Data.List.Induction
import Mathlib.Data.List.TakeWhile
import Mathlib.Order.Interval.Set.Defs
import Mathlib.Tactic.Abel
import Mathlib.Tactic.Common

/-! Logs of instants, of which those of the last span are kept and counted. -/

namespace PlatformGitops.Library.SlidingWindow

variable {α : Type} [AddCommGroup α] [LinearOrder α]
variable {span now later a t u : α} {cap : Nat} {log kept before after : List α}

/-- The instants of the closed interval that begins at one. -/
def within (a span : α) (log : List α) : List α := log.filter fun t => a ≤ t ∧ t ≤ a + span

/-- The instants that are not older than the span. -/
def recent (span now : α) (log : List α) : List α := log.filter fun t => now - t ≤ span

def expire (span now : α) (log : List α) : List α := log.dropWhile fun t => span < now - t

/-- An instant is logged only where fewer than the cap are recent. -/
def Spaced (span : α) (cap : Nat) (log : List α) : Prop :=
  ∀ before t after, log = before ++ t :: after → (recent span t before).length < cap

/-- What is kept of a log leaves out instants that are too old alone. -/
def Tracks (span now : α) (log kept : List α) : Prop := ∃ expired, log = expired ++ kept ∧ ∀ t ∈ expired, span < now - t

lemma Tracks.mono [IsOrderedAddMonoid α] (h : Tracks span now log kept) (hle : now ≤ later) : Tracks span later log kept := by
  obtain ⟨expired, rfl, hexpired⟩ := h
  exact ⟨expired, rfl, fun t ht => lt_of_lt_of_le (hexpired t ht) (sub_le_sub_right hle t)⟩

lemma Tracks.expire (h : Tracks span now log kept) : Tracks span now log (expire span now kept) := by
  obtain ⟨expired, rfl, hexpired⟩ := h
  refine ⟨expired ++ kept.takeWhile fun t => span < now - t, ?_, fun t ht => ?_⟩
  · rw [List.append_assoc, SlidingWindow.expire, List.takeWhile_append_dropWhile]
  · rcases List.mem_append.mp ht with ht | ht
    · exact hexpired t ht
    · simpa using List.mem_takeWhile_imp ht

lemma Tracks.concat (h : Tracks span now log kept) : Tracks span now (log ++ [t]) (kept ++ [t]) := by
  obtain ⟨expired, rfl, hexpired⟩ := h
  exact ⟨expired, by rw [List.append_assoc], hexpired⟩

lemma Tracks.sorted (h : Tracks span now log kept) (hsorted : log.Pairwise (· ≤ ·)) : kept.Pairwise (· ≤ ·) := by
  obtain ⟨expired, rfl, -⟩ := h
  exact (List.pairwise_append.mp hsorted).2.1

lemma expire_eq_recent [IsOrderedAddMonoid α] (hsorted : kept.Pairwise (· ≤ ·)) : expire span now kept = recent span now kept := by
  induction kept with
  | nil => rfl
  | cons t kept ih =>
    obtain ⟨hhead, htail⟩ := List.pairwise_cons.mp hsorted
    rw [expire, recent, List.dropWhile_cons, List.filter_cons]
    by_cases hold : span < now - t
    · have hnot : ¬now - t ≤ span := not_le.mpr hold
      simp only [hold, hnot, decide_true, decide_false, if_true, Bool.false_eq_true, if_false]
      exact ih htail
    · have hrecent : now - t ≤ span := not_lt.mp hold
      have hall : ∀ u ∈ kept, now - u ≤ span := fun u hu => le_trans (sub_le_sub_left (hhead u hu) now) hrecent
      simp only [hold, hrecent, decide_true, decide_false, if_true, Bool.false_eq_true, if_false]
      rw [List.filter_eq_self.mpr fun u hu => decide_eq_true (hall u hu)]

/-- After the old instants at its front are dropped, what is kept is just the recent part of the whole log. -/
lemma Tracks.expire_eq [IsOrderedAddMonoid α] (h : Tracks span now log kept) (hsorted : log.Pairwise (· ≤ ·)) :
    SlidingWindow.expire span now kept = recent span now log := by
  rw [expire_eq_recent (h.sorted hsorted)]
  obtain ⟨expired, rfl, hexpired⟩ := h
  have hnone : recent span now expired = [] :=
    List.filter_eq_nil_iff.mpr fun t ht => by rw [decide_eq_true_eq]; exact not_le.mpr (hexpired t ht)
  rw [recent, recent, List.filter_append]
  rw [recent] at hnone
  rw [hnone, List.nil_append]

lemma spaced_nil : Spaced span cap [] := by
  intro before t after h
  simp at h

lemma Spaced.concat (h : Spaced span cap log) (ht : (recent span t log).length < cap) : Spaced span cap (log ++ [t]) := by
  intro before u after heq
  rcases List.eq_nil_or_concat after with rfl | ⟨rest, v, rfl⟩
  · obtain ⟨rfl, hu⟩ := List.append_inj' heq rfl
    cases hu
    exact ht
  · have hcut : log = before ++ u :: rest := by
      rw [List.concat_eq_append, ← List.cons_append, ← List.append_assoc] at heq
      exact (List.append_inj' heq rfl).1
    exact h before u rest hcut

/-- A spaced log never has more instants in a closed interval of the span than the cap. -/
lemma Spaced.within_le [IsOrderedAddMonoid α] (h : Spaced span cap log) (hsorted : log.Pairwise (· ≤ ·)) (a : α) :
    (within a span log).length ≤ cap := by
  induction log using List.reverseRecOn with
  | nil => exact Nat.zero_le cap
  | append_singleton log t ih =>
    have hbefore : Spaced span cap log := fun before u after heq =>
      h before u (after ++ [t]) (by rw [heq, List.append_assoc, List.cons_append])
    have hih := ih hbefore (List.pairwise_append.mp hsorted).1
    rw [within, List.filter_append, List.length_append]
    by_cases ht : a ≤ t ∧ t ≤ a + span
    · have hsub : within a span log = (recent span t log).filter fun u => a ≤ u ∧ u ≤ a + span := by
        rw [within, recent, List.filter_filter]
        refine List.filter_congr fun u _ => ?_
        by_cases hu : a ≤ u
        · have hrecent : t - u ≤ span := by
            rw [sub_le_iff_le_add]
            exact le_trans ht.2 (by rw [add_comm]; exact add_le_add_right hu span)
          simp [hu, hrecent]
        · simp [hu]
      have hlt : (within a span log).length < cap := by
        rw [hsub]
        exact lt_of_le_of_lt (List.length_filter_le _ _) (h log t [] rfl)
      rw [List.filter_cons_of_pos (by simpa using ht), List.filter_nil, List.length_singleton]
      exact hlt
    · rw [List.filter_cons_of_neg (by simpa using ht)]
      exact hih

end PlatformGitops.Library.SlidingWindow
