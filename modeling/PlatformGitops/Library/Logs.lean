import Mathlib.Data.List.Basic
import Mathlib.Tactic.Common
import Mathlib.Data.List.Forall2

/-! Logs of moves, and when a log leads from the start of a track to its present state. -/

namespace PlatformGitops.Library

variable {σ τ : Type}

/-- The moves form a path from `start`, where each one leaves the state the one before it reached. -/
inductive Trail : Option σ → List (Option σ × σ) → Option σ → Prop
  | nil {start : Option σ} : Trail start [] start
  | cons {start last : Option σ} {s : σ} {moves : List (Option σ × σ)} :
      Trail (some s) moves last → Trail start ((start, s) :: moves) last

lemma Trail.append {start last : Option σ} {moves : List (Option σ × σ)} (h : Trail start moves last)
    (s : σ) : Trail start (moves ++ [(last, s)]) (some s) := by
  induction h with
  | nil => exact .cons .nil
  | cons _ ih => exact .cons ih

/-- On every track the log leads to the present state, and it is empty only at the start. -/
def Replays (start : τ → Option σ) (log : τ → List (Option σ × σ)) (now : τ → Option σ) : Prop :=
  ∀ t, Trail (start t) (log t) (now t) ∧ (log t = [] ↔ now t = start t)

lemma Replays.advance {start now now' : τ → Option σ} {log log' : τ → List (Option σ × σ)}
    (h : Replays start log now) {t : τ} {s : σ} (hs : some s ≠ start t)
    (hlog : log' t = log t ++ [(now t, s)]) (hnow : now' t = some s)
    (hother : ∀ u, u ≠ t → log' u = log u ∧ now' u = now u) : Replays start log' now' := by
  intro u
  by_cases hu : u = t
  · subst hu
    refine ⟨?_, ?_⟩
    · rw [hlog, hnow]
      exact (h u).1.append s
    · simp [hlog, hnow, hs]
  · obtain ⟨hl, hn⟩ := hother u hu
    rw [hl, hn]
    exact h u

end PlatformGitops.Library

/-! Lists whose elements each name the digest of the element before. -/

namespace PlatformGitops.Library

variable {α H : Type}

/-- A chain and the digest of its last element. -/
inductive HashChain (previous : α → Option H) (digest : α → H) : List α → Option H → Prop
  | nil : HashChain previous digest [] none
  | snoc {xs : List α} {tip : Option H} {x : α} :
      HashChain previous digest xs tip → previous x = tip → HashChain previous digest (xs ++ [x]) (some (digest x))

namespace HashChain

variable {previous : α → Option H} {digest : α → H} {xs ys : List α} {tip : Option H}

lemma tip_eq_none (h : HashChain previous digest xs tip) (hxs : xs = []) : tip = none := by
  cases h with
  | nil => rfl
  | snoc => simp at hxs

lemma tip_mem {h : H} (hchain : HashChain previous digest xs (some h)) : ∃ x ∈ xs, digest x = h := by
  generalize htip : some h = tip at hchain
  cases hchain with
  | nil => cases htip
  | @snoc xs tip x => exact ⟨x, by simp, (Option.some.inj htip).symm⟩

/-- Chains with one tip agree from the last element to the first, where elements with one digest are related and
name the same element before. -/
lemma forall₂ {R : α → α → Prop} (hx : HashChain previous digest xs tip) (hy : HashChain previous digest ys tip)
    (hdigest : ∀ x ∈ xs, ∀ y ∈ ys, digest x = digest y → R x y ∧ previous x = previous y) :
    List.Forall₂ R xs ys := by
  induction hx generalizing ys with
  | nil =>
    cases hy
    exact .nil
  | @snoc xs tip x hxs hprevious ih =>
    generalize htip : some (digest x) = tip' at hy
    cases hy with
    | nil => cases htip
    | @snoc ys _ y hys hprevious' =>
      obtain ⟨hR, hsame⟩ := hdigest x (by simp) y (by simp) (Option.some.inj htip)
      have hys' : HashChain previous digest ys tip := by rwa [← hprevious, hsame, hprevious']
      have hrest := ih hys' fun x hx y hy => hdigest x (List.mem_append_left _ hx) y (List.mem_append_left _ hy)
      exact List.rel_append hrest (.cons hR .nil)

/-- Each element of a chain ends a shorter one. -/
lemma before {x : α} (hx : HashChain previous digest xs tip) (hmem : x ∈ xs) :
    ∃ ys, HashChain previous digest ys (previous x) ∧ ys.length < xs.length ∧ ∀ y ∈ ys, y ∈ xs := by
  induction hx with
  | nil => cases hmem
  | @snoc xs tip z hxs hprevious ih =>
    rcases List.mem_append.mp hmem with hmem | hmem
    · obtain ⟨ys, hys, hlen, hsub⟩ := ih hmem
      exact ⟨ys, hys, by simp; omega, fun y hy => List.mem_append_left _ (hsub y hy)⟩
    · rw [List.mem_singleton] at hmem
      subst hmem
      exact ⟨xs, hprevious ▸ hxs, by simp, fun y hy => List.mem_append_left _ hy⟩

end HashChain

end PlatformGitops.Library
