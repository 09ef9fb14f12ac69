import Mathlib.Data.List.Induction
import Mathlib.Logic.Function.Basic

/-! Stores that are written key by key, and cells that a write leaves alone if it finds its own mark on them. -/

namespace PlatformGitops.Library

section Keyed

variable {κ ρ σ : Type} [DecidableEq κ] (key : ρ → κ) (f : σ → ρ → σ)

def putAt (store : κ → σ) (r : ρ) : κ → σ := Function.update store (key r) (f (store (key r)) r)

variable {key f}

/-- A cell sees the writes of its own key only. -/
lemma foldl_putAt (rs : List ρ) (store : κ → σ) (k : κ) :
    rs.foldl (putAt key f) store k = (rs.filter (key · = k)).foldl f (store k) := by
  induction rs generalizing store with
  | nil => rfl
  | cons r rs ih =>
    rw [List.foldl_cons, ih]
    by_cases hk : key r = k
    · subst hk
      simp [putAt]
    · simp [putAt, hk, Function.update_of_ne (Ne.symm hk)]

end Keyed

section Marked

variable {ρ σ τ : Type} [DecidableEq τ] (mark : σ → τ) (tag : ρ → τ) (put : σ → ρ → σ)

/-- The write happens only where its mark is new. -/
def guardedPut (s : σ) (r : ρ) : σ := if mark s = tag r then s else put s r

/-- What the writes of these values do to a cell: they leave their mark, and nothing is left of the write before. -/
structure Overwrites (rs : List ρ) : Prop where
  mark_put : ∀ r ∈ rs, ∀ s, mark (put s r) = tag r
  put_put : ∀ r ∈ rs, ∀ q ∈ rs, ∀ s, put (put s q) r = put s r

variable {mark tag put} {rs qs : List ρ} {r : ρ} {s t : σ}

omit [DecidableEq τ] in
lemma Overwrites.mono (h : Overwrites mark tag put rs) (hsub : qs ⊆ rs) : Overwrites mark tag put qs where
  mark_put q hq := h.mark_put q (hsub hq)
  put_put q hq p hp := h.put_put q (hsub hq) p (hsub hp)

lemma guardedPut_marked (h : mark s = tag r) : guardedPut mark tag put s r = s := if_pos h

lemma guardedPut_new (h : mark s ≠ tag r) : guardedPut mark tag put s r = put s r := if_neg h

lemma mark_guardedPut (h : Overwrites mark tag put rs) (hr : r ∈ rs) : mark (guardedPut mark tag put s r) = tag r := by
  unfold guardedPut
  split
  · assumption
  · exact h.mark_put r hr s

/-- Whatever was in the cell, its mark is the one of the last value. -/
lemma mark_foldl (h : Overwrites mark tag put (rs ++ [r])) :
    mark ((rs ++ [r]).foldl (guardedPut mark tag put) s) = tag r := by
  rw [List.foldl_append]
  exact mark_guardedPut h (by simp)

lemma foldl_of_marked (h : ∀ r ∈ rs, tag r = mark s) : rs.foldl (guardedPut mark tag put) s = s := by
  induction rs with
  | nil => rfl
  | cons r rs ih =>
    obtain ⟨hr, hrs⟩ := List.forall_mem_cons.mp h
    rw [List.foldl_cons, guardedPut_marked hr.symm, ih hrs]

/-- What a value finds: the cell as it was, or as one of the values wrote it. -/
lemma foldl_guardedPut_cases (h : Overwrites mark tag put rs) :
    rs.foldl (guardedPut mark tag put) s = s ∨ ∃ r ∈ rs, rs.foldl (guardedPut mark tag put) s = put s r := by
  induction rs using List.reverseRecOn with
  | nil => exact Or.inl rfl
  | append_singleton rs r ih =>
    have hr : r ∈ rs ++ [r] := by simp
    have hrs : rs ⊆ rs ++ [r] := List.subset_append_left ..
    rw [List.foldl_append, List.foldl_cons, List.foldl_nil, guardedPut]
    split
    · rcases ih (h.mono hrs) with hsame | ⟨q, hq, hput⟩
      · exact Or.inl hsame
      · exact Or.inr ⟨q, hrs hq, hput⟩
    · rcases ih (h.mono hrs) with hsame | ⟨q, hq, hput⟩
      · exact Or.inr ⟨r, hr, by rw [hsame]⟩
      · exact Or.inr ⟨r, hr, by rw [hput, h.put_put r hr q (hrs hq)]⟩

/-- Two cells of one mark are the same cell once a value of another mark is written. -/
lemma foldl_eq_of_mark (hmark : mark s = mark t) (hput : ∀ r ∈ rs, put s r = put t r) (hother : ∃ r ∈ rs, tag r ≠ mark s) :
    rs.foldl (guardedPut mark tag put) s = rs.foldl (guardedPut mark tag put) t := by
  induction rs with
  | nil => simp at hother
  | cons r rs ih =>
    obtain ⟨hr, hrs⟩ := List.forall_mem_cons.mp hput
    rw [List.foldl_cons, List.foldl_cons]
    by_cases hsame : mark s = tag r
    · rw [guardedPut_marked hsame, guardedPut_marked (hmark ▸ hsame)]
      refine ih hrs ?_
      obtain ⟨q, hq, hne⟩ := hother
      rcases List.mem_cons.mp hq with rfl | hq
      · exact absurd hsame.symm hne
      · exact ⟨q, hq, hne⟩
    · rw [guardedPut_new hsame, guardedPut_new (hmark ▸ hsame), hr]

/-- Writing some of the values first does not change what all of them leave, where values of one mark are written alike. -/
lemma foldl_again (h : Overwrites mark tag put rs) (hsub : qs ⊆ rs)
    (halike : ∀ r ∈ rs, ∀ q ∈ rs, tag r = tag q → ∀ s, put s r = put s q) :
    rs.foldl (guardedPut mark tag put) (qs.foldl (guardedPut mark tag put) s) =
      rs.foldl (guardedPut mark tag put) s := by
  by_cases hall : ∀ r ∈ rs, tag r = mark s
  · rw [foldl_of_marked fun q hq => hall q (hsub hq)]
  push Not at hall
  rcases foldl_guardedPut_cases (s := s) (h.mono hsub) with hsame | ⟨q, hq, hput⟩
  · rw [hsame]
  rw [hput]
  cases rs with
  | nil => simp at hall
  | cons r rs =>
    have hr : r ∈ r :: rs := List.mem_cons_self
    have hq := hsub hq
    rw [List.foldl_cons, List.foldl_cons]
    by_cases hfirst : mark s = tag r
    · -- the first value finds its mark in the old cell, and another one follows it
      have hother : ∃ p ∈ rs, tag p ≠ tag r := by
        obtain ⟨p, hp, hne⟩ := hall
        rw [hfirst] at hne
        rcases List.mem_cons.mp hp with rfl | hp
        · exact absurd rfl hne
        · exact ⟨p, hp, hne⟩
      rw [guardedPut_marked hfirst]
      have hmark := mark_guardedPut (s := put s q) h hr
      refine foldl_eq_of_mark (hmark.trans hfirst.symm) (fun p hp => ?_) (by rwa [hmark])
      have hp := List.mem_cons_of_mem r hp
      unfold guardedPut
      split
      · exact h.put_put p hp q hq s
      · rw [h.put_put p hp r hr, h.put_put p hp q hq]
    · rw [guardedPut_new hfirst]
      by_cases hfound : mark (put s q) = tag r
      · rw [guardedPut_marked hfound, halike q hq r hr ((h.mark_put q hq s).symm.trans hfound)]
      · rw [guardedPut_new hfound, h.put_put r hr q hq]

end Marked

end PlatformGitops.Library
