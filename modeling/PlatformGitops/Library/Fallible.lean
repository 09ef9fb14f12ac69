import Mathlib.Data.List.Forall2
import Mathlib.Data.List.Perm.Basic
import Mathlib.Tactic.Common

/-! Inversion of fallible computations: what a run that returned a value went through. -/

namespace PlatformGitops.Library.Fallible

variable {ε α β : Type}

def expect (x : Option α) (e : ε) : Except ε α :=
  match x with
  | some a => .ok a
  | none => .error e

def rejectIf (bad : Prop) [Decidable bad] (e : ε) : Except ε Unit :=
  if bad then .error e else .ok ()

@[simp] lemma bind_eq_ok {x : Except ε α} {f : α → Except ε β} {b : β} :
    (x >>= f) = .ok b ↔ ∃ a, x = .ok a ∧ f a = .ok b := by
  cases x <;> simp [bind, Except.bind]

lemma bind_eq_error {x : Except ε α} {f : α → Except ε β} {e : ε} :
    (x >>= f) = .error e ↔ x = .error e ∨ ∃ a, x = .ok a ∧ f a = .error e := by
  cases x <;> simp [bind, Except.bind]

@[simp] lemma pure_eq_ok {a b : α} : (pure a : Except ε α) = .ok b ↔ a = b := by
  simp [pure, Except.pure]

lemma map_eq_ok {x : Except ε α} {f : α → β} {b : β} : f <$> x = .ok b ↔ ∃ a, x = .ok a ∧ f a = b := by
  cases x <;> simp

@[simp] lemma expect_eq_ok {x : Option α} {e : ε} {a : α} : expect x e = .ok a ↔ x = some a := by
  cases x <;> simp [expect]

@[simp] lemma rejectIf_eq_ok {bad : Prop} [Decidable bad] {e : ε} {u : Unit} :
    rejectIf bad e = .ok u ↔ ¬ bad := by
  by_cases h : bad <;> simp [rejectIf, h]

lemma rejectIf_eq_error {bad : Prop} [Decidable bad] {e e' : ε} : rejectIf bad e = .error e' ↔ bad ∧ e = e' := by
  by_cases h : bad <;> simp [rejectIf, h]

lemma toOption_eq_some {x : Except ε α} {a : α} (h : x.toOption = some a) : x = .ok a := by
  cases x with
  | ok b => simpa [Except.toOption] using h
  | error e => simp [Except.toOption] at h

lemma forM_eq_ok {f : α → Except ε Unit} {xs : List α} :
    xs.forM f = .ok () ↔ ∀ x ∈ xs, f x = .ok () := by
  induction xs with
  | nil => simp [List.forM, pure, Except.pure]
  | cons x xs ih =>
    rw [List.forall_mem_cons, ← ih, List.forM, bind_eq_ok]
    constructor
    · rintro ⟨⟨⟩, hx, hxs⟩
      exact ⟨hx, hxs⟩
    · rintro ⟨hx, hxs⟩
      exact ⟨(), hx, hxs⟩

lemma mapM_eq_ok {f : α → Except ε β} {xs : List α} {ys : List β} (h : xs.mapM f = .ok ys) :
    (∀ x ∈ xs, ∃ y ∈ ys, f x = .ok y) ∧ ∀ y ∈ ys, ∃ x ∈ xs, f x = .ok y := by
  induction xs generalizing ys with
  | nil =>
    simp only [List.mapM_nil, pure_eq_ok] at h
    simp [← h]
  | cons x xs ih =>
    simp only [List.mapM_cons, bind_eq_ok, pure_eq_ok] at h
    obtain ⟨y, hy, ys', hys, rfl⟩ := h
    obtain ⟨hleft, hright⟩ := ih hys
    constructor
    · refine List.forall_mem_cons.mpr ⟨⟨y, List.mem_cons_self, hy⟩, fun x' hx' => ?_⟩
      obtain ⟨y', hy', hf⟩ := hleft x' hx'
      exact ⟨y', List.mem_cons_of_mem _ hy', hf⟩
    · refine List.forall_mem_cons.mpr ⟨⟨x, List.mem_cons_self, hy⟩, fun y' hy' => ?_⟩
      obtain ⟨x', hx', hf⟩ := hright y' hy'
      exact ⟨x', List.mem_cons_of_mem _ hx', hf⟩

lemma mapM_eq_some {f : α → Option β} {xs : List α} {ys : List β} (h : xs.mapM f = some ys) :
    ∀ y ∈ ys, ∃ x ∈ xs, f x = some y := by
  induction xs generalizing ys with
  | nil =>
    obtain rfl : [] = ys := by simpa using h
    intro y hy
    cases hy
  | cons x xs ih =>
    simp only [List.mapM_cons, Option.bind_eq_bind, Option.bind_eq_some_iff, Option.pure_def, Option.some.injEq] at h
    obtain ⟨z, hz, zs, hzs, rfl⟩ := h
    intro y hy
    rcases List.mem_cons.mp hy with rfl | hy
    · exact ⟨x, List.mem_cons_self, hz⟩
    · obtain ⟨x', hx', hy⟩ := ih hzs y hy
      exact ⟨x', List.mem_cons_of_mem _ hx', hy⟩

lemma mem_of_mapM_eq_some {f : α → Option β} {xs : List α} {ys : List β} (h : xs.mapM f = some ys) :
    ∀ x ∈ xs, ∃ y ∈ ys, f x = some y := by
  induction xs generalizing ys with
  | nil => simp
  | cons x xs ih =>
    simp only [List.mapM_cons, Option.bind_eq_bind, Option.bind_eq_some_iff, Option.pure_def, Option.some.injEq] at h
    obtain ⟨y, hy, ys, hys, rfl⟩ := h
    refine List.forall_mem_cons.mpr ⟨⟨y, List.mem_cons_self, hy⟩, fun x' hx' => ?_⟩
    obtain ⟨y', hy', hf⟩ := ih hys x' hx'
    exact ⟨y', List.mem_cons_of_mem _ hy', hf⟩

lemma mapM_getElem? {f : α → Except ε β} {xs : List α} {ys : List β} (h : xs.mapM f = .ok ys) {i : Nat} {x : α}
    (hx : xs[i]? = some x) : ∃ y, ys[i]? = some y ∧ f x = .ok y := by
  induction xs generalizing ys i with
  | nil => simp at hx
  | cons x' xs ih =>
    simp only [List.mapM_cons, bind_eq_ok, pure_eq_ok] at h
    obtain ⟨y, hy, ys, hys, rfl⟩ := h
    cases i with
    | zero =>
      cases hx
      exact ⟨y, rfl, hy⟩
    | succ i => exact ih hys hx

lemma mapM_sublist {f : α → Except ε β} {xs xs' : List α} {ys : List β} (hsub : xs'.Sublist xs)
    (h : xs.mapM f = .ok ys) : ∃ ys', xs'.mapM f = .ok ys' ∧ ys'.Sublist ys := by
  induction hsub generalizing ys with
  | slnil => exact ⟨ys, h, .refl ys⟩
  | cons x _ ih =>
    simp only [List.mapM_cons, bind_eq_ok, pure_eq_ok] at h
    obtain ⟨y, -, ys, hys, rfl⟩ := h
    obtain ⟨ys', hys', hsub⟩ := ih hys
    exact ⟨ys', hys', hsub.cons y⟩
  | cons_cons x _ ih =>
    simp only [List.mapM_cons, bind_eq_ok, pure_eq_ok] at h ⊢
    obtain ⟨y, hy, ys, hys, rfl⟩ := h
    obtain ⟨ys', hys', hsub⟩ := ih hys
    exact ⟨y :: ys', ⟨y, hy, ys', hys', rfl⟩, hsub.cons_cons y⟩

lemma mapM_of_ok {f : α → Except ε β} {g : α → β} {xs : List α} (h : ∀ x ∈ xs, f x = .ok (g x)) :
    xs.mapM f = .ok (xs.map g) := by
  induction xs with
  | nil => rfl
  | cons x xs ih =>
    obtain ⟨hx, hxs⟩ := List.forall_mem_cons.mp h
    rw [List.mapM_cons, hx, ih hxs]
    rfl

lemma mapM_eq_ok_iff {f : α → Except ε β} {xs : List α} {ys : List β} :
    xs.mapM f = .ok ys ↔ List.Forall₂ (fun x y => f x = .ok y) xs ys := by
  induction xs generalizing ys with
  | nil =>
    rw [List.mapM_nil, pure_eq_ok, List.forall₂_nil_left_iff, eq_comm]
  | cons x xs ih =>
    simp only [List.mapM_cons, bind_eq_ok, pure_eq_ok, List.forall₂_cons_left_iff, ih]
    constructor
    · rintro ⟨y, hy, ys, hys, rfl⟩
      exact ⟨y, ys, hy, hys, rfl⟩
    · rintro ⟨y, ys, hy, hys, rfl⟩
      exact ⟨y, hy, ys, hys, rfl⟩

lemma exists_mapM_eq_ok {f : α → Except ε β} {xs : List α} :
    (∃ ys, xs.mapM f = .ok ys) ↔ ∀ x ∈ xs, ∃ y, f x = .ok y := by
  constructor
  · rintro ⟨ys, hys⟩ x hx
    obtain ⟨y, -, hy⟩ := (mapM_eq_ok hys).1 x hx
    exact ⟨y, hy⟩
  · intro h
    induction xs with
    | nil => exact ⟨[], rfl⟩
    | cons x xs ih =>
      obtain ⟨⟨y, hy⟩, hxs⟩ := List.forall_mem_cons.mp h
      obtain ⟨ys, hys⟩ := ih hxs
      exact ⟨y :: ys, by rw [List.mapM_cons, hy, hys]; rfl⟩

/-- A loop whose turns all return, from every state that an invariant holds of. -/
lemma exists_foldlM_eq_ok {σ : Type} {f : σ → α → Except ε σ} {P : σ → Prop} {xs : List α} {s : σ}
    (hstep : ∀ s, ∀ x ∈ xs, P s → ∃ s', f s x = .ok s' ∧ P s') (hs : P s) : ∃ s', xs.foldlM f s = .ok s' ∧ P s' := by
  induction xs generalizing s with
  | nil => exact ⟨s, rfl, hs⟩
  | cons x xs ih =>
    obtain ⟨s', hx, hs'⟩ := hstep s x List.mem_cons_self hs
    obtain ⟨out, hout, hinv⟩ := ih (fun s x hx => hstep s x (List.mem_cons_of_mem _ hx)) hs'
    exact ⟨out, by rw [List.foldlM_cons, hx]; exact hout, hinv⟩

/-- A loop that appends one value in each turn: what its turns relate, and an invariant of what it has collected. -/
lemma foldlM_snoc {f : List β → α → Except ε (List β)} {R : α → β → Prop} {P : List β → Prop}
    (hstep : ∀ acc x acc', P acc → f acc x = .ok acc' → ∃ y, acc' = acc ++ [y] ∧ R x y ∧ P acc')
    {xs : List α} {acc out : List β} (hacc : P acc) (h : xs.foldlM f acc = .ok out) :
    P out ∧ ∃ ys, out = acc ++ ys ∧ List.Forall₂ R xs ys := by
  induction xs generalizing acc with
  | nil =>
    simp only [List.foldlM_nil, pure_eq_ok] at h
    exact ⟨h ▸ hacc, [], by simp [h], .nil⟩
  | cons x xs ih =>
    rw [List.foldlM_cons, bind_eq_ok] at h
    obtain ⟨acc', hx, hxs⟩ := h
    obtain ⟨y, rfl, hr, hacc'⟩ := hstep acc x acc' hacc hx
    obtain ⟨hout, ys, rfl, hys⟩ := ih hacc' hxs
    exact ⟨hout, y :: ys, by simp, .cons hr hys⟩

/-- A loop that appends what it reads of each element, as long as that agrees with all that it has collected. -/
lemma foldlM_agreeing {f : List β → α → Except ε (List β)} {R : α → β → Prop} {D : β → β → Prop}
    (hstep : ∀ acc x acc', f acc x = .ok acc' ↔ ∃ y, R x y ∧ (∀ z ∈ acc, D z y) ∧ acc' = acc ++ [y])
    {xs : List α} {acc out : List β} :
    xs.foldlM f acc = .ok out ↔
      ∃ ys, out = acc ++ ys ∧ List.Forall₂ R xs ys ∧ ys.Pairwise D ∧ ∀ z ∈ acc, ∀ y ∈ ys, D z y := by
  induction xs generalizing acc with
  | nil =>
    simp only [List.foldlM_nil, pure_eq_ok]
    constructor
    · rintro rfl
      exact ⟨[], by simp, .nil, .nil, by simp⟩
    · rintro ⟨ys, rfl, hys, -⟩
      cases hys
      simp
  | cons x xs ih =>
    simp only [List.foldlM_cons, bind_eq_ok, hstep, ih]
    constructor
    · rintro ⟨_, ⟨y, hy, hfresh, rfl⟩, ys, rfl, hys, hpair, hacc⟩
      refine ⟨y :: ys, by simp, .cons hy hys, .cons (fun z hz => hacc y (by simp) z hz) hpair, fun z hz => ?_⟩
      exact List.forall_mem_cons.mpr ⟨hfresh z hz, hacc z (by simp [hz])⟩
    · rintro ⟨_, rfl, hys, hpair, hacc⟩
      cases hys with
      | @cons _ y _ ys hy hys =>
        obtain ⟨hhead, htail⟩ := List.pairwise_cons.mp hpair
        refine ⟨acc ++ [y], ⟨y, hy, fun z hz => hacc z hz y (by simp), rfl⟩, ys, by simp, hys, htail, fun z hz => ?_⟩
        rcases List.mem_append.mp hz with hz | hz
        · exact fun w hw => hacc z hz w (by simp [hw])
        · exact fun w hw => List.mem_singleton.mp hz ▸ hhead w hw

/-- Such a loop may take its elements in any order. -/
lemma foldlM_agreeing_perm {f : List β → α → Except ε (List β)} {R : α → β → Prop} {D : β → β → Prop}
    (hD : ∀ {y z}, D y z → D z y)
    (hstep : ∀ acc x acc', f acc x = .ok acc' ↔ ∃ y, R x y ∧ (∀ z ∈ acc, D z y) ∧ acc' = acc ++ [y])
    {xs xs' : List α} {ys : List β} (hperm : xs'.Perm xs) (h : xs.foldlM f [] = .ok ys) :
    ∃ ys', ys'.Perm ys ∧ xs'.foldlM f [] = .ok ys' := by
  obtain ⟨ys, rfl, hys, hpair, -⟩ := (foldlM_agreeing hstep).mp h
  obtain ⟨ys', hys', hperm'⟩ := List.perm_comp_forall₂ hperm hys
  exact ⟨ys', hperm', (foldlM_agreeing hstep).mpr ⟨ys', rfl, hys', (hperm'.pairwise_iff hD).mpr hpair, by simp⟩⟩

/-- A loop that first computes something of each element is a loop over what it computes. -/
lemma foldlM_bind_eq_ok {σ : Type} {g : α → Except ε β} {f : σ → β → Except ε σ} {xs : List α} {s s' : σ} :
    xs.foldlM (fun s x => g x >>= f s) s = .ok s' ↔ ∃ ys, xs.mapM g = .ok ys ∧ ys.foldlM f s = .ok s' := by
  induction xs generalizing s with
  | nil => simp
  | cons x xs ih =>
    simp only [List.foldlM_cons, List.mapM_cons, bind_eq_ok, pure_eq_ok, ih]
    constructor
    · rintro ⟨middle, ⟨y, hy, hf⟩, ys, hys, hrest⟩
      refine ⟨y :: ys, ⟨y, hy, ys, hys, rfl⟩, ?_⟩
      rw [List.foldlM_cons, bind_eq_ok]
      exact ⟨middle, hf, hrest⟩
    · rintro ⟨_, ⟨y, hy, ys, hys, rfl⟩, hrest⟩
      rw [List.foldlM_cons, bind_eq_ok] at hrest
      obtain ⟨middle, hf, hrest⟩ := hrest
      exact ⟨middle, ⟨y, hy, hf⟩, ys, hys, hrest⟩

lemma mapM_append_eq_ok {f : α → Except ε β} {xs ys : List α} {zs : List β} :
    (xs ++ ys).mapM f = .ok zs ↔ ∃ us vs, xs.mapM f = .ok us ∧ ys.mapM f = .ok vs ∧ zs = us ++ vs := by
  simp only [List.mapM_append, bind_eq_ok, pure_eq_ok]
  constructor
  · rintro ⟨us, hus, vs, hvs, rfl⟩
    exact ⟨us, vs, hus, hvs, rfl⟩
  · rintro ⟨us, vs, hus, hvs, rfl⟩
    exact ⟨us, hus, vs, hvs, rfl⟩

/-- What a loop finds in the elements that have something. -/
lemma filterMap_of_mapM {f : α → Except ε (Option β)} {xs : List α} {ys : List (Option β)} (h : xs.mapM f = .ok ys) :
    ys.filterMap id = xs.filterMap fun x => (f x).toOption.join := by
  have hall := mapM_eq_ok_iff.mp h
  clear h
  induction hall with
  | nil => rfl
  | @cons x y xs ys hx _ ih =>
    have hjoin : (f x).toOption.join = y := by simp [hx, Except.toOption]
    rw [List.filterMap_cons, List.filterMap_cons, hjoin, ih, id]

lemma foldlM_concat_eq_ok {σ : Type} {f : σ → α → Except ε σ} {xs : List α} {x : α} {s s' : σ} :
    (xs ++ [x]).foldlM f s = .ok s' ↔ ∃ middle, xs.foldlM f s = .ok middle ∧ f middle x = .ok s' := by
  simp [List.foldlM_append]

end PlatformGitops.Library.Fallible
