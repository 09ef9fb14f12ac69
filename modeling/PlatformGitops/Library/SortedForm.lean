import Mathlib.Data.List.Forall2
import Mathlib.Data.List.Pairwise
import Mathlib.Data.List.Sort
import Mathlib.Data.List.Perm.Basic

/-! Lists that are sorted by a key and then compared place by place: when their order does not matter. -/

namespace PlatformGitops.Library.SortedForm

variable {α κ : Type} {key : α → κ} {R : α → α → Prop} {xs ys : List α}

lemma forall₂_of_keys (hkeys : xs.map key = ys.map key) (h : ∀ a ∈ xs, ∀ b ∈ ys, key a = key b → R a b) :
    List.Forall₂ R xs ys := by
  induction xs generalizing ys with
  | nil =>
    have hys : ys = [] := List.map_eq_nil_iff.mp hkeys.symm
    rw [hys]
    exact .nil
  | cons a xs ih =>
    obtain ⟨b, ys, rfl, hkey, hrest⟩ := List.map_eq_cons_iff.mp hkeys.symm
    refine .cons (h a List.mem_cons_self b List.mem_cons_self hkey.symm) (ih hrest.symm fun c hc d hd => ?_)
    exact h c (List.mem_cons_of_mem a hc) d (List.mem_cons_of_mem b hd)

/-- Entries of one key are alike. -/
def Untied (key : α → κ) (R : α → α → Prop) (xs : List α) : Prop :=
  xs.Pairwise fun a b => key a = key b → R a b ∧ R b a

lemma Untied.alike (hrefl : ∀ a ∈ xs, R a a) (h : Untied key R xs) :
    ∀ a ∈ xs, ∀ b ∈ xs, key a = key b → R a b := by
  have hsymm : Std.Symm fun a b => key a = key b → R a b ∧ R b a :=
    ⟨fun a b hab hkey => (hab hkey.symm).symm⟩
  have hforall := List.Pairwise.forall_of_forall (fun a ha _ => ⟨hrefl a ha, hrefl a ha⟩) h
  intro a ha b hb hkey
  exact (hforall ha hb hkey).1

variable [LinearOrder κ] {k : κ}

def sortBy (key : α → κ) (xs : List α) : List α := xs.insertionSort fun a b => key a ≤ key b

lemma perm_sortBy : (sortBy key xs).Perm xs := List.perm_insertionSort _ xs

lemma map_key_sortBy : (sortBy key xs).map key = (xs.map key).insertionSort (· ≤ ·) :=
  List.map_insertionSort _ _ key xs fun _ _ _ _ => Iff.rfl

lemma keys_sortBy (h : (xs.map key).Perm (ys.map key)) : (sortBy key xs).map key = (sortBy key ys).map key := by
  rw [map_key_sortBy, map_key_sortBy]
  have hsorted := fun l : List κ => List.pairwise_insertionSort (· ≤ ·) l
  refine List.Perm.eq_of_pairwise' (hsorted _) (hsorted _) ?_
  exact (List.perm_insertionSort _ _).trans (h.trans (List.perm_insertionSort _ _).symm)

lemma sortBy_cons (a : α) (xs : List α) :
    sortBy key (a :: xs) = (sortBy key xs).orderedInsert (fun a b => key a ≤ key b) a := rfl

lemma filter_orderedInsert (a : α) (xs : List α) :
    (xs.orderedInsert (fun a b => key a ≤ key b) a).filter (key · = k) =
      if key a = k then a :: xs.filter (key · = k) else xs.filter (key · = k) := by
  induction xs with
  | nil => by_cases h : key a = k <;> simp [h]
  | cons b xs ih =>
    rw [List.orderedInsert_cons]
    by_cases hle : key a ≤ key b
    · rw [if_pos hle, List.filter_cons]
      simp only [decide_eq_true_eq]
    · rw [if_neg hle, List.filter_cons, ih, List.filter_cons]
      by_cases ha : key a = k
      · have hb : ¬key b = k := fun hb => hle (ha.trans hb.symm).le
        simp [ha, hb]
      · simp [ha]

/-- The entries of one key stay in their order. -/
lemma filter_sortBy (xs : List α) : (sortBy key xs).filter (key · = k) = xs.filter (key · = k) := by
  induction xs with
  | nil => rfl
  | cons a xs ih =>
    rw [sortBy_cons, filter_orderedInsert, ih, List.filter_cons]
    simp only [decide_eq_true_eq]

/-- Sorted lists of the same entries, up to changes that neither the key nor the relation sees, are alike. -/
lemma Untied.sortBy_alike {mid : List α} (hrefl : ∀ a ∈ xs, R a a) (h : Untied key R xs)
    (hmid : List.Forall₂ (fun a b => key a = key b ∧ ∀ c, R c a → R c b) xs mid) (hperm : mid.Perm ys) :
    List.Forall₂ R (sortBy key xs) (sortBy key ys) := by
  have hkeys : xs.map key = mid.map key ∧ ∀ b ∈ mid, ∃ a ∈ xs, key a = key b ∧ ∀ c, R c a → R c b := by
    clear h hperm hrefl
    induction hmid with
    | nil => simp
    | @cons a b xs mid hab _ ih =>
      refine ⟨by rw [List.map_cons, List.map_cons, hab.1, ih.1], List.forall_mem_cons.mpr ⟨⟨a, List.mem_cons_self, hab⟩, ?_⟩⟩
      intro c hc
      obtain ⟨d, hd, hdc⟩ := ih.2 c hc
      exact ⟨d, List.mem_cons_of_mem a hd, hdc⟩
  refine forall₂_of_keys (keys_sortBy (hkeys.1 ▸ hperm.map key)) fun a ha b hb hkey => ?_
  obtain ⟨c, hc, hcb, hsame⟩ := hkeys.2 b (hperm.mem_iff.mpr (perm_sortBy.mem_iff.mp hb))
  exact hsame a (h.alike hrefl a (perm_sortBy.mem_iff.mp ha) c hc (hkey.trans hcb.symm))

lemma forall₂_filter (hkeys : xs.map key = ys.map key) (h : List.Forall₂ R xs ys) :
    List.Forall₂ R (xs.filter (key · = k)) (ys.filter (key · = k)) := by
  induction h with
  | nil => exact .nil
  | @cons a b xs ys hab _ ih =>
    obtain ⟨hkey, hrest⟩ := List.cons.inj hkeys
    rw [List.filter_cons, List.filter_cons, hkey]
    split
    · exact .cons hab (ih hrest)
    · exact ih hrest

lemma forall₂_swap {before between after : List α} {a b : α}
    (h : List.Forall₂ R (before ++ a :: (between ++ b :: after)) (before ++ b :: (between ++ a :: after))) :
    R a b ∧ R b a := by
  have hfirst := List.forall₂_drop before.length h
  rw [List.drop_left, List.drop_left] at hfirst
  cases hfirst with
  | cons hab hrest =>
    have hsecond := List.forall₂_drop between.length hrest
    rw [List.drop_left, List.drop_left] at hsecond
    cases hsecond with
    | cons hba _ => exact ⟨hab, hba⟩

/-- A list whose order does not matter has no two entries of one key that are not alike. -/
lemma untied_of_alike (h : ∀ ys, xs.Perm ys → List.Forall₂ R (sortBy key xs) (sortBy key ys)) : Untied key R xs := by
  rw [Untied, List.pairwise_iff_forall_sublist]
  intro a b hsub hkey
  have hgroup := hsub.filter (key · = key b)
  rw [List.filter_cons_of_pos (by simpa using hkey), List.filter_cons_of_pos (by simp), List.filter_nil] at hgroup
  obtain ⟨front, back, heq, ha, hb⟩ := List.cons_sublist_iff.mp hgroup
  obtain ⟨before, mid, rfl⟩ := List.append_of_mem ha
  obtain ⟨mid', after, rfl⟩ := List.append_of_mem (List.singleton_sublist.mp hb)
  have hxs : xs.filter (key · = key b) = before ++ a :: ((mid ++ mid') ++ b :: after) := by simpa using heq
  have hswap : (before ++ a :: ((mid ++ mid') ++ b :: after)).Perm (before ++ b :: ((mid ++ mid') ++ a :: after)) :=
    List.Perm.append_left before ((List.perm_middle.cons a).trans ((List.Perm.swap b a _).trans
      (List.perm_middle.symm.cons b)))
  have hperm : xs.Perm (before ++ b :: ((mid ++ mid') ++ a :: after) ++ xs.filter fun c => !decide (key c = key b)) :=
    (List.filter_append_perm (key · = key b) xs).symm.trans ((hxs ▸ hswap).append_right _)
  have hother : (xs.filter fun c => !decide (key c = key b)).filter (key · = key b) = [] := by
    rw [List.filter_filter, List.filter_eq_nil_iff]
    simp
  have hgroup' : (before ++ b :: ((mid ++ mid') ++ a :: after)).filter (key · = key b) =
      before ++ b :: ((mid ++ mid') ++ a :: after) := by
    refine List.filter_eq_self.mpr fun c hc => ?_
    have hmem : c ∈ xs.filter (key · = key b) := by
      rw [hxs]
      exact hswap.mem_iff.mpr hc
    exact (List.mem_filter.mp hmem).2
  have halike := forall₂_filter (k := key b) (keys_sortBy (hperm.map key)) (h _ hperm)
  rw [filter_sortBy, filter_sortBy, List.filter_append, hother, List.append_nil, hgroup', hxs] at halike
  exact forall₂_swap halike

end PlatformGitops.Library.SortedForm

/-! Lists of elements that a relation pairs, place by place or in any order. -/

namespace PlatformGitops.Library

section Pairs

variable {α β γ : Type} {R : α → β → Prop} {S : β → γ → Prop} {T : α → γ → Prop} {xs : List α} {ys : List β}

lemma forall₂_comp {zs : List γ} (hxy : List.Forall₂ R xs ys) (hyz : List.Forall₂ S ys zs)
    (hcomp : ∀ x y z, R x y → S y z → T x z) : List.Forall₂ T xs zs := by
  induction hxy generalizing zs with
  | nil =>
    cases hyz
    exact .nil
  | cons hr _ ih =>
    cases hyz with
    | cons hs hyz => exact .cons (hcomp _ _ _ hr hs) (ih hyz)

lemma forall_mem_of_forall₂ {P : α → Prop} (h : List.Forall₂ R xs ys) (hp : ∀ x y, R x y → P x) : ∀ x ∈ xs, P x := by
  induction h with
  | nil => exact List.forall_mem_nil P
  | cons hr _ ih => exact List.forall_mem_cons.mpr ⟨hp _ _ hr, ih⟩

end Pairs

/-- The same elements up to a relation, in any order. -/
def Rearranged {α β : Type} (R : α → β → Prop) (xs : List α) (ys : List β) : Prop :=
  ∃ mid, List.Forall₂ R xs mid ∧ mid.Perm ys

/-- Lists of which the same is read, in whatever order, are alike in all that is read. -/
lemma Rearranged.of_read {α β : Type} {R R' : α → β → Prop} {S : α → α → Prop} {xs ys : List α} {as bs : List β}
    (hxs : List.Forall₂ R xs as) (hys : List.Forall₂ R' ys bs) (hperm : as.Perm bs)
    (hread : ∀ x a y, R x a → R' y a → S x y) : Rearranged S xs ys := by
  obtain ⟨mid, hmid, hys⟩ := List.perm_comp_forall₂ hperm (List.Forall₂.flip (R := flip R') hys)
  exact ⟨mid, forall₂_comp hxs hmid hread, hys⟩

end PlatformGitops.Library
