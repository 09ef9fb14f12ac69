import Mathlib.Data.List.Nodup
import Mathlib.Tactic.Common

/-! Relational tables: a primary key, and constraints that every stored content meets. A statement
that would break one of them is refused, so a table in hand is always a consistent one. -/

namespace PlatformGitops.Library

variable {α κ : Type}

/-- A unique index: no two rows share a value of `f`, rows without one apart. -/
def UniqueOn {β : Type} (f : α → Option β) (rows : List α) : Prop := (rows.filterMap f).Nodup

instance {β : Type} [DecidableEq β] (f : α → Option β) (rows : List α) : Decidable (UniqueOn f rows) :=
  inferInstanceAs (Decidable (rows.filterMap f).Nodup)

lemma UniqueOn.eq {β : Type} {f : α → Option β} {rows : List α} (h : UniqueOn f rows) {r s : α}
    (hr : r ∈ rows) (hs : s ∈ rows) {b : β} (hrb : f r = some b) (hsb : f s = some b) : r = s := by
  induction rows with
  | nil => simp at hr
  | cons t rows ih =>
    have hn : UniqueOn f rows := by
      cases ht : f t with
      | none => simpa [UniqueOn, List.filterMap_cons, ht] using h
      | some c => exact (List.nodup_cons.mp (by simpa [UniqueOn, List.filterMap_cons, ht] using h)).2
    have hout : f t = some b → b ∉ rows.filterMap f := by
      intro ht
      exact (List.nodup_cons.mp (by simpa [UniqueOn, List.filterMap_cons, ht] using h)).1
    rcases List.mem_cons.mp hr with rfl | hr' <;> rcases List.mem_cons.mp hs with rfl | hs'
    · rfl
    · exact (hout hrb (List.mem_filterMap.mpr ⟨s, hs', hsb⟩)).elim
    · exact (hout hsb (List.mem_filterMap.mpr ⟨r, hr', hrb⟩)).elim
    · exact ih hn hr' hs'

/-- An update that keeps the value of the index keeps the index. -/
lemma UniqueOn.map {β : Type} {f : α → Option β} {g : α → α} {rows : List α} (hg : ∀ r, f (g r) = f r)
    (h : UniqueOn f rows) : UniqueOn f (rows.map g) := by
  have hsame : f ∘ g = f := funext hg
  rw [UniqueOn, List.filterMap_map, hsame]
  exact h

structure Table (key : α → κ) (Valid : List α → Prop) where
  rows : List α
  primary : (rows.map key).Nodup
  valid : Valid rows

namespace Table

variable [DecidableEq κ] {key : α → κ} {Valid : List α → Prop}

def find? (t : Table key Valid) (k : κ) : Option α :=
  t.rows.find? (fun r => key r = k)

def insert? [DecidablePred Valid] (t : Table key Valid) (row : α) : Option (Table key Valid) :=
  if h : ((t.rows ++ [row]).map key).Nodup ∧ Valid (t.rows ++ [row]) then
    some ⟨t.rows ++ [row], h.1, h.2⟩
  else none

def setRow (key : α → κ) (k : κ) (f : α → α) (row : α) : α := if key row = k then f row else row

lemma map_setRow (k : κ) (f : α → α) (hf : ∀ r, key (f r) = key r) (rows : List α) :
    (rows.map (setRow key k f)).map key = rows.map key := by
  rw [List.map_map]
  refine List.map_congr_left fun r _ => ?_
  by_cases h : key r = k <;> simp [setRow, h, hf]

def modify? [DecidablePred Valid] (t : Table key Valid) (k : κ) (f : α → α)
    (hf : ∀ r, key (f r) = key r := by intro r; rfl) : Option (Table key Valid) :=
  if h : Valid (t.rows.map (setRow key k f)) then
    some ⟨t.rows.map (setRow key k f), by rw [map_setRow k f hf]; exact t.primary, h⟩
  else none

/-- An update guarded by a condition on the row, with the number of rows it changed. -/
def modifyWhere? [DecidablePred Valid] (t : Table key Valid) (k : κ) (p : α → Prop) [DecidablePred p]
    (f : α → α) (hf : ∀ r, key (f r) = key r := by intro r; rfl) : Option (Table key Valid × Nat) :=
  match t.find? k with
  | some r => if p r then (t.modify? k f hf).map (·, 1) else some (t, 0)
  | none => some (t, 0)

lemma find?_key {t : Table key Valid} {k : κ} {r : α} (h : t.find? k = some r) : key r = k := by
  simpa using List.find?_some h

lemma find?_mem {t : Table key Valid} {k : κ} {r : α} (h : t.find? k = some r) : r ∈ t.rows :=
  List.mem_of_find?_eq_some h

lemma find?_rows {rows : List α} (hn : (rows.map key).Nodup) {r : α} (hr : r ∈ rows) :
    rows.find? (fun s => key s = key r) = some r := by
  induction rows with
  | nil => simp at hr
  | cons s rows ih =>
    rw [List.map_cons, List.nodup_cons] at hn
    rcases List.mem_cons.mp hr with rfl | hr
    · simp
    · have hs : key s ≠ key r := fun he => hn.1 (he ▸ List.mem_map_of_mem hr)
      simpa [hs] using ih hn.2 hr

lemma filter_rows {rows : List α} (hn : (rows.map key).Nodup) {r : α} (hr : r ∈ rows) :
    rows.filter (fun s => key s = key r) = [r] := by
  induction rows with
  | nil => simp at hr
  | cons s rows ih =>
    rw [List.map_cons, List.nodup_cons] at hn
    rcases List.mem_cons.mp hr with rfl | hr
    · have hnone : rows.filter (fun s => key s = key r) = [] := by
        refine List.filter_eq_nil_iff.mpr fun s hs he => hn.1 ?_
        exact (of_decide_eq_true he) ▸ List.mem_map_of_mem hs
      simp [hnone]
    · have hs : key s ≠ key r := fun he => hn.1 (he ▸ List.mem_map_of_mem hr)
      simpa [hs] using ih hn.2 hr

lemma mem_iff_find? {t : Table key Valid} {r : α} : r ∈ t.rows ↔ t.find? (key r) = some r :=
  ⟨find?_rows t.primary, find?_mem⟩

variable [DecidablePred Valid]

lemma rows_insert? {t t' : Table key Valid} {row : α} (h : t.insert? row = some t') :
    t'.rows = t.rows ++ [row] := by
  unfold insert? at h
  split at h
  · exact (Option.some.inj h) ▸ rfl
  · cases h

lemma insert?_fresh {t t' : Table key Valid} {row : α} (h : t.insert? row = some t') :
    t.find? (key row) = none := by
  unfold insert? at h
  split at h
  · next hv =>
    rw [List.map_append, List.nodup_append] at hv
    rw [find?, List.find?_eq_none]
    intro r hr he
    exact hv.1.2.2 _ (List.mem_map_of_mem hr) (key row) (by simp) (by simpa using he)
  · cases h

lemma find?_insert? {t t' : Table key Valid} {row : α} (h : t.insert? row = some t') (k : κ) :
    t'.find? k = if k = key row then some row else t.find? k := by
  have hfresh := insert?_fresh h
  rw [find?, rows_insert? h, List.find?_append]
  by_cases hk : k = key row
  · subst hk
    change (t.find? (key row)).or _ = _
    simp [hfresh]
  · change (t.find? k).or _ = _
    simp [hk, Ne.symm hk]

lemma rows_modify? {t t' : Table key Valid} {k : κ} {f : α → α} {hf : ∀ r, key (f r) = key r}
    (h : t.modify? k f hf = some t') : t'.rows = t.rows.map (setRow key k f) := by
  unfold modify? at h
  split at h
  · exact (Option.some.inj h) ▸ rfl
  · cases h

lemma setRow_eq {β : Type} {g : α → β} {f : α → α} (hg : ∀ r, g (f r) = g r) (k : κ) (r : α) :
    g (setRow key k f r) = g r := by
  rw [setRow]
  split
  · exact hg r
  · rfl

lemma find?_setRow (k : κ) (f : α → α) (hf : ∀ r, key (f r) = key r) (rows : List α) (j : κ) :
    (rows.map (setRow key k f)).find? (fun r => key r = j) =
      if j = k then (rows.find? (fun r => key r = k)).map f else rows.find? (fun r => key r = j) := by
  induction rows with
  | nil => simp
  | cons r rows ih =>
    by_cases hr : key r = k
    · by_cases hj : j = k
      · subst hj; simp [setRow, hr, hf]
      · have hkj : k ≠ j := Ne.symm hj
        simpa [setRow, hr, hf, hj, hkj] using ih
    · by_cases hj : j = k
      · subst hj; simpa [setRow, hr] using ih
      · by_cases hrj : key r = j
        · simp [setRow, hrj, hj]
        · simpa [setRow, hr, hrj, hj] using ih

lemma find?_modify? {t t' : Table key Valid} {k : κ} {f : α → α} {hf : ∀ r, key (f r) = key r}
    (h : t.modify? k f hf = some t') (j : κ) :
    t'.find? j = if j = k then (t.find? k).map f else t.find? j := by
  rw [find?, rows_modify? h, find?_setRow k f hf]
  rfl

lemma modifyWhere?_eq_some {t : Table key Valid} {k : κ} {p : α → Prop} [DecidablePred p] {f : α → α}
    {hf : ∀ r, key (f r) = key r} {r : α} (hr : t.find? k = some r) (hp : p r) {t' : Table key Valid}
    {n : Nat} : t.modifyWhere? k p f hf = some (t', n) ↔ t.modify? k f hf = some t' ∧ n = 1 := by
  simp only [modifyWhere?, hr, if_pos hp, Option.map_eq_some_iff, Prod.mk.injEq]
  constructor
  · rintro ⟨u, hu, rfl, rfl⟩
    exact ⟨hu, rfl⟩
  · rintro ⟨hu, rfl⟩
    exact ⟨t', hu, rfl, rfl⟩

lemma find?_modifyWhere? {t : Table key Valid} {k : κ} {p : α → Prop} [DecidablePred p] {f : α → α}
    {hf : ∀ r, key (f r) = key r} {r : α} (hr : t.find? k = some r) (hp : p r) {t' : Table key Valid}
    {n : Nat} (h : t.modifyWhere? k p f hf = some (t', n)) (j : κ) :
    t'.find? j = if j = k then some (f r) else t.find? j := by
  rw [find?_modify? ((modifyWhere?_eq_some hr hp).mp h).1 j, hr]
  rfl

end Table

end PlatformGitops.Library
