import Mathlib.Data.List.Induction
import Mathlib.Tactic.Common

/-! Dictionaries that keep the order in which their keys came. -/

namespace PlatformGitops.Library

variable {κ α : Type} [DecidableEq κ]

abbrev Dict (κ α : Type) := List (κ × α)

namespace Dict

/-- The value of a key, by the equality of the keys. -/
abbrev get? (d : Dict κ α) (key : κ) : Option α := d.lookup key

/-- The value under a key; a key that is there keeps its place. -/
def set : Dict κ α → κ → α → Dict κ α
  | [], key, a => [(key, a)]
  | (k, b) :: rest, key, a => if k = key then (key, a) :: rest else (k, b) :: set rest key a

variable {d : Dict κ α} {key : κ} {a : α}

lemma lookup_set (other : κ) : (d.set key a).lookup other = if other = key then some a else d.lookup other := by
  induction d with
  | nil => by_cases h : other = key <;> simp [set, h]
  | cons p d ih =>
    obtain ⟨k, b⟩ := p
    by_cases hk : k = key
    · subst hk
      by_cases h : other = k
      · simp [set, h]
      · have hbeq : (other == k) = false := by simpa using h
        simp [set, List.lookup_cons, hbeq, h]
    · by_cases h : other = k
      · subst h
        simp [set, hk]
      · have hbeq : (other == k) = false := by simpa using h
        simp [set, hk, List.lookup_cons, hbeq, ih]

lemma get?_cons (other : κ) : get? ((key, a) :: d) other = if other = key then some a else d.get? other := by
  rw [get?, List.lookup_cons]
  by_cases h : other = key
  · simp [h]
  · have hbeq : (other == key) = false := by simpa using h
    simp [hbeq, h]

lemma isSome_get? : (d.get? key).isSome = true ↔ key ∈ d.map (·.1) := by
  induction d with
  | nil => simp [get?]
  | cons p d ih =>
    rw [get?, List.lookup_cons, List.map_cons, List.mem_cons]
    by_cases h : key = p.1
    · simp [h]
    · have hbeq : (key == p.1) = false := by simpa using h
      simp only [hbeq, ih, h, false_or]

lemma set_eq_self (h : d.lookup key = some a) : d.set key a = d := by
  induction d with
  | nil => cases h
  | cons p d ih =>
    obtain ⟨k, b⟩ := p
    by_cases hk : k = key
    · subst hk
      simp only [List.lookup_cons, beq_self_eq_true, Option.some.injEq] at h
      simp [set, h]
    · have hbeq : (key == k) = false := by simpa using Ne.symm hk
      rw [List.lookup_cons, hbeq] at h
      simp [set, hk, ih h]

lemma set_of_not_mem (h : key ∉ d.map (·.1)) : d.set key a = d ++ [(key, a)] := by
  induction d with
  | nil => rfl
  | cons p d ih =>
    rw [List.map_cons, List.mem_cons, not_or] at h
    rw [set, if_neg (Ne.symm h.1), ih h.2, List.cons_append]

lemma set_eq_self_iff : d.set key a = d ↔ d.lookup key = some a := by
  refine ⟨fun h => ?_, set_eq_self⟩
  rw [← h, lookup_set, if_pos rfl]

lemma forall_set {P : κ × α → Prop} (h : ∀ p ∈ d, P p) (hp : P (key, a)) : ∀ p ∈ d.set key a, P p := by
  induction d with
  | nil => simpa [set] using hp
  | cons q d ih =>
    obtain ⟨hq, hd⟩ := List.forall_mem_cons.mp h
    unfold set
    split
    · exact List.forall_mem_cons.mpr ⟨hp, hd⟩
    · exact List.forall_mem_cons.mpr ⟨hq, ih hd⟩

section Map

variable {β : Type} (f : α → β)

lemma set_map : Dict.set (d.map fun p => (p.1, f p.2)) key (f a) = (d.set key a).map fun p => (p.1, f p.2) := by
  induction d with
  | nil => rfl
  | cons q d ih =>
    rw [List.map_cons, set, set]
    split
    · rw [List.map_cons]
    · rw [List.map_cons, ih]

lemma lookup_map (other : κ) : List.lookup other (d.map fun p => (p.1, f p.2)) = (d.lookup other).map f := by
  induction d with
  | nil => rfl
  | cons q d ih =>
    rw [List.map_cons, List.lookup_cons, List.lookup_cons, ih]
    cases other == q.1 <;> rfl

end Map

/-- The dictionary of some pairs: of one key the last. -/
def ofPairs (pairs : List (κ × α)) : Dict κ α := pairs.foldl (fun d p => d.set p.1 p.2) []

lemma ofPairs_of_nodup {pairs : List (κ × α)} (h : (pairs.map (·.1)).Nodup) : ofPairs pairs = pairs := by
  have hfold : ∀ {rest : List (κ × α)} {d : Dict κ α}, ((d ++ rest).map (·.1)).Nodup →
      rest.foldl (fun d p => d.set p.1 p.2) d = d ++ rest := by
    intro rest
    induction rest with
    | nil => simp
    | cons p rest ih =>
      intro d hnodup
      have hfresh : p.1 ∉ d.map (·.1) := by
        rw [List.map_append, List.map_cons, List.nodup_append] at hnodup
        exact fun hmem => hnodup.2.2 _ hmem _ List.mem_cons_self rfl
      rw [List.foldl_cons, set_of_not_mem hfresh, ih (by simpa using hnodup)]
      simp
  exact hfold (by simpa using h)

lemma mem_of_lookup_ofPairs {pairs : List (κ × α)} (h : (ofPairs pairs).lookup key = some a) : (key, a) ∈ pairs := by
  have hfold : ∀ {rest : List (κ × α)} {d : Dict κ α}, (rest.foldl (fun d p => d.set p.1 p.2) d).lookup key = some a →
      (key, a) ∈ rest ∨ d.lookup key = some a := by
    intro rest
    induction rest with
    | nil => exact fun h => Or.inr h
    | cons p rest ih =>
      intro d h
      rcases ih h with hmem | hset
      · exact Or.inl (List.mem_cons_of_mem _ hmem)
      · rw [lookup_set] at hset
        split at hset
        · rename_i hkey
          exact Or.inl (by rw [hkey, ← Option.some.inj hset]; exact List.mem_cons_self)
        · exact Or.inr hset
  exact (hfold h).resolve_right nofun

lemma lookup_ofPairs (pairs : List (κ × α)) :
    (ofPairs pairs).lookup key = ((pairs.filter (·.1 = key)).getLast?).map (·.2) := by
  induction pairs using List.reverseRecOn with
  | nil => rfl
  | append_singleton pairs p ih =>
    have hset : ofPairs (pairs ++ [p]) = (ofPairs pairs).set p.1 p.2 := by
      rw [ofPairs, List.foldl_append]
      rfl
    rw [hset, lookup_set, ih, List.filter_append]
    by_cases h : p.1 = key
    · rw [if_pos h.symm, List.filter_cons_of_pos (by simpa using h), List.filter_nil, List.getLast?_concat, Option.map_some]
    · rw [if_neg (Ne.symm h), List.filter_cons_of_neg (by simpa using h), List.filter_nil, List.append_nil]

/-- Every value is the one its key is looked up to. -/
def Unique (d : Dict κ α) : Prop := (d.map (·.1)).Nodup

lemma mem_keys_set {other : κ} : other ∈ (d.set key a).map (·.1) ↔ other = key ∨ other ∈ d.map (·.1) := by
  induction d with
  | nil => simp [set]
  | cons p d ih =>
    obtain ⟨k, b⟩ := p
    by_cases hk : k = key
    · subst hk
      simp [set]
    · simp only [set, hk, if_false, List.map_cons, List.mem_cons, ih]
      tauto

lemma mem_keys_ofPairs {pairs : List (κ × α)} : key ∈ (ofPairs pairs).map (·.1) ↔ key ∈ pairs.map (·.1) := by
  have hfold : ∀ {rest : List (κ × α)} {d : Dict κ α},
      key ∈ (rest.foldl (fun d p => d.set p.1 p.2) d).map (·.1) ↔ key ∈ rest.map (·.1) ∨ key ∈ d.map (·.1) := by
    intro rest
    induction rest with
    | nil => simp
    | cons p rest ih =>
      intro d
      rw [List.foldl_cons, ih, mem_keys_set, List.map_cons, List.mem_cons]
      tauto
  have hpairs : key ∈ (ofPairs pairs).map (·.1) ↔ key ∈ pairs.map (·.1) ∨ key ∈ ([] : Dict κ α).map (·.1) := hfold
  simpa using hpairs

lemma Unique.set (h : d.Unique) : (d.set key a).Unique := by
  induction d with
  | nil => simp [Dict.set, Unique]
  | cons p d ih =>
    obtain ⟨k, b⟩ := p
    rw [Unique, List.map_cons, List.nodup_cons] at h
    by_cases hk : k = key
    · subst hk
      simpa [Dict.set, Unique] using h
    · have hrest := ih h.2
      rw [Dict.set, if_neg hk, Unique, List.map_cons, List.nodup_cons, mem_keys_set]
      exact ⟨by tauto, hrest⟩

lemma Unique.mem_iff (h : d.Unique) : (key, a) ∈ d ↔ d.lookup key = some a := by
  induction d with
  | nil => simp
  | cons p d ih =>
    obtain ⟨k, b⟩ := p
    rw [Unique, List.map_cons, List.nodup_cons] at h
    by_cases hk : key = k
    · subst hk
      have hfresh : (key, a) ∉ d := fun hmem => h.1 (List.mem_map.mpr ⟨_, hmem, rfl⟩)
      simp [hfresh, eq_comm]
    · have hbeq : (key == k) = false := by simpa using hk
      rw [List.mem_cons, List.lookup_cons, hbeq, ← ih h.2]
      simp [hk]

end Dict

end PlatformGitops.Library
