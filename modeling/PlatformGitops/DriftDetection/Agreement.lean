import PlatformGitops.DriftDetection.DeployNormalizer

/-! When a recursive diff is empty: a relation between the two values alone, read off their fields and items. -/

namespace PlatformGitops.DriftDetection

open Library
open Coordination (truthy orElse)

variable {X : Externals} {path : String} {fields liveFields : Fields} {items liveItems : List Json} {a b : Json}

/-- The diff of the two values is empty, at whichever path. -/
def Agrees (X : Externals) (a b : Json) : Prop := ∀ path, diffRecursive X path a b = []

section Emptiness

lemma inKeyOrder_eq_nil {diffs : List (String × List Difference)} : inKeyOrder diffs = [] ↔ ∀ d ∈ diffs, d.2 = [] := by
  rw [inKeyOrder, List.flatMap_eq_nil_iff]
  exact forall_congr' fun d => imp_congr_left SortedForm.perm_sortBy.mem_iff

lemma get_obj (fields : Fields) (key : String) : (Json.obj fields).get key = (fields.lookup key).getD .null := rfl

lemma lookup_isSome (key : String) : key ∈ fields.map (·.1) ↔ (fields.lookup key).isSome := by
  induction fields with
  | nil => simp
  | cons p fields ih =>
    rw [List.map_cons, List.mem_cons, List.lookup_cons, ih]
    by_cases h : key = p.1
    · simp [h]
    · simp [h, beq_false_of_ne h]

lemma diffFields_eq_nil {seen : List String} :
    (∀ d ∈ diffFields X path liveFields seen fields, d.2 = []) ↔
      ∀ key value, key ∉ seen → fields.lookup key = some value →
        diffRecursive X (subPath path key) value ((Json.obj liveFields).get key) = [] := by
  induction fields generalizing seen with
  | nil => simp [diffFields]
  | cons p fields ih =>
    obtain ⟨k, v⟩ := p
    rw [diffFields]
    by_cases hseen : k ∈ seen
    · rw [if_pos hseen, ih]
      refine forall_congr' fun key => forall_congr' fun value => forall_congr' fun hkey => ?_
      have hne : key ≠ k := fun h => hkey (h ▸ hseen)
      rw [List.lookup_cons, beq_false_of_ne hne]
    · rw [if_neg hseen, List.forall_mem_cons, ih]
      constructor
      · rintro ⟨hfirst, hrest⟩ key value hkey hlookup
        rw [List.lookup_cons] at hlookup
        by_cases hk : key = k
        · subst hk
          rw [beq_self_eq_true] at hlookup
          cases hlookup
          exact hfirst
        · rw [beq_false_of_ne hk] at hlookup
          exact hrest key value (by simp [hk, hkey]) hlookup
      · intro h
        refine ⟨h k v hseen (by simp), fun key value hkey hlookup => ?_⟩
        obtain ⟨hk, hkey⟩ : key ≠ k ∧ key ∉ seen := by simpa using hkey
        exact h key value hkey (by rw [List.lookup_cons, beq_false_of_ne hk]; exact hlookup)

lemma liveOnly_eq_nil {seen : List String} :
    (∀ d ∈ liveOnly X path fields seen liveFields, d.2 = []) ↔
      ∀ key value, key ∉ seen → fields.lookup key = none → liveFields.lookup key = some value →
        diffScalars X (subPath path key) .null value = [] := by
  induction liveFields generalizing seen with
  | nil => simp [liveOnly]
  | cons p liveFields ih =>
    obtain ⟨k, v⟩ := p
    rw [liveOnly]
    by_cases hseen : k ∈ seen ∨ k ∈ fields.map (·.1)
    · rw [if_pos hseen, ih]
      refine forall_congr' fun key => forall_congr' fun value => forall_congr' fun hkey => forall_congr' fun hnone => ?_
      have hne : key ≠ k := by
        rintro rfl
        rw [lookup_isSome, hnone] at hseen
        exact hseen.elim hkey (by simp)
      rw [List.lookup_cons, beq_false_of_ne hne]
    · rw [if_neg hseen, List.forall_mem_cons, ih]
      obtain ⟨hseen, hfields⟩ := not_or.mp hseen
      constructor
      · rintro ⟨hfirst, hrest⟩ key value hkey hnone hlookup
        rw [List.lookup_cons] at hlookup
        by_cases hk : key = k
        · subst hk
          rw [beq_self_eq_true] at hlookup
          cases hlookup
          exact hfirst
        · rw [beq_false_of_ne hk] at hlookup
          exact hrest key value (by simp [hk, hkey]) hnone hlookup
      · intro h
        refine ⟨h k v hseen ?_ (by simp), fun key value hkey hnone hlookup => ?_⟩
        · rw [lookup_isSome] at hfields
          exact Option.not_isSome_iff_eq_none.mp hfields
        · obtain ⟨hk, hkey⟩ : key ≠ k ∧ key ∉ seen := by simpa using hkey
          exact h key value hkey hnone (by rw [List.lookup_cons, beq_false_of_ne hk]; exact hlookup)

lemma diff_null (value : Json) : diffRecursive X path .null value = diffScalars X path .null value := by
  cases value <;> rw [diffRecursive] <;> simp

/-- Two mappings have no difference exactly if they have none at any key. -/
lemma diff_obj_eq_nil :
    diffRecursive X path (.obj fields) (.obj liveFields) = [] ↔
      ∀ key, diffRecursive X (subPath path key) ((Json.obj fields).get key) ((Json.obj liveFields).get key) = [] := by
  rw [diffRecursive, inKeyOrder_eq_nil, List.forall_mem_append, diffFields_eq_nil, liveOnly_eq_nil]
  constructor
  · rintro ⟨hfields, hlive⟩ key
    cases hlookup : fields.lookup key with
    | some value =>
      rw [get_obj fields, hlookup]
      exact hfields key value (by simp) hlookup
    | none =>
      rw [get_obj fields, get_obj liveFields, hlookup, Option.getD_none, diff_null]
      cases hvalue : liveFields.lookup key with
      | none => simp [diffScalars, isEmpty]
      | some value => exact hlive key value (by simp) hlookup hvalue
  · intro h
    refine ⟨fun key value _ hlookup => ?_, fun key value _ hnone hlookup => ?_⟩
    · have hkey := h key
      rwa [get_obj fields, hlookup] at hkey
    · have hkey := h key
      rwa [get_obj fields, get_obj liveFields, hnone, hlookup, Option.getD_none, Option.getD_some, diff_null] at hkey

end Emptiness

section Paths

lemma diffScalars_path (q : String) (h : diffScalars X path a b = []) : diffScalars X q a b = [] := by
  unfold diffScalars at h ⊢
  split at h
  · rename_i hsame
    exact if_pos hsame
  · cases h

lemma liveOnly_path {seen : List String} (q : String) (h : ∀ d ∈ liveOnly X path fields seen liveFields, d.2 = []) :
    ∀ d ∈ liveOnly X q fields seen liveFields, d.2 = [] := by
  rw [liveOnly_eq_nil] at h ⊢
  exact fun key value hkey hnone hlookup => diffScalars_path _ (h key value hkey hnone hlookup)

mutual

lemma diff_path : (a b : Json) → ∀ p q, diffRecursive X p a b = [] → diffRecursive X q a b = []
  | .obj fields, .obj liveFields => fun p q h => by
    rw [diffRecursive, inKeyOrder_eq_nil, List.forall_mem_append] at h ⊢
    exact ⟨diffFields_path fields liveFields [] p q h.1, liveOnly_path q h.2⟩
  | .list items, .list liveItems => fun p q h => by
    rw [diffRecursive] at h ⊢
    split at h
    · cases h
    · rename_i hlength
      rw [if_neg hlength]
      exact diffItems_path items liveItems 0 p q h
  | .obj _, .null | .obj _, .bool _ | .obj _, .int _ | .obj _, .float _ | .obj _, .str _ | .obj _, .list _ =>
    fun p q h => by
    rw [diffRecursive] at h ⊢ <;> first | exact diffScalars_path q h | simp
  | .list _, .null | .list _, .bool _ | .list _, .int _ | .list _, .float _ | .list _, .str _ | .list _, .obj _ =>
    fun p q h => by
    rw [diffRecursive] at h ⊢ <;> first | exact diffScalars_path q h | simp
  | .null, _ | .bool _, _ | .int _, _ | .float _, _ | .str _, _ => fun p q h => by
    rw [diffRecursive] at h ⊢ <;> first | exact diffScalars_path q h | simp

lemma diffItems_path : (items liveItems : List Json) →
    ∀ i p q, diffItems X p i items liveItems = [] → diffItems X q i items liveItems = []
  | [], _ => fun i p q _ => by rw [diffItems]; simp
  | desired :: items, [] => fun i p q _ => by rw [diffItems]; simp
  | desired :: items, live :: liveItems => fun i p q h => by
    rw [diffItems, List.append_eq_nil_iff] at h ⊢
    exact ⟨diff_path desired live _ _ h.1, diffItems_path items liveItems (i + 1) p q h.2⟩

lemma diffFields_path : (fields liveFields : Fields) → ∀ seen p q,
    (∀ d ∈ diffFields X p liveFields seen fields, d.2 = []) → ∀ d ∈ diffFields X q liveFields seen fields, d.2 = []
  | [], _ => fun seen p q _ => by simp [diffFields]
  | (key, value) :: fields, liveFields => fun seen p q h => by
    rw [diffFields] at h ⊢
    split at h
    · rename_i hseen
      rw [if_pos hseen]
      exact diffFields_path fields liveFields seen p q h
    · rename_i hseen
      rw [if_neg hseen, List.forall_mem_cons]
      obtain ⟨hfirst, hrest⟩ := List.forall_mem_cons.mp h
      exact ⟨diff_path value _ _ _ hfirst, diffFields_path fields liveFields (key :: seen) p q hrest⟩

end

lemma agrees_of_diff (h : diffRecursive X path a b = []) : Agrees X a b := fun q => diff_path a b path q h

end Paths

section Relation

lemma agrees_obj :
    Agrees X (.obj fields) (.obj liveFields) ↔ ∀ key, Agrees X ((Json.obj fields).get key) ((Json.obj liveFields).get key) := by
  constructor
  · intro h key
    exact agrees_of_diff (diff_obj_eq_nil.mp (h "") key)
  · intro h path
    exact diff_obj_eq_nil.mpr fun key => h key _

lemma agrees_list : Agrees X (.list items) (.list liveItems) ↔ List.Forall₂ (Agrees X) items liveItems := by
  constructor
  · intro h
    have hnil := h ""
    rw [diffRecursive] at hnil
    split at hnil
    · cases hnil
    · rename_i hlength
      clear h
      generalize 0 = i at hnil
      induction items generalizing i liveItems with
      | nil => rw [List.length_eq_zero_iff.mp (not_not.mp hlength).symm]; exact .nil
      | cons desired items ih =>
        cases liveItems with
        | nil => simp at hlength
        | cons live liveItems =>
          rw [diffItems, List.append_eq_nil_iff] at hnil
          exact .cons (agrees_of_diff hnil.1) (ih (by simpa using hlength) _ hnil.2)
  · intro h path
    rw [diffRecursive, if_neg (not_not.mpr h.length_eq)]
    generalize 0 = i
    induction h generalizing i with
    | nil => rw [diffItems]; simp
    | cons hab _ ih => rw [diffItems, hab, ih, List.nil_append]

lemma agrees_scalar (hobj : ∀ fields liveFields, a = .obj fields → b ≠ .obj liveFields)
    (hlist : ∀ items liveItems, a = .list items → b ≠ .list liveItems) :
    Agrees X a b ↔ (isEmpty a ∧ isEmpty b) ∨ equalScalars X a b := by
  have hdiff : ∀ path, diffRecursive X path a b = diffScalars X path a b := by
    intro path
    rw [diffRecursive]
    · exact fun fields liveFields ha hb => hobj fields liveFields ha hb
    · exact fun items liveItems ha hb => hlist items liveItems ha hb
  constructor
  · intro h
    have hnil := h ""
    rw [hdiff, diffScalars] at hnil
    by_contra hne
    rw [if_neg hne] at hnil
    cases hnil
  · intro h path
    rw [hdiff, diffScalars, if_pos h]

lemma equalScalars_refl {v : Json} (hobj : ∀ fields, v ≠ .obj fields) (hlist : ∀ items, v ≠ .list items)
    (hnull : v ≠ .null) : equalScalars X v v = true := by
  cases v with
  | null => exact absurd rfl hnull
  | bool b => simp [equalScalars, number?]
  | int n => simp [equalScalars, number?]
  | float text => simp [equalScalars, number?]
  | str s => simp [equalScalars]
  | list items => exact absurd rfl (hlist items)
  | obj fields => exact absurd rfl (hobj fields)

mutual

lemma agrees_refl : (v : Json) → Agrees X v v
  | .null => (agrees_scalar (by simp) (by simp)).mpr (Or.inl ⟨rfl, rfl⟩)
  | .bool b => (agrees_scalar (by simp) (by simp)).mpr (Or.inr (equalScalars_refl (by simp) (by simp) (by simp)))
  | .int n => (agrees_scalar (by simp) (by simp)).mpr (Or.inr (equalScalars_refl (by simp) (by simp) (by simp)))
  | .float t => (agrees_scalar (by simp) (by simp)).mpr (Or.inr (equalScalars_refl (by simp) (by simp) (by simp)))
  | .str s => (agrees_scalar (by simp) (by simp)).mpr (Or.inr (equalScalars_refl (by simp) (by simp) (by simp)))
  | .list items => agrees_list.mpr (List.forall₂_same.mpr (agreesItems_refl items))
  | .obj fields => agrees_obj.mpr fun key => by
    rw [get_obj]
    cases hlookup : fields.lookup key with
    | none => exact (agrees_scalar (by simp) (by simp)).mpr (Or.inl ⟨rfl, rfl⟩)
    | some v =>
      obtain ⟨before, after, rfl, -⟩ := List.lookup_eq_some_iff.mp hlookup
      exact agreesFields_refl (before ++ (key, v) :: after) (key, v) (by simp)

lemma agreesItems_refl : (items : List Json) → ∀ v ∈ items, Agrees X v v
  | [] => by simp
  | item :: items => List.forall_mem_cons.mpr ⟨agrees_refl item, agreesItems_refl items⟩

lemma agreesFields_refl : (fields : Fields) → ∀ p ∈ fields, Agrees X p.2 p.2
  | [] => by simp
  | (_, value) :: fields => List.forall_mem_cons.mpr ⟨agrees_refl value, agreesFields_refl fields⟩

end

/-- The same value, but for the order of the keys of mappings. -/
inductive SameValue : Json → Json → Prop
  | refl (v : Json) : SameValue v v
  | obj {fields fields' : Fields} (hkeys : ∀ key, fields.lookup key = none ↔ fields'.lookup key = none)
      (hvalues : ∀ key v v', fields.lookup key = some v → fields'.lookup key = some v' → SameValue v v') :
      SameValue (.obj fields) (.obj fields')

lemma isEmpty_obj : isEmpty (.obj fields) = true ↔ ∀ key, fields.lookup key = none := by
  cases fields with
  | nil => simp [isEmpty]
  | cons p fields =>
    constructor
    · intro h
      cases h
    · intro h
      have hkey := h p.1
      rw [List.lookup_cons, beq_self_eq_true] at hkey
      cases hkey

/-- The diff does not see the order of keys. -/
lemma SameValue.agrees (h : SameValue a b) (v : Json) (hv : Agrees X v a) : Agrees X v b := by
  induction h generalizing v with
  | refl => exact hv
  | @obj fields fields' hkeys hvalues ih =>
    cases v with
    | obj vs =>
      rw [agrees_obj] at hv ⊢
      intro key
      have hkey := hv key
      rw [get_obj fields] at hkey
      rw [get_obj fields']
      cases hlookup : fields.lookup key with
      | none =>
        rw [hlookup] at hkey
        rwa [(hkeys key).mp hlookup]
      | some u =>
        rw [hlookup] at hkey
        cases hlookup' : fields'.lookup key with
        | none =>
          rw [(hkeys key).mpr hlookup'] at hlookup
          cases hlookup
        | some u' => exact ih key u u' hlookup hlookup' _ hkey
    | _ =>
      rw [agrees_scalar (by simp) (by simp)] at hv ⊢
      rcases hv with ⟨hempty, hobj⟩ | hequal
      · refine Or.inl ⟨hempty, isEmpty_obj.mpr fun key => (hkeys key).mp (isEmpty_obj.mp hobj key)⟩
      · simp [equalScalars, number?] at hequal

/-- Values of the same keys in the same order agree key by key. -/
lemma agrees_fields (h : List.Forall₂ (fun p q => p.1 = q.1 ∧ Agrees X p.2 q.2) fields liveFields) :
    Agrees X (.obj fields) (.obj liveFields) := by
  refine agrees_obj.mpr fun key => ?_
  rw [get_obj, get_obj]
  induction h with
  | nil => exact agrees_refl .null
  | @cons p q fields liveFields hpq _ ih =>
    rw [List.lookup_cons, List.lookup_cons, hpq.1]
    cases key == q.1
    · exact ih
    · exact hpq.2

end Relation

end PlatformGitops.DriftDetection
