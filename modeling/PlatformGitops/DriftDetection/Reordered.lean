import PlatformGitops.DriftDetection.Agreement

/-! Workloads that differ in the order of some lists and in defaults that are written out: their views agree where the
sorts leave no ties. -/

namespace PlatformGitops.DriftDetection

open Library
open Coordination (truthy orElse)

section Variants

/-- Mappings whose values are related key by key, or the same value. -/
def FieldsRel (R : String → Option Json → Option Json → Prop) (v v' : Json) : Prop :=
  v' = v ∨ ∃ fields fields', v = .obj fields ∧ v' = .obj fields' ∧ ∀ key, R key (fields.lookup key) (fields'.lookup key)

/-- The entries are changed one by one, and then put in another order. -/
def Permuted (R : Json → Json → Prop) (v v' : Json) : Prop :=
  v' = v ∨ ∃ items changed items', v = .list items ∧ v' = .list items' ∧ List.Forall₂ R items changed ∧ changed.Perm items'

/-- A default is written out where the key was absent. -/
def Filled (defaults : Fields) (key : String) (o o' : Option Json) : Prop :=
  o' = o ∨ (o = none ∧ ∃ v, defaults.lookup key = some v ∧ o' = some v)

def ProbeVariant : Json → Json → Prop :=
  FieldsRel fun key o o' =>
    if key = "httpGet" then Option.Rel (FieldsRel (Filled httpGetDefaults)) o o' else Filled probeDefaults key o o'

def VolumeVariant : Json → Json → Prop :=
  FieldsRel fun key o o' =>
    if key ∈ volumeSources then Option.Rel (FieldsRel (Filled modeDefaults)) o o' else o' = o

def ContainerVariant : Json → Json → Prop :=
  FieldsRel fun key o o' =>
    if key ∈ ["ports", "env", "envFrom", "volumeMounts"] then Option.Rel (Permuted Eq) o o'
    else if key ∈ ["startupProbe", "livenessProbe", "readinessProbe"] then Option.Rel ProbeVariant o o'
    else o' = o

/-- Containers are changed one by one. -/
def ContainersVariant (v v' : Json) : Prop :=
  v' = v ∨ ∃ items items', v = .list items ∧ v' = .list items' ∧ List.Forall₂ ContainerVariant items items'

def graceDefaults : Fields := [("terminationGracePeriodSeconds", .int 30)]

def PodSpecVariant : Json → Json → Prop :=
  FieldsRel fun key o o' =>
    if key = "volumes" then Option.Rel (Permuted VolumeVariant) o o'
    else if key = "imagePullSecrets" then Option.Rel (Permuted Eq) o o'
    else if key = "containers" then Option.Rel ContainersVariant o o'
    else Filled graceDefaults key o o'

/-- A change of the value at one key. -/
def AtKey (key : String) (R : Json → Json → Prop) : Json → Json → Prop :=
  FieldsRel fun k o o' => if k = key then Option.Rel R o o' else o' = o

/-- The workload with lists of its pod in another order and defaults written out. -/
def Variant : Json → Json → Prop := AtKey "spec" (AtKey "template" (AtKey "spec" PodSpecVariant))

end Variants

section Conditions

variable (X : Externals)

/-- Two entries that the sort cannot tell apart have no difference. -/
def Untied {κ : Type} (key : Json → Except NormalizeError κ) (items : List Json) : Prop :=
  SortedForm.Untied key (Agrees X) items

/-- The entries of a value that is a list. -/
def itemsOf : Json → List Json
  | .list items => items
  | _ => []

/-- The volume that a sort gets. -/
def normalizedVolume (volume : Json) : Json := (normalizeVolume volume).toOption.getD volume

structure ContainerUntied (container : Json) : Prop where
  ports : Untied X portKey (itemsOf (container.get "ports"))
  env : Untied X (textKey "name") (itemsOf (container.get "env"))
  envFrom : Untied X (envFromKey X) (itemsOf (container.get "envFrom"))
  volumeMounts : Untied X mountKey (itemsOf (container.get "volumeMounts"))

def isNamed (name : String) (container : Json) : Bool := name ≠ "" ∧ (container.get "name").asStr? = some name

/-- The container whose view stands under a name: the last one of that name. -/
def containerOf (name : String) (containers : List Json) : Option Json := containers.reverse.find? (isNamed name)

structure WorkloadUntied (deploy : Json) : Prop where
  imagePullSecrets : Untied X (textKey "name") (itemsOf ((podSpec deploy).get "imagePullSecrets"))
  volumes : Untied X (textKey "name") ((itemsOf ((podSpec deploy).get "volumes")).map normalizedVolume)
  containers : ∀ name container, containerOf name (itemsOf ((podSpec deploy).get "containers")) = some container →
    ContainerUntied X container

end Conditions

section Fields

variable {fields defaults : Fields} {key : String}

lemma lookup_append (key : String) (fields fields' : Fields) :
    (fields ++ fields').lookup key = (fields.lookup key).or (fields'.lookup key) := by
  induction fields with
  | nil => rfl
  | cons p fields ih =>
    rw [List.cons_append, List.lookup_cons, List.lookup_cons]
    cases key == p.1
    · exact ih
    · rfl

lemma lookup_setDefaults (key : String) (defaults fields : Fields) :
    (setDefaults defaults fields).lookup key = (fields.lookup key).or (defaults.lookup key) := by
  induction defaults generalizing fields with
  | nil => simp [setDefaults]
  | cons p defaults ih =>
    obtain ⟨k, v⟩ := p
    rw [setDefaults, List.foldl_cons]
    refine (ih _).trans ?_
    by_cases hk : k ∈ fields.map (·.1)
    · rw [if_pos hk, List.lookup_cons]
      by_cases hkey : key = k
      · subst hkey
        rw [lookup_isSome] at hk
        obtain ⟨u, hu⟩ := Option.isSome_iff_exists.mp hk
        rw [hu]
        rfl
      · rw [beq_false_of_ne hkey]
    · rw [if_neg hk, lookup_append, List.lookup_cons, List.lookup_cons, Option.or_assoc]
      cases key == k <;> rfl

lemma lookup_updateField (k key : String) (f : Json → Json) (fields : Fields) :
    (updateField key f fields).lookup k = if k = key then (fields.lookup k).map f else fields.lookup k := by
  induction fields with
  | nil => simp [updateField]
  | cons p fields ih =>
    obtain ⟨q, v⟩ := p
    rw [updateField, List.map_cons, List.lookup_cons, List.lookup_cons]
    by_cases hq : q = key
    · subst hq
      rw [if_pos rfl]
      by_cases hk : k = q
      · subst hk
        simp
      · rw [beq_false_of_ne hk]
        exact ih
    · rw [if_neg hq]
      by_cases hk : k = q
      · subst hk
        simp [hq]
      · rw [beq_false_of_ne hk]
        exact ih

/-- Defaults that are written out make no difference behind the defaults. -/
lemma sameLookup_of_filled {fields fields' : Fields} (h : ∀ key, Filled defaults key (fields.lookup key) (fields'.lookup key))
    (key : String) : (setDefaults defaults fields).lookup key = (setDefaults defaults fields').lookup key := by
  rw [lookup_setDefaults, lookup_setDefaults]
  rcases h key with hsame | ⟨hnone, v, hv, hfilled⟩
  · rw [hsame]
  · rw [hnone, hfilled, hv]
    rfl

lemma sameValue_of_lookup {fields fields' : Fields} (h : ∀ key, fields.lookup key = fields'.lookup key) :
    SameValue (.obj fields) (.obj fields') := by
  refine .obj (fun key => by rw [h]) fun key v v' hv hv' => ?_
  rw [h, hv'] at hv
  cases hv
  exact .refl v

lemma sameValue_withDefaults {v v' : Json} (h : FieldsRel (Filled defaults) v v') :
    SameValue (withDefaults defaults v) (withDefaults defaults v') := by
  rcases h with rfl | ⟨fields, fields', rfl, rfl, hfields⟩
  · exact .refl _
  · exact sameValue_of_lookup (sameLookup_of_filled hfields)

lemma sameValue_of_rel {fields fields' : Fields}
    (h : ∀ key, Option.Rel SameValue (fields.lookup key) (fields'.lookup key)) : SameValue (.obj fields) (.obj fields') := by
  refine .obj (fun key => ?_) fun key v v' hv hv' => ?_
  · have hkey := h key
    revert hkey
    cases fields.lookup key <;> cases fields'.lookup key <;> intro hkey <;> cases hkey <;> simp
  · have hkey := h key
    rw [hv, hv'] at hkey
    cases hkey with
    | some hsame => exact hsame

lemma rel_refl (o : Option Json) : Option.Rel SameValue o o := by
  cases o with
  | none => exact .none
  | some v => exact .some (.refl v)

lemma rel_withDefaults {o o' : Option Json} (h : Option.Rel (FieldsRel (Filled defaults)) o o') :
    Option.Rel SameValue (o.map (withDefaults defaults)) (o'.map (withDefaults defaults)) := by
  cases h with
  | none => exact .none
  | some h => exact .some (sameValue_withDefaults h)

lemma lookup_updateFields {keys : List String} (hkeys : keys.Nodup) (key : String) (f : Json → Json) (fields : Fields) :
    (keys.foldl (fun fields k => updateField k f fields) fields).lookup key =
      if key ∈ keys then (fields.lookup key).map f else fields.lookup key := by
  induction keys generalizing fields with
  | nil => simp
  | cons k keys ih =>
    obtain ⟨hk, hkeys⟩ := List.nodup_cons.mp hkeys
    rw [List.foldl_cons, ih hkeys, lookup_updateField]
    by_cases hkey : key = k
    · subst hkey
      simp [hk]
    · simp [hkey]

end Fields

section Normalization

variable {probe probe' volume volume' normalized : Json}

lemma normalizeProbe_variant (h : ProbeVariant probe probe') (hprobe : normalizeProbe probe = .ok normalized) :
    ∃ normalized', normalizeProbe probe' = .ok normalized' ∧ SameValue normalized normalized' := by
  rcases h with rfl | ⟨fields, fields', rfl, rfl, hfields⟩
  · exact ⟨normalized, hprobe, .refl _⟩
  · cases hprobe
    refine ⟨_, rfl, sameValue_of_rel fun key => ?_⟩
    rw [lookup_updateField, lookup_updateField, lookup_setDefaults, lookup_setDefaults]
    have hkey := hfields key
    beta_reduce at hkey
    by_cases hget : key = "httpGet"
    · subst hget
      have hnone : probeDefaults.lookup "httpGet" = none := by decide
      rw [if_pos rfl] at hkey
      rw [if_pos rfl, if_pos rfl, hnone, Option.or_none, Option.or_none]
      exact rel_withDefaults hkey
    · rw [if_neg hget] at hkey
      rw [if_neg hget, if_neg hget]
      rcases hkey with hsame | ⟨hnone, v, hv, hfilled⟩
      · rw [hsame]
        exact rel_refl _
      · rw [hnone, hfilled, hv]
        exact rel_refl _

lemma volumeSources_nodup : volumeSources.Nodup := by decide

lemma normalizeVolume_variant (h : VolumeVariant volume volume') (hvolume : normalizeVolume volume = .ok normalized) :
    ∃ normalized', normalizeVolume volume' = .ok normalized' ∧ SameValue normalized normalized' := by
  rcases h with rfl | ⟨fields, fields', rfl, rfl, hfields⟩
  · exact ⟨normalized, hvolume, .refl _⟩
  · cases hvolume
    refine ⟨_, rfl, sameValue_of_rel fun key => ?_⟩
    rw [lookup_updateFields volumeSources_nodup, lookup_updateFields volumeSources_nodup]
    have hkey := hfields key
    beta_reduce at hkey
    by_cases hsource : key ∈ volumeSources
    · rw [if_pos hsource] at hkey ⊢
      rw [if_pos hsource]
      exact rel_withDefaults hkey
    · rw [if_neg hsource] at hkey ⊢
      rw [if_neg hsource, hkey]
      exact rel_refl _

end Normalization

section Sorting

variable {X : Externals} {κ : Type} [Inhabited κ] {key : Json → Except NormalizeError κ}
  {items items' changed out : List Json} {a b : Json}

/-- The key of an entry that has one. -/
def keyOr (key : Json → Except NormalizeError κ) (entry : Json) : κ := (key entry).toOption.getD default

def HaveKeys (key : Json → Except NormalizeError κ) (items : List Json) : Prop :=
  ∀ entry ∈ items, key entry = .ok (keyOr key entry)

lemma key_eq_keyOr {entry : Json} {k : κ} (h : key entry = .ok k) : key entry = .ok (keyOr key entry) := by
  rw [keyOr, h]
  rfl

lemma HaveKeys.eq_iff (h : HaveKeys key items) (ha : a ∈ items) (hb : b ∈ items) :
    key a = key b ↔ keyOr key a = keyOr key b := by
  rw [h a ha, h b hb, Except.ok.injEq]

lemma HaveKeys.untied_iff (h : HaveKeys key items) :
    Untied X key items ↔ SortedForm.Untied (keyOr key) (Agrees X) items := by
  constructor
  · intro huntied
    exact huntied.imp_of_mem fun ha hb hab hkey => hab ((h.eq_iff ha hb).mpr hkey)
  · intro huntied
    exact huntied.imp_of_mem fun ha hb hab hkey => hab ((h.eq_iff ha hb).mp hkey)

variable [LinearOrder κ]

lemma HaveKeys.sortedEntries_eq (h : HaveKeys key items) :
    sortedEntries key items = .ok (SortedForm.sortBy (keyOr key) items) := by
  have hkeyed : (items.mapM fun entry => do pure (← key entry, entry) : Except NormalizeError (List (κ × Json))) =
      .ok (items.map fun entry => (keyOr key entry, entry)) := by
    refine Fallible.mapM_of_ok fun entry hentry => ?_
    rw [h entry hentry]
    rfl
  have hsort : (SortedForm.sortBy Prod.fst (items.map fun entry => (keyOr key entry, entry))).map Prod.snd =
      SortedForm.sortBy (keyOr key) items := by
    have hmap := List.map_insertionSort (fun p q : κ × Json => p.1 ≤ q.1) (fun a b => keyOr key a ≤ keyOr key b)
      Prod.snd (items.map fun entry => (keyOr key entry, entry)) ?_
    · simpa [SortedForm.sortBy, List.map_map, Function.comp_def] using hmap
    · intro p hp q hq
      obtain ⟨a, -, rfl⟩ := List.mem_map.mp hp
      obtain ⟨b, -, rfl⟩ := List.mem_map.mp hq
      rfl
  rw [sortedEntries, hkeyed]
  exact congrArg Except.ok hsort

lemma haveKeys_of_sortedEntries (h : sortedEntries key items = .ok out) : HaveKeys key items := by
  intro entry hentry
  obtain ⟨keyed, hkeyed, -⟩ := Fallible.bind_eq_ok.mp h
  obtain ⟨p, -, hp⟩ := (Fallible.mapM_eq_ok hkeyed).1 entry hentry
  obtain ⟨k, hk, -⟩ := Fallible.bind_eq_ok.mp hp
  exact key_eq_keyOr hk

/-- Entries without ties are sorted the same way, whatever order they come in. -/
lemma sortedEntries_alike (h : sortedEntries key items = .ok out)
    (hchanged : List.Forall₂ (fun a b => key a = key b ∧ SameValue a b) items changed) (hperm : changed.Perm items') :
    ∃ out', sortedEntries key items' = .ok out' ∧ (Untied X key items → List.Forall₂ (Agrees X) out out') := by
  have hitems := haveKeys_of_sortedEntries h
  have hkeys : HaveKeys key changed ∧ List.Forall₂ (fun a b => keyOr key a = keyOr key b ∧
      ∀ c, Agrees X c a → Agrees X c b) items changed := by
    clear h hperm
    induction hchanged with
    | nil => exact ⟨by simp [HaveKeys], .nil⟩
    | @cons a b items changed hab _ ih =>
      obtain ⟨ha, hitems⟩ := List.forall_mem_cons.mp hitems
      obtain ⟨hchanged, hrel⟩ := ih hitems
      have hsame : keyOr key a = keyOr key b := by rw [keyOr, keyOr, hab.1]
      refine ⟨List.forall_mem_cons.mpr ⟨?_, hchanged⟩, .cons ⟨hsame, hab.2.agrees⟩ hrel⟩
      rw [← hab.1, ha, hsame]
  have hitems' : HaveKeys key items' := fun entry hentry => hkeys.1 entry (hperm.mem_iff.mpr hentry)
  refine ⟨_, hitems'.sortedEntries_eq, fun huntied => ?_⟩
  rw [hitems.sortedEntries_eq] at h
  cases h
  exact (hitems.untied_iff.mp huntied).sortBy_alike (fun a _ => agrees_refl a) hkeys.2 hperm

/-- Entries that are sorted the same way, whatever order they come in, have no ties. -/
lemma untied_of_sortedEntries (h : sortedEntries key items = .ok out)
    (hall : ∀ items' out', items.Perm items' → sortedEntries key items' = .ok out' → List.Forall₂ (Agrees X) out out') :
    Untied X key items := by
  have hitems := haveKeys_of_sortedEntries h
  rw [hitems.sortedEntries_eq] at h
  cases h
  refine hitems.untied_iff.mpr (SortedForm.untied_of_alike fun items' hperm => ?_)
  have hitems' : HaveKeys key items' := fun entry hentry => hitems entry (hperm.mem_iff.mpr hentry)
  exact hall items' _ hperm hitems'.sortedEntries_eq

end Sorting

section Lists

variable {X : Externals} {κ : Type} {key : Json → Except NormalizeError κ} {items items' out : List Json}
  {a b v v' : Json} {names : List (Option String)}

lemma entries_list (items : List Json) : entries (.list items) = .ok items := by
  cases items <;> rfl

lemma itemsOf_of_entries (h : entries v = .ok items) : items = itemsOf v := by
  cases v with
  | list items' =>
    rw [entries_list] at h
    cases h
    rfl
  | _ =>
    unfold entries at h
    split at h
    · cases h
    · cases h
      rfl

lemma entries_permuted {R : Json → Json → Prop} (hrefl : ∀ a, R a a) (h : Permuted R v v') (hv : entries v = .ok items) :
    ∃ changed items', entries v' = .ok items' ∧ List.Forall₂ R items changed ∧ changed.Perm items' := by
  rcases h with rfl | ⟨items, changed, items', rfl, rfl, hchanged, hperm⟩
  · exact ⟨items, items, hv, List.forall₂_same.mpr fun a _ => hrefl a, .refl items⟩
  · rw [entries_list] at hv
    cases hv
    exact ⟨changed, items', entries_list items', hchanged, hperm⟩

lemma same_of_eq {items changed : List Json} (h : List.Forall₂ Eq items changed) :
    List.Forall₂ (fun a b => key a = key b ∧ SameValue a b) items changed :=
  h.imp fun a _ hab => hab ▸ ⟨rfl, .refl a⟩

lemma sorted_permuted [Inhabited κ] [LinearOrder κ] (h : Permuted Eq v v') (hsorted : (do sortedEntries key (← entries v)) = .ok out) :
    ∃ out', (do sortedEntries key (← entries v')) = Except.ok out' ∧
      (Untied X key (itemsOf v) → List.Forall₂ (Agrees X) out out') := by
  obtain ⟨items, hitems, hsorted⟩ := Fallible.bind_eq_ok.mp hsorted
  rw [← itemsOf_of_entries hitems]
  obtain ⟨changed, items', hitems', hchanged, hperm⟩ := entries_permuted (fun _ => rfl) h hitems
  rw [hitems']
  exact sortedEntries_alike hsorted (same_of_eq hchanged) hperm

lemma repeated_eq_nil {seen : List (Option String)} :
    repeated seen names = [] ↔ names.Nodup ∧ ∀ name ∈ names, name ∉ seen := by
  induction names generalizing seen with
  | nil => simp [repeated]
  | cons name names ih =>
    rw [repeated, List.nodup_cons, List.forall_mem_cons]
    by_cases hseen : name ∈ seen
    · simp [hseen]
    · rw [if_neg hseen, ih]
      constructor
      · rintro ⟨hnodup, hnames⟩
        refine ⟨⟨fun hmem => hnames name hmem List.mem_cons_self, hnodup⟩, hseen, fun n hn hs => ?_⟩
        exact hnames n hn (List.mem_cons_of_mem _ hs)
      · rintro ⟨⟨hname, hnodup⟩, -, hnames⟩
        refine ⟨hnodup, fun n hn hs => ?_⟩
        rcases List.mem_cons.mp hs with rfl | hs
        · exact hname hn
        · exact hnames n hn hs

/-- Names that are distinct are distinct in every order. -/
lemma distinctNames_perm (hperm : items.Perm items') (h : items.mapM envName = .ok names) (hnames : repeated [] names = []) :
    ∃ names', items'.mapM envName = .ok names' ∧ repeated [] names' = [] := by
  have hkeys : HaveKeys envName items := by
    intro entry hentry
    obtain ⟨name, -, hname⟩ := (Fallible.mapM_eq_ok h).1 entry hentry
    exact key_eq_keyOr hname
  rw [Fallible.mapM_of_ok hkeys] at h
  cases h
  refine ⟨items'.map (keyOr envName), Fallible.mapM_of_ok fun a ha => hkeys a (hperm.mem_iff.mpr ha), ?_⟩
  rw [repeated_eq_nil] at hnames ⊢
  exact ⟨(hperm.map _).nodup_iff.mp hnames.1, by simp⟩

lemma normalizeEnvList_permuted (h : Permuted Eq v v') (hsorted : normalizeEnvList v = .ok out) :
    ∃ out', normalizeEnvList v' = .ok out' ∧
      (Untied X (textKey "name") (itemsOf v) → List.Forall₂ (Agrees X) out out') := by
  simp only [normalizeEnvList, Fallible.bind_eq_ok, Fallible.rejectIf_eq_ok, not_not, exists_const] at hsorted
  obtain ⟨items, hitems, names, hnames, hdistinct, hsorted⟩ := hsorted
  rw [← itemsOf_of_entries hitems]
  obtain ⟨changed, items', hitems', hchanged, hperm⟩ := entries_permuted (fun _ => rfl) h hitems
  rw [List.forall₂_eq_eq_eq] at hchanged
  subst hchanged
  obtain ⟨names', hnames', hdistinct'⟩ := distinctNames_perm hperm hnames hdistinct
  obtain ⟨out', hout', halike⟩ := sortedEntries_alike (X := X) hsorted
    (List.forall₂_same.mpr fun a _ => ⟨rfl, .refl a⟩) hperm
  refine ⟨out', ?_, halike⟩
  simp only [normalizeEnvList, Fallible.bind_eq_ok, Fallible.rejectIf_eq_ok, not_not, exists_const]
  exact ⟨items', hitems', names', hnames', hdistinct', hout'⟩

lemma SameValue.textKey_eq (h : SameValue a b) (field : String) : textKey field a = textKey field b := by
  cases h with
  | refl => rfl
  | @obj fields fields' hkeys hvalues =>
    rw [textKey, textKey]
    cases hv : fields.lookup field with
    | none => rw [(hkeys field).mp hv]
    | some u =>
      cases hv' : fields'.lookup field with
      | none =>
        rw [(hkeys field).mpr hv'] at hv
        cases hv
      | some u' =>
        cases hvalues field u u' hv hv' with
        | refl => rfl
        | obj => rfl

lemma normalizedVolume_eq {n : Json} (h : normalizeVolume v = .ok n) : normalizedVolume v = n := by
  rw [normalizedVolume, h]
  rfl

lemma volumeVariant_refl (v : Json) : VolumeVariant v v := Or.inl rfl

/-- Volumes are normalized one by one. -/
def HaveVolumes (items : List Json) : Prop := ∀ v ∈ items, normalizeVolume v = .ok (normalizedVolume v)

lemma haveVolumes_of_mapM {ns : List Json} (h : items.mapM normalizeVolume = .ok ns) :
    HaveVolumes items ∧ ns = items.map normalizedVolume := by
  have hall : HaveVolumes items := by
    intro v hv
    obtain ⟨n, -, hn⟩ := (Fallible.mapM_eq_ok h).1 v hv
    rw [normalizedVolume_eq hn, hn]
  rw [Fallible.mapM_of_ok hall] at h
  cases h
  exact ⟨hall, rfl⟩

lemma normalizeVolumes_permuted (h : Permuted VolumeVariant v v') (hsorted : normalizeVolumes v = .ok out) :
    ∃ out', normalizeVolumes v' = .ok out' ∧
      (Untied X (textKey "name") ((itemsOf v).map normalizedVolume) → List.Forall₂ (Agrees X) out out') := by
  simp only [normalizeVolumes, Fallible.bind_eq_ok] at hsorted
  obtain ⟨items, hitems, ns, hns, hsorted⟩ := hsorted
  obtain ⟨hvolumes, rfl⟩ := haveVolumes_of_mapM hns
  rw [← itemsOf_of_entries hitems]
  obtain ⟨changed, items', hitems', hchanged, hperm⟩ := entries_permuted volumeVariant_refl h hitems
  have hboth : HaveVolumes changed ∧ List.Forall₂ (fun a b => textKey "name" a = textKey "name" b ∧ SameValue a b)
      (items.map normalizedVolume) (changed.map normalizedVolume) := by
    clear hitems hns hsorted hperm
    induction hchanged with
    | nil => exact ⟨by simp [HaveVolumes], .nil⟩
    | @cons a b items changed hab _ ih =>
      obtain ⟨ha, hvolumes⟩ := List.forall_mem_cons.mp hvolumes
      obtain ⟨hchanged, hrel⟩ := ih hvolumes
      obtain ⟨n, hn, hsame⟩ := normalizeVolume_variant hab ha
      obtain rfl := normalizedVolume_eq hn
      exact ⟨List.forall_mem_cons.mpr ⟨hn, hchanged⟩, .cons ⟨hsame.textKey_eq "name", hsame⟩ hrel⟩
  have hvolumes' : HaveVolumes items' := fun u hu => hboth.1 u (hperm.mem_iff.mpr hu)
  obtain ⟨out', hout', halike⟩ := sortedEntries_alike (X := X) hsorted hboth.2 (hperm.map normalizedVolume)
  refine ⟨out', ?_, halike⟩
  simp only [normalizeVolumes, Fallible.bind_eq_ok]
  exact ⟨items', hitems', _, Fallible.mapM_of_ok hvolumes', hout'⟩

end Lists

section Views

variable {X : Externals} {v v' c c' view : Json} {key : String} {items items' : List Json}

lemma get_eq_item (v : Json) (key : String) : v.get key = (v.item? key).getD .null := by
  cases v <;> rfl

lemma FieldsRel.item {R : String → Option Json → Option Json → Prop} (h : FieldsRel R v v') (hrefl : ∀ key o, R key o o)
    (key : String) : R key (v.item? key) (v'.item? key) := by
  rcases h with rfl | ⟨fields, fields', rfl, rfl, hfields⟩
  · exact hrefl key _
  · exact hfields key

lemma rel_of_refl {R : Json → Json → Prop} (hrefl : ∀ u, R u u) (o : Option Json) : Option.Rel R o o := by
  cases o with
  | none => exact .none
  | some u => exact .some (hrefl u)

lemma rel_get {R : Json → Json → Prop} (hrefl : ∀ u, R u u) (h : Option.Rel R (v.item? key) (v'.item? key)) :
    R (v.get key) (v'.get key) := by
  rw [get_eq_item, get_eq_item]
  revert h
  cases v.item? key <;> cases v'.item? key <;> intro h <;> cases h
  · exact hrefl _
  · assumption

lemma permuted_refl {R : Json → Json → Prop} (v : Json) : Permuted R v v := Or.inl rfl

lemma ContainerVariant.item (h : ContainerVariant c c') (key : String) :
    if key ∈ ["ports", "env", "envFrom", "volumeMounts"] then Option.Rel (Permuted Eq) (c.item? key) (c'.item? key)
    else if key ∈ ["startupProbe", "livenessProbe", "readinessProbe"] then
      Option.Rel ProbeVariant (c.item? key) (c'.item? key)
    else c'.item? key = c.item? key := by
  refine FieldsRel.item h (fun key o => ?_) key
  split_ifs
  · exact rel_of_refl permuted_refl o
  · exact rel_of_refl (fun u => Or.inl rfl) o
  · rfl

lemma ContainerVariant.list (h : ContainerVariant c c') (hkey : key ∈ ["ports", "env", "envFrom", "volumeMounts"]) :
    Permuted Eq (c.get key) (c'.get key) := by
  have hitem := h.item key
  rw [if_pos hkey] at hitem
  exact rel_get permuted_refl hitem

lemma ContainerVariant.probe (h : ContainerVariant c c') (hkey : key ∈ ["startupProbe", "livenessProbe", "readinessProbe"]) :
    ProbeVariant (c.get key) (c'.get key) := by
  have hitem := h.item key
  have hlist : ∀ key ∈ ["startupProbe", "livenessProbe", "readinessProbe"],
      key ∉ ["ports", "env", "envFrom", "volumeMounts"] := by decide
  rw [if_neg (hlist key hkey), if_pos hkey] at hitem
  exact rel_get (fun u => Or.inl rfl) hitem

lemma ContainerVariant.other (h : ContainerVariant c c') (hlist : key ∉ ["ports", "env", "envFrom", "volumeMounts"])
    (hprobe : key ∉ ["startupProbe", "livenessProbe", "readinessProbe"]) : c'.get key = c.get key := by
  have hitem := h.item key
  rw [if_neg hlist, if_neg hprobe] at hitem
  rw [get_eq_item, get_eq_item, hitem]

/-- The view of a container that is changed. -/
lemma containerContractView_variant (h : ContainerVariant c c') (hview : containerContractView X c = .ok view) :
    ∃ view', containerContractView X c' = .ok view' ∧ (ContainerUntied X c → Agrees X view view') := by
  simp only [containerContractView, Fallible.bind_eq_ok, Fallible.pure_eq_ok] at hview
  obtain ⟨ports, hports, startup, hstartup, liveness, hliveness, readiness, hreadiness, resources, hresources, env, henv,
    envFrom, henvFrom, mounts, hmounts, rfl⟩ := hview
  obtain ⟨ports', hports', hportsAgree⟩ := sorted_permuted (X := X) (h.list (by decide)) hports
  obtain ⟨env', henv', henvAgree⟩ := normalizeEnvList_permuted (X := X) (h.list (by decide)) henv
  obtain ⟨envFrom', henvFrom', henvFromAgree⟩ := sorted_permuted (X := X) (h.list (by decide)) henvFrom
  obtain ⟨mounts', hmounts', hmountsAgree⟩ := sorted_permuted (X := X) (h.list (by decide)) hmounts
  obtain ⟨startup', hstartup', hstartupSame⟩ := normalizeProbe_variant (h.probe (by decide)) hstartup
  obtain ⟨liveness', hliveness', hlivenessSame⟩ := normalizeProbe_variant (h.probe (by decide)) hliveness
  obtain ⟨readiness', hreadiness', hreadinessSame⟩ := normalizeProbe_variant (h.probe (by decide)) hreadiness
  refine ⟨.obj [("ports", .list ports'), ("startupProbe", startup'), ("livenessProbe", liveness'),
    ("readinessProbe", readiness'), ("resources", resources), ("env", .list env'), ("envFrom", .list envFrom'),
    ("command", orElse (c.get "command") (.list [])), ("args", orElse (c.get "args") (.list [])),
    ("securityContext", orElse (c.get "securityContext") (.obj [])), ("volumeMounts", .list mounts')], ?_, fun huntied => ?_⟩
  · simp only [containerContractView, Fallible.bind_eq_ok, Fallible.pure_eq_ok]
    refine ⟨ports', hports', startup', hstartup', liveness', hliveness', readiness', hreadiness', resources, ?_,
      env', henv', envFrom', henvFrom', mounts', hmounts', ?_⟩
    · rw [h.other (by decide) (by decide)]
      exact hresources
    · rw [h.other (by decide) (by decide), h.other (by decide) (by decide), h.other (by decide) (by decide)]
  · refine agrees_fields ?_
    have hsame : ∀ {u u'}, SameValue u u' → Agrees X u u' := fun {u _} hu => hu.agrees u (agrees_refl u)
    exact .cons ⟨rfl, agrees_list.mpr (hportsAgree huntied.ports)⟩ (.cons ⟨rfl, hsame hstartupSame⟩
      (.cons ⟨rfl, hsame hlivenessSame⟩ (.cons ⟨rfl, hsame hreadinessSame⟩ (.cons ⟨rfl, agrees_refl _⟩
      (.cons ⟨rfl, agrees_list.mpr (henvAgree huntied.env)⟩ (.cons ⟨rfl, agrees_list.mpr (henvFromAgree huntied.envFrom)⟩
      (.cons ⟨rfl, agrees_refl _⟩ (.cons ⟨rfl, agrees_refl _⟩ (.cons ⟨rfl, agrees_refl _⟩
      (.cons ⟨rfl, agrees_list.mpr (hmountsAgree huntied.volumeMounts)⟩ .nil))))))))))

variable {views views' next : Fields} {name : String}

lemma containerOf_cons (name : String) (c : Json) (items : List Json) :
    containerOf name (c :: items) = (containerOf name items).or (if isNamed name c then some c else none) := by
  rw [containerOf, containerOf, List.reverse_cons, List.find?_append, List.find?_singleton]

lemma isNamed_iff : isNamed name c = true ↔ name ≠ "" ∧ c.get "name" = .str name := by
  rw [isNamed, decide_eq_true_eq]
  refine and_congr_right fun _ => ?_
  cases c.get "name" <;> simp [Json.asStr?]

lemma ContainerVariant.obj_iff (h : ContainerVariant c c') :
    (∃ fields, c = .obj fields) ↔ ∃ fields, c' = .obj fields := by
  rcases h with rfl | ⟨fields, fields', rfl, rfl, -⟩
  · rfl
  · simp

/-- What a name stands for behind a step, in the views of the workload and of its variant. -/
def StandsFor (X : Externals) (name : String) (next next' : Fields) (c : Json) : Prop :=
  ∃ view view', next.lookup name = some view ∧ next'.lookup name = some view' ∧ (ContainerUntied X c → Agrees X view view')

lemma addContainerView_variant (h : ContainerVariant c c') (hadd : addContainerView X views c = .ok next)
    (views' : Fields) :
    ∃ next', addContainerView X views' c' = .ok next' ∧ ∀ name,
      if isNamed name c then StandsFor X name next next' c
      else next.lookup name = views.lookup name ∧ next'.lookup name = views'.lookup name := by
  have hname : c'.get "name" = c.get "name" := h.other (by decide) (by decide)
  unfold addContainerView at hadd
  split at hadd
  · rename_i fields
    obtain ⟨fields', rfl⟩ := h.obj_iff.mp ⟨fields, rfl⟩
    rw [addContainerView, hname]
    split at hadd
    · rename_i htruthy
      rw [if_pos htruthy]
      split at hadd
      · rename_i n hn
        obtain ⟨view, hview, hadd⟩ := Fallible.bind_eq_ok.mp hadd
        cases hadd
        obtain ⟨view', hview', hagrees⟩ := containerContractView_variant h hview
        refine ⟨Dict.set views' n view', by rw [hview']; rfl, fun name => ?_⟩
        rw [hn] at htruthy
        have hnonempty : n ≠ "" := by simpa [truthy] using htruthy
        by_cases hnamed : isNamed name (.obj fields)
        · rw [if_pos hnamed]
          obtain ⟨-, hget⟩ := isNamed_iff.mp hnamed
          rw [hn] at hget
          cases hget
          exact ⟨view, view', by rw [Dict.lookup_set, if_pos rfl], by rw [Dict.lookup_set, if_pos rfl], hagrees⟩
        · rw [if_neg hnamed]
          have hne : name ≠ n := by
            rintro rfl
            exact hnamed (isNamed_iff.mpr ⟨hnonempty, hn⟩)
          exact ⟨by rw [Dict.lookup_set, if_neg hne], by rw [Dict.lookup_set, if_neg hne]⟩
      · cases hadd
    · rename_i hfalsy
      cases hadd
      rw [if_neg hfalsy]
      refine ⟨views', rfl, fun name => ?_⟩
      rw [if_neg]
      · exact ⟨rfl, rfl⟩
      · intro hnamed
        obtain ⟨hnonempty, hget⟩ := isNamed_iff.mp hnamed
        rw [hget] at hfalsy
        exact hfalsy (by simpa [truthy] using hnonempty)
  · cases hadd

/-- The views of the containers, name by name. -/
lemma containerViews_variant (h : List.Forall₂ ContainerVariant items items')
    (hviews : items.foldlM (addContainerView X) views = .ok next) (views' : Fields) :
    ∃ next', items'.foldlM (addContainerView X) views' = .ok next' ∧ ∀ name,
      match containerOf name items with
      | some c => StandsFor X name next next' c
      | none => next.lookup name = views.lookup name ∧ next'.lookup name = views'.lookup name := by
  induction h generalizing views views' with
  | nil =>
    cases hviews
    exact ⟨views', rfl, fun name => ⟨rfl, rfl⟩⟩
  | @cons c c' items items' hc _ ih =>
    rw [List.foldlM_cons] at hviews
    obtain ⟨mid, hmid, hviews⟩ := Fallible.bind_eq_ok.mp hviews
    obtain ⟨mid', hmid', hstep⟩ := addContainerView_variant hc hmid views'
    obtain ⟨next', hnext', hrest⟩ := ih hviews mid'
    refine ⟨next', ?_, fun name => ?_⟩
    · rw [List.foldlM_cons, hmid']
      exact hnext'
    · have hrestName := hrest name
      have hstepName := hstep name
      rw [containerOf_cons]
      revert hrestName
      cases containerOf name items with
      | some d => exact id
      | none =>
        rintro ⟨hnext, hnext''⟩
        rw [Option.none_or]
        split_ifs at hstepName ⊢ with hnamed
        · obtain ⟨view, view', hview, hview', hagrees⟩ := hstepName
          exact ⟨view, view', hnext.trans hview, hnext''.trans hview', hagrees⟩
        · exact ⟨hnext.trans hstepName.1, hnext''.trans hstepName.2⟩

end Views

section Workloads

variable {X : Externals} {d d' v v' view : Json} {key : String}

lemma orElse_obj (fields : Fields) : orElse (.obj fields) (.obj []) = .obj fields := by
  cases fields <;> rfl

lemma get_orElse (v : Json) (key : String) : (orElse v (.obj [])).get key = v.get key := by
  cases v with
  | obj fields => rw [orElse_obj]
  | _ =>
    rw [orElse]
    split <;> rfl

/-- The pod's spec as it stands in the workload. -/
def rawSpec (deploy : Json) : Json := ((deploy.get "spec").get "template").get "spec"

lemma podSpec_get (deploy : Json) (key : String) : (podSpec deploy).get key = (rawSpec deploy).get key := by
  rw [podSpec, get_orElse, podTemplate, get_orElse, get_orElse]
  rfl

lemma template_get (deploy : Json) (key : String) :
    (podTemplate deploy).get key = ((deploy.get "spec").get "template").get key := by
  rw [podTemplate, get_orElse, get_orElse]

lemma AtKey.item {R : Json → Json → Prop} (h : AtKey key R v v') (hrefl : ∀ u, R u u) (k : String) :
    if k = key then Option.Rel R (v.item? k) (v'.item? k) else v'.item? k = v.item? k := by
  refine FieldsRel.item h (fun k o => ?_) k
  split_ifs
  · exact rel_of_refl hrefl o
  · rfl

lemma AtKey.get {R : Json → Json → Prop} (h : AtKey key R v v') (hrefl : ∀ u, R u u) : R (v.get key) (v'.get key) := by
  have hitem := h.item hrefl key
  rw [if_pos rfl] at hitem
  exact rel_get hrefl hitem

lemma AtKey.get_other {R : Json → Json → Prop} {k : String} (h : AtKey key R v v') (hrefl : ∀ u, R u u) (hk : k ≠ key) :
    v'.get k = v.get k := by
  have hitem := h.item hrefl k
  rw [if_neg hk] at hitem
  rw [get_eq_item, get_eq_item, hitem]

lemma atKey_refl {R : Json → Json → Prop} (v : Json) : AtKey key R v v := Or.inl rfl

lemma podSpecVariant_refl (v : Json) : PodSpecVariant v v := Or.inl rfl

lemma Variant.rawSpec (h : Variant d d') : PodSpecVariant (rawSpec d) (rawSpec d') :=
  ((AtKey.get h atKey_refl).get atKey_refl).get podSpecVariant_refl

lemma Variant.metadata (h : Variant d d') :
    (podTemplate d').get "metadata" = (podTemplate d).get "metadata" := by
  rw [template_get, template_get]
  exact ((AtKey.get h atKey_refl).get atKey_refl).get_other podSpecVariant_refl (by decide)

lemma containersVariant_refl (v : Json) : ContainersVariant v v := Or.inl rfl

lemma PodSpecVariant.item (h : PodSpecVariant v v') (key : String) :
    if key = "volumes" then Option.Rel (Permuted VolumeVariant) (v.item? key) (v'.item? key)
    else if key = "imagePullSecrets" then Option.Rel (Permuted Eq) (v.item? key) (v'.item? key)
    else if key = "containers" then Option.Rel ContainersVariant (v.item? key) (v'.item? key)
    else Filled graceDefaults key (v.item? key) (v'.item? key) := by
  refine FieldsRel.item h (fun key o => ?_) key
  split_ifs
  · exact rel_of_refl permuted_refl o
  · exact rel_of_refl permuted_refl o
  · exact rel_of_refl containersVariant_refl o
  · exact Or.inl rfl

lemma PodSpecVariant.volumes (h : PodSpecVariant v v') : Permuted VolumeVariant (v.get "volumes") (v'.get "volumes") :=
  rel_get permuted_refl (by simpa using h.item "volumes")

lemma PodSpecVariant.imagePullSecrets (h : PodSpecVariant v v') :
    Permuted Eq (v.get "imagePullSecrets") (v'.get "imagePullSecrets") :=
  rel_get permuted_refl (by simpa using h.item "imagePullSecrets")

lemma PodSpecVariant.containers (h : PodSpecVariant v v') : ContainersVariant (v.get "containers") (v'.get "containers") :=
  rel_get containersVariant_refl (by simpa using h.item "containers")

lemma PodSpecVariant.other (h : PodSpecVariant v v')
    (hkey : key ∉ ["volumes", "imagePullSecrets", "containers", "terminationGracePeriodSeconds"]) :
    v'.get key = v.get key := by
  obtain ⟨hvolumes, hsecrets, hcontainers, hgrace⟩ : key ≠ "volumes" ∧ key ≠ "imagePullSecrets" ∧ key ≠ "containers" ∧
      key ≠ "terminationGracePeriodSeconds" := by simpa using hkey
  have hitem := h.item key
  rw [if_neg hvolumes, if_neg hsecrets, if_neg hcontainers] at hitem
  rcases hitem with hsame | ⟨-, u, hu, -⟩
  · rw [get_eq_item, get_eq_item, hsame]
  · rw [graceDefaults, List.lookup_cons, beq_false_of_ne hgrace] at hu
    cases hu

/-- The grace period that is written out is the one that is assumed. -/
lemma PodSpecVariant.gracePeriod (h : PodSpecVariant v v') : gracePeriod v' = gracePeriod v := by
  have hitem := h.item "terminationGracePeriodSeconds"
  rw [if_neg (by decide), if_neg (by decide), if_neg (by decide)] at hitem
  rw [DriftDetection.gracePeriod, DriftDetection.gracePeriod, get_eq_item, get_eq_item]
  rcases hitem with hsame | ⟨hnone, u, hu, hfilled⟩
  · rw [hsame]
  · cases hu
    rw [hnone, hfilled]
    rfl

lemma entries_containers {items : List Json} (h : ContainersVariant v v') (hv : entries v = .ok items) :
    ∃ items', entries v' = .ok items' ∧ List.Forall₂ ContainerVariant items items' := by
  rcases h with rfl | ⟨items, items', rfl, rfl, hitems⟩
  · exact ⟨items, hv, List.forall₂_same.mpr fun c _ => Or.inl rfl⟩
  · rw [entries_list] at hv
    cases hv
    exact ⟨items', entries_list items', hitems⟩

/-- The parts of a workload's view that are computed. -/
structure ViewParts (X : Externals) (deploy : Json) (containers : Fields) (secrets volumes : List Json) : Prop where
  containers : ∃ items, entries ((podSpec deploy).get "containers") = .ok items ∧
    items.foldlM (addContainerView X) [] = .ok containers
  secrets : normalizeImagePullSecrets ((podSpec deploy).get "imagePullSecrets") = .ok secrets
  volumes : normalizeVolumes ((podSpec deploy).get "volumes") = .ok volumes

def assembledView (deploy : Json) (containers : Fields) (secrets volumes : List Json) : Json :=
  .obj [("labels", orElse ((orElse ((podTemplate deploy).get "metadata") (.obj [])).get "labels") (.obj [])),
    ("serviceAccountName", (podSpec deploy).get "serviceAccountName"),
    ("automountServiceAccountToken", (podSpec deploy).get "automountServiceAccountToken"),
    ("terminationGracePeriodSeconds", gracePeriod (podSpec deploy)),
    ("podSecurityContext", orElse ((podSpec deploy).get "securityContext") (.obj [])),
    ("imagePullSecrets", .list secrets), ("volumes", .list volumes), ("containers", .obj containers)]

lemma templateContractView_eq_ok :
    templateContractView X d = .ok view ↔ ∃ containers secrets volumes, ViewParts X d containers secrets volumes ∧
      assembledView d containers secrets volumes = view := by
  simp only [templateContractView, Fallible.bind_eq_ok, Fallible.pure_eq_ok]
  constructor
  · rintro ⟨items, hitems, containers, hcontainers, secrets, hsecrets, volumes, hvolumes, rfl⟩
    exact ⟨containers, secrets, volumes, ⟨⟨items, hitems, hcontainers⟩, hsecrets, hvolumes⟩, rfl⟩
  · rintro ⟨containers, secrets, volumes, ⟨⟨items, hitems, hcontainers⟩, hsecrets, hvolumes⟩, rfl⟩
    exact ⟨items, hitems, containers, hcontainers, secrets, hsecrets, volumes, hvolumes, rfl⟩

/-- The view of a variant agrees with the view of a workload without ties. -/
lemma templateContractView_variant (h : Variant d d') (hview : templateContractView X d = .ok view) :
    ∃ view', templateContractView X d' = .ok view' ∧ (WorkloadUntied X d → Agrees X view view') := by
  obtain ⟨containers, secrets, volumes, ⟨⟨items, hitems, hcontainers⟩, hsecrets, hvolumes⟩, rfl⟩ :=
    templateContractView_eq_ok.mp hview
  have hspec := h.rawSpec
  rw [podSpec_get] at hitems hsecrets hvolumes
  obtain ⟨items', hitems', hrel⟩ := entries_containers hspec.containers hitems
  obtain ⟨containers', hcontainers', hnames⟩ := containerViews_variant hrel hcontainers []
  obtain ⟨secrets', hsecrets', hsecretsAgree⟩ := sorted_permuted (X := X) hspec.imagePullSecrets hsecrets
  obtain ⟨volumes', hvolumes', hvolumesAgree⟩ := normalizeVolumes_permuted (X := X) hspec.volumes hvolumes
  have hparts : ViewParts X d' containers' secrets' volumes' := by
    refine ⟨⟨items', ?_, hcontainers'⟩, ?_, ?_⟩
    · rwa [podSpec_get]
    · rw [podSpec_get]
      exact hsecrets'
    · rwa [podSpec_get]
  refine ⟨_, templateContractView_eq_ok.mpr ⟨_, _, _, hparts, rfl⟩, fun huntied => ?_⟩
  have hgrace : gracePeriod (podSpec d') = gracePeriod (podSpec d) := by
    have hsame := hspec.gracePeriod
    unfold gracePeriod at hsame ⊢
    rw [podSpec_get, podSpec_get]
    exact hsame
  have hother : ∀ key, key ∉ ["volumes", "imagePullSecrets", "containers", "terminationGracePeriodSeconds"] →
      (podSpec d').get key = (podSpec d).get key := by
    intro key hkey
    rw [podSpec_get, podSpec_get]
    exact hspec.other hkey
  have hviews : Agrees X (.obj containers) (.obj containers') := by
    refine agrees_obj.mpr fun name => ?_
    have hname := hnames name
    have hitemsOf := itemsOf_of_entries hitems
    rw [get_obj, get_obj]
    revert hname
    cases hcontainer : containerOf name items with
    | none =>
      rintro ⟨hnone, hnone'⟩
      rw [hnone, hnone']
      exact agrees_refl .null
    | some c =>
      rintro ⟨cview, cview', hcview, hcview', hagrees⟩
      rw [hcview, hcview']
      refine hagrees (huntied.containers name c ?_)
      rw [podSpec_get, ← hitemsOf]
      exact hcontainer
  rw [assembledView, assembledView, h.metadata, hgrace, hother _ (by decide), hother _ (by decide), hother _ (by decide)]
  have hsecretsUntied := huntied.imagePullSecrets
  have hvolumesUntied := huntied.volumes
  rw [podSpec_get] at hsecretsUntied hvolumesUntied
  refine agrees_fields ?_
  exact .cons ⟨rfl, agrees_refl _⟩ (.cons ⟨rfl, agrees_refl _⟩ (.cons ⟨rfl, agrees_refl _⟩ (.cons ⟨rfl, agrees_refl _⟩
    (.cons ⟨rfl, agrees_refl _⟩ (.cons ⟨rfl, agrees_list.mpr (hsecretsAgree hsecretsUntied)⟩
    (.cons ⟨rfl, agrees_list.mpr (hvolumesAgree hvolumesUntied)⟩ (.cons ⟨rfl, hviews⟩ .nil)))))))

end Workloads

end PlatformGitops.DriftDetection
