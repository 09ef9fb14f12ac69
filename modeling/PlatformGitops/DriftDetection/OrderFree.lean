import PlatformGitops.DriftDetection.Reordered

/-! The workloads for which the semantic diff sees neither the order of lists nor defaults that are written out. -/

namespace PlatformGitops.DriftDetection

open Library
open Coordination (truthy orElse)

section Reordering

variable {X : Externals} {d v view : Json} {key k : String} {f : Json → Json} {items items' : List Json}

/-- The value with the value at one key replaced. -/
def onField (key : String) (f : Json → Json) : Json → Json
  | .obj fields => .obj (updateField key f fields)
  | v => v

/-- The workload with its pod's spec replaced. -/
def onPodSpec (f : Json → Json) : Json → Json := onField "spec" (onField "template" (onField "spec" f))

lemma item_onField (key k : String) (f : Json → Json) (v : Json) :
    (onField key f v).item? k = if k = key then (v.item? k).map f else v.item? k := by
  cases v with
  | obj fields => exact lookup_updateField k key f fields
  | _ =>
    split
    · rfl
    · rfl

lemma get_onField (hf : f .null = .null) (v : Json) : (onField key f v).get key = f (v.get key) := by
  rw [get_eq_item, get_eq_item, item_onField, if_pos rfl]
  cases v.item? key with
  | none => exact hf.symm
  | some u => rfl

lemma get_onField_other (hk : k ≠ key) (v : Json) : (onField key f v).get k = v.get k := by
  rw [get_eq_item, get_eq_item, item_onField, if_neg hk]

lemma rawSpec_onPodSpec (hf : f .null = .null) (d : Json) : rawSpec (onPodSpec f d) = f (rawSpec d) := by
  rw [rawSpec, onPodSpec, get_onField rfl, get_onField rfl, get_onField hf]
  rfl

lemma fieldsRel_onField {R : String → Option Json → Option Json → Prop} (hrefl : ∀ k o, R k o o)
    (h : ∀ u, v.item? key = some u → R key (some u) (some (f u))) : FieldsRel R v (onField key f v) := by
  cases v with
  | obj fields =>
    refine Or.inr ⟨fields, _, rfl, rfl, fun k => ?_⟩
    rw [lookup_updateField]
    by_cases hk : k = key
    · subst hk
      rw [if_pos rfl]
      cases hlookup : fields.lookup k with
      | none => exact hrefl k none
      | some u => exact h u hlookup
    · rw [if_neg hk]
      exact hrefl k _
  | _ => exact Or.inl rfl

lemma atKey_onField {R : Json → Json → Prop} (hrefl : ∀ u, R u u) (h : ∀ u, v.item? key = some u → R u (f u)) :
    AtKey key R v (onField key f v) := by
  refine fieldsRel_onField (fun k o => ?_) fun u hu => ?_
  · split_ifs
    · exact rel_of_refl hrefl o
    · rfl
  · rw [if_pos rfl]
    exact .some (h u hu)

lemma variant_onPodSpec (h : PodSpecVariant (rawSpec d) (f (rawSpec d))) : Variant d (onPodSpec f d) := by
  refine atKey_onField atKey_refl fun u hu => atKey_onField atKey_refl fun w hw => ?_
  refine atKey_onField podSpecVariant_refl fun s hs => ?_
  have hspec : rawSpec d = s := by
    rw [rawSpec, get_eq_item d, hu, Option.getD_some, get_eq_item u, hw, Option.getD_some, get_eq_item w, hs,
      Option.getD_some]
  rwa [← hspec]

lemma podSpecVariant_onField (h : ∀ u, v.item? key = some u →
      if key = "volumes" then Permuted VolumeVariant u (f u)
      else if key = "imagePullSecrets" then Permuted Eq u (f u)
      else if key = "containers" then ContainersVariant u (f u)
      else False) : PodSpecVariant v (onField key f v) := by
  refine fieldsRel_onField (fun k o => ?_) fun u hu => ?_
  · split_ifs
    · exact rel_of_refl permuted_refl o
    · exact rel_of_refl permuted_refl o
    · exact rel_of_refl containersVariant_refl o
    · exact Or.inl rfl
  · have hu := h u hu
    split_ifs at hu ⊢
    · exact .some hu
    · exact .some hu
    · exact .some hu

lemma containerVariant_onField (hkey : key ∈ ["ports", "env", "envFrom", "volumeMounts"])
    (h : ∀ u, v.item? key = some u → Permuted Eq u (f u)) : ContainerVariant v (onField key f v) := by
  refine fieldsRel_onField (fun k o => ?_) fun u hu => ?_
  · split_ifs
    · exact rel_of_refl permuted_refl o
    · exact rel_of_refl (fun u => Or.inl rfl) o
    · rfl
  · rw [if_pos hkey]
    exact .some (h u hu)

/-- The items in another order, where they stand. -/
lemma permuted_replace {R : Json → Json → Prop} (hrefl : ∀ u, R u u) (hperm : items.Perm items') {u : Json}
    (hu : v.get key = .list items) (hitem : v.item? key = some u) : Permuted R u (.list items') := by
  rw [get_eq_item, hitem, Option.getD_some] at hu
  exact Or.inr ⟨items, items, items', hu, rfl, List.forall₂_same.mpr fun a _ => hrefl a, hperm⟩

lemma itemsOf_cases (v : Json) : itemsOf v = [] ∨ v = .list (itemsOf v) := by
  cases v <;> simp [itemsOf]

lemma get_replaced (hv : v.get key = .list items) : (onField key (fun _ => .list items') v).get key = .list items' := by
  rw [get_eq_item] at hv
  rw [get_eq_item, item_onField, if_pos rfl]
  cases hitem : v.item? key with
  | none =>
    rw [hitem] at hv
    cases hv
  | some u => rfl

lemma perm_of_map {α β : Type} {f : α → β} {xs : List α} {ys : List β} (h : (xs.map f).Perm ys) :
    ∃ xs', xs.Perm xs' ∧ xs'.map f = ys := by
  have hmap : List.Forall₂ (fun b a => b = f a) (xs.map f) xs :=
    List.forall₂_map_left_iff.mpr (List.forall₂_same.mpr fun _ _ => rfl)
  obtain ⟨xs', hys, hperm⟩ := List.perm_comp_forall₂ h.symm hmap
  refine ⟨xs', hperm.symm, ?_⟩
  clear h hperm hmap
  induction hys with
  | nil => rfl
  | cons hab _ ih => rw [List.map_cons, ih, ← hab]

end Reordering

section Necessity

variable {X : Externals} {d d' view c c' : Json} {name : String} {items items' : List Json}

lemma agrees_of_semanticDiff (h : semanticDiff X d d' = .ok []) (hview : templateContractView X d = .ok view) :
    ∃ view', templateContractView X d' = .ok view' ∧ Agrees X view view' := by
  obtain ⟨desired, hdesired, h⟩ := Fallible.bind_eq_ok.mp h
  obtain ⟨live, hlive, h⟩ := Fallible.bind_eq_ok.mp h
  rw [hview] at hdesired
  cases hdesired
  exact ⟨live, hlive, agrees_of_diff (Fallible.pure_eq_ok.mp h)⟩

lemma agrees_parts {containers containers' : Fields} {secrets secrets' volumes volumes' : List Json}
    (h : Agrees X (assembledView d containers secrets volumes) (assembledView d' containers' secrets' volumes')) :
    Agrees X (.obj containers) (.obj containers') ∧ List.Forall₂ (Agrees X) secrets secrets' ∧
      List.Forall₂ (Agrees X) volumes volumes' := by
  rw [assembledView, assembledView, agrees_obj] at h
  have hcontainers := h "containers"
  have hsecrets := h "imagePullSecrets"
  have hvolumes := h "volumes"
  simp [Json.get, List.lookup_cons] at hcontainers hsecrets hvolumes
  exact ⟨hcontainers, agrees_list.mp hsecrets, agrees_list.mp hvolumes⟩

/-- No variant is told apart from the workload. -/
def Unseen (X : Externals) (d : Json) : Prop := ∀ d', Variant d d' → semanticDiff X d d' = .ok []

variable {views : Fields} {secretsOut volumesOut : List Json}

lemma ok_bind {α β : Type} {a : α} {g : α → Except NormalizeError β} {b : β} (h : (Except.ok a >>= g) = .ok b) :
    g a = .ok b := h

lemma Unseen.secrets (h : Unseen X d) (hparts : ViewParts X d views secretsOut volumesOut) :
    Untied X (textKey "name") (itemsOf ((podSpec d).get "imagePullSecrets")) := by
  have hsecrets := hparts.secrets
  rw [podSpec_get] at hsecrets ⊢
  rcases itemsOf_cases ((rawSpec d).get "imagePullSecrets") with hnil | hlist
  · rw [hnil]
    exact List.Pairwise.nil
  · rw [normalizeImagePullSecrets, hlist, entries_list] at hsecrets
    refine untied_of_sortedEntries hsecrets fun items' out' hperm hout' => ?_
    have hvariant : Variant d (onPodSpec (onField "imagePullSecrets" fun _ => .list items') d) :=
      variant_onPodSpec (podSpecVariant_onField fun u hu => permuted_replace (fun _ => rfl) hperm hlist hu)
    obtain ⟨view', hview', hagrees⟩ := agrees_of_semanticDiff (h _ hvariant)
      (templateContractView_eq_ok.mpr ⟨_, _, _, hparts, rfl⟩)
    obtain ⟨_, secrets', _, hparts', rfl⟩ := templateContractView_eq_ok.mp hview'
    have hsecrets' := hparts'.secrets
    rw [podSpec_get, rawSpec_onPodSpec rfl, get_replaced hlist, normalizeImagePullSecrets, entries_list] at hsecrets'
    have hsame : secrets' = out' := Except.ok.inj (hsecrets'.symm.trans hout')
    exact hsame ▸ (agrees_parts hagrees).2.1

lemma Unseen.volumes (h : Unseen X d) (hparts : ViewParts X d views secretsOut volumesOut) :
    Untied X (textKey "name") ((itemsOf ((podSpec d).get "volumes")).map normalizedVolume) := by
  have hvolumes := hparts.volumes
  rw [podSpec_get] at hvolumes ⊢
  rcases itemsOf_cases ((rawSpec d).get "volumes") with hnil | hlist
  · rw [hnil]
    exact List.Pairwise.nil
  · rw [normalizeVolumes, hlist, entries_list] at hvolumes
    obtain ⟨ns, hns, hsorted⟩ := Fallible.bind_eq_ok.mp (ok_bind hvolumes)
    obtain ⟨-, rfl⟩ := haveVolumes_of_mapM hns
    refine untied_of_sortedEntries hsorted fun ns' out' hperm hout' => ?_
    obtain ⟨items', hitems', rfl⟩ := perm_of_map hperm
    have hvariant : Variant d (onPodSpec (onField "volumes" fun _ => .list items') d) :=
      variant_onPodSpec (podSpecVariant_onField fun u hu => permuted_replace volumeVariant_refl hitems' hlist hu)
    obtain ⟨view', hview', hagrees⟩ := agrees_of_semanticDiff (h _ hvariant)
      (templateContractView_eq_ok.mpr ⟨_, _, _, hparts, rfl⟩)
    obtain ⟨_, _, volumes', hparts', rfl⟩ := templateContractView_eq_ok.mp hview'
    have hvolumes' := hparts'.volumes
    rw [podSpec_get, rawSpec_onPodSpec rfl, get_replaced hlist, normalizeVolumes, entries_list] at hvolumes'
    obtain ⟨ns', hns', hsorted'⟩ := Fallible.bind_eq_ok.mp (ok_bind hvolumes')
    obtain ⟨-, rfl⟩ := haveVolumes_of_mapM hns'
    have hsame : volumes' = out' := Except.ok.inj (hsorted'.symm.trans hout')
    exact hsame ▸ (agrees_parts hagrees).2.2

lemma lookup_addContainerView {next : Fields} (h : addContainerView X views c = .ok next) :
    (isNamed name c = true → ∃ view, containerContractView X c = .ok view ∧ next.lookup name = some view) ∧
      (isNamed name c = false → next.lookup name = views.lookup name) := by
  unfold addContainerView at h
  split at h
  · split at h
    · rename_i fields htruthy
      split at h
      · rename_i n hn
        obtain ⟨view, hview, h⟩ := Fallible.bind_eq_ok.mp h
        cases h
        rw [hn] at htruthy
        have hnonempty : n ≠ "" := by simpa [truthy] using htruthy
        constructor
        · intro hnamed
          obtain ⟨-, hget⟩ := isNamed_iff.mp hnamed
          rw [hn] at hget
          cases hget
          exact ⟨view, hview, by rw [Dict.lookup_set, if_pos rfl]⟩
        · intro hnamed
          rw [Dict.lookup_set, if_neg]
          rintro rfl
          rw [isNamed_iff.mpr ⟨hnonempty, hn⟩] at hnamed
          cases hnamed
      · cases h
    · rename_i fields hfalsy
      cases h
      refine ⟨fun hnamed => ?_, fun _ => rfl⟩
      obtain ⟨hnonempty, hget⟩ := isNamed_iff.mp hnamed
      rw [hget] at hfalsy
      exact absurd (by simpa [truthy] using hnonempty) hfalsy
  · cases h

lemma lookup_unnamed {next : Fields} (h : items.foldlM (addContainerView X) views = .ok next)
    (hitems : ∀ a ∈ items, isNamed name a = false) : next.lookup name = views.lookup name := by
  induction items generalizing views with
  | nil =>
    cases h
    rfl
  | cons a items ih =>
    obtain ⟨ha, hitems⟩ := List.forall_mem_cons.mp hitems
    rw [List.foldlM_cons] at h
    obtain ⟨mid, hmid, h⟩ := Fallible.bind_eq_ok.mp h
    exact (ih h hitems).trans ((lookup_addContainerView hmid).2 ha)

/-- The last container of a name is the one whose view stands under it. -/
lemma lookup_named {next : Fields} {before after : List Json}
    (h : (before ++ c :: after).foldlM (addContainerView X) views = .ok next) (hc : isNamed name c = true)
    (hafter : ∀ a ∈ after, isNamed name a = false) :
    ∃ view, containerContractView X c = .ok view ∧ next.lookup name = some view := by
  rw [List.foldlM_append] at h
  obtain ⟨mid, -, h⟩ := Fallible.bind_eq_ok.mp h
  rw [List.foldlM_cons] at h
  obtain ⟨mid', hmid', h⟩ := Fallible.bind_eq_ok.mp h
  obtain ⟨view, hview, hlookup⟩ := (lookup_addContainerView hmid').1 hc
  exact ⟨view, hview, (lookup_unnamed h hafter).trans hlookup⟩

lemma containerOf_eq_some (h : containerOf name items = some c) :
    ∃ before after, items = before ++ c :: after ∧ isNamed name c = true ∧ ∀ a ∈ after, isNamed name a = false := by
  obtain ⟨hc, after, before, heq, hafter⟩ := List.find?_eq_some_iff_append.mp h
  refine ⟨before.reverse, after.reverse, ?_, hc, fun a ha => by simpa using hafter a (List.mem_reverse.mp ha)⟩
  have hreverse := congrArg List.reverse heq
  simpa using hreverse

/-- A container that a variant changes has a view that agrees. -/
lemma Unseen.container (h : Unseen X d) (hparts : ViewParts X d views secretsOut volumesOut)
    (hc : containerOf name (itemsOf ((podSpec d).get "containers")) = some c) (hvariant : ContainerVariant c c') :
    ∃ cview cview', containerContractView X c = .ok cview ∧ containerContractView X c' = .ok cview' ∧
      Agrees X cview cview' := by
  obtain ⟨items, hitems, hviews⟩ := hparts.containers
  rw [← itemsOf_of_entries hitems] at hc
  obtain ⟨before, after, rfl, hnamed, hafter⟩ := containerOf_eq_some hc
  have hlist : (rawSpec d).get "containers" = .list (before ++ c :: after) := by
    rw [podSpec_get] at hitems
    have hof := itemsOf_of_entries hitems
    rcases itemsOf_cases ((rawSpec d).get "containers") with hnil | hlist
    · rw [hnil] at hof
      simp at hof
    · rw [hlist, ← hof]
  have hnamed' : isNamed name c' = true := by
    have hname : c'.get "name" = c.get "name" := hvariant.other (by decide) (by decide)
    rw [isNamed_iff] at hnamed ⊢
    rwa [hname]
  have hdeploy : Variant d (onPodSpec (onField "containers" fun _ => .list (before ++ c' :: after)) d) := by
    refine variant_onPodSpec (podSpecVariant_onField fun u hu => ?_)
    rw [get_eq_item, hu, Option.getD_some] at hlist
    refine Or.inr ⟨before ++ c :: after, before ++ c' :: after, hlist, rfl, ?_⟩
    have hrefl : ∀ l : List Json, List.Forall₂ ContainerVariant l l := fun l => List.forall₂_same.mpr fun a _ => Or.inl rfl
    exact List.rel_append (hrefl before) (.cons hvariant (hrefl after))
  obtain ⟨view', hview', hagrees⟩ := agrees_of_semanticDiff (h _ hdeploy)
    (templateContractView_eq_ok.mpr ⟨_, _, _, hparts, rfl⟩)
  obtain ⟨views', _, _, hparts', rfl⟩ := templateContractView_eq_ok.mp hview'
  obtain ⟨items', hitems', hviews'⟩ := hparts'.containers
  rw [podSpec_get, rawSpec_onPodSpec rfl, get_replaced hlist, entries_list] at hitems'
  cases hitems'
  obtain ⟨cview, hcview, hlookup⟩ := lookup_named hviews hnamed hafter
  obtain ⟨cview', hcview', hlookup'⟩ := lookup_named hviews' hnamed' hafter
  have hname := agrees_obj.mp (agrees_parts hagrees).1 name
  rw [get_obj, get_obj, hlookup, hlookup'] at hname
  exact ⟨cview, cview', hcview, hcview', hname⟩

/-- The parts of a container's view that are sorted. -/
lemma sorted_parts {cview : Json} (h : containerContractView X c = .ok cview) :
    ∃ ports env envFrom mounts, normalizePorts (c.get "ports") = .ok ports ∧ normalizeEnvList (c.get "env") = .ok env ∧
      normalizeEnvFromList X (c.get "envFrom") = .ok envFrom ∧ normalizeVolumeMounts (c.get "volumeMounts") = .ok mounts ∧
      cview.get "ports" = .list ports ∧ cview.get "env" = .list env ∧ cview.get "envFrom" = .list envFrom ∧
      cview.get "volumeMounts" = .list mounts := by
  simp only [containerContractView, Fallible.bind_eq_ok, Fallible.pure_eq_ok] at h
  obtain ⟨ports, hports, _, -, _, -, _, -, _, -, env, henv, envFrom, henvFrom, mounts, hmounts, rfl⟩ := h
  refine ⟨ports, env, envFrom, mounts, hports, henv, henvFrom, hmounts, ?_⟩
  simp [Json.get, List.lookup_cons]

lemma Agrees.get {a b : Json} {key : String} {xs ys : List Json} (h : Agrees X a b) (ha : ∃ fields, a = .obj fields)
    (hb : ∃ fields, b = .obj fields) (hx : a.get key = .list xs) (hy : b.get key = .list ys) :
    List.Forall₂ (Agrees X) xs ys := by
  obtain ⟨fields, rfl⟩ := ha
  obtain ⟨fields', rfl⟩ := hb
  have hkey := agrees_obj.mp h key
  rw [hx, hy] at hkey
  exact agrees_list.mp hkey

lemma obj_of_view {cview : Json} (h : containerContractView X c = .ok cview) : ∃ fields, cview = .obj fields := by
  simp only [containerContractView, Fallible.bind_eq_ok, Fallible.pure_eq_ok] at h
  obtain ⟨_, -, _, -, _, -, _, -, _, -, _, -, _, -, _, -, rfl⟩ := h
  exact ⟨_, rfl⟩

/-- One of the lists of a container, by the key it is sorted by. -/
lemma untied_of_container {κ : Type} [Inhabited κ] [LinearOrder κ] {key : Json → Except NormalizeError κ} {field : String}
    (hfield : field ∈ ["ports", "env", "envFrom", "volumeMounts"])
    (hread : ∀ {c cview}, containerContractView X c = .ok cview →
      ∃ out, (∀ items, c.get field = .list items → sortedEntries key items = .ok out) ∧ cview.get field = .list out)
    (h : ∀ c', ContainerVariant c c' → ∃ cview cview', containerContractView X c = .ok cview ∧
      containerContractView X c' = .ok cview' ∧ Agrees X cview cview') :
    Untied X key (itemsOf (c.get field)) := by
  rcases itemsOf_cases (c.get field) with hnil | hlist
  · rw [hnil]
    exact List.Pairwise.nil
  · obtain ⟨cview, -, hcview, -, -⟩ := h c (Or.inl rfl)
    obtain ⟨out, hout, hget⟩ := hread hcview
    refine untied_of_sortedEntries (hout _ hlist) fun items' out' hperm hout' => ?_
    obtain ⟨cview₂, cview', hcview₂, hcview', hagrees⟩ := h (onField field (fun _ => .list items') c)
      (containerVariant_onField hfield fun u hu => permuted_replace (fun _ => rfl) hperm hlist hu)
    rw [hcview] at hcview₂
    cases hcview₂
    obtain ⟨out₂, hout₂, hget'⟩ := hread hcview'
    have hsame : out₂ = out' := Except.ok.inj ((hout₂ items' (get_replaced hlist)).symm.trans hout')
    exact hsame ▸ hagrees.get (obj_of_view hcview) (obj_of_view hcview') hget hget'

lemma containerUntied_of_agrees
    (h : ∀ c', ContainerVariant c c' → ∃ cview cview', containerContractView X c = .ok cview ∧
      containerContractView X c' = .ok cview' ∧ Agrees X cview cview') : ContainerUntied X c := by
  refine ⟨untied_of_container (by decide) (fun hview => ?_) h, untied_of_container (by decide) (fun hview => ?_) h,
    untied_of_container (by decide) (fun hview => ?_) h, untied_of_container (by decide) (fun hview => ?_) h⟩
  · obtain ⟨ports, _, _, _, hports, -, -, -, hget, -⟩ := sorted_parts hview
    refine ⟨ports, fun items hitems => ?_, hget⟩
    rw [normalizePorts, hitems, entries_list] at hports
    exact hports
  · obtain ⟨_, env, _, _, -, henv, -, -, -, hget, -⟩ := sorted_parts hview
    refine ⟨env, fun items hitems => ?_, hget⟩
    simp only [normalizeEnvList, hitems, entries_list, Fallible.bind_eq_ok, Except.ok.injEq, exists_eq_left'] at henv
    obtain ⟨_, -, _, -, hsorted⟩ := henv
    exact hsorted
  · obtain ⟨_, _, envFrom, _, -, -, henvFrom, -, -, -, hget, -⟩ := sorted_parts hview
    refine ⟨envFrom, fun items hitems => ?_, hget⟩
    rw [normalizeEnvFromList, hitems, entries_list] at henvFrom
    exact henvFrom
  · obtain ⟨_, _, _, mounts, -, -, -, hmounts, -, -, -, hget⟩ := sorted_parts hview
    refine ⟨mounts, fun items hitems => ?_, hget⟩
    rw [normalizeVolumeMounts, hitems, entries_list] at hmounts
    exact hmounts

end Necessity

/-- A reader of quantities that are written in digits, without a unit, or with the unit that they are counted in. -/
def plainExternals : Externals where
  parseCpuToMillicores v :=
    match v with
    | .int n => .ok (.int (n * 1000))
    | _ => .ok .null
  parseMemoryToBytes v := .ok v
  floatValue _ := 0
  str _ := "None"

/-- A workload of one container, with these ports. -/
def portsWorkload (ports : List Json) : Json :=
  .obj [("spec", .obj [("template", .obj [("spec", .obj [("containers", .list [.obj [("name", .str "dns"),
    ("ports", .list ports)]])])])])]

def dnsPort (protocol : String) : Json := .obj [("containerPort", .int 53), ("protocol", .str protocol)]

end PlatformGitops.DriftDetection
