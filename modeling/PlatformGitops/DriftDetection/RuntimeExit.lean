import PlatformGitops.DriftDetection.PrTimeParity
import PlatformGitops.DriftDetection.WellFormedObjects
import Mathlib

/-! The exit status of the gate against a running cluster: when it is that of drift without any. -/

namespace PlatformGitops.DriftDetection

open Library
open Coordination (truthy orElse)

section Spec

structure WellFormedObject (d : Json) : Prop where
  object : IsObject d
  kind : HasText "kind" d
  hasMetadata : IsObject (d.get "metadata")
  name : ∃ n, n ≠ "" ∧ (d.get "metadata").get "name" = .str n
  labels : Maybe IsObject ((d.get "metadata").get "labels")
  uid : MayHaveText "uid" (d.get "metadata")

structure WellFormedWorkload (d : Json) : Prop extends WellFormedObject d where
  podSpec : WellFormedPodSpec (rawSpec d)

structure WellFormedReplicaSet (rs : Json) : Prop extends WellFormedObject rs where
  owners : ListOf (fun o => IsObject o ∧ HasText "kind" o ∧ HasText "uid" o) ((rs.get "metadata").get "ownerReferences")
  created : MayHaveText "creationTimestamp" (rs.get "metadata")
  spec : Maybe IsObject (rs.get "spec")
  replicas : Maybe (fun v => ∃ n, v = .int n) ((rs.get "spec").get "replicas")
  status : Maybe IsObject (rs.get "status")

/-- The answers of a cluster without failure, and the documents of an overlay, all well-formed. -/
structure WellFormedAnswers (docs live replicasets : List Json) : Prop where
  docs : ∀ d ∈ docs, WellFormedObject d ∧ (isWorkload d → WellFormedWorkload d)
  live : ∀ d ∈ live, WellFormedWorkload d
  replicasets : ∀ rs ∈ replicasets, WellFormedReplicaSet rs

/-- Exit 1 says that drift was found, and what could not be evaluated exits with 3. -/
structure SeparatesDrift (run : Except GateError GateExit) : Prop where
  drift : exitStatus run = 1 → ∃ f ∈ emitted run, f.severity = .p1
  failure : ∀ e, run = .error e → exitStatus run = execErrorExit

/-- The last workload of a name. -/
def lastNamed (name : String) (workloads : List Json) : Option Json :=
  (workloads.filter fun w => isText name (workloadName w)).getLast?

/-- Both workloads of each service that is compared can be normalized. -/
def ComparedNormalizable (env : String) (catalog : ServicesCatalog) (docs live : List Json) : Prop :=
  ∀ svc ∈ templateServices env catalog, ∀ desired running, lastNamed svc.name (docs.filter isWorkload) = some desired →
    lastNamed svc.name live = some running → Normalizable desired ∧ Normalizable running

end Spec

section Reading

variable {X : Externals} {T : Texts} {d v : Json} {key name : String} {names : List String} {docs : List Json}

lemma field_ok (h : IsObject v) (key : String) : field v key = .ok (v.get key) := by
  obtain ⟨fields, rfl⟩ := h
  rfl

lemma isObject_orElse (h : Maybe IsObject v) : IsObject (orElse v (.obj [])) := by
  rcases h with rfl | ⟨fields, rfl⟩
  · exact ⟨[], rfl⟩
  · unfold orElse
    split
    · exact ⟨fields, rfl⟩
    · exact ⟨[], rfl⟩

lemma WellFormedObject.metadataObject (h : WellFormedObject d) : IsObject (metadata d) := isObject_orElse (Or.inr h.hasMetadata)

lemma metadata_get (d : Json) (key : String) : (metadata d).get key = (d.get "metadata").get key := get_orElse _ _

lemma WellFormedObject.metadataField_ok (h : WellFormedObject d) (key : String) :
    metadataField d key = .ok ((d.get "metadata").get key) := by
  rw [metadataField, field_ok h.object]
  exact (field_ok h.metadataObject key).trans (by rw [metadata_get])

lemma WellFormedObject.named (h : WellFormedObject d) : ∃ n, workloadName d = .str n := by
  obtain ⟨n, hn, hname⟩ := h.name
  refine ⟨n, ?_⟩
  rw [workloadName, metadata_get, hname, orElse, if_pos (by simpa [truthy] using hn)]

lemma WellFormedObject.deployName_ok (h : WellFormedObject d) : deployName d = .ok (workloadName d) := by
  rw [deployName, field_ok h.object]
  change (field (metadata d) "name" >>= fun name => pure (orElse name (.str ""))) = _
  rw [field_ok h.metadataObject]
  rfl

lemma WellFormedObject.deployKey_ok (h : WellFormedObject d) (hname : workloadName d = .str name) :
    deployKey X d = .ok (.text name) := by
  rw [deployKey, h.deployName_ok, hname]
  rfl

lemma WellFormedObject.isPlatformScoped_ok (h : WellFormedObject d) : ∃ b, isPlatformScoped d = .ok b := by
  have hlabels : IsObject (orElse ((metadata d).get "labels") (.obj [])) := by
    refine isObject_orElse ?_
    rw [metadata_get]
    exact h.labels
  rw [isPlatformScoped, field_ok h.object]
  change ∃ b, (field (metadata d) "labels" >>= fun labels => _) = Except.ok b
  rw [field_ok h.metadataObject]
  change ∃ b, (field (orElse ((metadata d).get "labels") (.obj [])) scopeLabel >>= fun v => _) = Except.ok b
  rw [field_ok hlabels]
  exact ⟨_, rfl⟩

lemma WellFormedObject.isContractScoped_ok (h : WellFormedObject d) :
    isContractScoped X names d = .ok (contractScoped names d) := by
  obtain ⟨b, hb⟩ := h.isPlatformScoped_ok
  obtain ⟨n, hn⟩ := h.named
  have hscoped : ∃ b, isContractScoped X names d = .ok b := by
    rw [isContractScoped, hb]
    cases b with
    | true => exact ⟨true, rfl⟩
    | false => exact ⟨_, by simp only [bind, Except.bind, h.deployKey_ok hn, Bool.false_eq_true, if_false]; rfl⟩
  obtain ⟨b', hb'⟩ := hscoped
  rw [hb', isContractScoped_eq hb']

lemma WellFormedObject.inTemplateScope_ok (h : WellFormedObject d) :
    inTemplateScope X names d = .ok (isWorkload d && contractScoped names d) := by
  obtain ⟨kind, hkind⟩ := h.kind
  have hget : d.get "kind" = .str kind := by rw [get_eq_item, hkind, Option.getD_some]
  have htemplate : ∃ b, isTemplateWorkload X d = .ok b := by
    rw [isTemplateWorkload, field_ok h.object, hget]
    exact ⟨_, rfl⟩
  have hscope : ∃ b, inTemplateScope X names d = .ok b := by
    obtain ⟨b, hb⟩ := htemplate
    rw [inTemplateScope, hb]
    cases b with
    | true => exact ⟨_, h.isContractScoped_ok⟩
    | false => exact ⟨false, rfl⟩
  obtain ⟨b, hb⟩ := hscope
  rw [hb, inTemplateScope_eq hb]

lemma filterTest_ok {test : Json → Except NormalizeError Bool} {p : Json → Bool} (h : ∀ d ∈ docs, test d = .ok (p d)) :
    filterTest test docs = .ok (docs.filter p) := by
  induction docs with
  | nil => rfl
  | cons d docs ih =>
    obtain ⟨hd, hdocs⟩ := List.forall_mem_cons.mp h
    rw [filterTest, hd, ih hdocs, List.filter_cons]
    rfl

/-- Under a name stands the last workload that has it. -/
lemma byName_ok (h : ∀ d ∈ docs, WellFormedObject d) :
    ∃ index, byName X docs = .ok index ∧ ∀ name, index.get? (.text name) = lastNamed name docs := by
  have hkeys : ∀ d ∈ docs, deployKey X d = .ok (.text ((workloadName d).asStr?.getD "")) := fun d hd => by
    obtain ⟨n, hn⟩ := (h d hd).named
    rw [(h d hd).deployKey_ok hn, hn]
    rfl
  have hpairs : (docs.mapM fun d => do pure (← deployKey X d, d)) =
      Except.ok (ε := NormalizeError) (docs.map fun d => (DictKey.text ((workloadName d).asStr?.getD ""), d)) :=
    Fallible.mapM_of_ok fun d hd => by rw [hkeys d hd]; rfl
  refine ⟨_, by rw [byName, hpairs]; rfl, fun name => ?_⟩
  rw [Dict.get?, Dict.lookup_ofPairs, List.filter_map, List.getLast?_map, Option.map_map, lastNamed]
  have hfilter : docs.filter ((fun p : DictKey × Json => decide (p.1 = .text name)) ∘ fun d =>
      (DictKey.text ((workloadName d).asStr?.getD ""), d)) = docs.filter fun w => isText name (workloadName w) := by
    refine List.filter_congr fun d hd => ?_
    obtain ⟨n, hn⟩ := (h d hd).named
    simp [hn, isText, Json.asStr?]
  rw [hfilter]
  exact Option.map_id'

end Reading

section ReplicaSets

variable {X : Externals} {T : Texts} {d rs v : Json} {names : List String} {live replicasets : List Json}
  {uidToName : Dict DictKey Json} {groups : Dict DictKey (List Json)} {now : ℚ} {grace : ℤ}

lemma dictKey_text_ok {key : String} (h : MayHaveText key v) : ∃ k, dictKey X (v.get key) = .ok k := by
  rw [get_eq_item]
  rcases h with hnone | ⟨s, hs⟩
  · exact ⟨.none, by rw [hnone]; rfl⟩
  · exact ⟨.text s, by rw [hs]; rfl⟩

lemma addUid_ok (h : WellFormedObject d) : ∃ next, addUid X names uidToName d = .ok next := by
  obtain ⟨k, hk⟩ := dictKey_text_ok (X := X) h.uid
  rw [addUid, h.isContractScoped_ok]
  simp only [bind, Except.bind]
  split
  · rw [h.metadataField_ok, h.deployName_ok]
    simp only [hk]
    split
    · exact ⟨_, rfl⟩
    · exact ⟨_, rfl⟩
  · exact ⟨_, rfl⟩

/-- Only replica sets of the answer are grouped. -/
def GroupsOf (replicasets : List Json) (groups : Dict DictKey (List Json)) : Prop := ∀ p ∈ groups, ∀ r ∈ p.2, r ∈ replicasets

lemma addOwner_ok (hrs : rs ∈ replicasets) {owner : Json} (h : IsObject owner ∧ HasText "kind" owner ∧ HasText "uid" owner)
    (hgroups : GroupsOf replicasets groups) : ∃ next, addOwner X uidToName rs groups owner = .ok next ∧ GroupsOf replicasets next := by
  obtain ⟨hobject, -, huid⟩ := h
  obtain ⟨k, hk⟩ := dictKey_text_ok (X := X) (Or.inr huid)
  have hold : ∀ r ∈ (groups.get? k).getD [], r ∈ replicasets := by
    intro r hr
    cases hget : groups.get? k with
    | none =>
      rw [hget] at hr
      cases hr
    | some group =>
      rw [hget] at hr
      obtain ⟨before, after, heq, -⟩ := List.lookup_eq_some_iff.mp hget
      exact hgroups (k, group) (by rw [heq]; simp) r hr
  rw [addOwner, field_ok hobject]
  simp only [bind, Except.bind]
  split
  · rw [field_ok hobject]
    simp only [hk]
    refine ⟨_, rfl, ?_⟩
    split
    · refine Dict.forall_set hgroups fun r hr => ?_
      rcases List.mem_append.mp hr with hr | hr
      · exact hold r hr
      · exact List.mem_singleton.mp hr ▸ hrs
    · exact hgroups
  · exact ⟨_, rfl, hgroups⟩

lemma addReplicaSet_ok (hrs : rs ∈ replicasets) (h : WellFormedReplicaSet rs) (hgroups : GroupsOf replicasets groups) :
    ∃ next, addReplicaSet X uidToName groups rs = .ok next ∧ GroupsOf replicasets next := by
  obtain ⟨hentries, howners⟩ := h.owners.entries
  rw [addReplicaSet, h.metadataField_ok]
  simp only [bind, Except.bind, hentries]
  exact Fallible.exists_foldlM_eq_ok (fun _ owner howner hinv => addOwner_ok hrs (howners owner howner) hinv) hgroups

lemma isActive_ok (h : WellFormedReplicaSet rs) : ∃ b, isActive X rs = .ok b := by
  rw [isActive, field_ok h.object]
  simp only [bind, Except.bind]
  rw [field_ok (isObject_orElse h.spec), get_orElse]
  rcases h.replicas with hnull | ⟨n, hn⟩
  · rw [hnull]
    exact ⟨_, rfl⟩
  · rw [hn]
    have hnumber : ∃ q, number? X (orElse (.int n) (.int 0)) = some q := by
      unfold orElse
      split
      · exact ⟨_, rfl⟩
      · exact ⟨_, rfl⟩
    obtain ⟨q, hq⟩ := hnumber
    exact ⟨decide (0 < q), by simp only [hq]; rfl⟩

lemma creationTimestamp_ok (h : WellFormedReplicaSet rs) : ∃ t, creationTimestamp rs = .ok t := by
  obtain ⟨fields, hfields⟩ := h.hasMetadata
  have hcreated := h.created
  rw [hfields] at hcreated
  rw [creationTimestamp, field_ok h.object, hfields]
  simp only [bind, Except.bind, orElse_obj]
  exact textKey_ok ⟨fields, rfl⟩ hcreated

lemma newestOf_mem (best : String × Json) (rest : List (String × Json)) : newestOf best rest ∈ best :: rest := by
  induction rest generalizing best with
  | nil => exact List.mem_singleton_self best
  | cons p rest ih =>
    rw [newestOf]
    rcases List.mem_cons.mp (ih (if best.1 < p.1 then p else best)) with heq | hmem
    · rw [heq]
      split
      · exact List.mem_cons_of_mem _ List.mem_cons_self
      · exact List.mem_cons_self
    · exact List.mem_cons_of_mem _ (List.mem_cons_of_mem _ hmem)

lemma stalledSplit_ok {group : DictKey × List Json} (h : ∀ r ∈ group.2, WellFormedReplicaSet r) :
    ∃ findings, stalledSplit X T now grace uidToName group = .ok findings := by
  have hactive : filterTest (isActive X) group.2 =
      .ok (group.2.filter fun r => (isActive X r).toOption.getD false) := by
    refine filterTest_ok fun r hr => ?_
    obtain ⟨b, hb⟩ := isActive_ok (X := X) (h r hr)
    rw [hb]
    rfl
  rw [stalledSplit, hactive]
  simp only [bind, Except.bind]
  split
  · exact ⟨[], rfl⟩
  · generalize hkept : group.2.filter (fun r => (isActive X r).toOption.getD false) = active
    have hwell : ∀ r ∈ active, WellFormedReplicaSet r := fun r hr =>
      h r (List.mem_of_mem_filter (hkept ▸ hr))
    obtain ⟨stamped, hstamped⟩ : ∃ stamped, (active.mapM fun rs => do pure (← creationTimestamp rs, rs)) =
        Except.ok (ε := NormalizeError) stamped := by
      refine Fallible.exists_mapM_eq_ok.mpr fun r hr => ?_
      obtain ⟨t, ht⟩ := creationTimestamp_ok (hwell r hr)
      exact ⟨(t, r), by rw [ht]; rfl⟩
    have hmem : ∀ p ∈ stamped, p.2 ∈ active := by
      intro p hp
      obtain ⟨r, hr, hpair⟩ := (Fallible.mapM_eq_ok hstamped).2 p hp
      obtain ⟨t, -, hpair⟩ := Fallible.bind_eq_ok.mp hpair
      cases Fallible.pure_eq_ok.mp hpair
      exact hr
    simp only [bind, Except.bind] at hstamped
    rw [hstamped]
    simp only
    cases stamped with
    | nil => exact ⟨[], rfl⟩
    | cons first rest =>
      have hnewest := hwell _ (hmem _ (newestOf_mem first rest))
      simp only [field_ok hnewest.object, field_ok (isObject_orElse hnewest.status)]
      exact ⟨_, rfl⟩

/-- Replica sets that are well-formed raise nothing. -/
lemma checkRsSplit_ok (hlive : ∀ d ∈ live, WellFormedWorkload d) (hreplicasets : ∀ rs ∈ replicasets, WellFormedReplicaSet rs) :
    ∃ findings, checkRsSplit X T live replicasets now grace names = .ok findings := by
  obtain ⟨uidToName, huids, -⟩ : ∃ out, live.foldlM (addUid X names) [] = .ok out ∧ True :=
    Fallible.exists_foldlM_eq_ok (fun _ d hd _ => by
      obtain ⟨next, hnext⟩ := addUid_ok (hlive d hd).toWellFormedObject
      exact ⟨next, hnext, trivial⟩) trivial
  obtain ⟨groups, hgroups, hinv⟩ : ∃ out, replicasets.foldlM (addReplicaSet X uidToName) [] = .ok out ∧ GroupsOf replicasets out :=
    Fallible.exists_foldlM_eq_ok (fun _ rs hrs hinv => addReplicaSet_ok hrs (hreplicasets rs hrs) hinv) (by rintro p ⟨⟩)
  obtain ⟨findings, hfindings⟩ : ∃ findings, groups.mapM (stalledSplit X T now grace uidToName) = .ok findings :=
    Fallible.exists_mapM_eq_ok.mpr fun group hgroup =>
      stalledSplit_ok fun r hr => hreplicasets r (hinv group hgroup r hr)
  exact ⟨_, by rw [checkRsSplit, huids]; simp only [bind, Except.bind, hgroups, hfindings]; rfl⟩

end ReplicaSets

section Exit

variable {str : Json → String} {T : Texts} {env : String} {catalog : ServicesCatalog} {docs live replicasets : List Json}
  {now : ℚ} {grace : ℤ} {svc : Service} {name : String}

lemma mem_allNames (h : svc ∈ templateServices env catalog) : svc.name ∈ catalog.allNames := by
  obtain ⟨henabled, -⟩ := List.mem_filter.mp h
  obtain ⟨hmem, -⟩ := List.mem_filter.mp henabled
  obtain ⟨p, hp, rfl⟩ := List.mem_map.mp hmem
  rw [catalog.keyed p hp]
  exact List.mem_map.mpr ⟨p, hp, rfl⟩

/-- Whatever has a catalogued name is in scope. -/
lemma lastNamed_scoped {p : Json → Bool} (h : name ∈ catalog.allNames) :
    lastNamed name (docs.filter fun d => p d && contractScoped catalog.allNames d) = lastNamed name (docs.filter p) := by
  rw [lastNamed, lastNamed, List.filter_filter, List.filter_filter]
  congr 1
  refine List.filter_congr fun d _ => ?_
  cases hname : isText name (workloadName d) with
  | false => rfl
  | true =>
    have hscoped : contractScoped catalog.allNames d = true := by
      rw [contractScoped, Bool.or_eq_true, List.any_eq_true]
      exact Or.inr ⟨name, h, hname⟩
    rw [hscoped, Bool.and_true]

lemma mem_of_lastNamed {ws : List Json} {w : Json} (h : lastNamed name ws = some w) : w ∈ ws :=
  List.mem_of_mem_filter (List.mem_of_getLast? h)

lemma semanticDiff_ok_iff {X : Externals} {desired running : Json} :
    (∃ diffs, semanticDiff X desired running = .ok diffs) ↔
      (∃ view, templateContractView X desired = .ok view) ∧ ∃ view, templateContractView X running = .ok view := by
  simp only [semanticDiff, Fallible.bind_eq_ok, Fallible.pure_eq_ok]
  constructor
  · rintro ⟨_, desiredView, hdesired, runningView, hrunning, -⟩
    exact ⟨⟨desiredView, hdesired⟩, runningView, hrunning⟩
  · rintro ⟨⟨desiredView, hdesired⟩, runningView, hrunning⟩
    exact ⟨_, desiredView, hdesired, runningView, hrunning, rfl⟩

lemma serviceDrift_ok_iff {X : Externals} {renderedByName liveByName : Dict DictKey Json} :
    (∃ findings, serviceDrift X T renderedByName liveByName svc = .ok findings) ↔
      ∀ desired running, renderedByName.get? (.text svc.name) = some desired → liveByName.get? (.text svc.name) = some running →
        ∃ diffs, semanticDiff X desired running = .ok diffs := by
  unfold serviceDrift
  split
  · rename_i hnone
    refine ⟨fun _ desired running h => ?_, fun _ => ⟨_, rfl⟩⟩
    rw [hnone] at h
    cases h
  · rename_i hnone
    refine ⟨fun _ desired running _ h => ?_, fun _ => ⟨_, rfl⟩⟩
    rw [hnone] at h
    cases h
  · rename_i desired running hdesired hrunning
    constructor
    · rintro ⟨findings, hfindings⟩ desired' running' hdesired' hrunning'
      rw [hdesired] at hdesired'
      rw [hrunning] at hrunning'
      cases hdesired'
      cases hrunning'
      obtain ⟨diffs, hdiffs, -⟩ := Fallible.bind_eq_ok.mp hfindings
      exact ⟨diffs, hdiffs⟩
    · intro h
      obtain ⟨diffs, hdiffs⟩ := h desired running hdesired hrunning
      exact ⟨_, by rw [hdiffs]; rfl⟩

/-- The comparison of well-formed answers raises just where a compared workload cannot be normalized. -/
lemma compareRuntime_ok_iff (h : WellFormedAnswers docs live replicasets) :
    (∃ findings, compareRuntime (normalizerExternals str) T env catalog (docs.filter truthy) live replicasets now grace = .ok findings) ↔
      ComparedNormalizable env catalog docs live := by
  have hrendered : filterTemplateWorkloads (normalizerExternals str) (docs.filter truthy) catalog.allNames =
      .ok (docs.filter fun d => isWorkload d && contractScoped catalog.allNames d) := by
    have hfilter : (docs.filter truthy).filter (fun d => isWorkload d && contractScoped catalog.allNames d) =
        docs.filter fun d => isWorkload d && contractScoped catalog.allNames d := by
      rw [List.filter_filter]
      refine List.filter_congr fun d _ => ?_
      cases hworkload : isWorkload d with
      | false => simp
      | true => simp [truthy_of_isWorkload hworkload]
    rw [← hfilter]
    exact filterTest_ok fun d hd => (h.docs d (List.mem_of_mem_filter hd)).1.inTemplateScope_ok
  have hlive : liveScoped (normalizerExternals str) catalog live = .ok (live.filter fun d => contractScoped catalog.allNames d) :=
    filterTest_ok fun d hd => (h.live d hd).isContractScoped_ok
  obtain ⟨renderedByName, hrenderedByName, hrenderedLast⟩ : ∃ index, byName (normalizerExternals str)
      (docs.filter fun d => isWorkload d && contractScoped catalog.allNames d) = .ok index ∧ _ :=
    byName_ok fun d hd => (h.docs d (List.mem_of_mem_filter hd)).1
  obtain ⟨liveByName, hliveByName, hliveLast⟩ : ∃ index, byName (normalizerExternals str)
      (live.filter fun d => contractScoped catalog.allNames d) = .ok index ∧ _ :=
    byName_ok fun d hd => (h.live d (List.mem_of_mem_filter hd)).toWellFormedObject
  obtain ⟨split, hsplit⟩ : ∃ findings, checkRsSplit (normalizerExternals str) T live replicasets now grace catalog.allNames =
      .ok findings := checkRsSplit_ok h.live h.replicasets
  simp only [compareRuntime, hrendered, hlive, hrenderedByName, hliveByName, hsplit, Fallible.bind_eq_ok, Except.ok.injEq,
    exists_eq_left', Fallible.pure_eq_ok]
  have hdrift : (∃ drift, (templateServices env catalog).mapM (serviceDrift (normalizerExternals str) T renderedByName liveByName) =
      .ok drift) ↔ ComparedNormalizable env catalog docs live := by
    rw [Fallible.exists_mapM_eq_ok]
    refine forall_congr' fun svc => forall_congr' fun hsvc => ?_
    rw [serviceDrift_ok_iff]
    refine forall_congr' fun desired => forall_congr' fun running => ?_
    have hname := mem_allNames hsvc
    have hrun : lastNamed svc.name (live.filter fun d => contractScoped catalog.allNames d) = lastNamed svc.name live := by
      have hscoped : lastNamed svc.name (live.filter fun d => true && contractScoped catalog.allNames d) =
          lastNamed svc.name (live.filter fun _ => true) := lastNamed_scoped hname
      simpa using hscoped
    rw [hrenderedLast, hliveLast, lastNamed_scoped hname, hrun]
    refine forall_congr' fun hdesired => forall_congr' fun hrunning => ?_
    obtain ⟨hmem, hworkload⟩ := List.mem_filter.mp (mem_of_lastNamed hdesired)
    rw [semanticDiff_ok_iff, templateContractView_ok_iff ((h.docs desired hmem).2 hworkload).podSpec,
      templateContractView_ok_iff (h.live running (mem_of_lastNamed hrunning)).podSpec]
  rw [← hdrift]
  constructor
  · rintro ⟨-, drift, hdrift, -⟩
    exact ⟨drift, hdrift⟩
  · rintro ⟨drift, hdrift⟩
    exact ⟨_, drift, hdrift, rfl⟩

/-- What is emitted exits with 1 for a finding of the first class alone. -/
lemma separatesDrift_emit (findings : List Finding) : SeparatesDrift (.ok (emit findings)) := by
  refine ⟨fun h => ?_, fun e h => (nomatch h)⟩
  have hcode : (emit findings).code = 1 := h
  have hp1 : findings.any (·.severity = .p1) = true := by
    by_contra hnone
    rw [emit, if_neg hnone] at hcode
    dsimp only at hcode
    split at hcode
    · cases hcode
    · cases hcode
  obtain ⟨f, hf, hseverity⟩ := List.any_eq_true.mp hp1
  exact ⟨f, hf, by simpa using hseverity⟩

lemma not_separatesDrift_error (e : GateError) : ¬SeparatesDrift (.error e) := by
  intro h
  have hstatus : exitStatus (.error e) = execErrorExit := h.failure e rfl
  cases hstatus

/-- The status tells drift from a gate that cannot evaluate just where the compared workloads can be normalized. -/
theorem runtime_exit_separates_drift (str : Json → String) (T : Texts) (env : String) (catalog : ServicesCatalog)
    (docs live replicasets : List Json) (now : ℚ) (grace : ℤ) (h : WellFormedAnswers docs live replicasets) :
    SeparatesDrift (mainRuntime (normalizerExternals str) T env (.ok catalog) true ⟨.ok docs, .ok live, .ok replicasets⟩ now grace) ↔
      ComparedNormalizable env catalog docs live := by
  have hiff : (∃ findings, compareRuntime (normalizerExternals str) T env catalog (docs.filter truthy) live replicasets now grace =
      .ok findings) ↔ ComparedNormalizable env catalog docs live := compareRuntime_ok_iff h
  rw [← hiff]
  cases hcompare : compareRuntime (normalizerExternals str) T env catalog (docs.filter truthy) live replicasets now grace with
  | ok findings =>
    have hmain : mainRuntime (normalizerExternals str) T env (.ok catalog) true ⟨.ok docs, .ok live, .ok replicasets⟩ now grace =
        .ok (emit findings) := by
      simp only [mainRuntime, runRuntime, kustomizeRender, bind, Except.bind, pure, Except.pure, hcompare, normalizing, if_true]
    rw [hmain]
    exact ⟨fun _ => ⟨findings, rfl⟩, fun _ => separatesDrift_emit findings⟩
  | error e =>
    have hmain : mainRuntime (normalizerExternals str) T env (.ok catalog) true ⟨.ok docs, .ok live, .ok replicasets⟩ now grace =
        .error (.normalize e) := by
      simp only [mainRuntime, runRuntime, kustomizeRender, bind, Except.bind, pure, Except.pure, hcompare, normalizing, if_true]
    rw [hmain]
    exact ⟨fun hseparates => absurd hseparates (not_separatesDrift_error _), fun ⟨_, hok⟩ => (nomatch hok)⟩

end Exit

section Samples

def sampleVariable (name : String) : Json := .obj [("name", .str name), ("value", .str "on")]

def sampleWorkload (modes : List String) : Json :=
  .obj [("kind", .str "Deployment"), ("metadata", .obj [("name", .str "api")]),
    ("spec", .obj [("template", .obj [("spec", .obj [("containers", .list
      [.obj [("name", .str "api"), ("env", .list (modes.map sampleVariable))]])])])])]

def sampleCatalog : ServicesCatalog :=
  .ofServices [⟨"api", "Deployment", "spring-actuator", [("test", "enabled")]⟩]

def sampleTexts : Texts := ⟨fun _ => "", fun _ => "", fun _ => none⟩

lemma wellFormed_sampleWorkload (modes : List String) : WellFormedWorkload (sampleWorkload modes) where
  object := ⟨_, rfl⟩
  kind := ⟨_, rfl⟩
  hasMetadata := ⟨_, rfl⟩
  name := ⟨"api", by decide, rfl⟩
  labels := Or.inl rfl
  uid := Or.inl rfl
  podSpec := by
    refine ⟨Or.inr ⟨_, rfl, ?_⟩, Or.inl rfl, Or.inl rfl⟩
    intro c hc
    rw [List.mem_singleton.mp hc]
    refine ⟨⟨_, rfl⟩, ⟨"api", by decide, rfl⟩, Or.inl rfl, Or.inr ⟨_, rfl, ?_⟩, Or.inl rfl, Or.inl rfl, Or.inl rfl, Or.inl rfl,
      Or.inl rfl, Or.inl rfl⟩
    intro e he
    obtain ⟨name, -, rfl⟩ := List.mem_map.mp he
    exact ⟨⟨_, rfl⟩, name, rfl⟩

lemma wellFormed_samples (modes : List String) :
    WellFormedAnswers [sampleWorkload modes] [sampleWorkload modes] [] := by
  refine ⟨fun d hd => ?_, fun d hd => ?_, by simp⟩
  · rw [List.mem_singleton.mp hd]
    exact ⟨(wellFormed_sampleWorkload modes).toWellFormedObject, fun _ => wellFormed_sampleWorkload modes⟩
  · rw [List.mem_singleton.mp hd]
    exact wellFormed_sampleWorkload modes

/-- A service with one variable, that runs as it is rendered. -/
theorem runtime_exit_separates_drift_one_variable :
    WellFormedAnswers [sampleWorkload ["MODE"]] [sampleWorkload ["MODE"]] [] ∧
      (SeparatesDrift (mainRuntime (normalizerExternals fun _ => "") sampleTexts "test" (.ok sampleCatalog) true
          ⟨.ok [sampleWorkload ["MODE"]], .ok [sampleWorkload ["MODE"]], .ok []⟩ 0 300) ↔
        ComparedNormalizable "test" sampleCatalog [sampleWorkload ["MODE"]] [sampleWorkload ["MODE"]]) :=
  ⟨wellFormed_samples _, runtime_exit_separates_drift _ _ _ _ _ _ _ _ _ (wellFormed_samples _)⟩

/-- A variable that is set twice, in the overlay and in the cluster alike, exits as drift. -/
theorem repeated_variable_exits_as_drift :
    ¬∀ (str : Json → String) (T : Texts) (env : String) (catalog : ServicesCatalog) (docs live replicasets : List Json)
      (now : ℚ) (grace : ℤ), WellFormedAnswers docs live replicasets →
        SeparatesDrift (mainRuntime (normalizerExternals str) T env (.ok catalog) true
          ⟨.ok docs, .ok live, .ok replicasets⟩ now grace) := by
  intro h
  have hrun : mainRuntime (normalizerExternals fun _ => "") sampleTexts "test" (.ok sampleCatalog) true
      ⟨.ok [sampleWorkload ["MODE", "MODE"]], .ok [sampleWorkload ["MODE", "MODE"]], .ok []⟩ 0 300 =
        .error (.normalize (.duplicateEnvNames [some "MODE"])) := by rfl
  have hseparates := h (fun _ => "") sampleTexts "test" sampleCatalog _ _ _ 0 300 (wellFormed_samples ["MODE", "MODE"])
  rw [hrun] at hseparates
  exact not_separatesDrift_error _ hseparates

end Samples

end PlatformGitops.DriftDetection
