import PlatformGitops.DriftDetection.DeploymentContracts
import PlatformGitops.DriftDetection.Quantities

/-! What a gate without findings says of the rendered documents and the catalog. -/

namespace PlatformGitops.DriftDetection

open Library
open Coordination (truthy orElse)

section Spec

def isWorkload (d : Json) : Bool := templateWorkloadKinds.any (isText · (d.get "kind"))

def metadata (d : Json) : Json := orElse (d.get "metadata") (.obj [])

def workloadName (d : Json) : Json := orElse ((metadata d).get "name") (.str "")

def carriesScopeLabel (d : Json) : Bool := isText scopeValue ((orElse ((metadata d).get "labels") (.obj [])).get scopeLabel)

def contractScoped (catalogNames : List String) (d : Json) : Bool :=
  carriesScopeLabel d || catalogNames.any (isText · (workloadName d))

/-- The rendered workloads of a name, of either kind and in any namespace. -/
def workloadsNamed (name : String) (docs : List Json) : List Json :=
  docs.filter fun d => isWorkload d && isText name (workloadName d)

structure RenderParity (X : Externals) (env : String) (catalog : ServicesCatalog) (docs : List Json) : Prop where
  rendered : ∀ svc ∈ templateServices env catalog, ∃ w, workloadsNamed svc.name docs = [w] ∧
    w.get "kind" = .str svc.workloadKind ∧ MeetsContract X svc.probeContract svc.name w
  catalogued : ∀ d ∈ docs, isWorkload d → contractScoped catalog.allNames d →
    ∃ svc, catalog.get svc.name = some svc ∧ workloadName d = .str svc.name

/-- No workload takes the place of another one of its name, or of one of the catalogued kind. -/
def Unshadowed (env : String) (catalog : ServicesCatalog) (docs : List Json) : Prop :=
  ∀ svc ∈ templateServices env catalog, (workloadsNamed svc.name docs).length ≤ 1 ∧
    ∀ w ∈ workloadsNamed svc.name docs, w.get "kind" = .str svc.workloadKind

end Spec

section Readers

variable {X : Externals} {d : Json} {b : Bool} {names : List String} {name : String} {v : Json}

lemma bool_eq {P : Prop} [Decidable P] (h : (pure (decide P) : Except NormalizeError Bool) = .ok b) : b = decide P :=
  (Fallible.pure_eq_ok.mp h).symm

lemma dictKey_text (h : dictKey X v = .ok (.text name)) : v = .str name := by
  cases v with
  | str s =>
    cases h
    rfl
  | _ => cases h

lemma mem_text_of_dictKey {key : DictKey} (h : dictKey X v = .ok key) :
    decide (key ∈ names.map DictKey.text) = names.any (isText · v) := by
  cases v with
  | str s =>
    cases h
    rw [Bool.eq_iff_iff, decide_eq_true_eq, List.any_eq_true]
    simp [isText_iff]
  | list items => cases h
  | obj fields => cases h
  | _ =>
    cases h
    simp [isText, Json.asStr?]

lemma isTemplateWorkload_eq (h : isTemplateWorkload X d = .ok b) : b = isWorkload d := by
  obtain ⟨kind, hkind, hlookup⟩ := Fallible.bind_eq_ok.mp h
  obtain ⟨key, hkey, hmem⟩ := Fallible.bind_eq_ok.mp hlookup
  obtain ⟨-, rfl⟩ := field_eq_ok.mp hkind
  exact (Fallible.pure_eq_ok.mp hmem).symm.trans (mem_text_of_dictKey hkey)

lemma deployName_eq (h : deployName d = .ok v) : v = workloadName d := by
  obtain ⟨metadata, hmetadata, h⟩ := Fallible.bind_eq_ok.mp h
  obtain ⟨name, hname, h⟩ := Fallible.bind_eq_ok.mp h
  obtain ⟨-, rfl⟩ := field_eq_ok.mp hmetadata
  obtain ⟨-, rfl⟩ := field_eq_ok.mp hname
  exact (Fallible.pure_eq_ok.mp h).symm

lemma deployKey_eq {key : DictKey} (h : deployKey X d = .ok key) : dictKey X (workloadName d) = .ok key := by
  obtain ⟨name, hname, h⟩ := Fallible.bind_eq_ok.mp h
  rwa [← deployName_eq hname]

lemma isPlatformScoped_eq (h : isPlatformScoped d = .ok b) : b = carriesScopeLabel d := by
  obtain ⟨metadata, hmetadata, h⟩ := Fallible.bind_eq_ok.mp h
  obtain ⟨labels, hlabels, h⟩ := Fallible.bind_eq_ok.mp h
  obtain ⟨value, hvalue, h⟩ := Fallible.bind_eq_ok.mp h
  obtain ⟨-, rfl⟩ := field_eq_ok.mp hmetadata
  obtain ⟨-, rfl⟩ := field_eq_ok.mp hlabels
  obtain ⟨-, rfl⟩ := field_eq_ok.mp hvalue
  exact (Fallible.pure_eq_ok.mp h).symm

lemma isContractScoped_eq (h : isContractScoped X names d = .ok b) : b = contractScoped names d := by
  obtain ⟨platform, hplatform, h⟩ := Fallible.bind_eq_ok.mp h
  have hplatform := isPlatformScoped_eq hplatform
  subst hplatform
  rw [contractScoped]
  split at h
  · rename_i hlabel
    rw [hlabel, ← Fallible.pure_eq_ok.mp h, Bool.true_or]
  · rename_i hlabel
    obtain ⟨key, hkey, h⟩ := Fallible.bind_eq_ok.mp h
    rw [Bool.not_eq_true] at hlabel
    rw [hlabel, ← Fallible.pure_eq_ok.mp h, mem_text_of_dictKey (deployKey_eq hkey), Bool.false_or]

lemma inTemplateScope_eq (h : inTemplateScope X names d = .ok b) : b = (isWorkload d && contractScoped names d) := by
  obtain ⟨workload, hworkload, h⟩ := Fallible.bind_eq_ok.mp h
  have hworkload := isTemplateWorkload_eq hworkload
  subst hworkload
  split at h
  · rename_i hkind
    rw [hkind, isContractScoped_eq h, Bool.true_and]
  · rename_i hkind
    rw [Bool.not_eq_true] at hkind
    rw [hkind, ← Fallible.pure_eq_ok.mp h, Bool.false_and]

lemma filterTest_eq {test : Json → Except NormalizeError Bool} {p : Json → Bool} {docs kept : List Json}
    (hp : ∀ {d b}, test d = .ok b → b = p d) (h : filterTest test docs = .ok kept) : kept = docs.filter p := by
  induction docs generalizing kept with
  | nil =>
    cases h
    rfl
  | cons d docs ih =>
    obtain ⟨keep, hkeep, h⟩ := Fallible.bind_eq_ok.mp h
    obtain ⟨rest, hrest, h⟩ := Fallible.bind_eq_ok.mp h
    rw [← Fallible.pure_eq_ok.mp h, hp hkeep, ih hrest, List.filter_cons]

end Readers

section Parity

variable {X : Externals} {T : Texts} {overlayDir env : String} {catalog : ServicesCatalog} {docs rendered : List Json}
  {renderedByName : Dict DictKey Json} {svc : Service} {w d : Json}

lemma mem_byName {key : DictKey} (h : byName X rendered = .ok renderedByName)
    (hkey : renderedByName.get? key = some w) : w ∈ rendered ∧ dictKey X (workloadName w) = .ok key := by
  obtain ⟨pairs, hpairs, h⟩ := Fallible.bind_eq_ok.mp h
  rw [← Fallible.pure_eq_ok.mp h] at hkey
  obtain ⟨d, hd, hpair⟩ := (Fallible.mapM_eq_ok hpairs).2 _ (Dict.mem_of_lookup_ofPairs hkey)
  obtain ⟨k, hk, hpair⟩ := Fallible.bind_eq_ok.mp hpair
  cases Fallible.pure_eq_ok.mp hpair
  exact ⟨hd, deployKey_eq hk⟩

lemma key_mem_byName (h : byName X rendered = .ok renderedByName) (hd : d ∈ rendered) :
    ∃ key ∈ renderedByName.map (·.1), dictKey X (workloadName d) = .ok key := by
  obtain ⟨pairs, hpairs, h⟩ := Fallible.bind_eq_ok.mp h
  obtain ⟨pair, hmem, hpair⟩ := (Fallible.mapM_eq_ok hpairs).1 d hd
  obtain ⟨key, hkey, hpair⟩ := Fallible.bind_eq_ok.mp hpair
  cases Fallible.pure_eq_ok.mp hpair
  refine ⟨key, ?_, deployKey_eq hkey⟩
  rw [← Fallible.pure_eq_ok.mp h, Dict.mem_keys_ofPairs]
  exact List.mem_map.mpr ⟨_, hmem, rfl⟩

lemma truthy_of_isWorkload (h : isWorkload d = true) : truthy d = true := by
  cases d with
  | obj fields =>
    cases fields with
    | nil => cases h
    | cons p fields => rfl
  | _ => cases h

/-- What the gate computed when it found nothing. -/
structure CleanGate (X : Externals) (T : Texts) (overlayDir env : String) (catalog : ServicesCatalog) (docs : List Json)
    (renderedByName : Dict DictKey Json) : Prop where
  indexed : byName X (docs.filter fun d => isWorkload d && contractScoped catalog.allNames d) = .ok renderedByName
  noneMissing : missingRenders overlayDir env catalog renderedByName = []
  classified : ∀ key ∈ renderedByName.map (·.1), classify T overlayDir catalog key = []
  asserted : ∀ svc ∈ catalog.enabledIn env, assertService X T renderedByName svc = .ok []

lemma cleanGate (h : runPrTime X T overlayDir env catalog (.ok docs) = .ok []) :
    ∃ renderedByName, CleanGate X T overlayDir env catalog docs renderedByName := by
  have hcheck : checkRendered X T overlayDir env catalog (docs.filter truthy) = .ok [] := by
    have hnormalizing : normalizing (checkRendered X T overlayDir env catalog (docs.filter truthy)) = .ok [] := h
    cases hresult : checkRendered X T overlayDir env catalog (docs.filter truthy) with
    | ok findings =>
      rw [hresult] at hnormalizing
      cases hnormalizing
      rfl
    | error e =>
      rw [hresult] at hnormalizing
      cases hnormalizing
  obtain ⟨rendered, hrendered, hcheck⟩ := Fallible.bind_eq_ok.mp hcheck
  obtain ⟨renderedByName, hindexed, hcheck⟩ := Fallible.bind_eq_ok.mp hcheck
  obtain ⟨asserted, hasserted, hcheck⟩ := Fallible.bind_eq_ok.mp hcheck
  obtain ⟨hleft, hflatten⟩ := List.append_eq_nil_iff.mp (Fallible.pure_eq_ok.mp hcheck)
  obtain ⟨hmissing, hclassified⟩ := List.append_eq_nil_iff.mp hleft
  have hfilter := filterTest_eq inTemplateScope_eq hrendered
  rw [List.filter_filter] at hfilter
  have hscope : rendered = docs.filter fun d => isWorkload d && contractScoped catalog.allNames d := by
    rw [hfilter]
    refine List.filter_congr fun d _ => ?_
    cases hworkload : isWorkload d with
    | false => simp
    | true => simp [truthy_of_isWorkload hworkload]
  refine ⟨renderedByName, hscope ▸ hindexed, hmissing, List.flatMap_eq_nil_iff.mp hclassified, fun svc hsvc => ?_⟩
  obtain ⟨findings, hmem, hservice⟩ := (Fallible.mapM_eq_ok hasserted).1 svc hsvc
  rwa [List.flatten_eq_nil_iff.mp hflatten findings hmem] at hservice

lemma CleanGate.found (h : CleanGate X T overlayDir env catalog docs renderedByName)
    (hsvc : svc ∈ templateServices env catalog) :
    ∃ w ∈ workloadsNamed svc.name docs, MeetsContract X svc.probeContract svc.name w := by
  obtain ⟨henabled, hkind⟩ := List.mem_filter.mp hsvc
  have hsome : (renderedByName.get? (.text svc.name)).isSome := by
    by_contra hnone
    have hmem : svc ∈ (templateServices env catalog).filter fun svc => (renderedByName.get? (.text svc.name)).isNone :=
      List.mem_filter.mpr ⟨hsvc, by simpa only [Bool.not_eq_true, Option.isSome_eq_false_iff] using hnone⟩
    rw [List.map_eq_nil_iff.mp h.noneMissing] at hmem
    cases hmem
  obtain ⟨w, hw⟩ := Option.isSome_iff_exists.mp hsome
  obtain ⟨hmem, hkey⟩ := mem_byName h.indexed hw
  obtain ⟨hdocs, hscope⟩ := List.mem_filter.mp hmem
  rw [Bool.and_eq_true] at hscope
  refine ⟨w, List.mem_filter.mpr ⟨hdocs, ?_⟩, ?_⟩
  · rw [hscope.1, Bool.true_and]
    exact isText_iff.mpr (dictKey_text hkey)
  · have hassert := h.asserted svc henabled
    rw [assertService] at hassert
    split at hassert
    · rename_i hskip
      exact Or.inl (hskip.resolve_right (by simpa using hkind))
    · rw [hw] at hassert
      exact meetsContract_of_nil hassert

lemma CleanGate.catalogued (h : CleanGate X T overlayDir env catalog docs renderedByName) (hd : d ∈ docs)
    (hworkload : isWorkload d) (hscoped : contractScoped catalog.allNames d) :
    ∃ svc, catalog.get svc.name = some svc ∧ workloadName d = .str svc.name := by
  have hmem : d ∈ docs.filter fun d => isWorkload d && contractScoped catalog.allNames d :=
    List.mem_filter.mpr ⟨hd, by rw [hworkload, hscoped, Bool.and_self]⟩
  obtain ⟨key, hkey, hname⟩ := key_mem_byName h.indexed hmem
  have hclassified := h.classified key hkey
  rw [classify] at hclassified
  split at hclassified
  · cases hclassified
  · rename_i svc hsvc
    cases key with
    | text name =>
      have hget : catalog.get name = some svc := hsvc
      have hnamed : svc.name = name := catalog.keyed (name, svc) (catalog.distinct.mem_iff.mpr hget)
      exact ⟨svc, by rw [hnamed, hget], by rw [hnamed, dictKey_text hname]⟩
    | none => cases hsvc
    | number q => cases hsvc

/-- A gate without findings means parity just where no workload is shadowed. -/
theorem pr_time_parity (X : Externals) (T : Texts) (overlayDir env : String) (catalog : ServicesCatalog)
    (docs : List Json) (hclean : runPrTime X T overlayDir env catalog (.ok docs) = .ok []) :
    RenderParity X env catalog docs ↔ Unshadowed env catalog docs := by
  obtain ⟨renderedByName, hgate⟩ := cleanGate hclean
  constructor
  · intro h svc hsvc
    obtain ⟨w, hw, hkind, -⟩ := h.rendered svc hsvc
    rw [hw]
    exact ⟨le_rfl, by simpa using hkind⟩
  · intro h
    refine ⟨fun svc hsvc => ?_, fun d hd => hgate.catalogued hd⟩
    obtain ⟨hlength, hkinds⟩ := h svc hsvc
    obtain ⟨w, hw, hmeets⟩ := hgate.found hsvc
    have hsingle : workloadsNamed svc.name docs = [w] := by
      obtain ⟨a, ha⟩ := List.length_eq_one_iff.mp (Nat.le_antisymm hlength (List.length_pos_of_mem hw))
      rw [ha] at hw ⊢
      rw [List.mem_singleton.mp hw]
    exact ⟨w, hsingle, hkinds w hw, hmeets⟩

end Parity

section Samples

def healthProbe (path : String) : Json := .obj [("httpGet", .obj [("path", .str path), ("port", .int 8080)])]

def probedContainer : Json :=
  .obj [("name", .str "etik"), ("livenessProbe", healthProbe "/healthz"), ("readinessProbe", healthProbe "/healthz/ready")]

def etikWorkload (space : String) (container : Json) : Json :=
  .obj [("kind", .str "Deployment"), ("metadata", .obj [("name", .str "etik"), ("namespace", .str space)]),
    ("spec", .obj [("template", .obj [("spec", .obj [("containers", .list [container])])])])]

def etikCatalog : ServicesCatalog := .ofServices [⟨"etik", "Deployment", "http-healthz", [("test", "enabled")]⟩]

def silentTexts : Texts := ⟨fun _ => "", fun _ => "", fun _ => none⟩

/-- A single workload with its probes. -/
theorem pr_time_parity_etik :
    let docs := [etikWorkload "etik" probedContainer]
    runPrTime (normalizerExternals fun _ => "") silentTexts "kustomize/overlays/test" "test" etikCatalog (.ok docs) = .ok [] ∧
      (RenderParity (normalizerExternals fun _ => "") "test" etikCatalog docs ↔ Unshadowed "test" etikCatalog docs) := by
  have hclean : runPrTime (normalizerExternals fun _ => "") silentTexts "kustomize/overlays/test" "test" etikCatalog
      (.ok [etikWorkload "etik" probedContainer]) = .ok [] := by rfl
  exact ⟨hclean, pr_time_parity _ _ _ _ _ _ hclean⟩

/-- A workload without probes is not seen behind one of its name in another namespace. -/
theorem clean_gate_behind_shadow :
    ¬∀ X T overlayDir env catalog docs, runPrTime X T overlayDir env catalog (.ok docs) = .ok [] →
      RenderParity X env catalog docs := by
  intro h
  have hparity := h (normalizerExternals fun _ => "") silentTexts "kustomize/overlays/test" "test" etikCatalog
    [etikWorkload "etik" (.obj [("name", .str "etik")]), etikWorkload "etik-next" probedContainer] rfl
  obtain ⟨w, hw, -, -⟩ := hparity.rendered ⟨"etik", "Deployment", "http-healthz", [("test", "enabled")]⟩ List.mem_cons_self
  have hlength := congrArg List.length hw
  cases hlength

end Samples

end PlatformGitops.DriftDetection
