import PlatformGitops.DriftDetection.Quantities
import PlatformGitops.DriftDetection.Reordered

/-! Kubernetes objects as the cluster hands them out, and which of them the normalizer can view. -/

namespace PlatformGitops.DriftDetection

open Library
open Coordination (truthy orElse strip)

section WellFormed

def IsObject (v : Json) : Prop := ∃ fields, v = .obj fields

/-- An optional field: absent, or as it has to be. -/
def Maybe (P : Json → Prop) (v : Json) : Prop := v = .null ∨ P v

def ListOf (P : Json → Prop) (v : Json) : Prop := Maybe (fun v => ∃ items, v = .list items ∧ ∀ i ∈ items, P i) v

def HasText (key : String) (v : Json) : Prop := ∃ s, v.item? key = some (.str s)

def MayHaveText (key : String) (v : Json) : Prop := v.item? key = none ∨ HasText key v

/-- The text that is written for a quantity, as a string or as a number. -/
def writtenText : Json → Option (List Char)
  | .str s => some s.toList
  | .int n => some (toString n).toList
  | .float text => some text.toList
  | _ => none

def Writes (value : Json) (q : Quantity) : Prop := writtenText value = some q.text ∧ q.InRange

def WellFormedQuantities (v : Json) : Prop := ∃ fields, v = .obj fields ∧ ∀ p ∈ fields, ∃ q, Writes p.2 q

def WellFormedResources (v : Json) : Prop := IsObject v ∧ ∀ key, Maybe WellFormedQuantities (v.get key)

structure WellFormedContainer (c : Json) : Prop where
  object : IsObject c
  name : ∃ n, n ≠ "" ∧ c.get "name" = .str n
  ports : ListOf (fun p => IsObject p ∧ MayHaveText "name" p ∧ ∃ n, p.item? "containerPort" = some (.int n)) (c.get "ports")
  env : ListOf (fun e => IsObject e ∧ HasText "name" e) (c.get "env")
  envFrom : ListOf IsObject (c.get "envFrom")
  volumeMounts : ListOf (fun m => IsObject m ∧ HasText "name" m ∧ HasText "mountPath" m) (c.get "volumeMounts")
  startupProbe : Maybe IsObject (c.get "startupProbe")
  livenessProbe : Maybe IsObject (c.get "livenessProbe")
  readinessProbe : Maybe IsObject (c.get "readinessProbe")
  resources : Maybe WellFormedResources (c.get "resources")

structure WellFormedPodSpec (spec : Json) : Prop where
  containers : ListOf WellFormedContainer (spec.get "containers")
  imagePullSecrets : ListOf (fun s => IsObject s ∧ MayHaveText "name" s) (spec.get "imagePullSecrets")
  volumes : ListOf (fun v => IsObject v ∧ HasText "name" v) (spec.get "volumes")

end WellFormed

section Normalizable

def containersOf (w : Json) : List Json := itemsOf ((podSpec w).get "containers")

def envNames (c : Json) : List (Option String) := (itemsOf (c.get "env")).map fun e => (e.get "name").asStr?

/-- Each quantity of a processor or of memory has a suffix that is read there. -/
def QuantitiesReadable (v : Json) : Prop :=
  ∀ fields, v = .obj fields → ∀ p ∈ fields, ∀ q, Writes p.2 q →
    (p.1 = "cpu" → q.suffix.cpuReadable) ∧ (p.1 = "memory" → q.suffix.memoryReadable)

/-- The workload's variables have names of their own, and its quantities can be read. -/
def Normalizable (w : Json) : Prop :=
  ∀ c ∈ containersOf w, (envNames c).Nodup ∧
    ∀ key ∈ ["requests", "limits"], QuantitiesReadable ((c.get "resources").get key)

end Normalizable

section Lists

variable {X : Externals} {str : Json → String} {P : Json → Prop} {v c w : Json} {items : List Json} {key : String}

lemma ListOf.entries (h : ListOf P v) : entries v = .ok (itemsOf v) ∧ ∀ i ∈ itemsOf v, P i := by
  rcases h with rfl | ⟨items, rfl, hitems⟩
  · exact ⟨rfl, by simp [itemsOf]⟩
  · exact ⟨entries_list items, hitems⟩

lemma textKey_ok (h : IsObject v) (htext : MayHaveText key v) : ∃ s, textKey key v = .ok s := by
  obtain ⟨fields, rfl⟩ := h
  rcases htext with hnone | ⟨s, hsome⟩
  · have hlookup : fields.lookup key = none := hnone
    exact ⟨"", by rw [textKey, hlookup]⟩
  · have hlookup : fields.lookup key = some (.str s) := hsome
    exact ⟨s, by rw [textKey, hlookup]⟩

lemma sorted_ok {κ : Type} [Inhabited κ] [LinearOrder κ] {key : Json → Except NormalizeError κ}
    (h : ∀ i ∈ items, ∃ k, key i = .ok k) : ∃ out, sortedEntries key items = .ok out := by
  have hkeys : HaveKeys key items := fun i hi => by
    obtain ⟨k, hk⟩ := h i hi
    exact key_eq_keyOr hk
  exact ⟨_, hkeys.sortedEntries_eq⟩

lemma sortedList_ok {κ : Type} [Inhabited κ] [LinearOrder κ] {key : Json → Except NormalizeError κ} (h : ListOf P v)
    (hkey : ∀ i, P i → ∃ k, key i = .ok k) : ∃ out, (do sortedEntries key (← entries v)) = .ok out := by
  obtain ⟨hentries, hitems⟩ := h.entries
  rw [hentries]
  exact sorted_ok fun i hi => hkey i (hitems i hi)

instance instInhabitedNamedPort : Inhabited (String ×ₗ Int) := ⟨toLex ("", 0)⟩

instance instInhabitedNamedMount : Inhabited (String ×ₗ String) := ⟨toLex ("", "")⟩

lemma normalizePorts_ok (h : WellFormedContainer c) : ∃ out, normalizePorts (c.get "ports") = .ok out := by
  refine sortedList_ok h.ports fun p ⟨hobject, hname, n, hport⟩ => ?_
  obtain ⟨name, hname⟩ := textKey_ok hobject hname
  obtain ⟨fields, rfl⟩ := hobject
  have hlookup : fields.lookup "containerPort" = some (.int n) := hport
  exact ⟨toLex (name, n), by rw [portKey, hname, numberKey, hlookup]; rfl⟩

lemma normalizeVolumeMounts_ok (h : WellFormedContainer c) : ∃ out, normalizeVolumeMounts (c.get "volumeMounts") = .ok out := by
  refine sortedList_ok h.volumeMounts fun m ⟨hobject, hname, hpath⟩ => ?_
  obtain ⟨name, hname⟩ := textKey_ok hobject (Or.inr hname)
  obtain ⟨path, hpath⟩ := textKey_ok hobject (Or.inr hpath)
  exact ⟨toLex (name, path), by rw [mountKey, hname, hpath]; rfl⟩

lemma normalizeEnvFromList_ok (h : WellFormedContainer c) : ∃ out, normalizeEnvFromList X (c.get "envFrom") = .ok out := by
  refine sortedList_ok h.envFrom fun e ⟨fields, hobject⟩ => ?_
  rw [hobject, envFromKey]
  split
  · exact ⟨_, rfl⟩
  · exact ⟨_, rfl⟩
  · exact ⟨_, rfl⟩

lemma normalizeProbe_ok (h : Maybe IsObject v) : ∃ out, normalizeProbe v = .ok out := by
  rcases h with rfl | ⟨fields, rfl⟩
  · exact ⟨_, rfl⟩
  · exact ⟨_, rfl⟩

lemma envName_eq (h : IsObject v ∧ HasText "name" v) : envName v = .ok ((v.get "name").asStr?) := by
  obtain ⟨⟨fields, rfl⟩, s, hs⟩ := h
  have hget : (Json.obj fields).get "name" = .str s := by rw [get_eq_item, hs, Option.getD_some]
  rw [envName, hget]
  rfl

lemma normalizeEnvList_ok_iff (h : WellFormedContainer c) :
    (∃ out, normalizeEnvList (c.get "env") = .ok out) ↔ (envNames c).Nodup := by
  obtain ⟨hentries, hitems⟩ := h.env.entries
  have hnames : (itemsOf (c.get "env")).mapM envName = .ok (envNames c) :=
    Fallible.mapM_of_ok fun e he => envName_eq (hitems e he)
  have hsorted : ∃ out, sortedEntries (textKey "name") (itemsOf (c.get "env")) = .ok out :=
    sorted_ok fun e he => textKey_ok (hitems e he).1 (Or.inr (hitems e he).2)
  simp only [normalizeEnvList, Fallible.bind_eq_ok, Fallible.rejectIf_eq_ok, not_not, exists_const, hentries, hnames,
    repeated_eq_nil, Except.ok.injEq, exists_eq_left', List.not_mem_nil, not_false_eq_true, implies_true, and_true]
  exact ⟨fun ⟨out, hnodup, _⟩ => hnodup, fun hnodup => ⟨hsorted.choose, hnodup, hsorted.choose_spec⟩⟩

end Lists

section Resources

variable {str : Json → String} {v c w : Json} {q : Quantity} {fields : Fields} {key : String}

lemma parseQuantity_of_writes {read : List Char → Except NormalizeError Json} (h : Writes v q) :
    parseQuantity str read v = read q.text := by
  have hplain : ∀ c ∈ q.text, Plain c := by
    intro c hc
    rcases List.mem_append.mp hc with hc | hc
    · exact plain_signText hc
    · rcases List.mem_append.mp hc with hc | hc
      · exact plain_numeral hc
      · exact plain_suffix _ hc
  have hnonempty : q.text ≠ [] := by simp [Quantity.text, numeral_ne_nil]
  have hread : ∀ text, text = q.text → (if strip text = [] then Except.ok Json.null else read (strip text)) = read q.text := by
    rintro text rfl
    rw [strip_eq hplain, if_neg hnonempty]
  obtain ⟨htext, -⟩ := h
  cases v with
  | str s => exact hread _ (Option.some.inj htext)
  | int n => exact hread _ (Option.some.inj htext)
  | float text => exact hread _ (Option.some.inj htext)
  | _ => cases htext

lemma normalizeQuantity_ok_iff {p : String × Json} (h : Writes p.2 q) :
    (∃ out, normalizeQuantity (normalizerExternals str) p = .ok out) ↔
      (p.1 = "cpu" → q.suffix.cpuReadable) ∧ (p.1 = "memory" → q.suffix.memoryReadable) := by
  have hcpu : (normalizerExternals str).parseCpuToMillicores p.2 = cpuOfText q.text := parseQuantity_of_writes h
  have hmemory : (normalizerExternals str).parseMemoryToBytes p.2 = memoryOfText q.text := parseQuantity_of_writes h
  unfold normalizeQuantity
  split
  · rename_i hname
    rw [hname, hcpu]
    cases hsuffix : q.suffix.cpuReadable with
    | true =>
      obtain ⟨v, hv⟩ := cpuOfText_readable h.2 hsuffix
      simp [hv, bind, Except.bind]
    | false => simp [cpuOfText_unreadable hsuffix, bind, Except.bind]
  · rename_i hother
    split
    · rename_i hname
      rw [hname, hmemory]
      cases hsuffix : q.suffix.memoryReadable with
      | true =>
        obtain ⟨v, hv⟩ := memoryOfText_readable h.2 hsuffix
        simp [hv, bind, Except.bind]
      | false => simp [memoryOfText_unreadable hsuffix, bind, Except.bind]
    · rename_i hmemory
      exact ⟨fun _ => ⟨fun h => absurd h hother, fun h => absurd h hmemory⟩, fun _ => ⟨p, rfl⟩⟩

lemma normalizeSection_ok_iff (h : Maybe WellFormedQuantities (v.get key)) :
    (∃ out, normalizeSection (normalizerExternals str) v key = .ok out) ↔ QuantitiesReadable (v.get key) := by
  rw [normalizeSection]
  rcases h with hnull | ⟨fields, hfields, hquantities⟩
  · rw [hnull]
    exact ⟨fun _ fields h => (nomatch h), fun _ => ⟨[], rfl⟩⟩
  · have hreadable : QuantitiesReadable (v.get key) ↔
        ∀ p ∈ fields, ∃ out, normalizeQuantity (normalizerExternals str) p = .ok out := by
      rw [QuantitiesReadable, hfields]
      constructor
      · intro h p hp
        obtain ⟨q, hq⟩ := hquantities p hp
        exact (normalizeQuantity_ok_iff hq).mpr (h fields rfl p hp q hq)
      · rintro h _ ⟨⟩ p hp q hq
        exact (normalizeQuantity_ok_iff hq).mp (h p hp)
    rw [hreadable, hfields, ← Fallible.exists_mapM_eq_ok]
    split
    · constructor
      · rintro ⟨out, hout⟩
        obtain ⟨quantities, hquantities, -⟩ := Fallible.bind_eq_ok.mp hout
        exact ⟨quantities, hquantities⟩
      · rintro ⟨quantities, hquantities⟩
        exact ⟨[(key, .obj quantities)], by simp only [hquantities]; rfl⟩
    · rename_i hfalsy
      have hnil : fields = [] := by simpa [truthy] using hfalsy
      rw [hnil]
      exact ⟨fun _ => ⟨[], rfl⟩, fun _ => ⟨[], rfl⟩⟩

lemma normalizeResources_ok_iff (h : Maybe WellFormedResources v) :
    (∃ out, normalizeResources (normalizerExternals str) v = .ok out) ↔
      ∀ key ∈ ["requests", "limits"], QuantitiesReadable (v.get key) := by
  rcases h with rfl | ⟨⟨fields, rfl⟩, hsections⟩
  · constructor
    · rintro - key - fields hfields
      cases hfields
    · exact fun _ => ⟨.obj [], rfl⟩
  · have hrequests : (∃ out, normalizeSection (normalizerExternals str) (.obj fields) "requests" = .ok out) ↔ _ :=
      normalizeSection_ok_iff (hsections "requests")
    have hlimits : (∃ out, normalizeSection (normalizerExternals str) (.obj fields) "limits" = .ok out) ↔ _ :=
      normalizeSection_ok_iff (hsections "limits")
    simp only [List.forall_mem_cons, List.not_mem_nil, false_implies, implies_true, and_true, ← hrequests, ← hlimits]
    rw [normalizeResources]
    split
    · constructor
      · rintro ⟨out, hout⟩
        obtain ⟨requests, hrequests, hout⟩ := Fallible.bind_eq_ok.mp hout
        obtain ⟨limits, hlimits, -⟩ := Fallible.bind_eq_ok.mp hout
        exact ⟨⟨requests, hrequests⟩, limits, hlimits⟩
      · rintro ⟨⟨requests, hrequests⟩, limits, hlimits⟩
        exact ⟨_, by rw [hrequests, hlimits]; rfl⟩
    · rename_i hfalsy
      have hnil : fields = [] := by simpa [truthy] using hfalsy
      rw [hnil]
      exact ⟨fun _ => ⟨⟨[], rfl⟩, [], rfl⟩, fun _ => ⟨.obj [], rfl⟩⟩

end Resources

section Views

variable {str : Json → String} {c w : Json} {views : Fields} {items : List Json}

lemma containerContractView_ok_iff (h : WellFormedContainer c) :
    (∃ view, containerContractView (normalizerExternals str) c = .ok view) ↔
      (envNames c).Nodup ∧ ∀ key ∈ ["requests", "limits"], QuantitiesReadable ((c.get "resources").get key) := by
  obtain ⟨ports, hports⟩ := normalizePorts_ok h
  obtain ⟨startup, hstartup⟩ := normalizeProbe_ok h.startupProbe
  obtain ⟨liveness, hliveness⟩ := normalizeProbe_ok h.livenessProbe
  obtain ⟨readiness, hreadiness⟩ := normalizeProbe_ok h.readinessProbe
  obtain ⟨envFrom, henvFrom⟩ := normalizeEnvFromList_ok (X := normalizerExternals str) h
  obtain ⟨mounts, hmounts⟩ := normalizeVolumeMounts_ok h
  have hreadable : (∃ out, normalizeResources (normalizerExternals str) (c.get "resources") = .ok out) ↔ _ :=
    normalizeResources_ok_iff h.resources
  rw [← normalizeEnvList_ok_iff h, ← hreadable]
  simp only [containerContractView, hports, hstartup, hliveness, hreadiness, henvFrom, hmounts, Fallible.bind_eq_ok,
    Except.ok.injEq, exists_eq_left', Fallible.pure_eq_ok]
  constructor
  · rintro ⟨view, resources, hresources, env, henv, -⟩
    exact ⟨⟨env, henv⟩, resources, hresources⟩
  · rintro ⟨⟨env, henv⟩, resources, hresources⟩
    exact ⟨_, resources, hresources, env, henv, rfl⟩

lemma addContainerView_ok_iff (h : WellFormedContainer c) :
    (∃ next, addContainerView (normalizerExternals str) views c = .ok next) ↔
      ∃ view, containerContractView (normalizerExternals str) c = .ok view := by
  obtain ⟨n, hn, hname⟩ := h.name
  obtain ⟨fields, rfl⟩ := h.object
  have htruthy : truthy (.str n) = true := by simpa [truthy] using hn
  rw [addContainerView, hname, if_pos htruthy]
  constructor
  · rintro ⟨next, hnext⟩
    obtain ⟨view, hview, -⟩ := Fallible.bind_eq_ok.mp hnext
    exact ⟨view, hview⟩
  · rintro ⟨view, hview⟩
    exact ⟨_, by rw [hview]; rfl⟩

lemma containerViews_ok_iff (h : ∀ c ∈ items, WellFormedContainer c) :
    (∃ out, items.foldlM (addContainerView (normalizerExternals str)) views = .ok out) ↔
      ∀ c ∈ items, ∃ view, containerContractView (normalizerExternals str) c = .ok view := by
  induction items generalizing views with
  | nil => exact ⟨fun _ => by simp, fun _ => ⟨views, rfl⟩⟩
  | cons c items ih =>
    obtain ⟨hc, hitems⟩ := List.forall_mem_cons.mp h
    have hview : (∃ next, addContainerView (normalizerExternals str) views c = .ok next) ↔ _ := addContainerView_ok_iff hc
    rw [List.forall_mem_cons, ← hview]
    simp only [List.foldlM_cons, Fallible.bind_eq_ok]
    constructor
    · rintro ⟨out, next, hnext, hout⟩
      exact ⟨⟨next, hnext⟩, (ih hitems).mp ⟨out, hout⟩⟩
    · rintro ⟨⟨next, hnext⟩, hviews⟩
      obtain ⟨out, hout⟩ : ∃ out, items.foldlM (addContainerView (normalizerExternals str)) next = .ok out :=
        (ih hitems).mpr hviews
      exact ⟨out, next, hnext, hout⟩

lemma normalizeVolume_ok (h : IsObject c) : ∃ v, normalizeVolume c = .ok v := by
  obtain ⟨fields, rfl⟩ := h
  exact ⟨_, rfl⟩

/-- A volume keeps its name. -/
lemma normalizedVolume_text (h : IsObject c ∧ HasText "name" c) :
    ∃ v, normalizeVolume c = .ok v ∧ IsObject v ∧ HasText "name" v := by
  obtain ⟨⟨fields, rfl⟩, s, hs⟩ := h
  refine ⟨_, rfl, ⟨_, rfl⟩, s, ?_⟩
  have hlookup : fields.lookup "name" = some (.str s) := hs
  change List.lookup "name" _ = _
  rw [lookup_updateFields volumeSources_nodup, if_neg (by decide), hlookup]

lemma normalizeVolumes_ok {v : Json} (h : ListOf (fun v => IsObject v ∧ HasText "name" v) v) :
    ∃ out, normalizeVolumes v = .ok out := by
  obtain ⟨hentries, hitems⟩ := h.entries
  have hvolumes : ∃ ns, (itemsOf v).mapM normalizeVolume = .ok ns ∧ ∀ n ∈ ns, IsObject n ∧ HasText "name" n := by
    obtain ⟨ns, hns⟩ := Fallible.exists_mapM_eq_ok.mpr fun i hi => normalizeVolume_ok (hitems i hi).1
    refine ⟨ns, hns, fun n hn => ?_⟩
    obtain ⟨i, hi, hin⟩ := (Fallible.mapM_eq_ok hns).2 n hn
    obtain ⟨n', hn', htext⟩ := normalizedVolume_text (hitems i hi)
    rw [hin] at hn'
    cases hn'
    exact htext
  obtain ⟨ns, hns, htexts⟩ := hvolumes
  obtain ⟨out, hout⟩ := sorted_ok fun n hn => textKey_ok (htexts n hn).1 (Or.inr (htexts n hn).2)
  exact ⟨out, by rw [normalizeVolumes, hentries]; exact (by simp only [bind, Except.bind, hns]; exact hout)⟩

/-- A well-formed workload has a view just if it is normalizable. -/
lemma templateContractView_ok_iff (h : WellFormedPodSpec (rawSpec w)) :
    (∃ view, templateContractView (normalizerExternals str) w = .ok view) ↔ Normalizable w := by
  have hcontainers := h.containers
  have hsecrets := h.imagePullSecrets
  have hvolumes := h.volumes
  rw [← podSpec_get] at hcontainers hsecrets hvolumes
  obtain ⟨hentries, hitems⟩ := hcontainers.entries
  obtain ⟨secrets, hsecrets⟩ : ∃ out, normalizeImagePullSecrets ((podSpec w).get "imagePullSecrets") = .ok out :=
    sortedList_ok hsecrets fun s hs => textKey_ok hs.1 hs.2
  obtain ⟨volumes, hvolumes⟩ := normalizeVolumes_ok hvolumes
  have hviews : Normalizable w ↔ ∃ out, (containersOf w).foldlM (addContainerView (normalizerExternals str)) [] = .ok out := by
    rw [containersOf, containerViews_ok_iff hitems, Normalizable]
    exact forall_congr' fun c => forall_congr' fun hc => (containerContractView_ok_iff (hitems c hc)).symm
  rw [hviews]
  constructor
  · rintro ⟨view, hview⟩
    obtain ⟨views, _, _, hparts, -⟩ := templateContractView_eq_ok.mp hview
    obtain ⟨items, hitems', hfold⟩ := hparts.containers
    rw [itemsOf_of_entries hitems'] at hfold
    exact ⟨views, hfold⟩
  · rintro ⟨views, hfold⟩
    exact ⟨_, templateContractView_eq_ok.mpr ⟨views, secrets, volumes, ⟨⟨_, hentries, hfold⟩, hsecrets, hvolumes⟩, rfl⟩⟩

end Views

end PlatformGitops.DriftDetection
