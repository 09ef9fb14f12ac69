import PlatformGitops.DriftDetection.PrTimeParity

/-! The issuer and JWKS settings of the services that validate tokens, in the rendered ConfigMaps. -/

namespace PlatformGitops.DriftDetection.Jwt

open Library
open Coordination (truthy orElse)

section Model

structure Service where
  name : String
  environments : Dict String String
  jwtValidates : Bool

def Service.isEnabledIn (env : String) (s : Service) : Bool := s.environments.get? env = some "enabled"

structure ServicesCatalog where
  services : List Service
  distinct : (services.map (·.name)).Nodup

def ServicesCatalog.enabledIn (catalog : ServicesCatalog) (env : String) : List Service :=
  catalog.services.filter (·.isEnabledIn env)

def expectedIssuersByEnv : Dict String (List String) :=
  [("prod", ["https://ai.acik.com/realms/serban"]),
    ("test", ["https://testai.acik.com/realms/platform-test", "http://keycloak:8080/realms/platform-test",
      "http://keycloak:8080/realms/serban"])]

def expectedIssuers (env : String) : List String := (expectedIssuersByEnv.get? env).getD []

def jwtKeyPairs : List (String × String) :=
  [("KEYCLOAK_ISSUER_URI", "KEYCLOAK_JWKS_URI"), ("SECURITY_JWT_ISSUER", "SECURITY_JWT_JWK_SET_URI"),
    ("AUDIO_GATEWAY_JWT_ISSUER_URI", "AUDIO_GATEWAY_JWT_JWKS_URI")]

def placeholder : String := "OVERLAY_MUST_OVERRIDE"

def certsPath : String := "/protocol/openid-connect/certs"

structure ContractFinding where
  code : String
  message : String
deriving DecidableEq

def isMapping : Json → Bool
  | .obj _ => true
  | _ => false

/-- Characters and keys are no mappings. -/
def listItems (document : Json) : Except NormalizeError (List Json) :=
  match document.item? "items" with
  | none => .ok []
  | some (.list items) => .ok (items.filter isMapping)
  | some (.str _) => .ok []
  | some (.obj _) => .ok []
  | some _ => .error .typeError

/-- A list is opened once; the lists in it are documents like others. -/
def flattenDocument (document : Json) : Except NormalizeError (List Json) :=
  if isMapping document then
    if isText "List" (document.get "kind") then listItems document else .ok [document]
  else .ok []

def flattenDocuments (documents : List Json) : Except NormalizeError (List Json) := do
  pure (← documents.mapM flattenDocument).flatten

def isConfigMap (document : Json) : Bool := isText "ConfigMap" (document.get "kind")

def configData (document : Json) : Json := orElse (document.get "data") (.obj [])

variable (X : Externals)

def configmapEntry (document : Json) : Except NormalizeError (DictKey × Json) := do
  pure (← dictKey X (← field (metadata document) "name"), configData document)

/-- Of the ConfigMaps of one name, in whatever namespace, the last. -/
def indexConfigmaps (documents : List Json) : Except NormalizeError (Dict DictKey Json) := do
  let flattened ← flattenDocuments documents
  pure (Dict.ofPairs (← (flattened.filter isConfigMap).mapM (configmapEntry X)))

/-- `in` a text, a list or a mapping. -/
def holds (part : String) : Json → Except NormalizeError Bool
  | .str s => .ok (decide (part.toList <:+: s.toList))
  | .list items => .ok (items.any (isText part))
  | .obj fields => .ok (fields.lookup part).isSome
  | _ => .error .typeError

def holdsPlaceholder (issuer jwks : Json) : Except NormalizeError Bool := do
  if ← holds placeholder issuer then pure true else holds placeholder jwks

def isForeign (env : String) (issuer : Json) : Except NormalizeError Bool :=
  if expectedIssuers env = [] then .ok false
  else do
    let key ← dictKey X issuer
    pure (decide (key ∉ (expectedIssuers env).map DictKey.text))

def endsInCertsPath : Json → Except NormalizeError Bool
  | .str s => .ok (certsPath.toList.isSuffixOf s.toList)
  | _ => .error .attributeError

def isSet (data : Json) (p : String × String) : Bool := truthy (data.get p.1) || truthy (data.get p.2)

/-- Only the first pair with a value is looked at. -/
def selected? (data : Json) : Option (String × String) := jwtKeyPairs.find? (isSet data)

def displayed (v : Json) : String := v.asStr?.getD (X.str v)

def checkPair (env : String) (service : Service) (p : String × String) (issuer jwks : Json) :
    Except NormalizeError (List ContractFinding) :=
  if !truthy issuer || !truthy jwks then
    let missing := if !truthy issuer then p.1 else p.2
    .ok [⟨"configmap_jwt_missing", service.name ++ ": " ++ missing ++ " not set"⟩]
  else do
    if ← holdsPlaceholder issuer jwks then
      pure [⟨"configmap_jwt_placeholder", service.name ++ ": issuer/JWKS placeholder leaked into " ++ env⟩]
    else if ← isForeign X env issuer then
      pure [⟨"configmap_jwt_issuer",
        service.name ++ ": " ++ p.1 ++ "=" ++ displayed X issuer ++ " not expected for " ++ env⟩]
    else if ← endsInCertsPath jwks then pure []
    else pure [⟨"configmap_jwt_jwks", service.name ++ ": " ++ p.2 ++ " has invalid certs path"⟩]

def checkData (env : String) (service : Service) : Json → Except NormalizeError (List ContractFinding)
  | .obj fields =>
    match selected? (.obj fields) with
    | none => .ok [⟨"configmap_jwt_missing", service.name ++ ": no supported issuer/JWKS key pair set"⟩]
    | some p => checkPair X env service p ((Json.obj fields).get p.1) ((Json.obj fields).get p.2)
  | _ => .error .attributeError

def configName (service : Service) : String := service.name ++ "-config"

def serviceFindings (env : String) (configmaps : Dict DictKey Json) (service : Service) :
    Except NormalizeError (List ContractFinding) :=
  if service.jwtValidates then
    match configmaps.get? (.text (configName service)) with
    | none => .ok [⟨"configmap_jwt_missing", service.name ++ ": catalog JWT service ConfigMap missing"⟩]
    | some data => checkData X env service data
  else .ok []

def jwtConfigFindings (documents : List Json) (catalog : ServicesCatalog) (env : String) :
    Except NormalizeError (List ContractFinding) := do
  let configmaps ← indexConfigmaps X documents
  let services := SortedForm.sortBy Service.name (catalog.enabledIn env)
  pure (← services.mapM (serviceFindings X env configmaps)).flatten

end Model

section Spec

/-- The documents, with those inside lists of any depth. -/
inductive Rendered (documents : List Json) : Json → Prop where
  | document {d : Json} (h : d ∈ documents) : Rendered documents d
  | item {l d : Json} {items : List Json} (h : Rendered documents l) (hkind : l.get "kind" = .str "List")
      (hitems : l.get "items" = .list items) (hd : d ∈ items) : Rendered documents d

def configMapNamed (name : String) (d : Json) : Bool := isConfigMap d && isText name ((metadata d).get "name")

def FromKeycloak (env : String) (issuer : Json) : Prop :=
  ∃ s ∈ expectedIssuers env, issuer = .str s ∧ ¬ placeholder.toList <:+: s.toList

def ServesCerts (jwks : Json) : Prop :=
  ∃ s, jwks = .str s ∧ certsPath.toList <:+ s.toList ∧ ¬ placeholder.toList <:+: s.toList

structure PairOk (env : String) (data : Json) (p : String × String) : Prop where
  issuer : truthy (data.get p.1) → FromKeycloak env (data.get p.1)
  jwks : truthy (data.get p.2) → ServesCerts (data.get p.2)

def Complete (data : Json) (p : String × String) : Prop := truthy (data.get p.1) ∧ truthy (data.get p.2)

structure GoodData (env : String) (data : Json) : Prop where
  complete : ∃ p ∈ jwtKeyPairs, Complete data p
  pairs : ∀ p ∈ jwtKeyPairs, PairOk env data p

def jwtServices (catalog : ServicesCatalog) (env : String) : List Service :=
  (catalog.enabledIn env).filter (·.jwtValidates)

/-- Every rendered ConfigMap of every service that validates tokens is good. -/
def AllGood (documents : List Json) (catalog : ServicesCatalog) (env : String) : Prop :=
  ∀ s ∈ jwtServices catalog env, ∀ d, Rendered documents d → configMapNamed (configName s) d → GoodData env (configData d)

/-- What a document is opened to, where that is no error. -/
def opened (d : Json) : List Json :=
  if isMapping d then
    if isText "List" (d.get "kind") then ((d.get "items").asList?.getD []).filter isMapping else [d]
  else []

/-- The ConfigMap of a name that the others of the name give way to. -/
def lastNamed (name : String) (documents : List Json) : Option Json :=
  ((documents.flatMap opened).filter (configMapNamed name)).getLast?

/-- A loop goes through a list, a text or a mapping. -/
def iterable : Json → Bool
  | .list _ | .str _ | .obj _ => true
  | _ => false

def hashable : Json → Bool
  | .list _ | .obj _ => false
  | _ => true

/-- What the index has to be able to read of the documents. -/
structure Indexable (documents : List Json) : Prop where
  items : ∀ d ∈ documents, isText "List" (d.get "kind") → ∀ v, d.item? "items" = some v → iterable v
  names : ∀ d ∈ documents.flatMap opened, isConfigMap d → isMapping (metadata d) ∧ hashable ((metadata d).get "name")

/-- The first pair with a value is complete and has the values that it should. -/
def FirstPairOk (env : String) (data : Json) : Prop :=
  ∃ p, selected? data = some p ∧ Complete data p ∧ PairOk env data p

/-- The documents can be indexed, and the first pair of each service's last ConfigMap is all right. -/
structure Inspected (documents : List Json) (catalog : ServicesCatalog) (env : String) : Prop where
  indexable : Indexable documents
  services : ∀ s ∈ jwtServices catalog env, ∃ d, lastNamed (configName s) documents = some d ∧ FirstPairOk env (configData d)

/-- What nobody looks at is all right: the other pairs of that ConfigMap, and the other ConfigMaps of its name. -/
def UninspectedOk (documents : List Json) (catalog : ServicesCatalog) (env : String) : Prop :=
  ∀ s ∈ jwtServices catalog env, ∀ d, lastNamed (configName s) documents = some d →
    (∀ p ∈ jwtKeyPairs, selected? (configData d) ≠ some p → PairOk env (configData d) p) ∧
      ∀ d', Rendered documents d' → configMapNamed (configName s) d' → configData d' ≠ configData d →
        GoodData env (configData d')

end Spec

section Index

variable {X : Externals} {d v : Json} {documents ys : List Json} {name : String}

lemma isMapping_iff : isMapping v ↔ ∃ fields, v = .obj fields := by
  cases v <;> simp [isMapping]

lemma get_eq_item? (d : Json) (key : String) : d.get key = (d.item? key).getD .null := by
  cases d <;> rfl

lemma listItems_eq_ok : listItems d = .ok ys ↔
    (∀ v, d.item? "items" = some v → iterable v) ∧ ys = ((d.get "items").asList?.getD []).filter isMapping := by
  rw [listItems, get_eq_item?]
  cases hitems : d.item? "items" with
  | none =>
    rw [Except.ok.injEq, @eq_comm _ []]
    simp [Json.asList?]
  | some v =>
    cases v with
    | list items =>
      rw [Except.ok.injEq, @eq_comm _ (items.filter isMapping)]
      simp [Json.asList?, iterable]
    | str t =>
      rw [Except.ok.injEq, @eq_comm _ []]
      simp [Json.asList?, iterable]
    | obj fields =>
      rw [Except.ok.injEq, @eq_comm _ []]
      simp [Json.asList?, iterable]
    | _ => simp [iterable]

lemma flattenDocument_eq_ok : flattenDocument d = .ok ys ↔
    (isText "List" (d.get "kind") → ∀ v, d.item? "items" = some v → iterable v) ∧ ys = opened d := by
  rw [flattenDocument, opened]
  by_cases hmap : isMapping d
  · rw [if_pos hmap, if_pos hmap]
    by_cases hlist : isText "List" (d.get "kind")
    · rw [if_pos hlist, if_pos hlist, listItems_eq_ok]
      simp only [hlist, true_imp_iff]
    · rw [if_neg hlist, if_neg hlist, Except.ok.injEq, eq_comm]
      simp [hlist]
  · have hnone : d.item? "items" = none := by
      cases d with
      | obj fields => exact absurd rfl hmap
      | _ => rfl
    rw [if_neg hmap, if_neg hmap, Except.ok.injEq, eq_comm, hnone]
    simp

lemma flattenDocuments_eq_ok : flattenDocuments documents = .ok ys ↔
    (∀ d ∈ documents, isText "List" (d.get "kind") → ∀ v, d.item? "items" = some v → iterable v) ∧
      ys = documents.flatMap opened := by
  rw [flattenDocuments, Fallible.bind_eq_ok]
  constructor
  · rintro ⟨parts, hparts, hys⟩
    have hall := (Fallible.mapM_eq_ok hparts).1
    have hopened : documents.mapM flattenDocument = .ok (documents.map opened) :=
      Fallible.mapM_of_ok fun d hd => by
        obtain ⟨part, -, hpart⟩ := hall d hd
        rw [hpart, (flattenDocument_eq_ok.mp hpart).2]
    rw [hopened, Except.ok.injEq] at hparts
    refine ⟨fun d hd => ?_, ?_⟩
    · obtain ⟨part, -, hpart⟩ := hall d hd
      exact (flattenDocument_eq_ok.mp hpart).1
    · rw [← Fallible.pure_eq_ok.mp hys, ← hparts, List.flatMap_def]
  · rintro ⟨hitems, rfl⟩
    refine ⟨documents.map opened, Fallible.mapM_of_ok fun d hd => ?_, ?_⟩
    · exact flattenDocument_eq_ok.mpr ⟨hitems d hd, rfl⟩
    · rw [Fallible.pure_eq_ok, List.flatMap_def]

lemma dictKey_text_iff : dictKey X v = .ok (.text name) ↔ isText name v := by
  refine ⟨fun h => isText_iff.mpr (dictKey_text h), fun h => ?_⟩
  rw [isText_iff.mp h]
  rfl

lemma exists_dictKey_iff : (∃ key, dictKey X v = .ok key) ↔ hashable v := by
  cases v <;> simp [dictKey, DictKey.ofJson, hashable]

lemma configmapEntry_eq_ok {p : DictKey × Json} : configmapEntry X d = .ok p ↔
    isMapping (metadata d) ∧ dictKey X ((metadata d).get "name") = .ok p.1 ∧ p.2 = configData d := by
  obtain ⟨key, data⟩ := p
  simp only [configmapEntry, Fallible.bind_eq_ok, field_eq_ok, Fallible.pure_eq_ok, isMapping_iff, Prod.mk.injEq]
  constructor
  · rintro ⟨_, ⟨hmap, rfl⟩, _, hkey, rfl, rfl⟩
    exact ⟨hmap, hkey, rfl⟩
  · rintro ⟨hmap, hkey, rfl⟩
    exact ⟨_, ⟨hmap, rfl⟩, key, hkey, rfl, rfl⟩

lemma entries_named {configmaps : List Json} {pairs : List (DictKey × Json)}
    (h : List.Forall₂ (fun d p => configmapEntry X d = .ok p) configmaps pairs) :
    (pairs.filter (·.1 = .text name)).map (·.2) =
      (configmaps.filter fun d => isText name ((metadata d).get "name")).map configData := by
  induction h with
  | nil => rfl
  | @cons d p configmaps pairs hp _ ih =>
    obtain ⟨-, hkey, hdata⟩ := configmapEntry_eq_ok.mp hp
    by_cases hname : p.1 = .text name
    · have htext : isText name ((metadata d).get "name") := dictKey_text_iff.mp (hname ▸ hkey)
      rw [List.filter_cons_of_pos (by simpa using hname), List.map_cons, ih, hdata,
        List.filter_cons_of_pos (p := fun d => isText name ((metadata d).get "name")) htext, List.map_cons]
    · have htext : ¬ isText name ((metadata d).get "name") := fun htext =>
        hname (Except.ok.inj (hkey.symm.trans (dictKey_text_iff.mpr htext)))
      rw [List.filter_cons_of_neg (by simpa using hname), ih,
        List.filter_cons_of_neg (p := fun d => isText name ((metadata d).get "name")) htext]

lemma lookup_indexConfigmaps {configmaps : Dict DictKey Json} (h : indexConfigmaps X documents = .ok configmaps) :
    configmaps.get? (.text name) = (lastNamed name documents).map configData := by
  obtain ⟨flattened, hflattened, hentries⟩ := Fallible.bind_eq_ok.mp h
  obtain ⟨pairs, hpairs, hindex⟩ := Fallible.bind_eq_ok.mp hentries
  obtain ⟨-, rfl⟩ := flattenDocuments_eq_ok.mp hflattened
  have hnamed : (documents.flatMap opened).filter (configMapNamed name) =
      ((documents.flatMap opened).filter isConfigMap).filter fun d => isText name ((metadata d).get "name") := by
    rw [List.filter_filter]
    exact List.filter_congr fun d _ => Bool.and_comm _ _
  have hread : (pairs.filter (·.1 = .text name)).map (·.2) = _ := entries_named (Fallible.mapM_eq_ok_iff.mp hpairs)
  obtain rfl := Fallible.pure_eq_ok.mp hindex
  rw [Dict.get?, Dict.lookup_ofPairs, lastNamed, hnamed, ← List.getLast?_map, hread,
    List.getLast?_map]

lemma exists_indexConfigmaps : (∃ configmaps, indexConfigmaps X documents = .ok configmaps) ↔ Indexable documents := by
  have hentry (d : Json) : (∃ p, configmapEntry X d = .ok p) ↔
      isMapping (metadata d) ∧ hashable ((metadata d).get "name") := by
    rw [← exists_dictKey_iff (X := X)]
    constructor
    · rintro ⟨p, hp⟩
      obtain ⟨hmap, hkey, -⟩ := configmapEntry_eq_ok.mp hp
      exact ⟨hmap, p.1, hkey⟩
    · rintro ⟨hmap, key, hkey⟩
      exact ⟨(key, configData d), configmapEntry_eq_ok.mpr ⟨hmap, hkey, rfl⟩⟩
  constructor
  · rintro ⟨configmaps, h⟩
    obtain ⟨flattened, hflattened, h⟩ := Fallible.bind_eq_ok.mp h
    obtain ⟨pairs, hpairs, -⟩ := Fallible.bind_eq_ok.mp h
    obtain ⟨hitems, rfl⟩ := flattenDocuments_eq_ok.mp hflattened
    refine ⟨hitems, fun d hd hmap => (hentry d).mp ?_⟩
    exact Fallible.exists_mapM_eq_ok.mp ⟨pairs, hpairs⟩ d (List.mem_filter.mpr ⟨hd, hmap⟩)
  · rintro ⟨hitems, hnames⟩
    have hflattened := flattenDocuments_eq_ok.mpr ⟨hitems, rfl⟩
    obtain ⟨pairs, hpairs⟩ := Fallible.exists_mapM_eq_ok.mpr fun d hd =>
      (hentry d).mpr (hnames d (List.mem_filter.mp hd).1 (List.mem_filter.mp hd).2)
    exact ⟨Dict.ofPairs pairs, by simp [indexConfigmaps, hflattened, hpairs]⟩

end Index

section Pairs

variable {X : Externals} {env : String} {service : Service} {p : String × String} {issuer jwks data : Json}

lemma holdsPlaceholder_eq_false : holdsPlaceholder issuer jwks = .ok false ↔
    holds placeholder issuer = .ok false ∧ holds placeholder jwks = .ok false := by
  rw [holdsPlaceholder, Fallible.bind_eq_ok]
  constructor
  · rintro ⟨b, hissuer, hjwks⟩
    cases b with
    | true => cases hjwks
    | false => exact ⟨hissuer, hjwks⟩
  · rintro ⟨hissuer, hjwks⟩
    exact ⟨false, hissuer, hjwks⟩

lemma holds_str {part s : String} : holds part (.str s) = .ok false ↔ ¬ part.toList <:+: s.toList := by
  rw [holds, Except.ok.injEq, decide_eq_false_iff_not]

lemma isForeign_eq_false (henv : expectedIssuers env ≠ []) :
    isForeign X env issuer = .ok false ↔ ∃ s ∈ expectedIssuers env, issuer = .str s := by
  rw [isForeign, if_neg henv, Fallible.bind_eq_ok]
  simp only [Fallible.pure_eq_ok, decide_eq_false_iff_not, not_not, List.mem_map]
  constructor
  · rintro ⟨key, hkey, s, hs, rfl⟩
    exact ⟨s, hs, dictKey_text hkey⟩
  · rintro ⟨s, hs, rfl⟩
    exact ⟨.text s, rfl, s, hs, rfl⟩

lemma endsInCertsPath_eq_true : endsInCertsPath jwks = .ok true ↔ ∃ s, jwks = .str s ∧ certsPath.toList <:+ s.toList := by
  cases jwks with
  | str s => simp [endsInCertsPath]
  | _ => simp [endsInCertsPath]

lemma fromKeycloak_iff : FromKeycloak env issuer ↔
    holds placeholder issuer = .ok false ∧ ∃ s ∈ expectedIssuers env, issuer = .str s := by
  constructor
  · rintro ⟨s, hs, rfl, hmarker⟩
    exact ⟨holds_str.mpr hmarker, s, hs, rfl⟩
  · rintro ⟨hmarker, s, hs, rfl⟩
    exact ⟨s, hs, rfl, holds_str.mp hmarker⟩

lemma servesCerts_iff : ServesCerts jwks ↔
    holds placeholder jwks = .ok false ∧ ∃ s, jwks = .str s ∧ certsPath.toList <:+ s.toList := by
  constructor
  · rintro ⟨s, rfl, hcerts, hmarker⟩
    exact ⟨holds_str.mpr hmarker, s, rfl, hcerts⟩
  · rintro ⟨hmarker, s, rfl, hcerts⟩
    exact ⟨s, rfl, hcerts, holds_str.mp hmarker⟩

/-- A pair without findings is complete, and its values are the expected ones. -/
lemma checkPair_eq_nil (henv : expectedIssuers env ≠ []) : checkPair X env service p issuer jwks = .ok [] ↔
    (truthy issuer ∧ truthy jwks) ∧ FromKeycloak env issuer ∧ ServesCerts jwks := by
  rw [checkPair, fromKeycloak_iff, servesCerts_iff]
  by_cases hset : truthy issuer ∧ truthy jwks
  · have hcomplete : ¬ (!truthy issuer || !truthy jwks) = true := by simp [hset]
    rw [if_neg hcomplete, Fallible.bind_eq_ok]
    constructor
    · rintro ⟨leaked, hleaked, h⟩
      cases leaked with
      | true => cases h
      | false =>
        obtain ⟨foreign, hforeign, h⟩ := Fallible.bind_eq_ok.mp h
        cases foreign with
        | true => cases h
        | false =>
          obtain ⟨certs, hcerts, h⟩ := Fallible.bind_eq_ok.mp h
          cases certs with
          | false => cases h
          | true =>
            obtain ⟨hissuer, hjwks⟩ := holdsPlaceholder_eq_false.mp hleaked
            exact ⟨hset, ⟨hissuer, (isForeign_eq_false henv).mp hforeign⟩, hjwks, endsInCertsPath_eq_true.mp hcerts⟩
    · rintro ⟨-, ⟨hissuer, hexpected⟩, hjwks, hcerts⟩
      refine ⟨false, holdsPlaceholder_eq_false.mpr ⟨hissuer, hjwks⟩, Fallible.bind_eq_ok.mpr ⟨false, ?_, ?_⟩⟩
      · exact (isForeign_eq_false henv).mpr hexpected
      · exact Fallible.bind_eq_ok.mpr ⟨true, endsInCertsPath_eq_true.mpr hcerts, rfl⟩
  · have hmissing : (!truthy issuer || !truthy jwks) = true := by
      rw [← Bool.not_and, Bool.not_eq_true', Bool.eq_false_iff, ne_eq, Bool.and_eq_true]
      exact hset
    rw [if_pos hmissing]
    simp [hset]

lemma checkData_eq_nil (henv : expectedIssuers env ≠ []) :
    checkData X env service data = .ok [] ↔ FirstPairOk env data := by
  have hfirst (p : String × String) : (truthy (data.get p.1) ∧ truthy (data.get p.2)) ∧
      FromKeycloak env (data.get p.1) ∧ ServesCerts (data.get p.2) ↔ Complete data p ∧ PairOk env data p := by
    constructor
    · rintro ⟨hset, hissuer, hjwks⟩
      exact ⟨hset, fun _ => hissuer, fun _ => hjwks⟩
    · rintro ⟨hset, hpair⟩
      exact ⟨hset, hpair.issuer hset.1, hpair.jwks hset.2⟩
  rw [FirstPairOk]
  cases data with
  | obj fields =>
    rw [checkData]
    cases hselected : selected? (.obj fields) with
    | none => simp
    | some p =>
      simp only [checkPair_eq_nil henv, hfirst]
      simp
  | _ => simp [checkData, selected?, jwtKeyPairs, isSet, Json.get, truthy]

end Pairs

section Soundness

variable {X : Externals} {documents : List Json} {catalog : ServicesCatalog} {env : String} {s : Service} {d data : Json}

lemma mem_jwtServices : s ∈ jwtServices catalog env ↔ s ∈ catalog.enabledIn env ∧ s.jwtValidates :=
  List.mem_filter

lemma serviceFindings_eq_nil {configmaps : Dict DictKey Json} (henv : expectedIssuers env ≠ [])
    (h : indexConfigmaps X documents = .ok configmaps) : serviceFindings X env configmaps s = .ok [] ↔
      (s.jwtValidates → ∃ d, lastNamed (configName s) documents = some d ∧ FirstPairOk env (configData d)) := by
  by_cases hjwt : s.jwtValidates
  · rw [serviceFindings, if_pos hjwt, lookup_indexConfigmaps h]
    cases hlast : lastNamed (configName s) documents with
    | none => simp [hjwt]
    | some d =>
      simp only [Option.map_some, checkData_eq_nil henv, hjwt, Option.some.injEq, exists_eq_left', true_imp_iff]
  · simp [serviceFindings, hjwt]

/-- The check is silent exactly if it could read the documents, and what it looked at is all right. -/
lemma jwtConfigFindings_eq_nil (henv : expectedIssuers env ≠ []) :
    jwtConfigFindings X documents catalog env = .ok [] ↔ Inspected documents catalog env := by
  have hmem {s : Service} : s ∈ SortedForm.sortBy Service.name (catalog.enabledIn env) ↔ s ∈ catalog.enabledIn env :=
    SortedForm.perm_sortBy.mem_iff
  constructor
  · intro h
    obtain ⟨configmaps, hconfigmaps, hservices⟩ := Fallible.bind_eq_ok.mp h
    obtain ⟨found, hfound, hnil⟩ := Fallible.bind_eq_ok.mp hservices
    refine ⟨exists_indexConfigmaps.mp ⟨configmaps, hconfigmaps⟩, fun s hs => ?_⟩
    obtain ⟨henabled, hjwt⟩ := mem_jwtServices.mp hs
    obtain ⟨fs, hfs, hrun⟩ := (Fallible.mapM_eq_ok hfound).1 s (hmem.mpr henabled)
    rw [List.flatten_eq_nil_iff.mp (Fallible.pure_eq_ok.mp hnil) fs hfs] at hrun
    exact (serviceFindings_eq_nil henv hconfigmaps).mp hrun hjwt
  · intro h
    obtain ⟨configmaps, hconfigmaps⟩ := exists_indexConfigmaps.mpr h.indexable
    have hrun : (SortedForm.sortBy Service.name (catalog.enabledIn env)).mapM (serviceFindings X env configmaps) =
        .ok ((SortedForm.sortBy Service.name (catalog.enabledIn env)).map fun _ => []) :=
      Fallible.mapM_of_ok fun s hs => (serviceFindings_eq_nil henv hconfigmaps).mpr fun hjwt =>
        h.services s (mem_jwtServices.mpr ⟨hmem.mp hs, hjwt⟩)
    rw [jwtConfigFindings]
    refine Fallible.bind_eq_ok.mpr ⟨configmaps, hconfigmaps, Fallible.bind_eq_ok.mpr ⟨_, hrun, ?_⟩⟩
    rw [Fallible.pure_eq_ok, List.flatten_eq_nil_iff]
    intro fs hfs
    obtain ⟨_, -, rfl⟩ := List.mem_map.mp hfs
    rfl

lemma rendered_of_mem_opened (hd : d ∈ documents.flatMap opened) : Rendered documents d := by
  obtain ⟨top, htop, hmem⟩ := List.mem_flatMap.mp hd
  unfold opened at hmem
  split at hmem
  · split at hmem
    · rename_i hlist
      cases hitems : top.get "items" with
      | list items =>
        rw [hitems] at hmem
        exact .item (.document htop) (isText_iff.mp hlist) hitems (List.mem_filter.mp hmem).1
      | _ => simp [hitems, Json.asList?] at hmem
    · rw [List.mem_singleton.mp hmem]
      exact .document htop
  · cases hmem

lemma lastNamed_spec {name : String} (h : lastNamed name documents = some d) :
    Rendered documents d ∧ configMapNamed name d := by
  obtain ⟨hmem, hnamed⟩ := List.mem_filter.mp (List.mem_of_getLast? h)
  exact ⟨rendered_of_mem_opened hmem, hnamed⟩

/-- Behind a good first pair only the other pairs matter. -/
lemma goodData_iff (h : FirstPairOk env data) :
    GoodData env data ↔ ∀ p ∈ jwtKeyPairs, selected? data ≠ some p → PairOk env data p := by
  obtain ⟨p, hp, hcomplete, hpair⟩ := h
  refine ⟨fun hgood q hq _ => hgood.pairs q hq, fun hothers => ⟨⟨p, List.mem_of_find?_eq_some hp, hcomplete⟩, ?_⟩⟩
  intro q hq
  by_cases hsame : selected? data = some q
  · rw [← Option.some.inj (hp.symm.trans hsame)]
    exact hpair
  · exact hothers q hq hsame

/-- A silent check leaves every ConfigMap of the services good exactly if, once what it looks at is all right, so is
what it does not look at. -/
theorem jwt_config_sound (X : Externals) (documents : List Json) (catalog : ServicesCatalog) (env : String)
    (henv : env = "test" ∨ env = "prod") :
    (jwtConfigFindings X documents catalog env = .ok [] → AllGood documents catalog env) ↔
      (Inspected documents catalog env → UninspectedOk documents catalog env) := by
  have hexpected : expectedIssuers env ≠ [] := by
    rcases henv with rfl | rfl <;> decide
  rw [jwtConfigFindings_eq_nil hexpected]
  refine ⟨fun hsound hinspected s hs d hlast => ?_, fun hothers hinspected s hs d hd hnamed => ?_⟩
  · obtain ⟨last, hlast', hfirst⟩ := hinspected.services s hs
    obtain rfl := Option.some.inj (hlast'.symm.trans hlast)
    have hgood := hsound hinspected s hs
    obtain ⟨hrendered, hnamed⟩ := lastNamed_spec hlast
    exact ⟨(goodData_iff hfirst).mp (hgood _ hrendered hnamed), fun d' hd' hnamed' _ => hgood d' hd' hnamed'⟩
  · obtain ⟨last, hlast, hfirst⟩ := hinspected.services s hs
    obtain ⟨hpairs, hshadowed⟩ := hothers hinspected s hs last hlast
    by_cases hsame : configData d = configData last
    · rw [hsame]
      exact (goodData_iff hfirst).mpr hpairs
    · exact hshadowed d hd hnamed hsame

def plainExternals : Externals := ⟨.ok, .ok, fun _ => 0, fun _ => ""⟩

def authService : Service := ⟨"auth-service", [("test", "enabled")], true⟩

def authCatalog : ServicesCatalog := ⟨[authService], by decide⟩

def authConfigMap (data : Fields) : Json :=
  .obj [("kind", .str "ConfigMap"), ("metadata", .obj [("name", .str "auth-service-config")]), ("data", .obj data)]

def keycloakPair : Fields :=
  [("KEYCLOAK_ISSUER_URI", .str "http://keycloak:8080/realms/serban"),
    ("KEYCLOAK_JWKS_URI", .str "http://keycloak:8080/realms/serban/protocol/openid-connect/certs")]

def unfilledPair : Fields := [("SECURITY_JWT_ISSUER", .str placeholder), ("SECURITY_JWT_JWK_SET_URI", .str placeholder)]

theorem jwt_config_sound_auth :
    (jwtConfigFindings plainExternals [authConfigMap keycloakPair] authCatalog "test" = .ok [] →
      AllGood [authConfigMap keycloakPair] authCatalog "test") ↔
    (Inspected [authConfigMap keycloakPair] authCatalog "test" →
      UninspectedOk [authConfigMap keycloakPair] authCatalog "test") :=
  jwt_config_sound plainExternals [authConfigMap keycloakPair] authCatalog "test" (Or.inl rfl)

/-- The placeholder of a second pair passes behind a first pair that is filled in. -/
theorem placeholder_passes_behind_pair :
    ¬ (jwtConfigFindings plainExternals [authConfigMap (keycloakPair ++ unfilledPair)] authCatalog "test" = .ok [] →
      AllGood [authConfigMap (keycloakPair ++ unfilledPair)] authCatalog "test") := by
  intro hsound
  have hsilent : jwtConfigFindings plainExternals [authConfigMap (keycloakPair ++ unfilledPair)] authCatalog "test" = .ok [] := by
    decide +kernel
  have hgood := hsound hsilent authService List.mem_cons_self _ (.document List.mem_cons_self) rfl
  have hpair := hgood.pairs ("SECURITY_JWT_ISSUER", "SECURITY_JWT_JWK_SET_URI") (by simp [jwtKeyPairs])
  obtain ⟨issuer, -, hissuer, hmarker⟩ := hpair.issuer rfl
  obtain rfl : placeholder = issuer := Json.str.inj hissuer
  exact hmarker (List.infix_refl _)

end Soundness

end PlatformGitops.DriftDetection.Jwt
