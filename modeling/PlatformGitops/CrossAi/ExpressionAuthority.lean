import PlatformGitops.CrossAi.Workflow
import PlatformGitops.Library.Expression
import Mathlib

/-! Where the expressions of an accepted workflow may read secrets, variables and inputs. -/

namespace PlatformGitops.CrossAi.Workflow

open Library

section Texts

/-- A step down a document. -/
inductive Place where
  | field (name : String)
  | fieldName (name : String)
  | item (index : Nat)

/-- A text of a document, with the way to it; the keys of a mapping are texts of it. -/
inductive TextAt : Json → List Place → String → Prop where
  | text (s : String) : TextAt (.str s) [] s
  | item {items : List Json} {index : Nat} {v : Json} {path : List Place} {s : String} (h : items[index]? = some v)
      (ht : TextAt v path s) : TextAt (.list items) (.item index :: path) s
  | fieldName {fields : List (String × Json)} {p : String × Json} (h : p ∈ fields) :
      TextAt (.obj fields) [.fieldName p.1] p.1
  | field {fields : List (String × Json)} {p : String × Json} {path : List Place} {s : String} (h : p ∈ fields)
      (ht : TextAt p.2 path s) : TextAt (.obj fields) (.field p.1 :: path) s

/-- The contexts that only the bootstrap step may read. -/
def contexts : List (List Char × List (List Char)) :=
  [("secrets".toList, []), ("vars".toList, []), ("inputs".toList, []),
    ("github".toList, ["event".toList, "inputs".toList])]

def ReadsAuthority (s : String) : Prop := Expression.Reads contexts s.toList

instance (s : String) : Decidable (ReadsAuthority s) := inferInstanceAs (Decidable (Expression.Reads _ _))

def Literal (s : String) : Prop := Expression.embedded s.toList = []

instance (s : String) : Decidable (Literal s) := inferInstanceAs (Decidable (_ = _))

lemma Literal.not_reads {s : String} (h : Literal s) : ¬ ReadsAuthority s := Expression.not_reads h

lemma hasOpening_eq_false {s : List Char} (h : hasOpening s = false) : ¬ Expression.opening <:+: s := by
  induction s with
  | nil => simp [Expression.opening, List.infix_nil]
  | cons c s ih =>
    simp only [hasOpening, Bool.or_eq_false_iff] at h
    rw [List.infix_cons_iff, not_or]
    refine ⟨fun hstart => ?_, ih h.2⟩
    rw [← List.isPrefixOf_iff_prefix, Expression.opening, h.1] at hstart
    cases hstart

lemma literal_of_hasOpening {s : String} (h : hasOpening s.toList = false) : Literal s :=
  Expression.embedded_eq_nil (hasOpening_eq_false h)

lemma literal_of_not_mem {s : String} (h : '$' ∉ s.toList) : Literal s :=
  Expression.embedded_eq_nil fun hinside => h (hinside.subset List.mem_cons_self)

variable {path : List Place} {s t : String} {v : Json} {fields : List (String × Json)} {keys : List String}

lemma TextAt.of_str (h : v.asStr? = some t) (ht : TextAt v path s) : path = [] ∧ s = t := by
  cases ht <;> simp_all [Json.asStr?]

lemma not_textAt_null : ¬ TextAt .null path s := by
  rintro ⟨⟩

lemma mem_of_hasUnknown {p : String × Json} (h : hasUnknown fields keys = false) (hp : p ∈ fields) : p.1 ∈ keys := by
  simp only [hasUnknown, List.any_eq_false, decide_eq_true_eq, not_not] at h
  exact h p hp

/-- A text of a mapping is one of its keys, or a text of the value under one. -/
lemma TextAt.of_obj (hunique : Dict.Unique fields) (hkeys : hasUnknown fields keys = false)
    (ht : TextAt (.obj fields) path s) :
    (s ∈ keys ∧ path = [.fieldName s]) ∨
      ∃ key ∈ keys, ∃ rest, path = .field key :: rest ∧ TextAt (get fields key) rest s := by
  cases ht with
  | fieldName h => exact .inl ⟨mem_of_hasUnknown hkeys h, rfl⟩
  | field h ht =>
    refine .inr ⟨_, mem_of_hasUnknown hkeys h, _, rfl, ?_⟩
    rwa [get, (hunique.mem_iff).mp h, Option.getD_some]

lemma hasUnknown_of_hasKeys (h : hasKeys fields keys = true) : hasUnknown fields keys = false := by
  simp only [hasKeys, decide_eq_true_eq] at h
  simpa using h.1

lemma TextAt.of_isExactly {expected : List (String × String)} (hunique : Dict.Unique fields)
    (h : isExactly fields expected = true) (ht : TextAt (.obj fields) path s) :
    s ∈ expected.map (·.1) ∨ s ∈ expected.map (·.2) := by
  simp only [isExactly, decide_eq_true_eq, List.all_eq_true] at h
  obtain ⟨hkeys, hvalues⟩ := h
  rcases ht.of_obj hunique (hasUnknown_of_hasKeys hkeys) with ⟨hs, -⟩ | ⟨key, hkey, rest, -, ht⟩
  · exact .inl hs
  · obtain ⟨p, hp, rfl⟩ := List.mem_map.mp hkey
    exact .inr (List.mem_map.mpr ⟨p, hp, (ht.of_str (hvalues p hp)).2.symm⟩)

end Texts

section Construction

open Json (Distinct)

lemma distinct_obj {fields : List (String × Json)} :
    Distinct (.obj fields) ↔ Dict.Unique fields ∧ ∀ p ∈ fields, Distinct p.2 :=
  Json.all_obj

lemma distinct_list {items : List Json} : Distinct (.list items) ↔ ∀ v ∈ items, Distinct v := by
  rw [Distinct, Json.all_list]
  exact and_iff_right trivial

lemma mem_set {d : List (String × Json)} {key : String} {v : Json} {p : String × Json} (h : p ∈ Dict.set d key v) :
    p = (key, v) ∨ p ∈ d := by
  induction d with
  | nil => exact .inl (List.mem_singleton.mp h)
  | cons q d ih =>
    simp only [Dict.set] at h
    split at h
    · rcases List.mem_cons.mp h with rfl | hp
      · exact .inl rfl
      · exact .inr (List.mem_cons_of_mem _ hp)
    · rcases List.mem_cons.mp h with rfl | hp
      · exact .inr List.mem_cons_self
      · exact (ih hp).imp_right (List.mem_cons_of_mem _)

mutual

lemma distinct_constructObject {node : YamlNode} {v : Json} (h : constructObject node = .ok v) : Distinct v := by
  cases node with
  | scalar value =>
    cases h
    trivial
  | sequence items =>
    simp only [constructObject, Fallible.bind_eq_ok, Fallible.pure_eq_ok] at h
    obtain ⟨values, hvalues, rfl⟩ := h
    exact distinct_list.mpr (distinct_constructItems hvalues)
  | mapping tagged pairs =>
    simp only [constructObject, Fallible.bind_eq_ok, Fallible.pure_eq_ok] at h
    obtain ⟨fields, hfields, rfl⟩ := h
    exact distinct_constructMapping (distinct_obj.mpr ⟨by simp [Dict.Unique], by simp⟩) hfields

lemma distinct_constructItems {items : List YamlNode} {values : List Json} (h : constructItems items = .ok values) :
    ∀ v ∈ values, Distinct v := by
  cases items with
  | nil =>
    cases h
    simp
  | cons item items =>
    simp only [constructItems, Fallible.bind_eq_ok, Fallible.pure_eq_ok] at h
    obtain ⟨value, hvalue, values, hvalues, rfl⟩ := h
    exact List.forall_mem_cons.mpr ⟨distinct_constructObject hvalue, distinct_constructItems hvalues⟩

lemma distinct_constructMapping {tagged : Bool} {result fields : List (String × Json)}
    {pairs : List (YamlNode × YamlNode)} (hresult : Distinct (.obj result))
    (h : constructMapping tagged result pairs = .ok fields) : Distinct (.obj fields) := by
  match pairs with
  | [] =>
    cases h
    exact hresult
  | (keyNode, valueNode) :: rest =>
    simp only [constructMapping, Fallible.bind_eq_ok] at h
    obtain ⟨key, -, h⟩ := h
    split at h
    · simp only [Fallible.bind_eq_ok] at h
      obtain ⟨-, -, value, hvalue, h⟩ := h
      refine distinct_constructMapping (distinct_obj.mpr ⟨(distinct_obj.mp hresult).1.set, fun p hp => ?_⟩) h
      rcases mem_set hp with rfl | hp
      · exact distinct_constructObject hvalue
      · exact (distinct_obj.mp hresult).2 p hp
    · split at h <;> cases h

end

lemma distinct_parseYaml {yaml : Yaml} {raw : List UInt8} {workflow : List (String × Json)}
    (h : parseYaml yaml raw = .ok workflow) : Distinct (.obj workflow) := by
  simp only [parseYaml, mapping, Fallible.bind_eq_ok, expect_eq_ok] at h
  obtain ⟨-, -, -, -, text, -, value, hvalue, hobj⟩ := h
  have hdistinct : Distinct value := by
    simp only [loadYaml] at hvalue
    split at hvalue
    · cases hvalue
    · simp only [Fallible.bind_eq_ok] at hvalue
      obtain ⟨-, -, hvalue⟩ := hvalue
      split at hvalue
      · cases hvalue
      · cases hvalue
        trivial
      · exact distinct_constructObject hvalue
  cases value with
  | obj fields =>
    cases hobj
    exact hdistinct
  | _ => cases hobj

lemma distinct_field {fields : List (String × Json)} (h : Distinct (.obj fields)) (key : String) :
    Distinct (get fields key) :=
  Json.distinct_get h key

lemma Distinct.unique {value : Json} {fields : List (String × Json)} {label : String} (h : Distinct value)
    (hmapping : mapping value label = .ok fields) : value = .obj fields ∧ Dict.Unique fields ∧ Distinct (.obj fields) := by
  simp only [mapping, expect_eq_ok] at hmapping
  cases value with
  | obj fields =>
    cases hmapping
    exact ⟨rfl, (distinct_obj.mp h).1, h⟩
  | _ => cases hmapping

end Construction

section Parts

open Json (Distinct)

variable {workflow job step : List (String × Json)} {path : List Place} {s : String} {v : Json}

lemma not_reads_absent (h : isAbsent v = true) (ht : TextAt v path s) : ¬ ReadsAuthority s := by
  simp only [isAbsent, decide_eq_true_eq] at h
  rcases h with h | h
  · cases v with
    | null => exact absurd ht not_textAt_null
    | _ => cases h
  · rw [(ht.of_str h).2]
    decide

lemma not_reads_inputs (h : isAbsent v = true ∨ isEmptyDict v = true) (ht : TextAt v path s) : ¬ ReadsAuthority s := by
  rcases h with h | h
  · exact not_reads_absent h ht
  · cases v with
    | obj fields =>
      obtain rfl := List.isEmpty_iff.mp h
      cases ht with
      | fieldName hp => cases hp
      | field hp => cases hp
    | _ => cases h

lemma not_reads_trigger (hd : Distinct (.obj workflow)) (h : validateTrigger workflow = .ok ())
    (ht : TextAt (get workflow "on") path s) : ¬ ReadsAuthority s := by
  simp only [validateTrigger] at h
  split at h
  · rename_i hstr
    rw [(ht.of_str hstr).2]
    decide
  · have hon := distinct_field hd "on"
    split at h
    · cases h
    · rename_i fields hfields
      obtain ⟨hobj, hkeys⟩ := Option.filter_eq_some_iff.mp hfields
      have hval : get workflow "on" = .obj fields := by
        cases hvalue : get workflow "on" <;> simp_all [Json.asObj?]
      rw [hval] at ht hon
      rcases ht.of_obj (distinct_obj.mp hon).1 (hasUnknown_of_hasKeys hkeys) with ⟨hs, -⟩ | ⟨key, hkey, rest, -, ht⟩
      · rw [List.mem_singleton.mp hs]
        decide
      · rw [List.mem_singleton.mp hkey] at ht
        split at h
        · rename_i habsent
          exact not_reads_absent habsent ht
        · simp only [Fallible.bind_eq_ok, rejectIf_eq_ok, not_not, Bool.not_eq_true] at h
          obtain ⟨dispatch, hdispatch, -, hinputs, hunknown⟩ := h
          obtain ⟨hdispatchObj, hunique, -⟩ := Distinct.unique (distinct_field hon "workflow_dispatch") hdispatch
          rw [hdispatchObj] at ht
          rcases ht.of_obj hunique hunknown with ⟨hs, -⟩ | ⟨key, hkey, rest, -, ht⟩
          · rw [List.mem_singleton.mp hs]
            decide
          · rw [List.mem_singleton.mp hkey] at ht
            exact not_reads_inputs hinputs ht

lemma not_reads_permissions (hd : Distinct (.obj workflow)) (h : validatePermissions workflow = .ok ())
    (ht : TextAt (get workflow "permissions") path s) : ¬ ReadsAuthority s := by
  simp only [validatePermissions, Fallible.bind_eq_ok, rejectIf_eq_ok, not_not] at h
  obtain ⟨permissions, hpermissions, hexact⟩ := h
  obtain ⟨hobj, hunique, -⟩ := Distinct.unique (distinct_field hd "permissions") hpermissions
  rw [hobj] at ht
  have hfixed : ∀ s ∈ ["contents", "id-token"] ++ ["read", "write"], ¬ ReadsAuthority s := by decide
  exact hfixed s (List.mem_append.mpr (ht.of_isExactly hunique hexact))

lemma not_reads_concurrency {X : Externals} {group : String × String} (hd : Distinct (.obj workflow))
    (h : concurrencyGroup X workflow = .ok group) (ht : TextAt (get workflow "concurrency") path s) :
    ¬ ReadsAuthority s := by
  simp only [concurrencyGroup, Fallible.bind_eq_ok, rejectIf_eq_ok, expect_eq_ok, not_not] at h
  obtain ⟨concurrency, hconcurrency, -, hkeys, group, hgroup, -⟩ := h
  obtain ⟨hstr, hliteral⟩ := Option.filter_eq_some_iff.mp hgroup
  simp only [decide_eq_true_eq] at hliteral
  obtain ⟨-, -, hopening, hcancel⟩ := hliteral
  obtain ⟨hobj, hunique, -⟩ := Distinct.unique (distinct_field hd "concurrency") hconcurrency
  rw [hobj] at ht
  have hfixed : ∀ s ∈ ["group", "cancel-in-progress"], ¬ ReadsAuthority s := by decide
  rcases ht.of_obj hunique (hasUnknown_of_hasKeys hkeys) with ⟨hs, -⟩ | ⟨key, hkey, rest, -, ht⟩
  · exact hfixed s hs
  · rcases List.mem_pair.mp hkey with rfl | rfl
    · rw [(ht.of_str hstr).2]
      exact (literal_of_hasOpening hopening).not_reads
    · rw [(ht.of_str hcancel).2]
      decide

/-- The texts of the labels of an accepted job are literal. -/
lemma literal_labels {labels : List String} (h : literalLabels v = .ok labels) (ht : TextAt v path s) : Literal s := by
  simp only [literalLabels, Fallible.bind_eq_ok, rejectIf_eq_ok, Fallible.pure_eq_ok, not_or, not_not] at h
  obtain ⟨found, hfound, -, ⟨-, hopening⟩, rfl⟩ := h
  simp only [not_exists, not_and, Bool.not_eq_true] at hopening
  cases v with
  | str label =>
    cases hfound
    rw [(ht.of_str rfl).2]
    exact literal_of_hasOpening (hopening label List.mem_cons_self)
  | list items =>
    simp only [labelsOf, expect_eq_ok] at hfound
    have hmapM := (Option.filter_eq_some_iff.mp hfound).1
    cases ht with
    | item hitem ht =>
      obtain ⟨label, hlabel, hstr⟩ := Fallible.mem_of_mapM_eq_some hmapM _ (List.mem_of_getElem? hitem)
      rw [(ht.of_str hstr).2]
      exact literal_of_hasOpening (hopening label hlabel)
  | _ => cases hfound

lemma get_of_hasUnknown {keys : List String} {key : String} (h : hasUnknown step keys = false) (hkey : key ∉ keys) :
    get step key = .null := by
  have hlookup : step.lookup key = none := by
    rw [List.lookup_eq_none_iff]
    intro p hp
    have hmem := mem_of_hasUnknown h hp
    rw [bne_iff_ne]
    rintro rfl
    exact hkey hmem
  rw [get, hlookup, Option.getD_none]

lemma hasUnknown_of_subset {keys : List String} (more : List String) (h : hasUnknown step keys = false) (hsub : keys ⊆ more) :
    hasUnknown step more = false := by
  simp only [hasUnknown, List.any_eq_false, decide_eq_true_eq, not_not]
  exact fun p hp => hsub (mem_of_hasUnknown h hp)

lemma literal_use {jobName : String} {found : Option Dependency} (h : inspectStep jobName (.obj step) = .ok found)
    (ht : TextAt (get step "uses") path s) : Literal s := by
  simp only [inspectStep, stepOf, mapping, Json.asObj?, Fallible.bind_eq_ok, expect_eq_ok, Option.some.injEq] at h
  obtain ⟨_, rfl, -, -, h⟩ := h
  cases huse : step.lookup "uses" with
  | none =>
    rw [get, huse, Option.getD_none] at ht
    exact absurd ht not_textAt_null
  | some use =>
    rw [get, huse, Option.getD_some] at ht
    simp only [huse, Fallible.bind_eq_ok] at h
    obtain ⟨dependency, h, -⟩ := h
    simp only [inspectUse, Fallible.bind_eq_ok, expect_eq_ok] at h
    obtain ⟨value, hvalue, -⟩ := h
    obtain ⟨hstr, hliteral⟩ := Option.filter_eq_some_iff.mp hvalue
    simp only [decide_eq_true_eq] at hliteral
    rw [(ht.of_str hstr).2]
    exact literal_of_hasOpening hliteral.2

def stepFields : List String := ["name", "env", "uses", "with"]

/-- A text of a step stands under its name, reads nothing, or stands in its environment or arguments. -/
lemma step_cases (hunique : Dict.Unique step) (hkeys : hasUnknown step stepFields = false)
    (huse : ∀ path s, TextAt (get step "uses") path s → Literal s) (ht : TextAt (.obj step) path s) :
    (∃ rest, path = .field "name" :: rest) ∨ ¬ ReadsAuthority s ∨
      (∃ rest, path = .field "env" :: rest ∧ TextAt (get step "env") rest s) ∨
      ∃ rest, TextAt (get step "with") rest s := by
  have hfixed : ∀ s ∈ stepFields, ¬ ReadsAuthority s := by decide
  rcases ht.of_obj hunique hkeys with ⟨hs, -⟩ | ⟨key, hkey, rest, hpath, htext⟩
  · exact .inr (.inl (hfixed s hs))
  · simp only [stepFields, List.mem_cons, List.not_mem_nil, or_false] at hkey
    rcases hkey with rfl | rfl | rfl | rfl
    · exact .inl ⟨rest, hpath⟩
    · exact .inr (.inr (.inl ⟨rest, hpath, htext⟩))
    · exact .inr (.inl (huse _ _ htext).not_reads)
    · exact .inr (.inr (.inr ⟨rest, htext⟩))

lemma prior_cases (hunique : Dict.Unique step) (h : checkPrior step = .ok ())
    (huse : ∀ path s, TextAt (get step "uses") path s → Literal s) (ht : TextAt (.obj step) path s) :
    (∃ rest, path = .field "name" :: rest) ∨ ¬ ReadsAuthority s := by
  simp only [checkPrior, rejectIf_eq_ok, not_or, Bool.not_eq_true] at h
  have hkeys := hasUnknown_of_subset stepFields h.1 (by decide)
  rcases step_cases hunique hkeys huse ht with hname | hs | ⟨rest, -, ht⟩ | ⟨rest, ht⟩
  · exact .inl hname
  · exact .inr hs
  · rw [get_of_hasUnknown h.1 (by decide)] at ht
    exact absurd ht not_textAt_null
  · rw [get_of_hasUnknown h.1 (by decide)] at ht
    exact absurd ht not_textAt_null

lemma post_cases {revision : List Char} (hd : Distinct (.obj step)) (h : checkPost revision step = .ok ())
    (huse : ∀ path s, TextAt (get step "uses") path s → Literal s) (ht : TextAt (.obj step) path s) :
    (∃ rest, path = .field "name" :: rest) ∨ ¬ ReadsAuthority s := by
  simp only [checkPost, postInvalid] at h
  split at h
  · cases h
  · split at h
    · cases h
    · split at h
      · cases h
      · rename_i hunknown
        simp only [not_or, Bool.not_eq_true] at hunknown
        simp only [Fallible.bind_eq_ok] at h
        obtain ⟨env, henv, h⟩ := h
        obtain ⟨hobj, hunique, -⟩ := Distinct.unique (distinct_field hd "env") henv
        have hkeys := hasUnknown_of_subset stepFields hunknown.1 (by decide)
        rcases step_cases (distinct_obj.mp hd).1 hkeys huse ht with hname | hs | ⟨rest, -, ht⟩ | ⟨rest, ht⟩
        · exact .inl hname
        · exact .inr hs
        · split at h
          · rename_i hexact
            rw [hobj] at ht
            have hfixed : ∀ s ∈ postBootstrapEnv.map (·.1) ++ postBootstrapEnv.map (·.2), ¬ ReadsAuthority s := by
              decide
            exact .inr (hfixed s (List.mem_append.mpr (ht.of_isExactly hunique hexact)))
          · cases h
        · rw [get_of_hasUnknown hunknown.1 (by decide)] at ht
          exact absurd ht not_textAt_null

/-- The texts of a loaded policy: the patterns of its schema have no `$`. -/
structure PlainPolicy (stagePolicy : StagePolicy) (environment expectedBootstrapUrl : String) : Prop where
  stage : '$' ∉ stagePolicy.stage.toList
  workflowPath : '$' ∉ stagePolicy.workflowPath.toList
  environment : '$' ∉ environment.toList
  expectedBootstrapUrl : '$' ∉ expectedBootstrapUrl.toList

variable {stagePolicy : StagePolicy} {environment expectedBootstrapUrl : String}

lemma literal_sha256Digest (h : isSha256Digest s.toList = true) : Literal s := by
  simp only [isSha256Digest, decide_eq_true_eq, List.isPrefixOf_iff_prefix] at h
  obtain ⟨⟨digits, hdigits⟩, -, hall⟩ := h
  refine literal_of_not_mem fun hmem => ?_
  rw [← hdigits] at hmem hall
  rcases List.mem_append.mp hmem with hmem | hmem
  · exact absurd hmem (by decide)
  · exact absurd (List.all_eq_true.mp hall '$' hmem) (by decide)

lemma not_reads_arguments (hd : Distinct (.obj step)) (hpolicy : PlainPolicy stagePolicy environment expectedBootstrapUrl)
    (h : checkArguments stagePolicy step = .ok ()) (ht : TextAt (get step "with") path s) : ¬ ReadsAuthority s := by
  simp only [checkArguments, Fallible.bind_eq_ok, rejectIf_eq_ok, not_or, not_not] at h
  obtain ⟨arguments, harguments, hkeys, hstage, hpath, hdigest⟩ := h
  obtain ⟨hobj, hunique, -⟩ := Distinct.unique (distinct_field hd "with") harguments
  rw [hobj] at ht
  have hfixed : ∀ s ∈ ["stage", "workflow-path", "expected-trust-root-sha256"], ¬ ReadsAuthority s := by decide
  rcases ht.of_obj hunique (hasUnknown_of_hasKeys hkeys) with ⟨hs, -⟩ | ⟨key, hkey, rest, -, htext⟩
  · exact hfixed s hs
  · simp only [List.mem_cons, List.not_mem_nil, or_false] at hkey
    rcases hkey with rfl | rfl | rfl
    · rw [(htext.of_str hstage).2]
      exact (literal_of_not_mem hpolicy.stage).not_reads
    · rw [(htext.of_str hpath).2]
      exact (literal_of_not_mem hpolicy.workflowPath).not_reads
    · simp only [Option.any_eq_true] at hdigest
      obtain ⟨digest, hstr, hsha⟩ := hdigest
      rw [(htext.of_str hstr).2]
      exact (literal_sha256Digest hsha).not_reads

/-- Of the environment of the bootstrap step, only the three secrets are read. -/
lemma environment_cases (hd : Distinct (.obj step)) (hpolicy : PlainPolicy stagePolicy environment expectedBootstrapUrl)
    (h : checkEnvironment expectedBootstrapUrl step = .ok ()) (ht : TextAt (get step "env") path s) :
    (∃ name ∈ protectedSecretNames, path = [.field name]) ∨ ¬ ReadsAuthority s := by
  simp only [checkEnvironment, Fallible.bind_eq_ok, rejectIf_eq_ok, not_not] at h
  obtain ⟨env, henv, -, hkeys, _, hfixed, hurl⟩ := h
  obtain ⟨hobj, hunique, -⟩ := Distinct.unique (distinct_field hd "env") henv
  rw [hobj] at ht
  have hvalue (p : String × String) (hp : p ∈ bootstrapEnv) : (get env p.1).asStr? = some p.2 := by
    have hcheck := Fallible.forM_eq_ok.mp hfixed p hp
    rwa [rejectIf_eq_ok, not_not] at hcheck
  have hnames : ∀ s ∈ bootstrapEnv.map (·.1) ++ ["CROSS_AI_BOOTSTRAP_URL"], ¬ ReadsAuthority s := by decide
  have hsecrets : ∀ p ∈ bootstrapEnv, p.1 ∈ protectedSecretNames ∨ ¬ ReadsAuthority p.2 := by decide
  rcases ht.of_obj hunique (hasUnknown_of_hasKeys hkeys) with ⟨hs, -⟩ | ⟨key, hkey, rest, hpath, htext⟩
  · exact .inr (hnames s hs)
  · rcases List.mem_append.mp hkey with hkey | hkey
    · obtain ⟨p, hp, rfl⟩ := List.mem_map.mp hkey
      obtain ⟨hrest, hs⟩ := htext.of_str (hvalue p hp)
      rw [hpath, hrest, hs]
      exact (hsecrets p hp).imp_left fun hname => ⟨p.1, hname, rfl⟩
    · rw [List.mem_singleton.mp hkey] at htext
      rw [(htext.of_str hurl).2]
      exact .inr (literal_of_not_mem hpolicy.expectedBootstrapUrl).not_reads

lemma bootstrap_cases (hd : Distinct (.obj step)) (hpolicy : PlainPolicy stagePolicy environment expectedBootstrapUrl)
    (hkeys : hasUnknown step stepFields = false) (harguments : checkArguments stagePolicy step = .ok ())
    (henvironment : checkEnvironment expectedBootstrapUrl step = .ok ())
    (huse : ∀ path s, TextAt (get step "uses") path s → Literal s) (ht : TextAt (.obj step) path s) :
    (∃ rest, path = .field "name" :: rest) ∨ (∃ name ∈ protectedSecretNames, path = [.field "env", .field name]) ∨
      ¬ ReadsAuthority s := by
  rcases step_cases (distinct_obj.mp hd).1 hkeys huse ht with hname | hs | ⟨rest, rfl, htext⟩ | ⟨rest, htext⟩
  · exact .inl hname
  · exact .inr (.inr hs)
  · rcases environment_cases hd hpolicy henvironment htext with ⟨name, hname, rfl⟩ | hs
    · exact .inr (.inl ⟨name, hname, rfl⟩)
    · exact .inr (.inr hs)
  · exact .inr (.inr (not_reads_arguments hd hpolicy harguments htext))

end Parts

section Jobs

open Json (Distinct)

variable {stagePolicy : StagePolicy} {environment expectedBootstrapUrl jobName : String}
  {job : List (String × Json)} {path : List Place} {s : String}

/-- What the validation of the bootstrap step finds at each place of the steps. -/
lemma validateBootstrapStep_cases (h : validateBootstrapStep stagePolicy expectedBootstrapUrl job jobName = .ok ()) :
    ∃ values, stepsOf job jobName = .ok values ∧ ∀ index value, values[index]? = some value →
      ∃ step, value = .obj step ∧
        ((index = 0 ∧ checkPrior step = .ok ()) ∨
          (index = 1 ∧ hasUnknown step stepFields = false ∧ checkArguments stagePolicy step = .ok () ∧
            checkEnvironment expectedBootstrapUrl step = .ok ()) ∨
          ∃ revision, checkPost revision step = .ok ()) := by
  simp only [validateBootstrapStep, Fallible.bind_eq_ok] at h
  obtain ⟨values, hvalues, steps, hsteps, h⟩ := h
  refine ⟨values, hvalues, fun index value hvalue => ?_⟩
  obtain ⟨step, hstep, hmapping⟩ := Fallible.mapM_getElem? hsteps hvalue
  have hobj : value = .obj step := by
    simp only [stepOf, mapping, expect_eq_ok] at hmapping
    cases value <;> simp_all [Json.asObj?]
  refine ⟨step, hobj, ?_⟩
  split at h
  · rename_i bootstrap bootstrapIndex hfound
    simp only [Fallible.bind_eq_ok, rejectIf_eq_ok, not_not, Bool.not_eq_true] at h
    obtain ⟨-, rfl, _, hprior, -, hunknown, revision, -, _, harguments, _, henvironment, -, -, hpost⟩ := h
    have hbootstrap : steps[1]? = some bootstrap := by
      have hmem : (bootstrap, 1) ∈ steps.zipIdx.filter fun p => (bootstrapAction (get p.1 "uses")).isSome := by
        rw [hfound]
        exact List.mem_singleton_self _
      exact List.mem_zipIdx_iff_getElem?.mp (List.mem_filter.mp hmem).1
    rcases index with _ | _ | index
    · refine .inl ⟨rfl, Fallible.forM_eq_ok.mp hprior step ?_⟩
      exact List.mem_of_getElem? (i := 0) (by rw [List.getElem?_take_of_lt (by omega), hstep])
    · cases hbootstrap.symm.trans hstep
      exact .inr (.inl ⟨rfl, hunknown, harguments, henvironment⟩)
    · refine .inr (.inr ⟨revision, Fallible.forM_eq_ok.mp hpost step ?_⟩)
      exact List.mem_of_getElem? (i := index) (by rw [List.getElem?_drop, Nat.add_comm, hstep])
  · cases h

/-- The places that the inspection leaves to the author of the workflow. -/
inductive FreePlace : List Place → Prop where
  | name (rest : List Place) : FreePlace (.field "name" :: rest)
  | jobName (job : String) : FreePlace [.field "jobs", .fieldName job]
  | jobTitle (job : String) (rest : List Place) : FreePlace (.field "jobs" :: .field job :: .field "name" :: rest)
  | timeout (job : String) (rest : List Place) :
    FreePlace (.field "jobs" :: .field job :: .field "timeout-minutes" :: rest)
  | url (job : String) (rest : List Place) :
    FreePlace (.field "jobs" :: .field job :: .field "environment" :: .field "url" :: rest)
  | stepTitle (job : String) (index : Nat) (rest : List Place) :
    FreePlace (.field "jobs" :: .field job :: .field "steps" :: .item index :: .field "name" :: rest)

/-- The secrets of the bootstrap step. -/
def BootstrapPlace (path : List Place) : Prop :=
  ∃ job, ∃ name ∈ protectedSecretNames,
    path = [.field "jobs", .field job, .field "steps", .item 1, .field "env", .field name]

lemma runsOn_cases {v : Json} {found : List String × Option String} (hd : Distinct v) (h : runsOn v = .ok found)
    (ht : TextAt v path s) : Literal s ∨ path = [.field "group"] := by
  cases v with
  | obj fields =>
    simp only [runsOn, Fallible.bind_eq_ok, rejectIf_eq_ok, expect_eq_ok, Bool.not_eq_true] at h
    obtain ⟨-, hkeys, group, hgroup, labels, hlabels, -⟩ := h
    have hfixed : ∀ s ∈ ["group", "labels"], Literal s := by
      simp [Literal, Expression.embedded, Expression.embeddedFrom]
    rcases ht.of_obj (distinct_obj.mp hd).1 hkeys with ⟨hs, -⟩ | ⟨key, hkey, rest, hpath, htext⟩
    · exact .inl (hfixed s hs)
    · rcases List.mem_pair.mp hkey with rfl | rfl
      · rw [hpath, (htext.of_str (Option.filter_eq_some_iff.mp hgroup).1).1]
        exact .inr rfl
      · exact .inl (literal_labels hlabels htext)
  | _ =>
    simp only [runsOn, Fallible.bind_eq_ok] at h
    obtain ⟨labels, hlabels, -⟩ := h
    exact .inl (literal_labels hlabels ht)

lemma environmentName_cases {v : Json} (hd : Distinct v) (henvironment : '$' ∉ environment.toList)
    (h : environmentName v = .ok (some environment)) (ht : TextAt v path s) :
    ¬ ReadsAuthority s ∨ ∃ rest, path = .field "url" :: rest := by
  cases v with
  | str name =>
    cases h
    rw [(ht.of_str rfl).2]
    exact .inl (literal_of_not_mem henvironment).not_reads
  | obj fields =>
    simp only [environmentName, Fallible.bind_eq_ok, rejectIf_eq_ok, expect_eq_ok, Bool.not_eq_true,
      Fallible.pure_eq_ok, Option.some.injEq] at h
    obtain ⟨-, hkeys, name, hname, rfl⟩ := h
    have hfixed : ∀ s ∈ ["name", "url"], ¬ ReadsAuthority s := by decide
    rcases ht.of_obj (distinct_obj.mp hd).1 hkeys with ⟨hs, -⟩ | ⟨key, hkey, rest, hpath, htext⟩
    · exact .inl (hfixed s hs)
    · rcases List.mem_pair.mp hkey with rfl | rfl
      · rw [(htext.of_str hname).2]
        exact .inl (literal_of_not_mem henvironment).not_reads
      · exact .inr ⟨rest, hpath⟩
  | null => cases h
  | _ => simp [environmentName] at h

/-- Where the texts of the steps stand: under a step's name, or among the secrets of the bootstrap step. -/
lemma steps_cases (hd : Distinct (.obj job)) (hpolicy : PlainPolicy stagePolicy environment expectedBootstrapUrl)
    (hboot : validateBootstrapStep stagePolicy expectedBootstrapUrl job jobName = .ok ())
    (huses : ∀ values, stepsOf job jobName = .ok values → ∀ value ∈ values, ∃ found,
      inspectStep jobName value = .ok found)
    (ht : TextAt (get job "steps") path s) :
    (∃ index rest, path = .item index :: .field "name" :: rest) ∨
      (∃ name ∈ protectedSecretNames, path = [.item 1, .field "env", .field name]) ∨ ¬ ReadsAuthority s := by
  obtain ⟨values, hvalues, hplaces⟩ := validateBootstrapStep_cases hboot
  have hsteps := distinct_field hd "steps"
  have hinspect := huses values hvalues
  simp only [stepsOf, sequence, expect_eq_ok] at hvalues
  rw [get] at ht hsteps
  cases hlookup : job.lookup "steps" with
  | none =>
    rw [hlookup] at ht
    exact absurd ht not_textAt_null
  | some v =>
    rw [hlookup, Option.getD_some] at ht hsteps hvalues
    cases v with
    | list items =>
      cases hvalues
      cases ht with
      | item hitem htext =>
        obtain ⟨step, rfl, hplace⟩ := hplaces _ _ hitem
        obtain ⟨found, hfound⟩ := hinspect _ (List.mem_of_getElem? hitem)
        have huse : ∀ path s, TextAt (get step "uses") path s → Literal s := fun _ _ => literal_use hfound
        have hstep := distinct_list.mp hsteps _ (List.mem_of_getElem? hitem)
        rcases hplace with ⟨-, hprior⟩ | ⟨rfl, hkeys, harguments, henvironment⟩ | ⟨revision, hpost⟩
        · rcases prior_cases (distinct_obj.mp hstep).1 hprior huse htext with ⟨rest, rfl⟩ | hs
          · exact .inl ⟨_, rest, rfl⟩
          · exact .inr (.inr hs)
        · rcases bootstrap_cases hstep hpolicy hkeys harguments henvironment huse htext with
            ⟨rest, rfl⟩ | ⟨name, hname, rfl⟩ | hs
          · exact .inl ⟨_, rest, rfl⟩
          · exact .inr (.inl ⟨name, hname, rfl⟩)
          · exact .inr (.inr hs)
        · rcases post_cases hstep hpost huse htext with ⟨rest, rfl⟩ | hs
          · exact .inl ⟨_, rest, rfl⟩
          · exact .inr (.inr hs)
    | _ => cases hvalues

lemma inspectJob_cases {found : List String × Option String} {uses : List Dependency}
    (h : inspectJob environment jobName job = .ok (some found, uses)) :
    hasUnknown job jobFields = false ∧ environmentName (get job "environment") = .ok (some environment) ∧
      runsOn (get job "runs-on") = .ok found ∧
      ∀ values, stepsOf job jobName = .ok values → ∀ value ∈ values, ∃ dependency,
        inspectStep jobName value = .ok dependency := by
  simp only [inspectJob, Fallible.bind_eq_ok, rejectIf_eq_ok, Bool.not_eq_true, Fallible.pure_eq_ok, Prod.mk.injEq] at h
  obtain ⟨-, hkeys, -, -, bound, hbound, _, hgoverned, values, hvalues, dependencies, hdependencies, rfl, -⟩ := h
  simp only [governedRunner] at hgoverned
  split at hgoverned
  · rename_i hname
    refine ⟨hkeys, hname ▸ hbound, ?_, fun others hothers value hvalue => ?_⟩
    · cases hrun : runsOn (get job "runs-on") <;> simp_all [Except.map]
    · cases hvalues.symm.trans hothers
      obtain ⟨dependency, -, hdependency⟩ := (Fallible.mapM_eq_ok hdependencies).1 value hvalue
      exact ⟨dependency, hdependency⟩
  · cases hgoverned

lemma job_cases {found : List String × Option String} {uses : List Dependency} (hd : Distinct (.obj job))
    (hpolicy : PlainPolicy stagePolicy environment expectedBootstrapUrl)
    (hjob : inspectJob environment jobName job = .ok (some found, uses))
    (hboot : validateBootstrapStep stagePolicy expectedBootstrapUrl job jobName = .ok ())
    (ht : TextAt (.obj job) path s) :
    FreePlace (.field "jobs" :: .field jobName :: path) ∨ BootstrapPlace (.field "jobs" :: .field jobName :: path) ∨
      path = [.field "runs-on", .field "group"] ∨ ¬ ReadsAuthority s := by
  obtain ⟨hkeys, hbound, hrun, huses⟩ := inspectJob_cases hjob
  have hfixed : ∀ s ∈ jobFields, ¬ ReadsAuthority s := by decide
  rcases ht.of_obj (distinct_obj.mp hd).1 hkeys with ⟨hs, -⟩ | ⟨key, hkey, rest, rfl, htext⟩
  · exact .inr (.inr (.inr (hfixed s hs)))
  · simp only [jobFields, List.mem_cons, List.not_mem_nil, or_false] at hkey
    rcases hkey with rfl | rfl | rfl | rfl | rfl
    · exact .inl (.jobTitle jobName rest)
    · rcases environmentName_cases (distinct_field hd "environment") hpolicy.environment hbound htext with
        hs | ⟨rest, rfl⟩
      · exact .inr (.inr (.inr hs))
      · exact .inl (.url jobName rest)
    · rcases runsOn_cases (distinct_field hd "runs-on") hrun htext with hs | rfl
      · exact .inr (.inr (.inr hs.not_reads))
      · exact .inr (.inr (.inl rfl))
    · rcases steps_cases hd hpolicy hboot huses htext with ⟨index, rest, rfl⟩ | ⟨name, hname, rfl⟩ | hs
      · exact .inl (.stepTitle jobName index rest)
      · exact .inr (.inl ⟨jobName, name, hname, rfl⟩)
      · exact .inr (.inr (.inr hs))
    · exact .inl (.timeout jobName rest)

lemma literal_runsOn {found : List String × Option String} {uses : List Dependency} (hd : Distinct (.obj job))
    (hjob : inspectJob environment jobName job = .ok (some found, uses))
    (ht : TextAt (.obj job) (.field "runs-on" :: path) s) : Literal s ∨ path = [.field "group"] := by
  obtain ⟨hkeys, -, hrun, -⟩ := inspectJob_cases hjob
  rcases ht.of_obj (distinct_obj.mp hd).1 hkeys with ⟨-, hpath⟩ | ⟨key, -, rest, hpath, htext⟩
  · cases hpath
  · cases hpath
    exact runsOn_cases (distinct_field hd "runs-on") hrun htext

end Jobs

section Workflows

open Json (Distinct)

variable {X : Externals} {isWordChar : Char → Bool} {yaml : Yaml} {stagePolicy : StagePolicy}
  {environment expectedBootstrapUrl : String} {raw : List UInt8} {inspection : Inspection}
  {workflow : List (String × Json)} {path : List Place} {s : String}

/-- What the inspection checks of an accepted workflow. -/
structure Accepted (X : Externals) (stagePolicy : StagePolicy) (environment expectedBootstrapUrl : String)
    (workflow : List (String × Json)) (jobName : String) (job : List (String × Json)) : Prop where
  distinct : Distinct (.obj workflow)
  root : hasUnknown workflow ["name", "on", "permissions", "concurrency", "jobs"] = false
  trigger : validateTrigger workflow = .ok ()
  permissions : validatePermissions workflow = .ok ()
  concurrency : ∃ group, concurrencyGroup X workflow = .ok group
  jobs : get workflow "jobs" = .obj [(jobName, .obj job)]
  inspected : ∃ found uses, inspectJob environment jobName job = .ok (some found, uses)
  bootstrap : validateBootstrapStep stagePolicy expectedBootstrapUrl job jobName = .ok ()

lemma accepted_of_inspect (hparse : parseYaml yaml raw = .ok workflow)
    (h : inspectWorkflow X isWordChar yaml stagePolicy environment expectedBootstrapUrl raw = .ok inspection) :
    ∃ jobName job, Accepted X stagePolicy environment expectedBootstrapUrl workflow jobName job := by
  simp only [inspectWorkflow, hparse, Fallible.bind_eq_ok, rejectIf_eq_ok, Except.ok.injEq, exists_eq_left',
    Bool.not_eq_true] at h
  obtain ⟨-, hroot, rawText, -, -, -, _, htrigger, _, hpermissions, group, hgroup, jobs, hjobs, h⟩ := h
  obtain ⟨hjobsObj, -, -⟩ := Distinct.unique (distinct_field (distinct_parseYaml hparse) "jobs") hjobs
  split at h
  · rename_i jobName jobValue
    simp only [Fallible.bind_eq_ok, rejectIf_eq_ok, expect_eq_ok] at h
    obtain ⟨job, hjob, ⟨governed, uses⟩, hinspect, found, rfl, _, hboot, -⟩ := h
    have hvalue : jobValue = .obj job := by
      simp only [mapping, expect_eq_ok] at hjob
      cases jobValue <;> simp_all [Json.asObj?]
    exact ⟨jobName, job, distinct_parseYaml hparse, hroot, htrigger, hpermissions, ⟨group, hgroup⟩, hvalue ▸ hjobsObj,
      ⟨found, uses, hinspect⟩, hboot⟩
  · cases h

/-- Only the bootstrap step's secrets are read, and no expression chooses a runner. -/
structure Confined (workflow : Json) : Prop where
  texts : ∀ path s, TextAt workflow path s → ReadsAuthority s → BootstrapPlace path
  runners : ∀ job rest s, TextAt workflow (.field "jobs" :: .field job :: .field "runs-on" :: rest) s → Literal s

/-- The titles, the environment's address and the timeout read none of the contexts, and the runner group is literal. -/
structure FreeConfined (workflow : Json) : Prop where
  texts : ∀ path s, TextAt workflow path s → FreePlace path → ¬ ReadsAuthority s
  group : ∀ job s, TextAt workflow [.field "jobs", .field job, .field "runs-on", .field "group"] s → Literal s

lemma FreePlace.not_bootstrap (h : FreePlace path) : ¬ BootstrapPlace path := by
  rintro ⟨job, name, -, hpath⟩
  cases h <;> simp at hpath

lemma Accepted.text_cases {jobName : String} {job : List (String × Json)}
    (h : Accepted X stagePolicy environment expectedBootstrapUrl workflow jobName job)
    (hpolicy : PlainPolicy stagePolicy environment expectedBootstrapUrl) (ht : TextAt (.obj workflow) path s) :
    FreePlace path ∨ BootstrapPlace path ∨
      path = [.field "jobs", .field jobName, .field "runs-on", .field "group"] ∨ ¬ ReadsAuthority s := by
  have hfixed : ∀ s ∈ ["name", "on", "permissions", "concurrency", "jobs"], ¬ ReadsAuthority s := by decide
  rcases ht.of_obj (distinct_obj.mp h.distinct).1 h.root with ⟨hs, -⟩ | ⟨key, hkey, rest, rfl, htext⟩
  · exact .inr (.inr (.inr (hfixed s hs)))
  · simp only [List.mem_cons, List.not_mem_nil, or_false] at hkey
    rcases hkey with rfl | rfl | rfl | rfl | rfl
    · exact .inl (.name rest)
    · exact .inr (.inr (.inr (not_reads_trigger h.distinct h.trigger htext)))
    · exact .inr (.inr (.inr (not_reads_permissions h.distinct h.permissions htext)))
    · obtain ⟨group, hgroup⟩ := h.concurrency
      exact .inr (.inr (.inr (not_reads_concurrency h.distinct hgroup htext)))
    · have hjobs := distinct_field h.distinct "jobs"
      rw [h.jobs] at hjobs htext
      obtain ⟨found, uses, hinspect⟩ := h.inspected
      cases htext with
      | fieldName hmem =>
        cases List.mem_singleton.mp hmem
        exact .inl (.jobName jobName)
      | field hmem htext =>
        cases List.mem_singleton.mp hmem
        have hjob := (distinct_obj.mp hjobs).2 _ (List.mem_singleton_self _)
        rcases job_cases hjob hpolicy hinspect h.bootstrap htext with hfree | hboot | rfl | hs
        · exact .inl hfree
        · exact .inr (.inl hboot)
        · exact .inr (.inr (.inl rfl))
        · exact .inr (.inr (.inr hs))

lemma Accepted.runner_cases {jobName name : String} {job : List (String × Json)}
    (h : Accepted X stagePolicy environment expectedBootstrapUrl workflow jobName job)
    (ht : TextAt (.obj workflow) (.field "jobs" :: .field name :: .field "runs-on" :: path) s) :
    Literal s ∨ path = [.field "group"] := by
  have hjobs := distinct_field h.distinct "jobs"
  rcases ht.of_obj (distinct_obj.mp h.distinct).1 h.root with ⟨-, hpath⟩ | ⟨key, -, rest, hpath, htext⟩
  · cases hpath
  · cases hpath
    rw [h.jobs] at hjobs htext
    obtain ⟨found, uses, hinspect⟩ := h.inspected
    cases htext with
    | field hmem htext =>
      cases List.mem_singleton.mp hmem
      exact literal_runsOn ((distinct_obj.mp hjobs).2 _ (List.mem_singleton_self _)) hinspect htext

theorem confined_iff (hpolicy : PlainPolicy stagePolicy environment expectedBootstrapUrl)
    (hparse : parseYaml yaml raw = .ok workflow)
    (h : inspectWorkflow X isWordChar yaml stagePolicy environment expectedBootstrapUrl raw = .ok inspection) :
    Confined (.obj workflow) ↔ FreeConfined (.obj workflow) := by
  obtain ⟨jobName, job, haccepted⟩ := accepted_of_inspect hparse h
  constructor
  · intro hconfined
    refine ⟨fun path s ht hfree hreads => ?_, fun job s ht => hconfined.runners job _ s ht⟩
    exact hfree.not_bootstrap (hconfined.texts path s ht hreads)
  · intro hfree
    refine ⟨fun path s ht hreads => ?_, fun name rest s ht => ?_⟩
    · rcases haccepted.text_cases hpolicy ht with hplace | hboot | rfl | hs
      · exact absurd hreads (hfree.texts path s ht hplace)
      · exact hboot
      · exact absurd hreads (hfree.group jobName s ht).not_reads
      · exact absurd hreads hs
    · rcases haccepted.runner_cases ht with hliteral | rfl
      · exact hliteral
      · exact hfree.group name s ht

end Workflows

section Sample

def sampleLines : List String :=
  ["name: $\x7b\x7b vars['DEPLOY_TARGET'] \x7d\x7d",
    "on: workflow_dispatch",
    "permissions:",
    "  contents: read",
    "  id-token: write",
    "concurrency:",
    "  group: lanes",
    "  cancel-in-progress: false",
    "jobs:",
    "  apply:",
    "    name: $\x7b\x7b toJSON(secrets) \x7d\x7d",
    "    environment: pilot",
    "    runs-on:",
    "      group: $\x7b\x7b github.ref \x7d\x7d",
    "      labels: [self-hosted]",
    "    steps:",
    "      - uses: actions/checkout@1111111111111111111111111111111111111111",
    "      - uses: Halildeu/platform-k8s-gitops/.github/actions/protected-bootstrap@1111111111111111111111111111111111111111",
    "        env:",
    "          CROSS_AI_BOOTSTRAP_TOKEN: $\x7b\x7b secrets.CROSS_AI_BOOTSTRAP_TOKEN \x7d\x7d",
    "          CROSS_AI_ENDPOINT_ID: $\x7b\x7b secrets.CROSS_AI_ENDPOINT_ID \x7d\x7d",
    "          CROSS_AI_OPERATOR_ID: $\x7b\x7b secrets.CROSS_AI_OPERATOR_ID \x7d\x7d",
    "          CROSS_AI_BOOTSTRAP_URL: https://testai.acik.com/v1/runner-bootstrap",
    "          CROSS_AI_BOOTSTRAP_OUTPUT: $\x7b\x7b runner.temp \x7d\x7d/cross-ai-bootstrap.json",
    "        with:",
    "          stage: apply",
    "          workflow-path: .github/workflows/apply.yml",
    "          expected-trust-root-sha256: sha256:2222222222222222222222222222222222222222222222222222222222222222",
    "      - uses: Halildeu/platform-k8s-gitops/.github/actions/protected-apply@1111111111111111111111111111111111111111",
    "        env:",
    "          CROSS_AI_BOOTSTRAP_FILE: $\x7b\x7b runner.temp \x7d\x7d/cross-ai-bootstrap.json"]

def sampleText : List Char := (sampleLines.map String.toList).flatMap (· ++ ['\n'])

def sampleRaw : List UInt8 := Text.encode sampleText

def scalars (pairs : List (String × String)) : YamlNode :=
  .mapping false (pairs.map fun p => (.scalar p.1, .scalar p.2))

def fieldNodes (pairs : List (String × YamlNode)) : YamlNode := .mapping false (pairs.map fun p => (.scalar p.1, p.2))

def commit : String := "1111111111111111111111111111111111111111"

def bootstrapNode : YamlNode :=
  fieldNodes [("uses", .scalar ("Halildeu/platform-k8s-gitops/.github/actions/protected-bootstrap@" ++ commit)),
    ("env", scalars (bootstrapEnv.take 3 ++
      [("CROSS_AI_BOOTSTRAP_URL", "https://testai.acik.com/v1/runner-bootstrap")] ++ bootstrapEnv.drop 3)),
    ("with", scalars [("stage", "apply"), ("workflow-path", ".github/workflows/apply.yml"),
      ("expected-trust-root-sha256", "sha256:2222222222222222222222222222222222222222222222222222222222222222")])]

def jobNode : YamlNode :=
  fieldNodes [("name", .scalar "$\x7b\x7b toJSON(secrets) \x7d\x7d"), ("environment", .scalar "pilot"),
    ("runs-on", fieldNodes [("group", .scalar "$\x7b\x7b github.ref \x7d\x7d"),
      ("labels", .sequence [.scalar "self-hosted"])]),
    ("steps", .sequence [fieldNodes [("uses", .scalar ("actions/checkout@" ++ commit))], bootstrapNode,
      fieldNodes [("uses", .scalar ("Halildeu/platform-k8s-gitops/.github/actions/protected-apply@" ++ commit)),
        ("env", scalars postBootstrapEnv)]])]

def sampleNode : YamlNode :=
  fieldNodes [("name", .scalar "$\x7b\x7b vars['DEPLOY_TARGET'] \x7d\x7d"), ("on", .scalar "workflow_dispatch"),
    ("permissions", scalars [("contents", "read"), ("id-token", "write")]),
    ("concurrency", scalars [("group", "lanes"), ("cancel-in-progress", "false")]),
    ("jobs", fieldNodes [("apply", jobNode)])]

/-- The library's answers on the sample. -/
def sampleYaml : Yaml := ⟨fun _ => some false, fun _ => some (some sampleNode)⟩

def samplePolicy : StagePolicy := ⟨"apply", ".github/workflows/apply.yml", ["self-hosted"], true⟩

def sampleExternals : Externals :=
  ⟨fun _ => "0", fun _ => none, fun _ => none, fun _ => none, fun _ _ _ => false, fun _ _ => false⟩

def isAsciiWordChar (c : Char) : Bool := c.isAlphanum ∨ c = '_'

def sampleWorkflow : List (String × Json) := (((constructObject sampleNode).toOption.bind Json.asObj?).getD [])

lemma spelled_cons {line : String} {chars : List Char} {rest : List String} {lines : List (List Char)}
    (h : line.toList = chars) (hrest : rest.map String.toList = lines) :
    (line :: rest).map String.toList = chars :: lines := by
  rw [List.map_cons, hrest, h]

/-- The checks on the characters of the sample, once these are spelled out. -/
lemma spelled_sample : ∃ lines, sampleLines.map String.toList = lines ∧
    (checkRawText isAsciiWordChar (lines.flatMap (· ++ ['\n']))).toOption = some () ∧
    ¬ (Text.encode (lines.flatMap (· ++ ['\n'])) = [] ∨
      maxWorkflowBytes < (Text.encode (lines.flatMap (· ++ ['\n']))).length) ∧
    0 ∉ Text.encode (lines.flatMap (· ++ ['\n'])) := by
  constructor
  constructor
  · unfold sampleLines
    repeat apply spelled_cons String.toList_ofList
    exact List.map_nil
  · decide +kernel

lemma decodeText_sample : decodeText sampleRaw = .ok sampleText := by
  rw [decodeText, sampleRaw, Text.decode?_encode]
  rfl

lemma loadYaml_sample : loadYaml sampleYaml sampleText = .ok (.obj sampleWorkflow) := by
  rfl

lemma parseYaml_eq {yaml : Yaml} {raw : List UInt8} {text : List Char} {workflow : List (String × Json)}
    (hsize : ¬ (raw = [] ∨ maxWorkflowBytes < raw.length)) (hzero : 0 ∉ raw) (htext : decodeText raw = .ok text)
    (hload : loadYaml yaml text = .ok (.obj workflow)) : parseYaml yaml raw = .ok workflow := by
  simp only [parseYaml, Fallible.bind_eq_ok, rejectIf_eq_ok]
  exact ⟨(), hsize, (), hzero, text, htext, _, hload, rfl⟩

lemma parseYaml_sample : parseYaml sampleYaml sampleRaw = .ok sampleWorkflow := by
  obtain ⟨lines, hlines, -, hsize, hzero⟩ := spelled_sample
  rw [← hlines, ← sampleText, ← sampleRaw] at hsize hzero
  exact parseYaml_eq hsize hzero decodeText_sample loadYaml_sample

lemma checkRawText_sample : checkRawText isAsciiWordChar sampleText = .ok () := by
  obtain ⟨lines, hlines, hcheck, -⟩ := spelled_sample
  rw [sampleText, hlines]
  exact Fallible.toOption_eq_some hcheck

lemma exists_inspection {X : Externals} {isWordChar : Char → Bool} {yaml : Yaml} {stagePolicy : StagePolicy}
    {environment expectedBootstrapUrl : String} {raw : List UInt8} {text : List Char}
    {workflow : List (String × Json)} (jobName : String) (job : List (String × Json))
    (hparse : parseYaml yaml raw = .ok workflow) (htext : decodeText raw = .ok text)
    (hraw : checkRawText isWordChar text = .ok ())
    (hroot : hasUnknown workflow ["name", "on", "permissions", "concurrency", "jobs"] = false)
    (htrigger : validateTrigger workflow = .ok ()) (hpermissions : validatePermissions workflow = .ok ())
    (hgroup : (concurrencyGroup X workflow).toOption.isSome = true)
    (hjobs : get workflow "jobs" = .obj [(jobName, .obj job)])
    (hinspect : ((inspectJob environment jobName job).toOption.any fun p =>
      (p.1.any fun found => found.1 = stagePolicy.requiredRunsOnLabels ∧
        stagePolicy.requireRunnerGroup = found.2.isSome) &&
      (sha256Digest X (dependencyProjection p.2)).toOption.isSome) = true)
    (hboot : validateBootstrapStep stagePolicy expectedBootstrapUrl job jobName = .ok ()) :
    ∃ inspection, inspectWorkflow X isWordChar yaml stagePolicy environment expectedBootstrapUrl raw =
      .ok inspection := by
  obtain ⟨group, hgroup⟩ := Option.isSome_iff_exists.mp hgroup
  simp only [Option.any_eq_true, Bool.and_eq_true, decide_eq_true_eq] at hinspect
  obtain ⟨⟨governed, uses⟩, hjob, ⟨found, rfl, hlabels, hrunner⟩, hdigest⟩ := hinspect
  obtain ⟨digest, hdigest⟩ := Option.isSome_iff_exists.mp hdigest
  simp only [inspectWorkflow, Fallible.bind_eq_ok, rejectIf_eq_ok]
  refine ⟨⟨"sha256:" ++ X.sha256 raw, digest, group.2, jobName, found.1, found.2, localUses uses, externalUses uses⟩,
    workflow, hparse, (), by simp [hroot], text, htext, (), hraw, (), htrigger, (), hpermissions, group,
    Fallible.toOption_eq_some hgroup, _, by rw [hjobs]; rfl, ?_⟩
  simp only [Fallible.bind_eq_ok, rejectIf_eq_ok, expect_eq_ok]
  exact ⟨job, rfl, _, Fallible.toOption_eq_some hjob, found, rfl, (), hboot, (), not_not.mpr hlabels, (),
    not_not.mpr hrunner, digest, Fallible.toOption_eq_some hdigest, rfl⟩

def sampleJob : List (String × Json) := ((constructObject jobNode).toOption.bind Json.asObj?).getD []

lemma inspectWorkflow_sample : ∃ inspection, inspectWorkflow sampleExternals isAsciiWordChar sampleYaml samplePolicy
    "pilot" "https://testai.acik.com/v1/runner-bootstrap" sampleRaw = .ok inspection :=
  exists_inspection "apply" sampleJob parseYaml_sample decodeText_sample checkRawText_sample
    (by decide) (Fallible.toOption_eq_some (by decide +kernel)) (Fallible.toOption_eq_some (by decide +kernel))
    (by decide +kernel) rfl (by decide +kernel) (Fallible.toOption_eq_some (by decide +kernel))

lemma plainPolicy_sample : PlainPolicy samplePolicy "pilot" "https://testai.acik.com/v1/runner-bootstrap" :=
  ⟨by decide, by decide, by decide, by decide⟩

lemma TextAt.of_lookup {fields : List (String × Json)} {key : String} {v : Json} {path : List Place} {s : String}
    (h : fields.lookup key = some v) (ht : TextAt v path s) : TextAt (.obj fields) (.field key :: path) s := by
  obtain ⟨before, after, rfl, -⟩ := List.lookup_eq_some_iff.mp h
  have hmem : (key, v) ∈ before ++ (key, v) :: after := by simp
  exact .field hmem ht

lemma title_sample :
    TextAt (.obj sampleWorkflow) [.field "name"] "$\x7b\x7b vars['DEPLOY_TARGET'] \x7d\x7d" :=
  .of_lookup rfl (.text _)

lemma jobTitle_sample : TextAt (.obj sampleWorkflow) [.field "jobs", .field "apply", .field "name"]
    "$\x7b\x7b toJSON(secrets) \x7d\x7d" :=
  .of_lookup rfl (.of_lookup rfl (.of_lookup rfl (.text _)))

lemma group_sample : TextAt (.obj sampleWorkflow) [.field "jobs", .field "apply", .field "runs-on", .field "group"]
    "$\x7b\x7b github.ref \x7d\x7d" :=
  .of_lookup rfl (.of_lookup rfl (.of_lookup rfl (.of_lookup rfl (.text _))))

/-- An accepted workflow whose title reads a variable, whose job title all secrets, and whose group is computed. -/
theorem not_confined_titles :
    (∃ inspection, inspectWorkflow sampleExternals isAsciiWordChar sampleYaml samplePolicy "pilot"
      "https://testai.acik.com/v1/runner-bootstrap" sampleRaw = .ok inspection) ∧
    parseYaml sampleYaml sampleRaw = .ok sampleWorkflow ∧ ¬ Confined (.obj sampleWorkflow) ∧
    (∃ path s, TextAt (.obj sampleWorkflow) path s ∧ Expression.Reads [("vars".toList, [])] s.toList) ∧
    (∃ path s, TextAt (.obj sampleWorkflow) path s ∧ Expression.Reads [("secrets".toList, [])] s.toList ∧
      ¬ BootstrapPlace path) ∧
    ∃ job s, TextAt (.obj sampleWorkflow) [.field "jobs", .field job, .field "runs-on", .field "group"] s ∧
      ¬ Literal s := by
  refine ⟨inspectWorkflow_sample, parseYaml_sample, fun h => ?_, ⟨_, _, title_sample, by decide⟩,
    ⟨_, _, jobTitle_sample, by decide, (FreePlace.jobTitle _ _).not_bootstrap⟩, ⟨_, _, group_sample, by decide⟩⟩
  exact (FreePlace.name []).not_bootstrap (h.texts _ _ title_sample (by decide))

/-- The same workflow at its free places. -/
theorem not_freeConfined_titles : ¬ FreeConfined (.obj sampleWorkflow) := by
  obtain ⟨inspection, hinspection⟩ := inspectWorkflow_sample
  rw [← confined_iff plainPolicy_sample parseYaml_sample hinspection]
  intro h
  exact (FreePlace.name []).not_bootstrap (h.texts _ _ title_sample (by decide))

end Sample

end PlatformGitops.CrossAi.Workflow
