import PlatformGitops.DataAccess.ScopeRef
import PlatformGitops.Library.JsonRoundTrip

/-! When a scope reference that the check accepts stays within the tenant of its organization. -/

namespace PlatformGitops.DataAccess

variable {jsonbFirst : String → Option String} {content : Content} {kind sourceTable pk ref : String} {org : Int}

section Matches

/-- The rows behind one row that the query counts: the one named by the reference, a company and an own company. -/
structure Chain where
  named : LineageKey
  company : Option (LineageRow Company)
  ourCompany : LineageRow OurCompany

variable (content pk ref org)

def companyChains : List Chain := (companyScope content pk ref org).map fun (oc, _) => ⟨oc.key, none, oc⟩

def chainsThroughCompany {α : Type} (table : LineageTable α) (companyId : α → Option Int) : List Chain :=
  (throughCompany content pk ref org table companyId).map fun (((row, c), oc), _) => ⟨row.key, some c, oc⟩

def depotChains : List Chain := (depotScope content pk ref org).map fun ((d, oc), _) => ⟨d.key, none, oc⟩

/-- What the query of a kind counts. -/
def chains (kind sourceTable : String) : List Chain :=
  if kind = "company" ∧ sourceTable = "OUR_COMPANY" then companyChains content pk ref org
  else if kind = "project" ∧ sourceTable = "PRO_PROJECTS" then
    chainsThroughCompany content pk ref org content.proProjects (·.companyId)
  else if kind = "branch" ∧ sourceTable = "BRANCH" then
    chainsThroughCompany content pk ref org content.branch (·.companyId)
  else if kind = "depot" ∧ sourceTable = "DEPARTMENT" then depotChains content pk ref org
  else []

lemma scopeCount_eq (kind sourceTable : String) :
    (scopeCount content pk ref org kind sourceTable).getD 0 = (chains content pk ref org kind sourceTable).length := by
  unfold scopeCount chains
  split_ifs <;> simp [companyChains, chainsThroughCompany, depotChains, projectScope, branchScope]

end Matches

/-- The rows that make a check of a reference succeed. -/
def Matches (jsonbFirst : String → Option String) (content : Content) (kind sourceTable ref : String) (org : Int)
    (chain : Chain) : Prop :=
  ∃ pk, jsonbFirst ref = some pk ∧ chain ∈ chains content pk ref org kind sourceTable

lemma validateScopeRef_iff :
    validateScopeRef jsonbFirst content kind sourceTable ref org = true ↔
      ∃ chain, Matches jsonbFirst content kind sourceTable ref org chain := by
  unfold validateScopeRef Matches
  cases hfirst : jsonbFirst ref with
  | none => simp
  | some pk =>
    have hcount := scopeCount_eq content pk ref org kind sourceTable
    cases hquery : scopeCount content pk ref org kind sourceTable with
    | none =>
      rw [hquery, Option.getD_none] at hcount
      have hnil : chains content pk ref org kind sourceTable = [] := List.eq_nil_of_length_eq_zero hcount.symm
      simp [hquery, hnil]
    | some count =>
      rw [hquery, Option.getD_some] at hcount
      simp [hquery, hcount, List.length_pos_iff_exists_mem]

section Canonical

/-- A row of the source schema under the key that the loader writes for its own id. -/
def LineageRow.Canonical {α : Type} (column : String) (id : α → Int) (row : LineageRow α) : Prop :=
  row.key.sourceSchema = sourceSchema ∧ row.key.sourcePk = canonicalSourcePk column (id row.columns)

def OwnCanonical (oc : LineageRow OurCompany) : Prop := oc.Canonical "COMP_ID" (·.compId)

def CompanyCanonical (c : LineageRow Company) : Prop := c.Canonical "COMPANY_ID" (·.companyId)

instance : DecidablePred OwnCanonical := fun _ => inferInstanceAs (Decidable (_ ∧ _))

instance : DecidablePred CompanyCanonical := fun _ => inferInstanceAs (Decidable (_ ∧ _))

def Chain.Canonical (chain : Chain) : Prop := (∀ c ∈ chain.company, CompanyCanonical c) ∧ OwnCanonical chain.ourCompany

instance : DecidablePred Chain.Canonical := fun _ => inferInstanceAs (Decidable (_ ∧ _))

variable (jsonbFirst content ref org)

def Names {α : Type} (row : LineageRow α) : Prop := ∃ pk ∈ jsonbFirst ref, names pk ref row = true

/-- The row leads to the tenant: it is a canonical own company that the organization has. -/
def Tenant (oc : LineageRow OurCompany) : Prop :=
  OwnCanonical oc ∧ ∃ ocMap ∈ content.organizationCompany, ocMap.orgId = org ∧ mapsTo oc ocMap = true

/-- An id leads to the tenant over the canonical row of its own company. -/
def OwnedBy (ourCompanyId : Option Int) : Prop :=
  ∃ oc ∈ content.ourCompany.rows, ourCompanyId = some oc.columns.compId ∧ Tenant content org oc

/-- An id leads to the tenant over the canonical row of its company. -/
def CompanyOf (companyId : Option Int) : Prop :=
  ∃ c ∈ content.company.rows, companyId = some c.columns.companyId ∧ CompanyCanonical c ∧
    OwnedBy content org c.columns.ourCompanyId

/-- A row that the reference names leads to the tenant over canonical rows. -/
def LeadsTo (kind sourceTable : String) : Prop :=
  (kind = "company" ∧ sourceTable = "OUR_COMPANY" ∧
    ∃ oc ∈ content.ourCompany.rows, Names jsonbFirst ref oc ∧ Tenant content org oc) ∨
  (kind = "project" ∧ sourceTable = "PRO_PROJECTS" ∧
    ∃ p ∈ content.proProjects.rows, Names jsonbFirst ref p ∧ CompanyOf content org p.columns.companyId) ∨
  (kind = "branch" ∧ sourceTable = "BRANCH" ∧
    ∃ b ∈ content.branch.rows, Names jsonbFirst ref b ∧ CompanyOf content org b.columns.companyId) ∨
  (kind = "depot" ∧ sourceTable = "DEPARTMENT" ∧
    ∃ d ∈ content.department.rows, Names jsonbFirst ref d ∧ OwnedBy content org d.columns.ourCompanyId)

end Canonical

/-- The first element of a key that the loader writes is the id. -/
def ReadsCanonical (jsonbFirst : String → Option String) : Prop :=
  ∀ column id, jsonbFirst (canonicalSourcePk column id) = some (toString id)

section Leads

lemma mem_companyChains {chain : Chain} : chain ∈ companyChains content pk ref org ↔
    ∃ oc ∈ content.ourCompany.rows, names pk ref oc = true ∧ chain = ⟨oc.key, none, oc⟩ ∧
      ∃ ocMap ∈ content.organizationCompany, ocMap.orgId = org ∧
        (mapsTo oc ocMap = true ∨ ocMap.workcubeCompanySourcePk = pk) := by
  simp only [companyChains, companyScope, List.mem_map, List.mem_filter, mem_join, Prod.exists]
  constructor
  · rintro ⟨oc, ocMap, ⟨⟨hoc, hmap, hon⟩, hwhere⟩, rfl⟩
    obtain ⟨hnames, horg⟩ := of_decide_eq_true hwhere
    exact ⟨oc, hoc, hnames, rfl, ocMap, hmap, horg, of_decide_eq_true hon⟩
  · rintro ⟨oc, hoc, hnames, rfl, ocMap, hmap, horg, hon⟩
    exact ⟨oc, ocMap, ⟨⟨hoc, hmap, decide_eq_true hon⟩, decide_eq_true ⟨hnames, horg⟩⟩, rfl⟩

lemma mem_chainsThroughCompany {α : Type} {table : LineageTable α} {companyId : α → Option Int} {chain : Chain} :
    chain ∈ chainsThroughCompany content pk ref org table companyId ↔
      ∃ row ∈ table.rows, names pk ref row = true ∧
        ∃ c ∈ content.company.rows, companyId row.columns = some c.columns.companyId ∧
          ∃ oc ∈ content.ourCompany.rows, c.columns.ourCompanyId = some oc.columns.compId ∧
            chain = ⟨row.key, some c, oc⟩ ∧
            ∃ ocMap ∈ content.organizationCompany, ocMap.orgId = org ∧ mapsTo oc ocMap = true := by
  simp only [chainsThroughCompany, throughCompany, List.mem_map, List.mem_filter, mem_join, Prod.exists]
  constructor
  · rintro ⟨row, c, oc, ocMap, ⟨⟨⟨⟨hrow, hc, hrowc⟩, hoc, hcoc⟩, hmap, hon⟩, hwhere⟩, rfl⟩
    obtain ⟨hnames, horg⟩ := of_decide_eq_true hwhere
    exact ⟨row, hrow, hnames, c, hc, of_decide_eq_true hrowc, oc, hoc, of_decide_eq_true hcoc, rfl, ocMap, hmap, horg, hon⟩
  · rintro ⟨row, hrow, hnames, c, hc, hrowc, oc, hoc, hcoc, rfl, ocMap, hmap, horg, hon⟩
    exact ⟨row, c, oc, ocMap, ⟨⟨⟨⟨hrow, hc, decide_eq_true hrowc⟩, hoc, decide_eq_true hcoc⟩, hmap, hon⟩,
      decide_eq_true ⟨hnames, horg⟩⟩, rfl⟩

lemma mem_depotChains {chain : Chain} : chain ∈ depotChains content pk ref org ↔
    ∃ d ∈ content.department.rows, names pk ref d = true ∧
      ∃ oc ∈ content.ourCompany.rows, d.columns.ourCompanyId = some oc.columns.compId ∧ chain = ⟨d.key, none, oc⟩ ∧
        ∃ ocMap ∈ content.organizationCompany, ocMap.orgId = org ∧ mapsTo oc ocMap = true := by
  simp only [depotChains, depotScope, List.mem_map, List.mem_filter, mem_join, Prod.exists]
  constructor
  · rintro ⟨d, oc, ocMap, ⟨⟨⟨hd, hoc, hdoc⟩, hmap, hon⟩, hwhere⟩, rfl⟩
    obtain ⟨hnames, -, horg⟩ := of_decide_eq_true hwhere
    exact ⟨d, hd, hnames, oc, hoc, of_decide_eq_true hdoc, rfl, ocMap, hmap, horg, hon⟩
  · rintro ⟨d, hd, hnames, oc, hoc, hdoc, rfl, ocMap, hmap, horg, hon⟩
    exact ⟨d, oc, ocMap, ⟨⟨⟨hd, hoc, decide_eq_true hdoc⟩, hmap, hon⟩,
      decide_eq_true ⟨hnames, by rw [hdoc]; rfl, horg⟩⟩, rfl⟩

/-- A canonical own company that the reference names is mapped under its own key or its own id. -/
lemma mapsTo_of_pk (hreads : ReadsCanonical jsonbFirst) (hfirst : jsonbFirst ref = some pk) {oc : LineageRow OurCompany}
    {ocMap : OrganizationCompany} (hcanonical : OwnCanonical oc) (hnames : names pk ref oc = true)
    (hpk : ocMap.workcubeCompanySourcePk = pk) : mapsTo oc ocMap = true := by
  obtain ⟨hkey | hkey, -⟩ := of_decide_eq_true hnames
  · exact decide_eq_true (.inl (hpk.trans hkey.symm))
  · rw [← hkey, hcanonical.2, hreads] at hfirst
    exact decide_eq_true (.inr (hpk.trans (Option.some.inj hfirst).symm))

lemma company_leads_iff (hreads : ReadsCanonical jsonbFirst) (hfirst : jsonbFirst ref = some pk) :
    (∃ chain ∈ companyChains content pk ref org, chain.Canonical) ↔
      ∃ oc ∈ content.ourCompany.rows, names pk ref oc = true ∧ Tenant content org oc := by
  simp only [mem_companyChains]
  constructor
  · rintro ⟨_, ⟨oc, hoc, hnames, rfl, ocMap, hmap, horg, hon⟩, -, hcanonical⟩
    have hmaps := hon.elim id (mapsTo_of_pk hreads hfirst hcanonical hnames)
    exact ⟨oc, hoc, hnames, hcanonical, ocMap, hmap, horg, hmaps⟩
  · rintro ⟨oc, hoc, hnames, hcanonical, ocMap, hmap, horg, hon⟩
    exact ⟨_, ⟨oc, hoc, hnames, rfl, ocMap, hmap, horg, .inl hon⟩, nofun, hcanonical⟩

lemma through_company_leads_iff {α : Type} {table : LineageTable α} {companyId : α → Option Int} :
    (∃ chain ∈ chainsThroughCompany content pk ref org table companyId, chain.Canonical) ↔
      ∃ row ∈ table.rows, names pk ref row = true ∧ CompanyOf content org (companyId row.columns) := by
  simp only [mem_chainsThroughCompany]
  constructor
  · rintro ⟨_, ⟨row, hrow, hnames, c, hc, hrowc, oc, hoc, hcoc, rfl, hmapped⟩, hcompany, hown⟩
    exact ⟨row, hrow, hnames, c, hc, hrowc, hcompany c rfl, oc, hoc, hcoc, hown, hmapped⟩
  · rintro ⟨row, hrow, hnames, c, hc, hrowc, hcompany, oc, hoc, hcoc, hown, hmapped⟩
    refine ⟨_, ⟨row, hrow, hnames, c, hc, hrowc, oc, hoc, hcoc, rfl, hmapped⟩, ?_, hown⟩
    rintro _ ⟨⟩
    exact hcompany

lemma depot_leads_iff : (∃ chain ∈ depotChains content pk ref org, chain.Canonical) ↔
    ∃ d ∈ content.department.rows, names pk ref d = true ∧ OwnedBy content org d.columns.ourCompanyId := by
  simp only [mem_depotChains]
  constructor
  · rintro ⟨_, ⟨d, hd, hnames, oc, hoc, hdoc, rfl, hmapped⟩, -, hown⟩
    exact ⟨d, hd, hnames, oc, hoc, hdoc, hown, hmapped⟩
  · rintro ⟨d, hd, hnames, oc, hoc, hdoc, hown, hmapped⟩
    exact ⟨_, ⟨d, hd, hnames, oc, hoc, hdoc, rfl, hmapped⟩, nofun, hown⟩

/-- A reference leads to the tenant exactly over the canonical rows that make its check succeed. -/
lemma leadsTo_iff (hreads : ReadsCanonical jsonbFirst) : LeadsTo jsonbFirst content ref org kind sourceTable ↔
    ∃ chain, Matches jsonbFirst content kind sourceTable ref org chain ∧ chain.Canonical := by
  unfold LeadsTo Matches chains Names
  cases hfirst : jsonbFirst ref with
  | none => simp
  | some pk =>
    simp only [Option.mem_def, Option.some.injEq, exists_eq_left']
    rw [← company_leads_iff hreads hfirst, ← through_company_leads_iff, ← through_company_leads_iff, ← depot_leads_iff]
    split_ifs with hcompany hproject hbranch hdepot
    · obtain ⟨rfl, rfl⟩ := hcompany
      simp
    · obtain ⟨rfl, rfl⟩ := hproject
      simp
    · obtain ⟨rfl, rfl⟩ := hbranch
      simp
    · obtain ⟨rfl, rfl⟩ := hdepot
      simp
    · simp only [← and_assoc, hcompany, hproject, hbranch, hdepot, false_and, or_self]
      simp

end Leads

/-- Where every company and own company row is canonical, a check keeps the tenant. -/
lemma scope_ref_within_tenant (hreads : ReadsCanonical jsonbFirst)
    (hcompany : ∀ c ∈ content.company.rows, CompanyCanonical c) (hown : ∀ oc ∈ content.ourCompany.rows, OwnCanonical oc)
    (h : validateScopeRef jsonbFirst content kind sourceTable ref org = true) :
    LeadsTo jsonbFirst content ref org kind sourceTable := by
  obtain ⟨chain, pk, hfirst, hmem⟩ := validateScopeRef_iff.mp h
  refine (leadsTo_iff hreads).mpr ⟨chain, ⟨pk, hfirst, hmem⟩, ?_⟩
  unfold chains at hmem
  split_ifs at hmem
  · obtain ⟨oc, hoc, -, rfl, -⟩ := mem_companyChains.mp hmem
    exact ⟨nofun, hown oc hoc⟩
  · obtain ⟨_, _, -, c, hc, -, oc, hoc, -, rfl, -⟩ := mem_chainsThroughCompany.mp hmem
    exact ⟨by simpa using hcompany c hc, hown oc hoc⟩
  · obtain ⟨_, _, -, c, hc, -, oc, hoc, -, rfl, -⟩ := mem_chainsThroughCompany.mp hmem
    exact ⟨by simpa using hcompany c hc, hown oc hoc⟩
  · obtain ⟨_, _, -, oc, hoc, -, rfl, -⟩ := mem_depotChains.mp hmem
    exact ⟨nofun, hown oc hoc⟩
  · cases hmem

section Texts

open Library Json

lemma idChar {id : Int} {c : Char} (h : c ∈ (toString id).toList) : c.isDigit = true ∨ c = '-' := by
  rw [toList_toString_int] at h
  rcases List.mem_append.mp h with h | h
  · split_ifs at h with hneg
    · exact .inr (List.mem_singleton.mp h)
    · cases h
  · exact .inl (Nat.isDigit_of_mem_toDigits (by decide) (by decide) h)

lemma escapeChar_id {c : Char} (h : c.isDigit = true ∨ c = '-') : escapeChar c = [c] := by
  rcases h with h | rfl
  · obtain ⟨hlow, hhigh⟩ := Char.isDigit_iff_toNat.mp h
    unfold escapeChar
    split
    · exact absurd hlow (by decide)
    · exact absurd hhigh (by decide)
    · exact absurd hlow (by decide)
    · exact absurd hlow (by decide)
    · exact absurd hlow (by decide)
    · have hlow' : 48 ≤ c.toNat := hlow
      rw [if_neg (by omega), if_neg (by omega), if_neg (by omega)]
  · rfl

lemma toList_canonicalSourcePk (column : String) (id : Int) :
    (canonicalSourcePk column id).toList = '[' :: '"' :: ((toString id).toList ++ ['"', ']']) := by
  have hescape : (toString id).toList.flatMap escapeChar = (toString id).toList := by
    rw [List.flatMap_congr fun c hc => escapeChar_id (idChar hc)]
    exact List.flatMap_singleton' _
  simp [canonicalSourcePk, EtlWorker.makeSourcePk, EtlWorker.Row.get, joinItems, dumpsItems, dumps, dumpsStr,
    EtlWorker.Value.text]
  exact hescape

end Texts

namespace Sample

/-- The first element of an array that starts with a string without escapes, or with an array of one such string. -/
def firstElement (ref : String) : Option String :=
  match ref.toList with
  | '[' :: '"' :: rest => some (String.ofList (rest.takeWhile (· ≠ '"')))
  | '[' :: '[' :: rest => some (String.ofList ('[' :: rest.takeWhile (· ≠ ']') ++ [']']))
  | _ => none

lemma readsCanonical : ReadsCanonical firstElement := by
  intro column id
  have hid : ∀ c ∈ (toString id).toList, decide (c ≠ '"') = true := by
    intro c hc
    rcases idChar hc with hdigit | rfl
    · by_contra hquote
      obtain rfl : c = '"' := by simpa using hquote
      cases hdigit
    · rfl
  simp only [firstElement, toList_canonicalSourcePk, List.takeWhile_append_of_pos hid]
  simp

/-- A project of company 10, which belongs to 1, and a row of that company from before the lineage columns, when it
belonged to 2. -/
def moved : Content where
  ourCompany := ⟨[⟨⟨"workcube_mikrolink", "OUR_COMPANY", "[\"1\"]"⟩, ⟨1⟩⟩,
    ⟨⟨"workcube_mikrolink", "OUR_COMPANY", "[\"2\"]"⟩, ⟨2⟩⟩], by decide⟩
  company := ⟨[⟨⟨"workcube_mikrolink", "COMPANY", "[\"10\"]"⟩, ⟨10, some 1⟩⟩,
    ⟨⟨"workcube_mikrolink", "COMPANY", "[\"__pre_v17_3\"]"⟩, ⟨10, some 2⟩⟩], by decide⟩
  proProjects := ⟨[⟨⟨"workcube_mikrolink", "PRO_PROJECTS", "[\"5\"]"⟩, ⟨some 10⟩⟩], by decide⟩
  branch := ⟨[], .nil⟩
  department := ⟨[], .nil⟩
  organization := [1, 2]
  organizationCompany := [⟨1, "[\"1\"]"⟩, ⟨2, "[\"2\"]"⟩]
  mapped := by decide
  nodup := by decide

end Sample

end PlatformGitops.DataAccess
