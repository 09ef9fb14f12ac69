import Mathlib.Data.List.Nodup
import PlatformGitops.EtlWorker.Transform

/-! The lineage tables and the check of a scope reference against them. -/

namespace PlatformGitops.DataAccess

structure LineageKey where
  sourceSchema : String
  sourceTable : String
  sourcePk : String
deriving DecidableEq, Repr

/-- A row of a lineage table, with the columns that the check reads. -/
structure LineageRow (α : Type) where
  key : LineageKey
  columns : α
deriving Repr

structure LineageTable (α : Type) where
  rows : List (LineageRow α)
  unique : (rows.map (·.key)).Nodup

structure OurCompany where
  compId : Int
deriving Repr

structure Company where
  companyId : Int
  ourCompanyId : Option Int
deriving Repr

structure ProProject where
  companyId : Option Int
deriving Repr

structure Branch where
  companyId : Option Int
deriving Repr

structure Department where
  ourCompanyId : Option Int
deriving Repr

structure OrganizationCompany where
  orgId : Int
  workcubeCompanySourcePk : String
deriving DecidableEq, Repr

structure Content where
  ourCompany : LineageTable OurCompany
  company : LineageTable Company
  proProjects : LineageTable ProProject
  branch : LineageTable Branch
  department : LineageTable Department
  organization : List Int
  organizationCompany : List OrganizationCompany
  mapped : ∀ m ∈ organizationCompany, m.orgId ∈ organization
  nodup : organizationCompany.Nodup

def sourceSchema : String := "workcube_mikrolink"

/-- The source key that the loader writes for a row with one key column. -/
def canonicalSourcePk (column : String) (id : Int) : String := EtlWorker.makeSourcePk [(column, .int id)] [column]

/-- An inner join. -/
def join {α β : Type} (xs : List α) (ys : List β) (on : α → β → Bool) : List (α × β) :=
  xs.flatMap fun x => (ys.filter (on x)).map (x, ·)

@[simp] lemma mem_join {α β : Type} {xs : List α} {ys : List β} {on : α → β → Bool} {p : α × β} :
    p ∈ join xs ys on ↔ p.1 ∈ xs ∧ p.2 ∈ ys ∧ on p.1 p.2 = true := by
  obtain ⟨x, y⟩ := p
  simp [join]

/-- A column that is NULL equals nothing. -/
def sqlEq (x : Int) (y : Option Int) : Bool := y = some x

section

variable (content : Content) (pk ref : String) (org : Int)

/-- A row of the source schema whose key the reference spells. -/
def names {α : Type} (row : LineageRow α) : Bool :=
  (row.key.sourcePk = pk ∨ row.key.sourcePk = ref) ∧ row.key.sourceSchema = sourceSchema

def mapsTo (oc : LineageRow OurCompany) (ocMap : OrganizationCompany) : Bool :=
  ocMap.workcubeCompanySourcePk = oc.key.sourcePk ∨ ocMap.workcubeCompanySourcePk = toString oc.columns.compId

def companyScope : List (LineageRow OurCompany × OrganizationCompany) :=
  (join content.ourCompany.rows content.organizationCompany fun oc ocMap =>
      mapsTo oc ocMap ∨ ocMap.workcubeCompanySourcePk = pk).filter
    fun (oc, ocMap) => names pk ref oc ∧ ocMap.orgId = org

/-- The rows of a table that has the company of each row. -/
def throughCompany {α : Type} (table : LineageTable α) (companyId : α → Option Int) :
    List (((LineageRow α × LineageRow Company) × LineageRow OurCompany) × OrganizationCompany) :=
  (join (join (join table.rows content.company.rows fun row c => sqlEq c.columns.companyId (companyId row.columns))
        content.ourCompany.rows fun (_, c) oc => sqlEq oc.columns.compId c.columns.ourCompanyId)
      content.organizationCompany fun (_, oc) ocMap => mapsTo oc ocMap).filter
    fun (((row, _), _), ocMap) => names pk ref row ∧ ocMap.orgId = org

def projectScope := throughCompany content pk ref org content.proProjects (·.companyId)

def branchScope := throughCompany content pk ref org content.branch (·.companyId)

def depotScope : List ((LineageRow Department × LineageRow OurCompany) × OrganizationCompany) :=
  (join (join content.department.rows content.ourCompany.rows fun d oc => sqlEq oc.columns.compId d.columns.ourCompanyId)
      content.organizationCompany fun (_, oc) ocMap => mapsTo oc ocMap).filter
    fun ((d, _), ocMap) => names pk ref d ∧ d.columns.ourCompanyId.isSome ∧ ocMap.orgId = org

/-- How many rows the query of a kind counts. A kind without a query has no count. -/
def scopeCount (kind sourceTable : String) : Option Nat :=
  if kind = "company" ∧ sourceTable = "OUR_COMPANY" then some (companyScope content pk ref org).length
  else if kind = "project" ∧ sourceTable = "PRO_PROJECTS" then some (projectScope content pk ref org).length
  else if kind = "branch" ∧ sourceTable = "BRANCH" then some (branchScope content pk ref org).length
  else if kind = "depot" ∧ sourceTable = "DEPARTMENT" then some (depotScope content pk ref org).length
  else none

end

/-- `jsonbFirst` is the text of the first element of a JSON text: none for a text that is not JSON, or has no first element,
or has a null there. -/
def validateScopeRef (jsonbFirst : String → Option String) (content : Content) (kind sourceTable ref : String)
    (org : Int) : Bool :=
  match jsonbFirst ref with
  | none => false
  | some pk =>
    match scopeCount content pk ref org kind sourceTable with
    | none => false
    | some count => 0 < count

end PlatformGitops.DataAccess
