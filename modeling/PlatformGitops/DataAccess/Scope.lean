import PlatformGitops.DataAccess.TenantBoundary
import PlatformGitops.Library.Fallible

/-! The scope table, whose rows grant users the entities that their references name. -/

namespace PlatformGitops.DataAccess

open Library Fallible

structure Scope where
  id : Int
  userId : String
  orgId : Int
  scopeKind : String
  scopeSourceSchema : String
  scopeSourceTable : String
  scopeRef : String
  revokedAt : Option Int
deriving DecidableEq, Repr

inductive Column
  | id
  | userId
  | orgId
  | scopeKind
  | scopeSourceSchema
  | scopeSourceTable
  | scopeRef
  | revokedAt
deriving DecidableEq, Repr

inductive ScopeError
  | raised (message : String)
  | checkViolation
  | uniqueViolation
  | foreignKeyViolation
deriving DecidableEq, Repr

namespace Scope

variable (row : Scope)

def active : Bool := row.revokedAt = none

/-- What the index on the active rows keeps unique. -/
def assignment : String × Int × String × String := (row.userId, row.orgId, row.scopeKind, row.scopeRef)

def sourceTables : List (String × String) :=
  [("company", "OUR_COMPANY"), ("project", "PRO_PROJECTS"), ("branch", "BRANCH"), ("depot", "DEPARTMENT")]

def consistent : Bool := (row.scopeKind, row.scopeSourceTable) ∈ sourceTables ∧ row.scopeSourceSchema = sourceSchema

/-- The row after an update that assigns the columns of the new values. -/
def assign (columns : List Column) (new : Scope) : Scope where
  id := if .id ∈ columns then new.id else row.id
  userId := if .userId ∈ columns then new.userId else row.userId
  orgId := if .orgId ∈ columns then new.orgId else row.orgId
  scopeKind := if .scopeKind ∈ columns then new.scopeKind else row.scopeKind
  scopeSourceSchema := if .scopeSourceSchema ∈ columns then new.scopeSourceSchema else row.scopeSourceSchema
  scopeSourceTable := if .scopeSourceTable ∈ columns then new.scopeSourceTable else row.scopeSourceTable
  scopeRef := if .scopeRef ∈ columns then new.scopeRef else row.scopeRef
  revokedAt := if .revokedAt ∈ columns then new.revokedAt else row.revokedAt

end Scope

inductive Write
  | insert (row : Scope)
  | update (id : Int) (columns : List Column) (values : Scope)
deriving DecidableEq, Repr

/-- The columns whose update is validated. -/
def validatedColumns : List Column := [.scopeKind, .scopeSourceSchema, .scopeSourceTable, .scopeRef, .revokedAt, .orgId]

def uqScopeActiveAssignment (rows : List Scope) : Prop := ((rows.filter (·.active)).map (·.assignment)).Nodup

instance : DecidablePred uqScopeActiveAssignment := fun _ => inferInstanceAs (Decidable (List.Nodup _))

section

variable (jsonbFirst : String → Option String) (content : Content)

def scopeValidateTrg (row : Scope) : Except ScopeError Unit :=
  rejectIf (¬ validateScopeRef jsonbFirst content row.scopeKind row.scopeSourceTable row.scopeRef row.orgId)
    (.raised ("data_access.scope: invalid scope_ref " ++ row.scopeRef ++ " for kind " ++ row.scopeKind ++
      " / source_table " ++ row.scopeSourceTable ++ " / org_id " ++ toString row.orgId))

def scopeValidateBeforeWrite (fires : Bool) (row : Scope) : Except ScopeError Unit :=
  match fires with
  | true => scopeValidateTrg jsonbFirst content row
  | false => .ok ()

/-- The rows with one that is written: validated if the trigger fires, and under the constraints of the table. -/
def accept (fires : Bool) (row : Scope) (rows : List Scope) : Except ScopeError (List Scope) := do
  let _ ← scopeValidateBeforeWrite jsonbFirst content fires row
  let _ ← rejectIf (¬ row.consistent) .checkViolation
  let _ ← rejectIf (¬ ((rows.map (·.id)).Nodup ∧ uqScopeActiveAssignment rows)) .uniqueViolation
  let _ ← rejectIf (row.orgId ∉ content.organization) .foreignKeyViolation
  pure rows

def write (rows : List Scope) : Write → Except ScopeError (List Scope)
  | .insert row => accept jsonbFirst content true row (rows ++ [row])
  | .update id columns values =>
    match rows.find? (·.id = id) with
    | none => .ok rows
    | some old =>
      let row := old.assign columns values
      accept jsonbFirst content (columns.any fun column => column ∈ validatedColumns) row
        (rows.map fun r => if r.id = id then row else r)

/-- The rows after a sequence of writes that are all accepted. -/
def writes : List Write → Except ScopeError (List Scope) := List.foldlM (write jsonbFirst content) []

end

/-- The row that a write puts in the place of none, or of the one with an id. -/
def Write.row (rows : List Scope) : Write → Option Scope
  | .insert row => some row
  | .update id columns values => (rows.find? (·.id = id)).map fun old => old.assign columns values

def Write.replaces : Write → Option Int
  | .insert _ => none
  | .update id _ _ => some id

variable {jsonbFirst : String → Option String} {content : Content} {rows rows' : List Scope} {w : Write} {row : Scope}

/-- What an accepted write of a row leaves. -/
structure Written (rows rows' : List Scope) (w : Write) (row : Scope) : Prop where
  mem : row ∈ rows'
  kept : ∀ r ∈ rows, some r.id ≠ w.replaces → r ∈ rows'
  only : ∀ r ∈ rows', r = row ∨ r ∈ rows ∧ some r.id ≠ w.replaces
  ids : (rows'.map (·.id)).Nodup
  assignments : uqScopeActiveAssignment rows'

lemma accept_eq_ok {fires : Bool} {out : List Scope} (h : accept jsonbFirst content fires row rows = .ok out) :
    out = rows ∧ (rows.map (·.id)).Nodup ∧ uqScopeActiveAssignment rows := by
  simp only [accept, bind_eq_ok, pure_eq_ok, rejectIf_eq_ok, not_not] at h
  obtain ⟨-, -, -, -, -, hunique, -, -, rfl⟩ := h
  exact ⟨rfl, hunique⟩

/-- An accepted write leaves the rows, or writes one row. -/
lemma write_eq_ok (h : write jsonbFirst content rows w = .ok rows') :
    w.row rows = none ∧ rows' = rows ∨ ∃ row, w.row rows = some row ∧ Written rows rows' w row := by
  cases w with
  | insert row =>
    simp only [write] at h
    obtain ⟨rfl, hids, hassignments⟩ := accept_eq_ok h
    refine .inr ⟨row, rfl, by simp, fun r hr _ => List.mem_append_left _ hr, fun r hr => ?_, hids, hassignments⟩
    rcases List.mem_append.mp hr with hr | hr
    · exact .inr ⟨hr, nofun⟩
    · exact .inl (List.mem_singleton.mp hr)
  | update id columns values =>
    simp only [write] at h
    cases hold : rows.find? (·.id = id) with
    | none =>
      rw [hold] at h
      cases h
      exact .inl ⟨by simp only [Write.row, hold, Option.map_none], rfl⟩
    | some old =>
      rw [hold] at h
      obtain ⟨rfl, hids, hassignments⟩ := accept_eq_ok h
      have hmem := List.mem_of_find?_eq_some hold
      have hid : old.id = id := by simpa using List.find?_some hold
      refine .inr ⟨old.assign columns values, by simp only [Write.row, hold, Option.map_some], ?_, ?_, ?_, hids, hassignments⟩
      · exact List.mem_map.mpr ⟨old, hmem, if_pos hid⟩
      · intro r hr hne
        exact List.mem_map.mpr ⟨r, hr, if_neg fun heq => hne (congrArg some heq)⟩
      · intro r hr
        obtain ⟨r', hr', rfl⟩ := List.mem_map.mp hr
        by_cases heq : r'.id = id
        · exact .inl (if_pos heq)
        · rw [if_neg heq]
          exact .inr ⟨hr', fun hsame => heq (Option.some.inj hsame)⟩

end PlatformGitops.DataAccess
