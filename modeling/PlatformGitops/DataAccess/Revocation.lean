import Mathlib.Data.List.Induction
import PlatformGitops.DataAccess.Scope
import PlatformGitops.DataAccess.ActiveGrants

/-! When an active grant can be revoked, while other processes reload the tables that it is validated against. -/

namespace PlatformGitops.DataAccess

open Library Fallible

structure State where
  content : Content
  rows : List Scope

/-- A write to the scope table, or new content of the other tables: a load, deletions, other mappings. -/
inductive Step
  | write (w : Write)
  | change (content : Content)

section

variable (jsonbFirst : String → Option String)

/-- A write that is refused changes nothing; with an organization its grants are deleted. -/
def State.step (st : State) : Step → State
  | .write w =>
    match write jsonbFirst st.content st.rows w with
    | .ok rows => { st with rows }
    | .error _ => st
  | .change content => ⟨content, st.rows.filter fun row => row.orgId ∈ content.organization⟩

def State.run (content : Content) (steps : List Step) : State := steps.foldl (State.step jsonbFirst) ⟨content, []⟩

def Scope.revokedBy (row : Scope) (timestamp : Int) : Write :=
  .update row.id [.revokedAt] { row with revokedAt := some timestamp }

/-- Each active grant can be revoked, at any time. -/
def AllRevocable (st : State) : Prop := ∀ row ∈ st.rows, row.active = true → ∀ timestamp,
  ∃ rows, write jsonbFirst st.content st.rows (row.revokedBy timestamp) = .ok rows

def Scope.valid (content : Content) (row : Scope) : Bool :=
  validateScopeRef jsonbFirst content row.scopeKind row.scopeSourceTable row.scopeRef row.orgId

/-- The references of the active grants that remain are valid against the new content. -/
def KeepsValid (st : State) (content : Content) : Prop :=
  ∀ row ∈ st.rows, row.active = true → row.orgId ∈ content.organization → row.valid jsonbFirst content = true

end

variable {jsonbFirst : String → Option String} {content content' : Content} {rows rows' : List Scope} {w : Write}
  {row old new : Scope} {st : State} {columns : List Column} {fires : Bool} {timestamp : Int}

/-- The constraints of the scope table. -/
structure Constrained (st : State) : Prop where
  ids : (st.rows.map (·.id)).Nodup
  assignments : uqScopeActiveAssignment st.rows
  consistent : ∀ row ∈ st.rows, row.consistent = true
  organizations : ∀ row ∈ st.rows, row.orgId ∈ st.content.organization

def AllValid (jsonbFirst : String → Option String) (st : State) : Prop :=
  ∀ row ∈ st.rows, row.active = true → row.valid jsonbFirst st.content = true

lemma accept_ok_iff : accept jsonbFirst content fires row rows = .ok rows' ↔
    (fires = true → row.valid jsonbFirst content = true) ∧ row.consistent = true ∧
      ((rows.map (·.id)).Nodup ∧ uqScopeActiveAssignment rows) ∧ row.orgId ∈ content.organization ∧ rows = rows' := by
  cases fires with
  | true =>
    simp only [accept, scopeValidateBeforeWrite, scopeValidateTrg, bind_eq_ok, pure_eq_ok, rejectIf_eq_ok, not_not,
      Scope.valid, exists_const, forall_const]
  | false =>
    simp only [accept, scopeValidateBeforeWrite, bind_eq_ok, pure_eq_ok, rejectIf_eq_ok, not_not, exists_const,
      Bool.false_eq_true, false_implies, true_and]

section Steps

lemma assign_valid (h : ¬ columns.any (fun column => column ∈ validatedColumns) = true) :
    (old.assign columns new).valid jsonbFirst content = old.valid jsonbFirst content ∧
      (old.assign columns new).active = old.active := by
  have hnot (column : Column) (hvalidated : column ∈ validatedColumns) : column ∉ columns := by
    intro hmem
    exact h (List.any_eq_true.mpr ⟨column, hmem, by simpa using hvalidated⟩)
  have hkind := hnot .scopeKind (by decide)
  have htable := hnot .scopeSourceTable (by decide)
  have href := hnot .scopeRef (by decide)
  have horg := hnot .orgId (by decide)
  have hrevoked := hnot .revokedAt (by decide)
  simp [Scope.valid, Scope.active, Scope.assign, hkind, htable, href, horg, hrevoked]

/-- What an accepted write of a row has been checked for. -/
lemma written_checked (h : write jsonbFirst content rows w = .ok rows') (hrow : w.row rows = some row) :
    row.consistent = true ∧ row.orgId ∈ content.organization ∧ (row.valid jsonbFirst content = true ∨
      ∃ old ∈ rows, row.valid jsonbFirst content = old.valid jsonbFirst content ∧ row.active = old.active) := by
  cases w with
  | insert new =>
    cases hrow
    obtain ⟨hvalid, hconsistent, -, horg, -⟩ := accept_ok_iff.mp h
    exact ⟨hconsistent, horg, .inl (hvalid rfl)⟩
  | update id columns values =>
    simp only [write] at h
    simp only [Write.row] at hrow
    cases hold : rows.find? (·.id = id) with
    | none =>
      rw [hold] at hrow
      cases hrow
    | some old =>
      rw [hold] at h hrow
      cases hrow
      obtain ⟨hvalid, hconsistent, -, horg, -⟩ := accept_ok_iff.mp h
      refine ⟨hconsistent, horg, ?_⟩
      by_cases hfires : columns.any (fun column => column ∈ validatedColumns) = true
      · exact .inl (hvalid hfires)
      · exact .inr ⟨old, List.mem_of_find?_eq_some hold, assign_valid hfires⟩

/-- A step keeps the constraints of the scope table. -/
lemma step_constrained (h : Constrained st) (s : Step) : Constrained (st.step jsonbFirst s) := by
  cases s with
  | change content =>
    constructor
    · exact h.ids.sublist (List.filter_sublist.map _)
    · exact List.Nodup.sublist ((List.filter_sublist.filter _).map _) h.assignments
    · exact fun row hrow => h.consistent row (List.mem_filter.mp hrow).1
    · intro row hrow
      exact of_decide_eq_true (List.mem_filter.mp hrow).2
  | write w =>
    cases hwrite : write jsonbFirst st.content st.rows w with
    | error err => simpa only [State.step, hwrite] using h
    | ok rows =>
      simp only [State.step, hwrite]
      rcases write_eq_ok hwrite with ⟨-, rfl⟩ | ⟨row, hrow, hwritten⟩
      · exact h
      · obtain ⟨hconsistent, horg, -⟩ := written_checked hwrite hrow
        refine ⟨hwritten.ids, hwritten.assignments, fun r hr => ?_, fun r hr => ?_⟩
        · rcases hwritten.only r hr with rfl | ⟨hr, -⟩
          · exact hconsistent
          · exact h.consistent r hr
        · rcases hwritten.only r hr with rfl | ⟨hr, -⟩
          · exact horg
          · exact h.organizations r hr

/-- A write leaves the references of the active grants valid. -/
lemma write_valid (h : AllValid jsonbFirst st) (w : Write) : AllValid jsonbFirst (st.step jsonbFirst (.write w)) := by
  cases hwrite : write jsonbFirst st.content st.rows w with
  | error err => simpa only [State.step, hwrite] using h
  | ok rows =>
    simp only [State.step, hwrite]
    rcases write_eq_ok hwrite with ⟨-, rfl⟩ | ⟨row, hrow, hwritten⟩
    · exact h
    · obtain ⟨-, -, hchecked⟩ := written_checked hwrite hrow
      intro r hr hactive
      rcases hwritten.only r hr with rfl | ⟨hr, -⟩
      · rcases hchecked with hvalid | ⟨old, hold, hvalid, hsame⟩
        · exact hvalid
        · rw [hvalid]
          exact h old hold (hsame ▸ hactive)
      · exact h r hr hactive

lemma change_valid_iff : AllValid jsonbFirst (st.step jsonbFirst (.change content)) ↔
    KeepsValid jsonbFirst st content := by
  constructor
  · intro h row hrow hactive horg
    exact h row (List.mem_filter.mpr ⟨hrow, by simpa using horg⟩) hactive
  · intro h row hrow hactive
    obtain ⟨hrow, horg⟩ := List.mem_filter.mp hrow
    exact h row hrow hactive (by simpa using horg)

end Steps

section Revoking

lemma find_row (hids : (rows.map (·.id)).Nodup) (hrow : row ∈ rows) : rows.find? (·.id = row.id) = some row := by
  cases hfind : rows.find? (·.id = row.id) with
  | none => exact absurd (List.find?_eq_none.mp hfind row hrow) (by simp)
  | some found =>
    have hid : found.id = row.id := by simpa using List.find?_some hfind
    rw [List.inj_on_of_nodup_map hids (List.mem_of_find?_eq_some hfind) hrow hid]

/-- The active rows are those of before without the one that is revoked. -/
lemma filter_revoked {revoked : Scope} (hrevoked : revoked.active = false) :
    (rows.map fun r => if r.id = row.id then revoked else r).filter (·.active) =
      (rows.filter (·.active)).filter (·.id ≠ row.id) := by
  induction rows with
  | nil => rfl
  | cons r rows ih =>
    rw [List.map_cons]
    by_cases hid : r.id = row.id
    · rw [if_pos hid, List.filter_cons_of_neg (by simp [hrevoked]), ih]
      by_cases hactive : r.active = true <;> simp [hid, hactive]
    · rw [if_neg hid]
      by_cases hactive : r.active = true
      · rw [List.filter_cons_of_pos hactive, ih, List.filter_cons_of_pos hactive, List.filter_cons_of_pos (by simpa using hid)]
      · rw [List.filter_cons_of_neg hactive, ih, List.filter_cons_of_neg hactive]

lemma revoked_assignments (h : uqScopeActiveAssignment rows) : uqScopeActiveAssignment
    (rows.map fun r => if r.id = row.id then { row with revokedAt := some timestamp } else r) := by
  rw [uqScopeActiveAssignment, filter_revoked rfl]
  exact List.Nodup.sublist (List.filter_sublist.map _) h

/-- A revoke is accepted exactly when the reference of the row is still valid. -/
lemma revoke_ok_iff (h : Constrained st) (hrow : row ∈ st.rows) :
    (∃ rows, write jsonbFirst st.content st.rows (row.revokedBy timestamp) = .ok rows) ↔
      row.valid jsonbFirst st.content = true := by
  have hassign : row.assign [.revokedAt] { row with revokedAt := some timestamp } =
      { row with revokedAt := some timestamp } := by simp [Scope.assign]
  have hfires : ([Column.revokedAt].any fun column => column ∈ validatedColumns) = true := by decide
  have hids : (st.rows.map fun r => if r.id = row.id then { row with revokedAt := some timestamp } else r).map (·.id) =
      st.rows.map (·.id) := by
    rw [List.map_map]
    refine List.map_congr_left fun r _ => ?_
    by_cases hid : r.id = row.id <;> simp [hid]
  simp only [Scope.revokedBy, write, find_row h.ids hrow, hassign, hfires, accept_ok_iff, hids]
  constructor
  · rintro ⟨_, hvalid, -⟩
    exact hvalid trivial
  · intro hvalid
    exact ⟨_, fun _ => hvalid, h.consistent row hrow, ⟨h.ids, revoked_assignments h.assignments⟩,
      h.organizations row hrow, rfl⟩

lemma allRevocable_iff (h : Constrained st) : AllRevocable jsonbFirst st ↔ AllValid jsonbFirst st := by
  constructor
  · intro hall row hrow hactive
    exact (revoke_ok_iff h hrow).mp (hall row hrow hactive 0)
  · intro hall row hrow hactive timestamp
    exact (revoke_ok_iff h hrow).mpr (hall row hrow hactive)

lemma run_constrained (content : Content) (steps : List Step) : Constrained (State.run jsonbFirst content steps) := by
  induction steps using List.reverseRecOn with
  | nil => exact ⟨.nil, .nil, by simp [State.run], by simp [State.run]⟩
  | append_singleton steps s ih =>
    rw [State.run, List.foldl_append]
    exact step_constrained ih s

/-- Along a run each active grant can be revoked in every state exactly when every change of the other tables leaves
the references of the active grants valid. -/
theorem revocable_along_iff (jsonbFirst : String → Option String) (content : Content) (steps : List Step) :
    (∀ done, done <+: steps → AllRevocable jsonbFirst (State.run jsonbFirst content done)) ↔
      ∀ done content', done ++ [.change content'] <+: steps →
        KeepsValid jsonbFirst (State.run jsonbFirst content done) content' := by
  have hlast (done : List Step) (s : Step) : State.run jsonbFirst content (done ++ [s]) =
      (State.run jsonbFirst content done).step jsonbFirst s := by
    rw [State.run, List.foldl_append]
    rfl
  simp only [allRevocable_iff (run_constrained content _)]
  constructor
  · intro hall done content' hstart
    have hvalid := hall _ hstart
    rw [hlast] at hvalid
    exact change_valid_iff.mp hvalid
  · intro hkeeps done
    induction done using List.reverseRecOn with
    | nil =>
      intro _ row hrow
      cases hrow
    | append_singleton done s ih =>
      intro hstart
      have hbefore := ih ((List.prefix_append done [s]).trans hstart)
      rw [hlast]
      cases s with
      | write w => exact write_valid hbefore w
      | change content' => exact change_valid_iff.mpr (hkeeps done content' hstart)

open Sample in
/-- A grant can not be revoked any more once the mapping of its organization has been deleted. -/
theorem not_revocable_unmapped : ¬ ∀ steps, AllRevocable firstElement (State.run firstElement moved steps) := by
  intro h
  have hall := h [.write (.insert granted), .change { moved with
    organizationCompany := []
    mapped := by simp
    nodup := .nil }]
  have hvalid := (allRevocable_iff (run_constrained _ _)).mp hall granted (by decide) (by decide)
  exact absurd hvalid (by decide)

end Revoking

end PlatformGitops.DataAccess
