import PlatformGitops.EtlWorker.Runs

/-! When a call of the worker leaves the target tables as they were. No step of it asks for a dry run. -/

namespace PlatformGitops.EtlWorker

open Library

variable {X : Externals} {tableMeta : TableMeta} {w w' : World}

/-- The statements that were committed from one state to the other. -/
def committed (w w' : World) : List Statement := w'.statements.drop w.statements.length

/-- The call inserted and changed no row of the target. -/
def Untouched (w w' : World) : Prop := w'.target = w.target ∧ ∀ statement ∈ committed w w', statement.changed = []

lemma executeMany_changed_nil {rows : List Row} {target : Target} (h : upsertRefused tableMeta = none) :
    (executeMany tableMeta rows target).2 = [] ↔ ∀ row ∈ rows, Holds tableMeta target row := by
  induction rows with
  | nil => simp [executeMany]
  | cons row rows ih =>
    rw [List.forall_mem_cons, executeMany]
    cases hfound : target (targetKey tableMeta row) with
    | none => simp [upsertedRow, Holds, hfound]
    | some old =>
      by_cases hsame : old "content_hash" = row.get "content_hash"
      · simp [upsertedRow, Holds, hfound, hsame, ih, h]
      · simp [upsertedRow, Holds, hfound, hsame]

lemma executeMany_of_changed_nil {rows : List Row} {target : Target}
    (h : (executeMany tableMeta rows target).2 = []) : (executeMany tableMeta rows target).1 = target := by
  induction rows with
  | nil => rfl
  | cons row rows ih =>
    rw [executeMany] at h ⊢
    cases hrow : upsertedRow tableMeta row (target (targetKey tableMeta row)) with
    | none =>
      rw [hrow] at h
      exact ih h
    | some stored => simp [hrow] at h

/-- The statements lead from the one target to the other. -/
inductive Leads : Target → List Statement → Target → Prop
  | nil {target : Target} : Leads target [] target
  | cons {target target' : Target} {rows : List Row} {rest : List Statement} {tableMeta : TableMeta} :
      upsertRefused tableMeta = none → Leads (executeMany tableMeta rows target).1 rest target' →
      Leads target (⟨tableMeta, rows, (executeMany tableMeta rows target).2⟩ :: rest) target'

lemma Leads.concat {target middle : Target} {statements : List Statement} {rows : List Row}
    (h : Leads target statements middle) (haccepted : upsertRefused tableMeta = none) :
    Leads target (statements ++ [⟨tableMeta, rows, (executeMany tableMeta rows middle).2⟩])
      (executeMany tableMeta rows middle).1 := by
  induction h with
  | nil => exact .cons haccepted .nil
  | cons hfirst _ ih => exact .cons hfirst ih

lemma Leads.untouched_iff {target target' : Target} {statements : List Statement} (h : Leads target statements target') :
    (target' = target ∧ ∀ statement ∈ statements, statement.changed = []) ↔
      ∀ statement ∈ statements, ∀ row ∈ statement.rows, Holds statement.tableMeta target row := by
  induction h with
  | nil => simp
  | @cons target target' rows rest tableMeta haccepted _ ih =>
    simp only [List.forall_mem_cons]
    rw [← executeMany_changed_nil haccepted]
    constructor
    · rintro ⟨hsame, hfirst, hrest⟩
      rw [executeMany_of_changed_nil hfirst] at ih
      exact ⟨hfirst, ih.mp ⟨hsame, hrest⟩⟩
    · rintro ⟨hfirst, hrest⟩
      rw [executeMany_of_changed_nil hfirst] at ih
      obtain ⟨hsame, hchanged⟩ := ih.mpr hrest
      exact ⟨hsame, hfirst, hchanged⟩

/-- The journal goes on from one state to the other, and its statements account for the target. -/
def Journaled (w w' : World) : Prop :=
  ∃ statements, w'.statements = w.statements ++ statements ∧ Leads w.target statements w'.target

lemma Journaled.step {α : Type} {e : Effect α} {w₁ : World} {r : Except PyError α} (h : Journaled w w₁)
    (hans : outside.answer () e w₁ w' r) : Journaled w w' := by
  obtain ⟨statements, hjournal, hleads⟩ := h
  cases r with
  | error err =>
    obtain ⟨-, rfl⟩ := hans
    exact ⟨statements, hjournal, hleads⟩
  | ok a =>
    cases e with
    | load tableMeta rows =>
      obtain ⟨haccepted, -, rfl⟩ := hans
      exact ⟨_, by rw [hjournal, List.append_assoc], hleads.concat haccepted⟩
    | createRun run =>
      obtain ⟨-, rfl⟩ := hans
      exact ⟨statements, hjournal, hleads⟩
    | getRun =>
      obtain ⟨rfl, -⟩ := hans
      exact ⟨statements, hjournal, hleads⟩
    | getResumeState =>
      obtain ⟨rfl, -⟩ := hans
      exact ⟨statements, hjournal, hleads⟩
    | _ =>
      obtain rfl := hans
      exact ⟨statements, hjournal, hleads⟩

lemma journaled_of_call {cfg : RunnerConfig} (h : Call outside X cfg w w') : Journaled w w' := by
  have hstart : Journaled w w := ⟨[], by simp, .nil⟩
  have hguarded : Guarded outside () (Journaled w) (runOrchestrator X cfg) (fun _ => Journaled w) w :=
    guarded_only (Prog.only_all _) (fun _ _ _ _ _ hs hans => hs.step hans) hstart
  rcases h with ⟨out, hexec⟩ | hstops
  · exact (hguarded.exec hstart hexec).1
  · exact hguarded.stops hstart hstops

namespace Sample

def dryRun : RunnerConfig where
  mode := some "dry-run"
  manifest := [company]

/-- One row of one table, which the target takes. -/
def taking : Script := yields [(company, [[row 1]])] fun _ _ _ => none

lemma call_taking {w : World} {out : Except PyError RunOutcome}
    (h : (runOrchestrator externals dryRun).interp taking.world fresh = some (w, out)) :
    Call outside externals dryRun fresh w :=
  Or.inl ⟨out, exec_interp (fun e w w' r hans => (taking.answers e w w' r hans).1) h⟩

lemma ends_taking : ∃ w, (runOrchestrator externals dryRun).interp taking.world fresh = some (w, .ok .success) ∧
    runMode w = some "dry_run" ∧ (committed fresh w).map (·.changed.length) = [1] := by
  have hends : (((runOrchestrator externals dryRun).interp taking.world fresh).any fun p =>
      decide (p.2.toOption = some .success ∧ runMode p.1 = some "dry_run") &&
        decide ((committed fresh p.1).map (·.changed.length) = [1])) = true := by decide
  obtain ⟨⟨w, out⟩, hrun, hend⟩ := result_of_any hends
  simp only [Bool.and_eq_true, decide_eq_true_eq] at hend
  obtain ⟨⟨hout, hmode⟩, hchanged⟩ := hend
  obtain rfl := Fallible.toOption_eq_some hout
  exact ⟨w, hrun, hmode, hchanged⟩

end Sample

end PlatformGitops.EtlWorker
