import PlatformGitops.CrossAi.DispatchSafety
import PlatformGitops.CrossAi.IntentStore.DispatchStatus

/-! The recorded result of a POST, when dispatches and their reconciliations are interleaved. -/

namespace PlatformGitops.CrossAi.PostedStatus

open Library IntentStore Dispatcher

/-- The registry, the thread that claimed each dispatch, and the dispatch row that each thread read last. -/
structure World where
  registry : Registry
  owner : StageKey → Option Nat
  reads : Nat → Option DispatchJob

/-- The calls that read a dispatch row, for a later write. -/
def ReadsRow {α : Type} : Call α → Prop
  | .getDispatch .. => True
  | _ => False

namespace World

def db (w : World) : Db := w.registry.db

def initial : World := ⟨Registry.empty, fun _ => none, fun _ => none⟩

/-- The world after a transaction of thread `t`, which owns the dispatches it claimed. -/
def commit (w : World) (t : Nat) (reg : Registry) : World :=
  { w with registry := reg,
           owner := fun k => if ¬ Claimed w.db k ∧ Claimed reg.db k then some t else w.owner k }

def note {α : Type} (w : World) (t : Nat) (c : Call α) (r : Except Failure α) : World :=
  match c, r with
  | .getDispatch .., .ok job => { w with reads := Function.update w.reads t (some job) }
  | _, _ => w

end World

/-- A call on the registry fails before its transaction, or is committed; its answer may be lost. -/
def answer (X : Externals) {β : Type} (t : Nat) (e : Effect β) (w w' : World) (r : Except Failure β) : Prop :=
  match e with
  | .registry c => (w' = w ∧ r = .error .unavailable) ∨ ∃ amb : Ambient,
      w' = (w.commit t (c.exec X amb w.registry).1).note t c r ∧
        (r = (c.exec X amb w.registry).2 ∨ r = .error .unavailable)
  | _ => w' = w

/-- What a process may do: an entry point of the orchestrator, or a call of another user of the registry. Only the
orchestrator writes the result of a dispatch. -/
inductive Entry (X : Externals) : Action Unit → Prop
  | registerAndDispatchApply (O : IntentDispatchOrchestrator) (envelope : Json) :
      Entry X (do let _ ← registerAndDispatchApply O envelope)
  | dispatchStage (O : IntentDispatchOrchestrator) (requestId : String) (stage : Stage) :
      Entry X (do let _ ← dispatchStage O requestId stage)
  | reconcileDispatch (requestId : String) (stage : Stage) :
      Entry X (do let _ ← Dispatcher.reconcileDispatch X requestId stage)
  | other {α : Type} (c : Call α) (quiet : ¬ c.WritesResult) : Entry X (do let _ ← Action.registry c)

def system (X : Externals) : System Failure Effect World Nat where
  answer := answer X
  start _ p := Entry X p
  restart w w' := w' = w

/-- The thread resolves a dispatch that it read without a result, and the result was recorded since. -/
def Stale (w : World) (t : Nat) {β : Type} : Effect β → Prop
  | .registry (.resolveDispatch requestId stage ..) =>
    (∃ job ∈ w.reads t, job.key = (requestId, stage) ∧ job.httpStatus = none) ∧
      ∃ row ∈ w.db.dispatches.find? (requestId, stage), row.state = .sending ∧ row.httpStatus ≠ none
  | _ => False

/-- The runs of the system without such a step. -/
def careful (X : Externals) : System Failure Effect World Nat where
  answer t e w w' r := ¬ Stale w t e ∧ answer X t e w w' r
  start _ p := Entry X p
  restart w w' := w' = w

structure Inv (w : World) : Prop where
  unset : Unset w.db
  fresh : ∀ k, ¬ Claimed w.db k → w.owner k = none
  reads : ∀ t, ∀ job ∈ w.reads t, ∀ result ∈ job.httpStatus, status w.db job.key = some result

structure Guar (t : Nat) (w w' : World) : Prop where
  owner : ∀ k u, w.owner k = some u → w'.owner k = some u
  kept : ∀ k result, status w.db k = some result → status w'.db k = some result
  mine : ∀ k, status w.db k = none → status w'.db k ≠ none → w.owner k = some t
  reads : ∀ u, u ≠ t → w'.reads u = w.reads u

def contract : Contract World Nat := ⟨Inv, Guar⟩

/-- The effects that write no result of a dispatch. -/
def Quiet {γ : Type} : Effect γ → Prop
  | .registry c => ¬ c.WritesResult
  | _ => True

/-- The quiet effects that read no dispatch row either. -/
def Silent {γ : Type} : Effect γ → Prop
  | .registry c => ¬ c.WritesResult ∧ ¬ ReadsRow c
  | _ => True

section

variable {X : Externals} {t : Nat} {w w' : World}

lemma Guar.refl (w : World) : Guar t w w :=
  ⟨fun _ _ h => h, fun _ _ h => h, fun _ h h' => (h' h).elim, fun _ _ => rfl⟩

lemma note_of_silent {α : Type} {c : Call α} (hc : ¬ ReadsRow c) (r : Except Failure α) : w.note t c r = w := by
  cases c <;> first | rfl | exact (hc trivial).elim

lemma Inv.claimed_of_owner (hi : Inv w) {k : StageKey} {u : Nat} (hu : w.owner k = some u) : Claimed w.db k := by
  by_contra hn
  rw [hi.fresh k hn] at hu
  cases hu

lemma commit_kept {reg : Registry} (hi : Inv w) (hc : Changes w.db reg.db) (hu : Unset w.db → Unset reg.db)
    (hkept : ∀ k result, status w.db k = some result → status reg.db k = some result)
    (hmine : ∀ k, status w.db k = none → status reg.db k ≠ none → w.owner k = some t) :
    Guar t w (w.commit t reg) ∧ Inv (w.commit t reg) := by
  refine ⟨⟨fun k u h => ?_, hkept, hmine, fun _ _ => rfl⟩, ⟨hu hi.unset, fun k hk => ?_, fun u job hj result hr => ?_⟩⟩
  · exact (if_neg fun hn => hn.1 (hi.claimed_of_owner h)).trans h
  · have hn : ¬ Claimed w.db k := fun h => hk (h.changes hc)
    exact (if_neg fun h => hk h.2).trans (hi.fresh k hn)
  · exact hkept _ _ (hi.reads u job hj result hr)

lemma unresolved_commit {reg : Registry} (hi : Inv w) (hc : Changes w.db reg.db) (h : Unresolved w.db reg.db) :
    Guar t w (w.commit t reg) ∧ Inv (w.commit t reg) := by
  refine commit_kept hi hc h.unset (fun k result hk => (h.status k).trans hk) fun k hn hs => ?_
  rw [h.status] at hs
  exact (hs hn).elim

/-- A row that has been read has the result of the registry. -/
lemma note_kept {α : Type} {c : Call α} {r : Except Failure α} {amb : Ambient} (hi : Inv w)
    (hr : r = (c.exec X amb w.registry).2 ∨ r = .error .unavailable)
    (hg : Guar t w (w.commit t (c.exec X amb w.registry).1))
    (hi' : Inv (w.commit t (c.exec X amb w.registry).1)) :
    Guar t w ((w.commit t (c.exec X amb w.registry).1).note t c r) ∧
      Inv ((w.commit t (c.exec X amb w.registry).1).note t c r) := by
  by_cases hc : ReadsRow c
  swap
  · rw [note_of_silent hc]
    exact ⟨hg, hi'⟩
  cases c with
  | getDispatch requestId stage =>
    cases r with
    | error e => exact ⟨hg, hi'⟩
    | ok job =>
      refine ⟨⟨hg.owner, hg.kept, hg.mine, fun u hu => ?_⟩, ⟨hi'.unset, hi'.fresh, fun u j hj result hres => ?_⟩⟩
      · exact Function.update_of_ne hu ..
      by_cases hu : u = t
      · subst hu
        obtain rfl : job = j := by simpa [World.note] using hj
        rcases hr with hr | hr
        swap
        · cases hr
        have hfind : w.db.dispatches.find? job.key = some job := (getDispatch_eq_ok hr.symm).1
        have hsame : status w.db job.key = some result := by rw [status, hfind]; exact hres
        exact hg.kept _ _ hsame
      · have hj : j ∈ w.reads u := by simpa [World.note, World.commit, hu] using hj
        exact hg.kept _ _ (hi.reads u j hj result hres)
  | _ => exact hc.elim

lemma quiet_kept {γ : Type} {e : Effect γ} {r : Except Failure γ} (he : Quiet e) (hi : Inv w)
    (h : (careful X).answer t e w w' r) : Guar t w w' ∧ Inv w' := by
  have hsame : w' = w → Guar t w w' ∧ Inv w' := by
    rintro rfl
    exact ⟨.refl _, hi⟩
  cases e with
  | registry c =>
    rcases h.2 with ⟨rfl, -⟩ | ⟨amb, rfl, hr⟩
    · exact hsame rfl
    · obtain ⟨hg, hi'⟩ := unresolved_commit hi (exec_changes c w.registry) (exec_unresolved he w.registry)
      exact note_kept hi hr hg hi'
  | _ => exact hsame h.2

lemma silent_same {γ : Type} {e : Effect γ} {r : Except Failure γ} (he : Silent e)
    (h : (careful X).answer t e w w' r) : w'.reads = w.reads ∧ ∀ k, status w'.db k = status w.db k := by
  have hsame : w' = w → w'.reads = w.reads ∧ ∀ k, status w'.db k = status w.db k := by
    rintro rfl
    exact ⟨rfl, fun _ => rfl⟩
  cases e with
  | registry c =>
    rcases h.2 with ⟨rfl, -⟩ | ⟨amb, rfl, -⟩
    · exact hsame rfl
    · rw [note_of_silent he.2]
      exact ⟨rfl, (exec_unresolved he.1 w.registry).status⟩
  | _ => exact hsame h.2

lemma quiet_of_silent {γ : Type} {e : Effect γ} (he : Silent e) : Quiet e := by
  cases e with
  | registry => exact he.1
  | _ => trivial

/-- Thread `t` has claimed the dispatch, and no result of it is recorded. -/
def Holds (t : Nat) (k : StageKey) (w : World) : Prop := w.owner k = some t ∧ status w.db k = none

/-- Thread `t` has read the row. -/
def Reads (t : Nat) (job : DispatchJob) (w : World) : Prop := w.reads t = some job

/-- What a thread knows and goes on knowing, until it writes a result or reads a row. -/
structure Known (t : Nat) (I : World → Prop) : Prop where
  others : ∀ u, u ≠ t → ∀ w w', Guar u w w' → I w → I w'
  own : ∀ w w', Guar t w w' → w'.reads = w.reads → (∀ k, status w'.db k = status w.db k) → I w → I w'

lemma known_holds {k : StageKey} : Known t (Holds t k) := by
  refine ⟨fun u hu w w' hg h => ⟨hg.owner k t h.1, ?_⟩, fun w w' hg _ hs h => ⟨hg.owner k t h.1, (hs k).trans h.2⟩⟩
  by_contra hn
  exact hu (Option.some.inj ((hg.mine k h.2 hn).symm.trans h.1))

lemma known_reads {job : DispatchJob} : Known t (Reads t job) := by
  refine ⟨fun u hu w w' hg h => (hg.reads t (Ne.symm hu)).trans h, fun w w' _ hr _ h => ?_⟩
  exact (congrFun hr t).trans h

lemma Known.rely {I : World → Prop} (hI : Known t I) (hr : contract.rely t w w') (h : I w) : I w' :=
  contract.rely_stable hI.others hr h

abbrev Safe (X : Externals) (t : Nat) {α : Type} (p : Action α) (w : World) : Prop :=
  contract.wp (careful X).toMachine t p (fun _ _ => True) w

lemma safe_of_quiet {α : Type} {p : Action α} (hp : p.Only Quiet) : Safe X t p w :=
  Contract.wp_of_only hp fun _ he _ _ _ hi hans => quiet_kept he hi hans

/-- The thread knows after silent calls what it knew before them. -/
lemma wp_silent {α : Type} {p : Action α} {I : World → Prop} (hI : Known t I) (hp : p.Only Silent) (h : I w) :
    contract.wp (careful X).toMachine t p (fun _ w => I w) w := by
  refine Contract.wp_stable (fun _ _ hr h => hI.rely hr h) hp (fun e he w₁ w₂ r hi h hans => ?_) h
  obtain ⟨hg, hi₂⟩ := quiet_kept (quiet_of_silent he) hi hans
  obtain ⟨hr, hs⟩ := silent_same he hans
  exact ⟨hg, hi₂, hI.own w₁ w₂ hg hr hs h⟩

lemma safe_silent {α β : Type} {p : Action α} {f : α → Action β} {I : World → Prop} (hI : Known t I)
    (hp : p.Only Silent) (h : I w) (hf : ∀ a w, I w → Safe X t (f a) w) : Safe X t (p >>= f) w := by
  refine Contract.wp_bind (Contract.wp_mono (fun r w h => ?_) (wp_silent hI hp h))
  cases r with
  | ok a => exact hf a w h
  | error e => trivial

lemma silent_perform {γ : Type} {e : Effect γ} (he : Silent e) : (Prog.perform e : Action γ).Only Silent :=
  Prog.only_perform.mpr he

lemma silent_now : Action.now.Only Silent := silent_perform trivial

lemma silent_rejectIf {bad : Prop} [Decidable bad] {code message : String} :
    (Action.rejectIf bad code message).Only Silent := by
  unfold Action.rejectIf
  split <;> trivial

lemma silent_expect {α : Type} {x : Option α} {code message : String} :
    (Action.expect x code message).Only Silent := Prog.only_ofExcept

lemma silent_getFinalized (requestId : String) : (Action.registry (.getFinalized requestId)).Only Silent :=
  silent_perform ⟨not_false, not_false⟩

lemma silent_verifiedRecord (requestId : String) : (verifiedRecord requestId).Only Silent := by
  refine Prog.only_bind (silent_getFinalized requestId) fun v => ?_
  refine Prog.only_bind (silent_perform trivial) fun verified => ?_
  exact Prog.only_bind silent_rejectIf fun _ => Prog.only_pure

lemma claim_holds {requestId : String} {stage : Stage} {at_ : Option Datetime} {job : DispatchJob} (hi : Inv w)
    (h : (careful X).answer t (.registry (.claimDispatch requestId stage at_)) w w' (.ok job)) :
    Holds t (requestId, stage) w' := by
  have hc : ¬ (Call.claimDispatch requestId stage at_).WritesResult := not_false
  rcases h.2 with ⟨-, hr⟩ | ⟨amb, rfl, hr | hr⟩
  · cases hr
  · have hun : Unresolved w.registry.db ((Call.claimDispatch requestId stage at_).exec X amb w.registry).1.db :=
      exec_unresolved hc w.registry
    obtain ⟨db, hb, hreg⟩ := transact_eq_ok hr.symm
    obtain ⟨j, hj, hs, rfl, hj', -⟩ := claimDispatch_eq_ok hb
    have hn : ¬ Claimed w.db (requestId, stage) := by
      rintro ⟨j', hj', hne⟩
      obtain rfl := Option.some.inj (hj.symm.trans hj')
      exact hne hs
    have hdb : ((Call.claimDispatch requestId stage at_).exec X amb w.registry).1 = ⟨db, w.registry.cas⟩ := hreg
    have hclaimed : Claimed ((Call.claimDispatch requestId stage at_).exec X amb w.registry).1.db
        (requestId, stage) := by
      rw [hdb]
      exact ⟨_, hj', by simp⟩
    have hnone : status w.db (requestId, stage) = none := by
      have hj : w.db.dispatches.find? (requestId, stage) = some j := hj
      rw [status, hj, Option.bind_some]
      exact hi.unset _ j hj hs
    exact ⟨if_pos ⟨hn, hclaimed⟩, (hun.status _).trans hnone⟩
  · cases hr

/-- The owner of a dispatch without a result may write one. -/
lemma resolves_commit {reg : Registry} {k : StageKey} {result : Option Int} (hi : Inv w) (hc : Changes w.db reg.db)
    (hk : Holds t k w) (h : reg.db = w.db ∨ Resolves w.db reg.db k result) :
    Guar t w (w.commit t reg) ∧ Inv (w.commit t reg) := by
  rcases h with h | h
  · exact unresolved_commit hi hc (h ▸ .refl _)
  · refine commit_kept hi hc h.unset (fun j s hj => ?_) fun j hj hs => ?_
    · have hne : j ≠ k := by
        rintro rfl
        rw [hk.2] at hj
        cases hj
      rw [h.status, if_neg hne]
      exact hj
    · by_cases hjk : j = k
      · exact hjk ▸ hk.1
      · rw [h.status, if_neg hjk] at hs
        exact (hs hj).elim

/-- The owner of a dispatch without a result makes a call that writes one, if anything. -/
lemma safe_result {α : Type} {c : Call α} {k : StageKey} {result : Option Int} (hc : ¬ ReadsRow c) (hk : Holds t k w)
    (hout : ∀ (amb : Ambient) (w : World), let reg := (c.exec X amb w.registry).1
      reg.db = w.db ∨ Resolves w.db reg.db k result) : Safe X t (Action.registry c) w := by
  refine Contract.wp_perform fun w₁ hr hi w₂ r hans => ?_
  rcases hans.2 with ⟨rfl, -⟩ | ⟨amb, rfl, -⟩
  · exact ⟨.refl _, hi, trivial⟩
  rw [note_of_silent hc]
  obtain ⟨hg, hi'⟩ := resolves_commit hi (exec_changes c w₁.registry) (known_holds.rely hr hk) (hout amb w₁)
  exact ⟨hg, hi', trivial⟩

lemma safe_markDispatchPosted {requestId : String} {stage : Stage} {reason : String} {result : Int}
    {at_ : Option Datetime} (hk : Holds t (requestId, stage) w) :
    Safe X t (Action.registry (.markDispatchPosted requestId stage reason result at_)) w := by
  have hsilent : ¬ ReadsRow (Call.markDispatchPosted requestId stage reason result at_) := not_false
  have hout : ∀ (amb : Ambient) (w : World),
      let reg := ((Call.markDispatchPosted requestId stage reason result at_).exec X amb w.registry).1
      reg.db = w.db ∨ Resolves w.db reg.db (requestId, stage) (some result) := fun amb w =>
    transact_db (R := fun db db' => db' = db ∨ Resolves db db' (requestId, stage) (some result))
      (fun _ => .inl rfl) w.registry fun _ _ h => (markDispatchPosted_resolves h).imp id And.right
  exact safe_result hsilent hk hout

lemma resolveDispatch_outcome {requestId : String} {stage : Stage} {state reason : String} {result : Option Int}
    {at_ : Option Datetime} {amb : Ambient} (w : World) :
    let reg := ((Call.resolveDispatch requestId stage state reason result at_).exec X amb w.registry).1
    reg.db = w.db ∨ ((∃ j ∈ w.db.dispatches.find? (requestId, stage), j.state = .sending) ∧
      Resolves w.db reg.db (requestId, stage) result) :=
  transact_db (R := fun db db' => db' = db ∨ ((∃ j ∈ db.dispatches.find? (requestId, stage), j.state = .sending) ∧
    Resolves db db' (requestId, stage) result)) (fun _ => .inl rfl) w.registry fun _ _ h => resolveDispatch_resolves h

lemma safe_resolveDispatch {requestId : String} {stage : Stage} {state reason : String} {result : Option Int}
    {at_ : Option Datetime} (hk : Holds t (requestId, stage) w) :
    Safe X t (Action.registry (.resolveDispatch requestId stage state reason result at_)) w := by
  have hsilent : ¬ ReadsRow (Call.resolveDispatch requestId stage state reason result at_) := not_false
  exact safe_result hsilent hk fun amb w => (resolveDispatch_outcome w).imp id And.right

/-- A thread that has read the row writes back the result that it read. -/
lemma safe_writeBack {job : DispatchJob} {requestId : String} {stage : Stage} {state reason : String}
    {at_ : Option Datetime} (hkey : job.key = (requestId, stage)) (hj : Reads t job w) :
    Safe X t (Action.registry (.resolveDispatch requestId stage state reason job.httpStatus at_)) w := by
  refine Contract.wp_perform fun w₁ hr hi w₂ r hans => ?_
  have hj : w₁.reads t = some job := known_reads.rely hr hj
  rcases hans with ⟨hfresh, ⟨rfl, -⟩ | ⟨amb, rfl, -⟩⟩
  · exact ⟨.refl _, hi, trivial⟩
  have hsilent : ¬ ReadsRow (Call.resolveDispatch requestId stage state reason job.httpStatus at_) := not_false
  rw [note_of_silent hsilent]
  have hun : Unresolved w₁.db ((Call.resolveDispatch requestId stage state reason job.httpStatus at_).exec X amb
      w₁.registry).1.db := by
    rcases resolveDispatch_outcome w₁ with h | ⟨⟨row, hrow, hs⟩, h⟩
    · exact unresolved_of_eq (congrArg Db.dispatches h)
    refine ⟨fun k => ?_, h.unset⟩
    rw [h.status]
    split
    · next hk =>
      rw [hk]
      cases hres : job.httpStatus with
      | some result => exact (hkey ▸ hi.reads t job hj result hres).symm
      | none =>
        by_contra hne
        refine hfresh ⟨⟨job, hj, hkey, hres⟩, row, hrow, hs, fun hn => hne ?_⟩
        rw [status, hrow, Option.bind_some, hn]
    · rfl
  obtain ⟨hg, hi'⟩ := unresolved_commit hi (exec_changes _ w₁.registry) hun
  exact ⟨hg, hi', trivial⟩

lemma safe_dispatchStage (O : IntentDispatchOrchestrator) (requestId : String) (stage : Stage) :
    Safe X t (dispatchStage O requestId stage) w := by
  have hnow {α : Type} {f : Datetime → Action α} {w : World} (hf : ∀ a w, Safe X t (f a) w) :
      Safe X t (Action.now >>= f) w := Contract.wp_seq (safe_of_quiet (Prog.only_perform.mpr trivial)) hf
  unfold dispatchStage
  refine hnow fun current w => ?_
  refine Contract.wp_seq (safe_of_quiet (Prog.only_mono quiet_of_silent (silent_verifiedRecord requestId)))
    fun record w => ?_
  refine Contract.wp_seq (safe_of_quiet (Prog.only_perform.mpr not_false)) fun job w => ?_
  split
  · trivial
  refine Contract.wp_bind (Contract.wp_perform fun w₁ _ hi w₂ r hans => ?_)
  have hquiet : Quiet (Effect.registry (Call.claimDispatch requestId stage (some current))) := not_false
  obtain ⟨hg, hi₂⟩ := quiet_kept hquiet hi hans
  refine ⟨hg, hi₂, ?_⟩
  cases r with
  | error e => trivial
  | ok claimed =>
    -- only this thread records a result, while there is none
    have hk := claim_holds hi hans
    refine safe_silent known_holds silent_now hk fun snapshotAt w hk => ?_
    refine safe_silent known_holds (silent_perform trivial) hk fun preexisting w hk => ?_
    refine safe_silent known_holds silent_expect hk fun watermark w hk => ?_
    refine safe_silent known_holds (silent_perform ⟨not_false, not_false⟩) hk fun updated w hk => ?_
    refine safe_silent known_holds (silent_perform trivial) hk fun result w hk => ?_
    split
    · refine safe_silent known_holds silent_expect hk fun status w hk => ?_
      exact safe_silent known_holds silent_now hk fun recordedAt w hk => safe_markDispatchPosted hk
    · exact safe_silent known_holds silent_now hk fun resolvedAt w hk => safe_resolveDispatch hk

lemma read_row {requestId : String} {stage : Stage} {job : DispatchJob}
    (h : (careful X).answer t (.registry (.getDispatch requestId stage)) w w' (.ok job)) :
    job.key = (requestId, stage) ∧ Reads t job w' := by
  rcases h.2 with ⟨-, hr⟩ | ⟨amb, rfl, hr | hr⟩
  · cases hr
  · exact ⟨(getDispatch_eq_ok hr.symm).2, Function.update_self ..⟩
  · cases hr

lemma safe_reconcileDispatch (requestId : String) (stage : Stage) :
    Safe X t (Dispatcher.reconcileDispatch X requestId stage) w := by
  unfold Dispatcher.reconcileDispatch
  refine Contract.wp_seq (safe_of_quiet (Prog.only_perform.mpr trivial)) fun current w => ?_
  refine Contract.wp_bind (Contract.wp_perform fun w₁ _ hi w₂ r hans => ?_)
  have hquiet : Quiet (Effect.registry (Call.getDispatch requestId stage)) := not_false
  obtain ⟨hg, hi₂⟩ := quiet_kept hquiet hi hans
  refine ⟨hg, hi₂, ?_⟩
  cases r with
  | error e => trivial
  | ok job =>
    obtain ⟨hkey, hj⟩ := read_row hans
    refine safe_silent known_reads silent_rejectIf hj fun _ w hj => ?_
    refine safe_silent known_reads silent_expect hj fun claimedAt w hj => ?_
    refine safe_silent known_reads silent_rejectIf hj fun _ w hj => ?_
    refine safe_silent known_reads silent_expect hj fun watermark w hj => ?_
    refine safe_silent known_reads (silent_verifiedRecord requestId) hj fun record w hj => ?_
    refine safe_silent known_reads silent_rejectIf hj fun _ w hj => ?_
    refine safe_silent known_reads (silent_perform trivial) hj fun runs w hj => ?_
    split
    · split
      · exact safe_writeBack hkey hj
      · trivial
    · refine safe_of_quiet (Prog.only_bind (Prog.only_perform.mpr trivial) fun liveRef => ?_)
      exact Prog.only_bind (Prog.only_mono quiet_of_silent silent_rejectIf) fun _ => Prog.only_perform.mpr not_false
    · split
      · exact Contract.wp_seq (safe_writeBack hkey hj) fun _ w => trivial
      · trivial

lemma safe_registerAndDispatchApply (O : IntentDispatchOrchestrator) (envelope : Json) :
    Safe X t (registerAndDispatchApply O envelope) w := by
  unfold registerAndDispatchApply
  refine Contract.wp_seq (safe_of_quiet (Prog.only_perform.mpr trivial)) fun current w => ?_
  refine Contract.wp_seq (safe_of_quiet (Prog.only_perform.mpr trivial)) fun verified w => ?_
  refine Contract.wp_seq (safe_of_quiet (Prog.only_perform.mpr not_false)) fun _ w => ?_
  refine Contract.wp_seq (safe_of_quiet (Prog.only_perform.mpr trivial)) fun liveRef w => ?_
  refine Contract.wp_seq (safe_of_quiet (Prog.only_perform.mpr not_false)) fun _ w => ?_
  exact safe_dispatchStage O verified.requestId .apply

lemma careful_meets (X : Externals) : Contract.Meets (careful X) contract := by
  refine ⟨fun t p w hstart hi => ?_, fun w w' h hi => h ▸ hi⟩
  cases hstart with
  | registerAndDispatchApply O envelope => exact Contract.wp_seq (safe_registerAndDispatchApply O envelope) fun _ _ => trivial
  | dispatchStage O requestId stage => exact Contract.wp_seq (safe_dispatchStage O requestId stage) fun _ _ => trivial
  | reconcileDispatch requestId stage => exact Contract.wp_seq (safe_reconcileDispatch requestId stage) fun _ _ => trivial
  | other c hc => exact Contract.wp_seq (safe_of_quiet (Prog.only_perform.mpr hc)) fun _ _ => trivial

lemma inv_initial : Inv World.initial := by
  refine ⟨fun k j hj => ?_, fun _ _ => rfl, fun t job hj => ?_⟩
  · cases hj
  · cases hj

lemma run_kept {c : World × Pool Failure Effect Nat} (h : (careful X).Run (World.initial, fun _ => none) c) :
    Contract.Kept contract (careful X) c := by
  have hinit : Contract.Kept contract (careful X) (World.initial, fun _ => none) :=
    ⟨inv_initial, fun t p hp => by cases hp⟩
  exact Contract.kept_run (careful_meets X) hinit h

/-- While no thread resolves a dispatch on a row that it read before the result was recorded, a recorded result stays. -/
theorem posted_status_kept {c c' : World × Pool Failure Effect Nat}
    (h : (careful X).Run (World.initial, fun _ => none) c) (h' : (careful X).Run c c') {k : StageKey} {result : Int}
    (hk : status c.1.db k = some result) : status c'.1.db k = some result := by
  induction h' with
  | refl => exact hk
  | tail hpre hstep ih =>
    have hkept := Contract.kept_run (careful_meets X) (run_kept h) hpre
    obtain ⟨-, he | ⟨t, hg⟩ | he⟩ := Contract.kept_step (careful_meets X) hkept hstep
    · rw [he]
      exact ih
    · exact hg.kept k result ih
    · rw [show _ = _ from he]
      exact ih

end

namespace Sample

open IntentStore.Sample DispatchSafety.Sample

/-- A world that answers the calls of thread `t` at one time, with the given runs for each query. -/
def world (t : Nat) (now : Datetime) (runs : List Json) {γ : Type} (e : Effect γ) (w : World) :
    Option (World × Except Failure γ) :=
  match e with
  | .now => some (w, .ok now)
  | .registry c =>
    let out := c.exec externals (ambientOf w.registry) w.registry
    some ((w.commit t out.1).note t c out.2, out.2)
  | .verifyEnvelope _ => some (w, .ok verified)
  | .github (.createIntentRef ..) => some (w, .ok ⟨"aaaaaaaaaaaaaaaaaaaaaaaaaaaaaaaaaaaaaaaa", "a", true⟩)
  | .github (.intentRef ..) => some (w, .ok ⟨"aaaaaaaaaaaaaaaaaaaaaaaaaaaaaaaaaaaaaaaa", "a", true⟩)
  | .github (.workflowRunsForDispatch ..) => some (w, .ok runs)
  | .dispatchWorkflow .. => some (w, .ok ⟨true, false, some 204, "DISPATCH_ACCEPTED_204"⟩)
  | _ => none

lemma world_answers (t : Nat) (now : Datetime) (runs : List Json) :
    Answers (system externals).toMachine t (world t now runs) := by
  intro γ e w w' r h
  cases e with
  | registry c =>
    cases h
    exact Or.inr ⟨ambientOf w.registry, rfl, Or.inl rfl⟩
  | github query => cases query <;> cases h <;> rfl
  | _ => cases h <;> rfl

def dispatching : Action Unit := do let _ ← registerAndDispatchApply orchestrator envelope

def reconciling : Action Unit := do let _ ← Dispatcher.reconcileDispatch externals "req" .apply

/-- A dispatch is posted and the time for its run is over. Its row is read, its result is recorded, and then the
reconciliation that read the row resolves it. -/
def overtaken : Option (World × World) :=
  (dispatching.steps (world 0 (start + 2 * minute) []) 15 World.initial).bind fun (w, posted) =>
  (reconciling.steps (world 1 (start + 20 * minute) []) 5 w).bind fun (w, read) =>
  (posted.steps (world 0 (start + 20 * minute) []) 1 w).bind fun (w, _) =>
  (read.steps (world 1 (start + 20 * minute) []) 1 w).map fun (w', _) => (w, w')

lemma run_overtaken {w w' : World} (h : overtaken = some (w, w')) : ∃ pool pool',
    (system externals).Run (World.initial, fun _ => none) (w, pool) ∧
      (system externals).Run (w, pool) (w', pool') := by
  simp only [overtaken, Option.bind_eq_some_iff, Option.map_eq_some_iff, Prod.mk.injEq] at h
  obtain ⟨⟨w₁, posted⟩, h₁, ⟨w₂, read⟩, h₂, ⟨w₃, done⟩, h₃, ⟨w₄, resolved⟩, h₄, rfl, rfl⟩ := h
  let pool₁ : Pool Failure Effect Nat := Function.update (fun _ => none) 0 (some dispatching)
  let pool₂ : Pool Failure Effect Nat := Function.update (Function.update pool₁ 0 (some posted)) 1 (some reconciling)
  let pool₃ : Pool Failure Effect Nat := Function.update pool₂ 1 (some read)
  let pool₄ : Pool Failure Effect Nat := Function.update pool₃ 0 (some done)
  have hstart : (system externals).Run (World.initial, fun _ => none) (World.initial, pool₁) :=
    .single (.start rfl (.registerAndDispatchApply orchestrator envelope))
  have hpost := System.run_steps (world_answers 0 _ []) (show pool₁ 0 = some dispatching from rfl) h₁
  have hbegin : (system externals).Run (w₁, Function.update pool₁ 0 (some posted)) (w₁, pool₂) :=
    .single (.start rfl (.reconcileDispatch "req" .apply))
  have hread := System.run_steps (world_answers 1 _ []) (show pool₂ 1 = some reconciling from rfl) h₂
  have hmark := System.run_steps (world_answers 0 _ []) (show pool₃ 0 = some posted from rfl) h₃
  have hresolve := System.run_steps (world_answers 1 _ []) (show pool₄ 1 = some read from rfl) h₄
  exact ⟨pool₄, _, ((hstart.trans hpost).trans hbegin).trans (hread.trans hmark), hresolve⟩

lemma overtaken_status : overtaken.map (fun c => (status c.1.db ("req", .apply), status c.2.db ("req", .apply))) =
    some (some 204, none) := by
  decide +kernel

def resolves {γ : Type} : Effect γ → Bool
  | .registry (.resolveDispatch ..) => true
  | _ => false

/-- The same world, for threads that do not resolve. -/
def accepting (t : Nat) (now : Datetime) (runs : List Json) {γ : Type} (e : Effect γ) (w : World) :
    Option (World × Except Failure γ) :=
  if resolves e then none else world t now runs e w

lemma resolves_of_stale {γ : Type} {e : Effect γ} {w : World} {t : Nat} (h : Stale w t e) : resolves e := by
  cases e with
  | registry c =>
    cases c with
    | resolveDispatch => rfl
    | _ => exact h.elim
  | _ => exact h.elim

lemma accepting_answers (t : Nat) (now : Datetime) (runs : List Json) :
    Answers (careful externals).toMachine t (accepting t now runs) := by
  intro γ e w w' r h
  simp only [accepting, Option.ite_none_left_eq_some] at h
  exact ⟨fun hstale => h.1 (resolves_of_stale hstale), world_answers t now runs e w w' r h.2⟩

/-- A dispatch with the result of its POST, and then its reconciliation with a run. -/
def reconciled : Option (World × World) :=
  (dispatching.interp (accepting 0 (start + 2 * minute) []) World.initial).bind fun (w, _) =>
  (reconciling.interp (accepting 1 (start + 2 * minute) [workflowRun]) w).map fun (w', _) => (w, w')

lemma run_reconciled {w w' : World} (h : reconciled = some (w, w')) :
    (careful externals).Run (World.initial, fun _ => none) (w, fun _ => none) ∧
      (careful externals).Run (w, fun _ => none) (w', fun _ => none) := by
  simp only [reconciled, Option.bind_eq_some_iff, Option.map_eq_some_iff, Prod.mk.injEq] at h
  obtain ⟨⟨w₁, out₁⟩, h₁, ⟨w₂, out₂⟩, h₂, rfl, rfl⟩ := h
  exact ⟨System.run_alone (.registerAndDispatchApply orchestrator envelope) (exec_interp (accepting_answers 0 _ _) h₁),
    System.run_alone (.reconcileDispatch "req" .apply) (exec_interp (accepting_answers 1 _ _) h₂)⟩

lemma reconciled_facts : reconciled.map (fun c => (status c.1.db ("req", .apply),
    (c.2.db.dispatches.find? ("req", .apply)).bind (·.runId))) = some (some 204, some 11) := by
  decide +kernel

end Sample

theorem posted_status_kept_accepted : ∃ w w', Sample.reconciled = some (w, w') ∧
    status w.db ("req", .apply) = some 204 ∧ status w'.db ("req", .apply) = some 204 ∧
    (w'.db.dispatches.find? ("req", .apply)).bind (·.runId) = some 11 := by
  obtain ⟨⟨w, w'⟩, hw, hfacts⟩ := Option.map_eq_some_iff.mp Sample.reconciled_facts
  obtain ⟨hstatus, hrunId⟩ := Prod.mk.inj hfacts
  obtain ⟨hrun, hrun'⟩ := Sample.run_reconciled hw
  exact ⟨w, w', hw, hstatus, posted_status_kept hrun hrun' hstatus, hrunId⟩

/-- The reconciliation that read the row before the result was recorded takes the result away. -/
theorem posted_status_erased : ∃ c c' : World × Pool Failure Effect Nat,
    (system IntentStore.Sample.externals).Run (World.initial, fun _ => none) c ∧
      (system IntentStore.Sample.externals).Run c c' ∧
      status c.1.db ("req", .apply) = some 204 ∧ status c'.1.db ("req", .apply) = none := by
  obtain ⟨⟨w, w'⟩, hw, hstatus⟩ := Option.map_eq_some_iff.mp Sample.overtaken_status
  obtain ⟨hbefore, hafter⟩ := Prod.mk.inj hstatus
  obtain ⟨pool, pool', hrun, hrun'⟩ := Sample.run_overtaken hw
  exact ⟨(w, pool), (w', pool'), hrun, hrun', hbefore, hafter⟩

end PlatformGitops.CrossAi.PostedStatus
