import PlatformGitops.LiveAnalysis.Promote
import Mathlib

/-! Which steps of a promotion follow a step that may still be running on the host. -/

namespace PlatformGitops.LiveAnalysis

open Library

variable {X : Externals} {α β : Type}

def Outcome.isTimeout : Outcome → Bool
  | timeout => true
  | _ => false

/-- The step changes the host, and nobody knows whether it still does. -/
def Attempt.unknown (a : Attempt) : Bool := a.step.mutates && a.outcome.isTimeout

/-- No step changes the host once an earlier one was left unknown. -/
def Orderly (l : List Attempt) : Prop := l.Pairwise fun a b => a.unknown = true → b.step.mutates = false

/-- The steps ended with those of an acceptance of the source that succeeded. -/
def AcceptedLast (X : Externals) (source : String) (w : List Attempt) : Prop :=
  ∃ before evidence ready, Exec (outside X) () (accept X source) before w (.ok ready) ∧
    w = before ++ [⟨.rollout source, .success evidence⟩, ⟨.remote (.ready source), .success ready⟩]

instance : DecidablePred Orderly := fun l => inferInstanceAs (Decidable (l.Pairwise _))

/-- What is asked of a promotion that attempted these steps and ended so. -/
structure SafeRun (X : Externals) (w : List Attempt) (out : Except Fault Report) : Prop where
  orderly : Orderly w
  accepted : ∀ report, out = .ok report → report.runtimeAccepted = true → AcceptedLast X target w
  fenced : ∀ report, out = .ok report → (∃ a ∈ w, a.step.mutates = true) →
    AcceptedLast X target w ∨ AcceptedLast X base w ∨ w.getLast?.map (·.step) = some (.remote .fence)

/-- The full rollout of the target timed out. -/
def RolloutUnknown (w : List Attempt) : Prop := ∃ a ∈ w, a.step = .rollout target ∧ a.outcome.isTimeout = true

/-- The read of the head of the host answered with one of the two approved sources. -/
def HeadApproved (w : List Attempt) : Prop :=
  ∃ a ∈ w, a.step = .remote .readHead ∧
    ∃ record source, a.outcome = .success record ∧ subscript record "source" = .ok (.str source) ∧
      (source = base ∨ source = target)

/-- How the outcome of a step shows in what its call returns. -/
def Shows (o : Outcome) (r : Except Fault Json) : Prop :=
  match o with
  | .success record => r = .ok record
  | .rejection => ∃ fault, r = .error fault
  | .timeout => ∃ message, r = .error (.timeoutExpired message)

/-- The program added steps of which this holds, beside its result. -/
def Adds (w : List Attempt) (Q : List Attempt → Except Fault α → Prop) (r : Except Fault α) (w' : List Attempt) : Prop :=
  ∃ l, w' = w ++ l ∧ Q l r

abbrev Does (X : Externals) (p : Action α) (Q : Except Fault α → List Attempt → Prop) (w : List Attempt) : Prop :=
  Guarded (outside X) () (fun _ => True) p Q w

variable {w w' : List Attempt}

lemma shows_remote (r : Except Fault Completed) :
    Shows (outcomeOf (remoteRecord X) r) (r.bind (remoteRecord X)) := by
  rcases r with (_ | _ | _) | result
  · exact ⟨_, rfl⟩
  · exact ⟨_, rfl⟩
  · exact ⟨_, rfl⟩
  · cases hread : remoteRecord X result with
    | ok record => simp [outcomeOf, Shows, hread, Except.bind]
    | error fault => simp [outcomeOf, Shows, hread, Except.bind]

lemma Shows.success {o : Outcome} {record : Json} (h : Shows o (.ok record)) : o = .success record := by
  cases o with
  | success record =>
    cases h
    rfl
  | rejection =>
    obtain ⟨_, hfault⟩ := h
    cases hfault
  | timeout =>
    obtain ⟨_, hfault⟩ := h
    cases hfault

lemma remote_does {script : Script} {timeout : Nat} :
    Does X (remote X script timeout) (Adds w fun l r => ∃ o, l = [⟨.remote script, o⟩] ∧ Shows o r) w := by
  refine guarded_bind (Q := fun r w' => w' = w ++ [⟨.remote script, outcomeOf (remoteRecord X) r⟩])
    (guarded_perform ?_) ?_ ?_
  · intro w' r hans
    exact ⟨trivial, hans⟩
  · rintro result w' rfl
    exact guarded_ofExcept ⟨_, rfl, _, rfl, shows_remote (.ok result)⟩
  · rintro fault w' rfl
    exact ⟨_, rfl, _, rfl, shows_remote (.error fault)⟩

/-- A call that is no step on the host. -/
lemma silent_does {e : Effect α} (h : ∀ w' r, (outside X).answer () e w w' r → w' = w) :
    Does X (Prog.perform e) (Adds w fun l _ => l = []) w :=
  guarded_perform fun w' r hans => ⟨trivial, [], by rw [h w' r hans, List.append_nil], rfl⟩

lemma ofExcept_does {r : Except Fault α} : Does X (Prog.ofExcept r) (Adds w fun l r' => l = [] ∧ r' = r) w :=
  guarded_ofExcept ⟨[], by simp, rfl, rfl⟩

/-- Steps of one kind, none after one that was left unknown, which its timeout ends. -/
structure Prompt (P : Step → Prop) (l : List Attempt) (r : Except Fault α) : Prop where
  steps : ∀ a ∈ l, P a.step
  orderly : Orderly l
  raised : ∀ a ∈ l, a.unknown = true → ∃ message, r = .error (.timeoutExpired message)

variable {P : Step → Prop}

lemma Prompt.nil {r : Except Fault α} : Prompt P [] r :=
  ⟨by simp, .nil, by simp⟩

lemma Prompt.known {l : List Attempt} {a : α} (h : Prompt P l (.ok a)) : ∀ b ∈ l, b.unknown = false := by
  intro b hb
  by_contra hunknown
  obtain ⟨_, hr⟩ := h.raised b hb (by simpa using hunknown)
  cases hr

lemma orderly_append {l m : List Attempt} (hl : ∀ a ∈ l, a.unknown = false) :
    Orderly (l ++ m) ↔ Orderly m := by
  rw [Orderly, List.pairwise_append]
  constructor
  · rintro ⟨-, hm, -⟩
    exact hm
  · intro hm
    refine ⟨List.pairwise_of_forall_mem_list fun a ha b _ hunknown => ?_, hm, fun a ha b _ hunknown => ?_⟩
    · rw [hl a ha] at hunknown
      cases hunknown
    · rw [hl a ha] at hunknown
      cases hunknown

lemma prompt_bind {p : Action α} {f : α → Action β} (hp : Does X p (Adds w (Prompt P)) w)
    (hf : ∀ a w, Does X (f a) (Adds w (Prompt P)) w) : Does X (p >>= f) (Adds w (Prompt P)) w := by
  refine guarded_bind hp ?_ ?_
  · rintro a w' ⟨l, rfl, hl⟩
    refine guarded_mono (hf a _) ?_
    rintro r w'' ⟨m, rfl, hm⟩
    refine ⟨l ++ m, by rw [List.append_assoc], ?_, (orderly_append hl.known).mpr hm.orderly, ?_⟩
    · intro b hb
      rcases List.mem_append.mp hb with hb | hb
      · exact hl.steps b hb
      · exact hm.steps b hb
    · intro b hb hunknown
      rcases List.mem_append.mp hb with hb | hb
      · rw [hl.known b hb] at hunknown
        cases hunknown
      · exact hm.raised b hb hunknown
  · rintro fault w' ⟨l, rfl, hl⟩
    refine ⟨l, rfl, hl.steps, hl.orderly, fun b hb hunknown => ?_⟩
    obtain ⟨message, hr⟩ := hl.raised b hb hunknown
    cases hr
    exact ⟨message, rfl⟩

lemma prompt_remote {script : Script} {timeout : Nat} (h : P (.remote script)) :
    Does X (remote X script timeout) (Adds w (Prompt P)) w := by
  refine guarded_mono remote_does ?_
  rintro r w' ⟨_, rfl, o, rfl, hshows⟩
  refine ⟨_, rfl, by simpa using h, List.pairwise_singleton .., ?_⟩
  intro a ha hunknown
  obtain rfl := List.mem_singleton.mp ha
  have htimeout : o.isTimeout = true := by
    rw [Attempt.unknown, Bool.and_eq_true] at hunknown
    exact hunknown.2
  cases o with
  | timeout => exact hshows
  | success record => cases htimeout
  | rejection => cases htimeout

lemma prompt_silent {e : Effect α} (h : ∀ w w' r, (outside X).answer () e w w' r → w' = w) :
    Does X (Prog.perform e) (Adds w (Prompt P)) w := by
  refine guarded_mono (silent_does (h w)) ?_
  rintro r w' ⟨_, rfl, rfl⟩
  exact ⟨[], rfl, .nil⟩

lemma prompt_ofExcept {r : Except Fault α} : Does X (Prog.ofExcept r) (Adds w (Prompt P)) w :=
  guarded_ofExcept ⟨[], by simp, .nil⟩

/-- The steps of a staging and of an activation. -/
def Staging : Step → Prop
  | .remote script => script ≠ .readHead
  | .rollout _ => False

lemma prompt_issuePermit : Does X issuePermit (Adds w (Prompt P)) w := by
  refine prompt_bind (prompt_silent fun _ _ _ hans => hans) fun names w => ?_
  cases names with
  | none => exact guarded_pure ⟨[], by simp, .nil⟩
  | some names => exact guarded_fail ⟨[], by simp, .nil⟩

lemma prompt_activate {source : String} {job : Job} {producer : String} :
    Does X (activate X source job producer) (Adds w (Prompt Staging)) w := by
  refine prompt_bind (prompt_remote (by simp [Staging])) fun _ w => ?_
  refine prompt_bind prompt_issuePermit fun _ w => ?_
  refine prompt_bind (prompt_silent fun _ _ _ hans => hans) fun data w => ?_
  refine prompt_bind prompt_ofExcept fun _ w => ?_
  refine prompt_bind (prompt_silent fun _ _ _ hans => hans) fun rootBytes w => ?_
  exact prompt_remote (by simp [Staging])

lemma prompt_stage {job : Job} {producer : String} :
    Does X (stage X job producer) (Adds w (Prompt Staging)) w := by
  refine prompt_bind (prompt_remote (by simp [Staging])) fun _ w => ?_
  refine prompt_bind (prompt_remote (by simp [Staging])) fun _ w => ?_
  exact prompt_activate

lemma prompt_restage {job : Job} {producer source : String} :
    Does X (restage X job producer source) (Adds w (Prompt Staging)) w := by
  refine prompt_bind (prompt_remote (by simp [Staging])) fun _ w => ?_
  refine prompt_bind (prompt_remote (by simp [Staging])) fun _ w => ?_
  exact prompt_activate

/-- The steps of an acceptance, and what they say of its result. -/
inductive Acceptance (source : String) : List Attempt → Except Fault Json → Prop
  | none {fault : Fault} : Acceptance source [] (.error fault)
  | rejected {o : Outcome} {fault : Fault} : Acceptance source [⟨.rollout source, o⟩] (.error fault)
  | unready {evidence : Json} {o : Outcome} {fault : Fault} :
      Acceptance source [⟨.rollout source, .success evidence⟩, ⟨.remote (.ready source), o⟩] (.error fault)
  | ready {evidence record : Json} :
      Acceptance source [⟨.rollout source, .success evidence⟩, ⟨.remote (.ready source), .success record⟩] (.ok record)

lemma runRollout_does {source : String} {recover : Bool} {timeout : Nat} :
    Does X (runRollout X source recover timeout)
      (Adds w fun l r => ∃ result, l = [⟨.rollout source, outcomeOf (goEvidence X) result⟩] ∧
        ∀ code evidence, r = .ok (code, evidence) → ∃ ended, result = .ok ended ∧ ended.returnCode = code ∧
          parseEvidence X ended = .ok evidence) w := by
  refine guarded_attempt (Q := fun r w' => w' = w ++ [⟨.rollout source, outcomeOf (goEvidence X) r⟩])
    (guarded_perform ?_) ?_
  · intro w' r hans
    exact ⟨trivial, hans⟩
  · rintro r w' rfl
    rcases r with (_ | _ | _) | result
    · exact guarded_fail ⟨_, rfl, _, rfl, by simp⟩
    · exact guarded_fail ⟨_, rfl, _, rfl, by simp⟩
    · exact guarded_fail ⟨_, rfl, _, rfl, by simp⟩
    · cases hparse : parseEvidence X result with
      | error fault =>
        simp only [hparse]
        exact guarded_fail ⟨_, rfl, _, rfl, by simp⟩
      | ok evidence =>
        simp only [hparse]
        refine guarded_pure ⟨_, rfl, _, rfl, ?_⟩
        rintro code evidence' hresult
        cases hresult
        exact ⟨result, rfl, rfl, hparse⟩

lemma silent_then {e : Effect α} {f : α → Action β} {Q : List Attempt → Except Fault β → Prop}
    (h : ∀ w' r, (outside X).answer () e w w' r → w' = w) (hf : ∀ a, Does X (f a) (Adds w Q) w)
    (hfault : ∀ fault, Q [] (.error fault)) : Does X (Prog.perform e >>= f) (Adds w Q) w := by
  refine guarded_bind (silent_does h) ?_ ?_
  · rintro a w' ⟨_, rfl, rfl⟩
    rw [List.append_nil]
    exact hf a
  · rintro fault w' ⟨_, rfl, rfl⟩
    exact ⟨[], rfl, hfault fault⟩

lemma ofExcept_then {r : Except Fault α} {f : α → Action β} {Q : Except Fault β → List Attempt → Prop}
    (hf : ∀ a, r = .ok a → Does X (f a) Q w) (hfault : ∀ fault, r = .error fault → Q (.error fault) w) :
    Does X (Prog.ofExcept r >>= f) Q w := by
  cases r with
  | ok a => exact hf a rfl
  | error fault => exact hfault fault rfl

lemma require_eq_ok {condition : Prop} [Decidable condition] {fault : Fault} {u : Unit} :
    require condition fault = .ok u ↔ condition := by
  rw [require]
  split_ifs with h <;> simp [h]

lemma rolloutFailure_code {source : String} {fault : Fault} {code : Int} {evidence : Json}
    (h : rolloutFailure source fault = .ok (code, evidence)) : code = 1 := by
  unfold rolloutFailure at h
  split at h
  · cases h
    rfl
  · rcases fault with message | names | ⟨_ | _ | _ | _ | _, errorClass, message⟩ <;> cases h <;> rfl

/-- The rollout accepts only what its evidence shows. -/
lemma rolloutMain_does {source sshConfig knownHosts : String} :
    Does X (rolloutMain X source sshConfig knownHosts)
      (Adds w fun l r => (l = [] ∧ ∃ fault, r = .error fault) ∨ ∃ o, l = [⟨.rollout source, o⟩] ∧
        (r = .ok 0 → ∃ evidence, o = .success evidence)) w := by
  refine silent_then (fun _ _ hans => hans) (fun config => ?_) fun fault => .inl ⟨rfl, fault, rfl⟩
  refine ofExcept_then (fun _ _ => ?_) fun fault _ => ⟨[], by simp, .inl ⟨rfl, fault, rfl⟩⟩
  refine silent_then (fun _ _ hans => hans) (fun hosts => ?_) fun fault => .inl ⟨rfl, fault, rfl⟩
  refine ofExcept_then (fun _ _ => ?_) fun fault _ => ⟨[], by simp, .inl ⟨rfl, fault, rfl⟩⟩
  refine guarded_attempt runRollout_does ?_
  rintro r _ ⟨_, rfl, result, rfl, hresult⟩
  refine ofExcept_then ?_ fun fault _ => ⟨_, rfl, .inr ⟨_, rfl, by simp⟩⟩
  rintro ⟨code, evidence⟩ hended
  refine guarded_bind (silent_does fun _ _ hans => hans) ?_ ?_
  · rintro _ _ ⟨_, rfl, rfl⟩
    refine guarded_pure ⟨_, by rw [List.append_nil], .inr ⟨_, rfl, fun haccepted => ?_⟩⟩
    have hgo : code = 0 ∧ (evidence.get "status").asStr? = some "go" := by
      by_contra hnot
      simp [hnot] at haccepted
    cases r with
    | error fault =>
      have hcode : code = 1 := rolloutFailure_code hended
      omega
    | ok ended =>
      obtain rfl : ended = (code, evidence) := by simpa [tryCatch, tryCatchThe, MonadExceptOf.tryCatch, Except.tryCatch]
        using hended
      obtain ⟨process, rfl, hcode, hparse⟩ := hresult code evidence rfl
      refine ⟨evidence, ?_⟩
      simp [outcomeOf, goEvidence, hparse, Except.bind, hcode, hgo]
  · rintro fault _ ⟨_, rfl, rfl⟩
    exact ⟨_, by rw [List.append_nil], .inr ⟨_, rfl, by simp⟩⟩

lemma accept_does {source : String} : Does X (accept X source) (Adds w (Acceptance source)) w := by
  refine silent_then (fun _ _ hans => hans) ?_ fun _ => .none
  rintro ⟨config, hosts⟩
  refine guarded_bind rolloutMain_does ?_ ?_
  · rintro code _ ⟨_, rfl, ⟨-, fault, hfault⟩ | ⟨o, rfl, hsuccess⟩⟩
    · cases hfault
    · refine ofExcept_then (fun _ hzero => ?_) fun fault _ => ⟨_, rfl, .rejected⟩
      obtain rfl := require_eq_ok.mp hzero
      obtain ⟨evidence, rfl⟩ := hsuccess rfl
      refine guarded_bind (silent_does fun _ _ hans => hans) ?_ ?_
      · rintro read _ ⟨_, rfl, rfl⟩
        rw [List.append_nil]
        refine ofExcept_then (fun _ _ => ?_) fun fault _ => ⟨_, rfl, .rejected⟩
        refine guarded_bind remote_does ?_ ?_
        · rintro ready _ ⟨_, rfl, o, rfl, hshows⟩
          obtain rfl := hshows.success
          refine ofExcept_then (fun _ _ => ?_) fun fault _ => ⟨_, List.append_assoc .., .unready⟩
          exact guarded_pure ⟨_, List.append_assoc .., .ready⟩
        · rintro fault _ ⟨_, rfl, o, rfl, -⟩
          exact ⟨_, List.append_assoc .., .unready⟩
      · rintro fault _ ⟨_, rfl, rfl⟩
        exact ⟨_, by rw [List.append_nil], .rejected⟩
  · rintro fault _ ⟨_, rfl, ⟨rfl, -⟩ | ⟨o, rfl, -⟩⟩
    · exact ⟨_, rfl, .none⟩
    · exact ⟨_, rfl, .rejected⟩

lemma Acceptance.orderly {source : String} {l : List Attempt} {r : Except Fault Json} (h : Acceptance source l r) :
    Orderly l := by
  cases h with
  | none => exact .nil
  | rejected => exact List.pairwise_singleton ..
  | unready => simp [Orderly, Step.mutates]
  | ready => simp [Orderly, Step.mutates]

lemma Acceptance.steps {source : String} {l : List Attempt} {r : Except Fault Json} (h : Acceptance source l r) :
    ∀ a ∈ l, a.step = .rollout source ∨ a.step = .remote (.ready source) := by
  cases h <;> simp

lemma Acceptance.unknown {source : String} {l : List Attempt} {r : Except Fault Json} (h : Acceptance source l r) :
    ∀ a ∈ l, a.unknown = true → a.step = .rollout source ∧ a.outcome.isTimeout = true ∧ ∃ fault, r = .error fault := by
  cases h <;> simp [Attempt.unknown, Step.mutates, Outcome.isTimeout]

/-- What the attempt to put a source in place leaves, with the result of its acceptance. -/
structure Replaced (X : Externals) (source : String) (w l : List Attempt) (r : Except Fault Json) : Prop where
  orderly : Orderly l
  unread : ∀ a ∈ l, a.step ≠ .remote .readHead
  rollout : ∀ a ∈ l, ∀ other, a.step = .rollout other → other = source
  accepted : ∀ ready, r = .ok ready → AcceptedLast X source (w ++ l)
  unknown : ∀ a ∈ l, a.unknown = true →
    (a.step = .rollout source ∧ a.outcome.isTimeout = true) ∨ ∃ message, r = .error (.timeoutExpired message)

lemma Staging.unread {step : Step} (h : Staging step) : step ≠ .remote .readHead := by
  rintro rfl
  exact h rfl

lemma Staging.not_rollout {step : Step} (h : Staging step) (source : String) : step ≠ .rollout source := by
  rintro rfl
  exact h

lemma Prompt.replaced {source : String} {l : List Attempt} {fault : Fault}
    (h : Prompt Staging l (.error fault : Except Fault Json)) : Replaced X source w l (.error fault) where
  orderly := h.orderly
  unread a ha := (h.steps a ha).unread
  rollout a ha other hstep := absurd hstep ((h.steps a ha).not_rollout other)
  accepted _ hr := by cases hr
  unknown a ha hunknown := .inr (h.raised a ha hunknown)

lemma Prompt.accepted {source : String} {l m : List Attempt} {a : Json} {r : Except Fault Json}
    (h : Prompt Staging l (.ok a)) (hm : Acceptance source m r)
    (hexec : Exec (outside X) () (accept X source) (w ++ l) (w ++ (l ++ m)) r) :
    Replaced X source w (l ++ m) r where
  orderly := (orderly_append h.known).mpr hm.orderly
  unread b hb := by
    rcases List.mem_append.mp hb with hb | hb
    · exact (h.steps b hb).unread
    · rcases hm.steps b hb with hstep | hstep <;> simp [hstep]
  rollout b hb other hother := by
    rcases List.mem_append.mp hb with hb | hb
    · exact absurd hother ((h.steps b hb).not_rollout other)
    · rcases hm.steps b hb with hstep | hstep
      · cases hstep.symm.trans hother
        rfl
      · cases hstep.symm.trans hother
  accepted ready hr := by
    subst hr
    cases hm with
    | ready => exact ⟨w ++ l, _, ready, hexec, by rw [List.append_assoc]⟩
  unknown b hb hunknown := by
    rcases List.mem_append.mp hb with hb | hb
    · rw [h.known b hb] at hunknown
      cases hunknown
    · obtain ⟨hstep, htimeout, -⟩ := hm.unknown b hb hunknown
      exact .inl ⟨hstep, htimeout⟩

/-- The part of the report that the work on the target fills in. -/
def Filled (report report' : Report) : Option Fault → Prop
  | none => report'.runtimeAccepted = true
  | some _ => report'.runtimeAccepted = report.runtimeAccepted

def Ended (result : Except Fault Json) (fault? : Option Fault) : Prop :=
  match result with
  | .ok _ => fault? = none
  | .error fault => fault? = some fault

lemma candidate_does {job : Job} {producer : String} {report : Report} :
    Does X (candidate X job producer report) (fun r w' => ∃ l report' fault? result, w' = w ++ l ∧
      r = .ok (report', fault?) ∧ Replaced X target w l result ∧ Filled report report' fault? ∧
        Ended result fault?) w := by
  refine guarded_attempt prompt_stage ?_
  rintro (fault | activation) _ ⟨l, rfl, hl⟩
  · exact guarded_pure ⟨l, _, _, _, rfl, rfl, hl.replaced, rfl, rfl⟩
  · refine guarded_attempt (guarded_run accept_does) ?_
    rintro (fault | ready) _ ⟨hexec, m, rfl, hm⟩
    · rw [List.append_assoc] at hexec
      exact guarded_pure ⟨l ++ m, _, _, _, List.append_assoc .., rfl, hl.accepted hm hexec, rfl, rfl⟩
    · rw [List.append_assoc] at hexec
      exact guarded_pure ⟨l ++ m, _, _, _, List.append_assoc .., rfl, hl.accepted hm hexec, rfl, rfl⟩

lemma restage_changes {job : Job} {producer source : String} :
    Does X (restage X job producer source) (Adds w fun l _ => ∃ a ∈ l, a.step.mutates = true) w := by
  refine guarded_bind remote_does ?_ ?_
  · rintro _ _ ⟨_, rfl, o, rfl, -⟩
    refine guarded_mono (prompt_bind (prompt_remote (by simp [Staging])) fun _ _ => prompt_activate) ?_
    rintro r _ ⟨m, rfl, -⟩
    exact ⟨_, List.append_assoc .., _, List.mem_append_left _ (List.mem_singleton.mpr rfl), rfl⟩
  · rintro fault _ ⟨_, rfl, o, rfl, -⟩
    exact ⟨_, rfl, _, List.mem_singleton.mpr rfl, rfl⟩

lemma restage_does {job : Job} {producer source : String} :
    Does X (restage X job producer source)
      (Adds w fun l r => Prompt Staging l r ∧ ∃ a ∈ l, a.step.mutates = true) w := by
  refine guarded_mono (guarded_weaken (guarded_and prompt_restage restage_changes) fun _ _ => trivial) ?_
  rintro r _ ⟨⟨l, rfl, hl⟩, m, hm, hchanges⟩
  obtain rfl := List.append_cancel_left hm
  exact ⟨l, rfl, hl, hchanges⟩

/-- What a compensation leaves. -/
structure Compensated (X : Externals) (w l : List Attempt) (r : Except Fault Json) : Prop where
  orderly : Orderly l
  changed : (∃ a ∈ l, a.step.mutates = true) ↔ HeadApproved l
  rollout : ∀ a ∈ l, a.step ≠ .rollout target
  accepted : ∀ ready, r = .ok ready → AcceptedLast X base (w ++ l)

lemma header_eq_ok {value : Json} {source : String} :
    header value = .ok source ↔ value = .str source ∧ (source = base ∨ source = target) := by
  cases value with
  | str s =>
    rw [header]
    split_ifs with h
    · constructor
      · rintro ⟨⟩
        exact ⟨rfl, h⟩
      · rintro ⟨⟨⟩, -⟩
        rfl
    · constructor
      · rintro ⟨⟩
      · rintro ⟨⟨⟩, hsource⟩
        exact absurd hsource h
  | _ => simp [header]

/-- A compensation that did not come past the head of the host. -/
lemma compensated_unread {o : Outcome} {fault : Fault}
    (h : ∀ record source, o = .success record → (subscript record "source").bind header ≠ .ok source) :
    Compensated X w [⟨.remote .readHead, o⟩] (.error fault) where
  orderly := List.pairwise_singleton ..
  changed := by
    constructor
    · rintro ⟨a, ha, hmutates⟩
      obtain rfl := List.mem_singleton.mp ha
      cases hmutates
    · rintro ⟨a, ha, -, record, source, hrecord, hsource, happroved⟩
      obtain rfl := List.mem_singleton.mp ha
      refine absurd ?_ (h record source hrecord)
      rw [hsource]
      exact header_eq_ok.mpr ⟨rfl, happroved⟩
  rollout a ha := by
    obtain rfl := List.mem_singleton.mp ha
    simp
  accepted _ hr := by cases hr

lemma orderly_cons {a : Attempt} {l : List Attempt} (ha : a.unknown = false) : Orderly (a :: l) ↔ Orderly l :=
  orderly_append (l := [a]) (by simpa using ha)

lemma Replaced.compensated {record : Json} {source : String} {l : List Attempt} {r : Except Fault Json}
    (h : Replaced X base (w ++ [⟨.remote .readHead, .success record⟩]) l r)
    (hsource : (subscript record "source").bind header = .ok source) (hchanges : ∃ a ∈ l, a.step.mutates = true) :
    Compensated X w (⟨.remote .readHead, .success record⟩ :: l) r where
  orderly := (orderly_cons rfl).mpr h.orderly
  changed := by
    constructor
    · intro _
      cases hread : subscript record "source" with
      | error fault =>
        rw [hread] at hsource
        cases hsource
      | ok value =>
        rw [hread] at hsource
        obtain ⟨rfl, happroved⟩ := header_eq_ok.mp hsource
        exact ⟨_, List.mem_cons_self, rfl, record, source, rfl, hread, happroved⟩
    · rintro -
      obtain ⟨a, ha, hmutates⟩ := hchanges
      exact ⟨a, List.mem_cons_of_mem _ ha, hmutates⟩
  rollout a ha hstep := by
    rcases List.mem_cons.mp ha with rfl | ha
    · cases hstep
    · exact absurd (h.rollout a ha target hstep) (by decide)
  accepted ready hr := by simpa using h.accepted ready hr

lemma compensate_does {job : Job} {producer : String} :
    Does X (compensate X job producer) (Adds w (Compensated X w)) w := by
  refine guarded_bind remote_does ?_ ?_
  · rintro record _ ⟨_, rfl, o, rfl, hshows⟩
    obtain rfl := hshows.success
    refine ofExcept_then (fun source hsource => ?_) fun fault hfault => ⟨_, rfl, compensated_unread ?_⟩
    · refine guarded_bind restage_does ?_ ?_
      · rintro _ _ ⟨l, rfl, hl, hchanges⟩
        refine guarded_mono (guarded_run accept_does) ?_
        rintro r _ ⟨hexec, m, rfl, hm⟩
        rw [List.append_assoc (w ++ _) l m] at hexec
        refine ⟨_ :: (l ++ m), by simp, (hl.accepted hm hexec).compensated hsource ?_⟩
        obtain ⟨a, ha, hmutates⟩ := hchanges
        exact ⟨a, List.mem_append_left _ ha, hmutates⟩
      · rintro fault _ ⟨l, rfl, hl, hchanges⟩
        exact ⟨_ :: l, by simp, hl.replaced.compensated hsource hchanges⟩
    · rintro _ source ⟨⟩ hsource
      cases hfault.symm.trans hsource
  · rintro fault _ ⟨_, rfl, o, rfl, hshows⟩
    refine ⟨_, rfl, compensated_unread ?_⟩
    rintro record _ rfl
    cases hshows

/-- What the work inside of the temporary directory leaves. -/
structure Promoted (X : Externals) (w l : List Attempt) (progress : Progress) : Prop where
  orderly : Orderly l ↔ ¬ (RolloutUnknown l ∧ HeadApproved l)
  accepted : progress.report.runtimeAccepted = true → progress.mutated = false ∧ AcceptedLast X target (w ++ l)
  settled : progress.mutated = false → (∀ a ∈ l, a.step.mutates = false) ∨ AcceptedLast X target (w ++ l) ∨
    AcceptedLast X base (w ++ l)

lemma Replaced.not_headApproved {source : String} {l : List Attempt} {r : Except Fault Json}
    (h : Replaced X source w l r) : ¬ HeadApproved l := by
  rintro ⟨a, ha, hstep, -⟩
  exact h.unread a ha hstep

/-- Without a compensation nothing follows a step that was left unknown. -/
lemma Replaced.promoted {l : List Attempt} {r : Except Fault Json} {report : Report} {fault? : Option Fault}
    (h : Replaced X target w l r) (hreport : report.runtimeAccepted = false) :
    Promoted X w l ⟨report, true, fault?⟩ where
  orderly := iff_of_true h.orderly fun hraced => h.not_headApproved hraced.2
  accepted haccepted := by
    rw [hreport] at haccepted
    cases haccepted
  settled hmutated := by cases hmutated

lemma orderly_compensated {l k : List Attempt} {fault : Fault} {r : Except Fault Json}
    (hl : Replaced X target w l (.error fault)) (hfault : ∀ message, fault ≠ .timeoutExpired message)
    (hk : Compensated X (w ++ l) k r) :
    Orderly (l ++ k) ↔ ¬ (RolloutUnknown (l ++ k) ∧ HeadApproved (l ++ k)) := by
  have hunknown : RolloutUnknown (l ++ k) ↔ ∃ a ∈ l, a.unknown = true := by
    constructor
    · rintro ⟨a, ha, hstep, htimeout⟩
      rcases List.mem_append.mp ha with ha | ha
      · exact ⟨a, ha, by simp [Attempt.unknown, hstep, htimeout, Step.mutates]⟩
      · exact absurd hstep (hk.rollout a ha)
    · rintro ⟨a, ha, hunknown⟩
      rcases hl.unknown a ha hunknown with ⟨hstep, htimeout⟩ | ⟨message, hr⟩
      · exact ⟨a, List.mem_append_left _ ha, hstep, htimeout⟩
      · cases hr
        exact absurd rfl (hfault message)
  have happroved : HeadApproved (l ++ k) ↔ ∃ a ∈ k, a.step.mutates = true := by
    rw [hk.changed]
    constructor
    · rintro ⟨a, ha, hstep, hrecord⟩
      rcases List.mem_append.mp ha with ha | ha
      · exact absurd hstep (hl.unread a ha)
      · exact ⟨a, ha, hstep, hrecord⟩
    · rintro ⟨a, ha, hread⟩
      exact ⟨a, List.mem_append_right _ ha, hread⟩
  rw [hunknown, happroved, Orderly, List.pairwise_append]
  constructor
  · rintro ⟨-, -, horder⟩ ⟨⟨a, ha, hunknown⟩, b, hb, hmutates⟩
    rw [horder a ha b hb hunknown] at hmutates
    cases hmutates
  · intro hnone
    refine ⟨hl.orderly, hk.orderly, fun a ha b hb hunknown => ?_⟩
    by_contra hmutates
    exact hnone ⟨⟨a, ha, hunknown⟩, b, hb, by simpa using hmutates⟩

/-- The ceremony's answer after the compensation. -/
def compensated (report : Report) : Except Fault Json → Progress
  | .error fault => ⟨report, true, some fault⟩
  | .ok ready =>
    ⟨{ report with rollback := some ready, status := some "candidate-rejected-baseline-reaccepted" }, false, none⟩

lemma handle_eq {job : Job} {producer : String} {report : Report} {fault : Fault}
    (hfault : ∀ message, fault ≠ .timeoutExpired message) :
    handle X job producer report fault =
      ((compensate X job producer).attempt >>= fun answer => pure (compensated report answer)) := by
  cases fault with
  | timeoutExpired message => exact absurd rfl (hfault message)
  | ceremonyRejected names =>
    refine bind_congr fun answer => ?_
    cases answer <;> rfl
  | raised kind errorClass message =>
    refine bind_congr fun answer => ?_
    cases answer <;> rfl

lemma handle_does {job : Job} {producer : String} {report : Report} {fault : Fault} {l : List Attempt}
    (hl : Replaced X target w l (.error fault)) (hreport : report.runtimeAccepted = false) :
    Does X (handle X job producer report fault)
      (fun r w' => ∃ m progress, w' = w ++ m ∧ r = .ok progress ∧ Promoted X w m progress) (w ++ l) := by
  have hcompensate (hfault : ∀ message, fault ≠ .timeoutExpired message) :
      Does X ((compensate X job producer).attempt >>= fun answer => pure (compensated report answer))
        (fun r w' => ∃ m progress, w' = w ++ m ∧ r = .ok progress ∧ Promoted X w m progress) (w ++ l) := by
    refine guarded_attempt compensate_does ?_
    rintro (fault' | ready) _ ⟨k, rfl, hk⟩
    · refine guarded_pure ⟨l ++ k, _, List.append_assoc .., rfl, orderly_compensated hl hfault hk, ?_, ?_⟩
      · intro haccepted
        exact absurd haccepted (by simp [compensated, hreport])
      · rintro ⟨⟩
    · refine guarded_pure ⟨l ++ k, _, List.append_assoc .., rfl, orderly_compensated hl hfault hk, ?_, ?_⟩
      · intro haccepted
        exact absurd haccepted (by simp [compensated, hreport])
      · intro _
        have haccepted := hk.accepted ready rfl
        rw [List.append_assoc] at haccepted
        exact .inr (.inr haccepted)
  cases fault with
  | timeoutExpired message => exact guarded_pure ⟨l, _, rfl, rfl, hl.promoted hreport⟩
  | ceremonyRejected names =>
    rw [handle_eq (by simp)]
    exact hcompensate (by simp)
  | raised kind errorClass message =>
    rw [handle_eq (by simp)]
    exact hcompensate (by simp)

lemma promote_does {job : Job} {producer : String} {report : Report} (hreport : report.runtimeAccepted = false) :
    Does X (promote X job producer report)
      (fun r w' => ∃ m progress, w' = w ++ m ∧ r = .ok progress ∧ Promoted X w m progress) w := by
  refine guarded_bind candidate_does ?_ ?_
  · rintro _ _ ⟨l, report', fault?, result, rfl, ⟨⟩, hl, hfilled, hended⟩
    cases result with
    | ok ready =>
      obtain rfl : fault? = none := hended
      refine guarded_pure ⟨l, _, rfl, rfl, ?_, ?_, ?_⟩
      · exact iff_of_true hl.orderly fun hraced => hl.not_headApproved hraced.2
      · exact fun _ => ⟨rfl, hl.accepted ready rfl⟩
      · exact fun _ => .inr (.inl (hl.accepted ready rfl))
    | error fault =>
      obtain rfl : fault? = some fault := hended
      have hunaccepted : report'.runtimeAccepted = false := hfilled.trans hreport
      by_cases hexception : fault.isException = true
      · simp only [hexception, if_true]
        exact handle_does hl hunaccepted
      · simp only [hexception]
        exact guarded_pure ⟨l, _, rfl, rfl, hl.promoted hunaccepted⟩
  · rintro fault _ ⟨_, _, _, _, _, ⟨⟩, _⟩

/-- A step that leaves the host as it is and does not read its head. -/
def Quiet (a : Attempt) : Prop := a.step.mutates = false ∧ a.step ≠ .remote .readHead

lemma Quiet.known {a : Attempt} (h : Quiet a) : a.unknown = false := by
  simp [Attempt.unknown, h.1]

lemma Quiet.not_rollout {a : Attempt} (h : Quiet a) : a.step ≠ .rollout target := by
  intro hstep
  have hmutates := h.1
  rw [hstep] at hmutates
  cases hmutates

lemma orderly_quiet {l f : List Attempt} (hf : ∀ a ∈ f, Quiet a) : Orderly (l ++ f) ↔ Orderly l := by
  rw [Orderly, List.pairwise_append]
  constructor
  · rintro ⟨hl, -, -⟩
    exact hl
  · intro hl
    have hafter : ∀ a : Attempt, ∀ b ∈ f, a.unknown = true → b.step.mutates = false := fun a b hb _ => (hf b hb).1
    exact ⟨hl, List.pairwise_of_forall_mem_list fun a _ b hb => hafter a b hb, fun a _ b hb => hafter a b hb⟩

lemma exists_mem_quiet {Q : Attempt → Prop} {w l f : List Attempt} (hw : ∀ a ∈ w, ¬ Q a) (hf : ∀ a ∈ f, ¬ Q a) :
    (∃ a ∈ w ++ l ++ f, Q a) ↔ ∃ a ∈ l, Q a := by
  constructor
  · rintro ⟨a, ha, hq⟩
    rcases List.mem_append.mp ha with ha | ha
    · rcases List.mem_append.mp ha with ha | ha
      · exact absurd hq (hw a ha)
      · exact ⟨a, ha, hq⟩
    · exact absurd hq (hf a ha)
  · rintro ⟨a, ha, hq⟩
    exact ⟨a, List.mem_append_left _ (List.mem_append_right _ ha), hq⟩

/-- The steps around the work on the host do not bear on its order. -/
lemma Promoted.orderly_iff {l f : List Attempt} {progress : Progress} (h : Promoted X w l progress)
    (hw : ∀ a ∈ w, Quiet a) (hf : ∀ a ∈ f, Quiet a) :
    Orderly (w ++ l ++ f) ↔ ¬ (RolloutUnknown (w ++ l ++ f) ∧ HeadApproved (w ++ l ++ f)) := by
  have hrollout : RolloutUnknown (w ++ l ++ f) ↔ RolloutUnknown l :=
    exists_mem_quiet (fun a ha hq => (hw a ha).not_rollout hq.1) fun a ha hq => (hf a ha).not_rollout hq.1
  have hread : HeadApproved (w ++ l ++ f) ↔ HeadApproved l :=
    exists_mem_quiet (fun a ha hq => (hw a ha).2 hq.1) fun a ha hq => (hf a ha).2 hq.1
  rw [hrollout, hread, orderly_quiet hf, orderly_append fun a ha => (hw a ha).known]
  exact h.orderly

/-- The run is safe exactly if it keeps its steps in order, and otherwise as it should be. -/
def Judged (X : Externals) (w : List Attempt) (out : Except Fault Report) : Prop :=
  SafeRun X w out ↔ ¬ (RolloutUnknown w ∧ HeadApproved w)

/-- The reports of a promotion that end it without a fence. -/
lemma Promoted.judged {l : List Attempt} {progress : Progress} {report : Report} (h : Promoted X w l progress)
    (hw : ∀ a ∈ w, Quiet a) (hmutated : progress.mutated = false)
    (hreport : report.runtimeAccepted = progress.report.runtimeAccepted) {out : Except Fault Report}
    (hout : ∀ report', out = .ok report' → report' = report) : Judged X (w ++ l) out := by
  have horder := h.orderly_iff (f := []) hw (by simp)
  rw [List.append_nil] at horder
  constructor
  · exact fun hsafe => horder.mp hsafe.orderly
  · intro hcalm
    refine ⟨horder.mpr hcalm, ?_, ?_⟩
    · rintro report' hr haccepted
      obtain rfl := hout report' hr
      exact (h.accepted (hreport ▸ haccepted)).2
    · rintro report' hr ⟨a, ha, hmutates⟩
      rcases h.settled hmutated with hnone | haccepted | haccepted
      · rcases List.mem_append.mp ha with ha | ha
        · rw [(hw a ha).1] at hmutates
          cases hmutates
        · rw [hnone a ha] at hmutates
          cases hmutates
      · exact .inl haccepted
      · exact .inr (.inl haccepted)

lemma Promoted.fenced {l : List Attempt} {progress : Progress} {report : Report} (h : Promoted X w l progress)
    (hw : ∀ a ∈ w, Quiet a) (hmutated : progress.mutated = true)
    (hreport : report.runtimeAccepted = progress.report.runtimeAccepted) {o : Outcome} {out : Except Fault Report}
    (hout : ∀ report', out = .ok report' → report'.runtimeAccepted = report.runtimeAccepted) :
    Judged X (w ++ l ++ [⟨.remote .fence, o⟩]) out := by
  have hquiet : ∀ a ∈ [Attempt.mk (.remote .fence) o], Quiet a := by simp [Quiet, Step.mutates]
  have horder := h.orderly_iff hw hquiet
  constructor
  · exact fun hsafe => horder.mp hsafe.orderly
  · intro hcalm
    refine ⟨horder.mpr hcalm, ?_, ?_⟩
    · rintro report' hr haccepted
      rw [hout report' hr, hreport] at haccepted
      have hsettled := (h.accepted haccepted).1
      rw [hmutated] at hsettled
      cases hsettled
    · intro report' _ _
      exact .inr (.inr (by simp))

lemma contain_does {report : Report} :
    Does X (contain X report) (fun r w' => ∃ o, w' = w ++ [⟨.remote .fence, o⟩] ∧
      ∀ report', r = .ok report' → report'.runtimeAccepted = report.runtimeAccepted) w := by
  refine guarded_attempt remote_does ?_
  rintro (fault | record) _ ⟨_, rfl, o, rfl, -⟩
  · by_cases hexception : fault.isException = true
    · simp only [hexception, if_true]
      exact guarded_pure ⟨o, rfl, by simp⟩
    · simp only [hexception]
      exact guarded_fail ⟨o, rfl, by simp⟩
  · exact guarded_pure ⟨o, rfl, by simp⟩

lemma failed_accepted {progress : Progress} : (failed progress).runtimeAccepted = progress.report.runtimeAccepted := by
  unfold failed
  split
  · rfl
  · split_ifs <;> rfl

lemma ended_does {fault? : Option Fault} {report : Report} :
    Does X (ended fault? report) (fun r w' => w' = w ∧ ∀ report', r = .ok report' → report' = report) w := by
  cases fault? with
  | none => exact guarded_pure ⟨rfl, by simp⟩
  | some fault =>
    by_cases hexception : fault.isException = true
    · simp only [ended, hexception, if_true]
      exact guarded_pure ⟨rfl, by simp⟩
    · simp only [ended, hexception]
      exact guarded_fail ⟨rfl, by simp⟩

lemma conclude_does {l : List Attempt} {progress : Progress} (h : Promoted X w l progress) (hw : ∀ a ∈ w, Quiet a) :
    Does X (conclude X progress) (fun r w' => Judged X w' r) (w ++ l) := by
  cases hmutated : progress.mutated with
  | true =>
    simp only [conclude, hmutated]
    refine guarded_bind contain_does ?_ ?_
    · rintro report _ ⟨o, rfl, hreport⟩
      refine guarded_mono ended_does ?_
      rintro r _ ⟨rfl, hended⟩
      refine h.fenced hw hmutated failed_accepted fun report' hr => ?_
      rw [hended report' hr, hreport report rfl]
    · rintro fault _ ⟨o, rfl, -⟩
      exact h.fenced hw hmutated failed_accepted (by simp)
  | false =>
    simp only [conclude, hmutated]
    refine guarded_bind (guarded_pure (Q := fun r w' => w' = w ++ l ∧ r = .ok (failed progress)) ⟨rfl, rfl⟩) ?_ ?_
    · rintro report _ ⟨rfl, ⟨⟩⟩
      refine guarded_mono ended_does ?_
      rintro r _ ⟨rfl, hended⟩
      exact h.judged hw hmutated failed_accepted hended
    · rintro fault _ ⟨-, ⟨⟩⟩

lemma promoted_nil {report : Report} {fault? : Option Fault} (hreport : report.runtimeAccepted = false) :
    Promoted X w [] ⟨report, false, fault?⟩ where
  orderly := iff_of_true .nil fun hraced => by simp [RolloutUnknown] at hraced
  accepted haccepted := by
    rw [hreport] at haccepted
    cases haccepted
  settled _ := .inl (by simp)

lemma inTemp_does {job : Job} {report : Report} (hreport : report.runtimeAccepted = false) :
    Does X (inTemp X job report)
      (fun r w' => ∃ m progress, w' = w ++ m ∧ r = .ok progress ∧ Promoted X w m progress) w := by
  refine guarded_attempt (silent_then (Q := fun l _ => l = []) (fun _ _ hans => hans) (fun _ => ?_) fun _ => rfl) ?_
  · refine guarded_mono ofExcept_does ?_
    rintro r _ ⟨l, rfl, hl, -⟩
    exact ⟨l, rfl, hl⟩
  · rintro (fault | producer) _ ⟨_, rfl, rfl⟩
    · exact guarded_pure ⟨[], _, rfl, rfl, promoted_nil hreport⟩
    · rw [List.append_nil]
      exact promote_does hreport

lemma applyJob_does {job : Job} {report : Report} (hreport : report.runtimeAccepted = false) :
    Does X (applyJob X job report)
      (fun r w' => ∃ m progress, w' = w ++ m ∧ r = .ok progress ∧ Promoted X w m progress) w := by
  refine guarded_attempt (silent_does fun _ _ hans => hans) ?_
  rintro (fault | _) _ ⟨_, rfl, rfl⟩
  · exact guarded_pure ⟨[], _, rfl, rfl, promoted_nil hreport⟩
  · rw [List.append_nil]
    refine guarded_bind (inTemp_does hreport) ?_ ?_
    · rintro _ _ ⟨m, progress, rfl, ⟨⟩, hm⟩
      refine guarded_attempt (silent_does fun _ _ hans => hans) ?_
      rintro (fault | _) _ ⟨_, rfl, rfl⟩
      · exact guarded_pure ⟨m, _, by rw [List.append_nil], rfl, hm.orderly, hm.accepted, hm.settled⟩
      · exact guarded_pure ⟨m, _, by rw [List.append_nil], rfl, hm⟩
    · rintro fault _ ⟨_, _, _, ⟨⟩, _⟩

lemma prepare_does : Does X (prepare X) (Adds w fun l _ => ∀ a ∈ l, Quiet a) w := by
  have hnone : ∀ a ∈ ([] : List Attempt), Quiet a := by simp
  refine silent_then (fun _ _ hans => hans) (fun commit => ?_) fun _ => hnone
  refine ofExcept_then (fun _ _ => ?_) fun _ _ => ⟨[], by simp, hnone⟩
  refine silent_then (fun _ _ hans => hans) ?_ fun _ => hnone
  rintro ⟨policyBytes, policy⟩
  refine ofExcept_then (fun _ _ => ?_) fun _ _ => ⟨[], by simp, hnone⟩
  refine ofExcept_then (fun _ _ => ?_) fun _ _ => ⟨[], by simp, hnone⟩
  have hquiet : ∀ o, ∀ a ∈ [Attempt.mk (.remote .preflight) o], Quiet a := by simp [Quiet, Step.mutates]
  refine guarded_bind remote_does ?_ ?_
  · rintro preflight _ ⟨_, rfl, o, rfl, -⟩
    refine ofExcept_then (fun rootRaw _ => ?_) fun _ _ => ⟨_, rfl, hquiet o⟩
    refine ofExcept_then (fun _ _ => ?_) fun _ _ => ⟨_, rfl, hquiet o⟩
    exact guarded_pure ⟨_, rfl, hquiet o⟩
  · rintro fault _ ⟨_, rfl, o, rfl, -⟩
    exact ⟨_, rfl, hquiet o⟩

lemma perform_does {apply : Bool} : Does X (perform X apply) (fun r w' => Judged X w' r) [] := by
  refine guarded_attempt prepare_does ?_
  rintro (fault | job) l ⟨_, rfl, hl⟩
  · have hnil : Promoted X l [] ⟨{}, false, some fault⟩ := promoted_nil rfl
    have hconclude := conclude_does hnil hl
    rwa [List.append_nil] at hconclude
  · cases apply with
    | false =>
      have hnil : Promoted X l [] ⟨{ gitopsCommit := some job.commit, status := some "preflight-only" }, false, none⟩ :=
        promoted_nil rfl
      have hjudged := hnil.judged hl rfl rfl fun report' hr => (Except.ok.inj hr).symm
      rw [List.append_nil] at hjudged
      exact guarded_pure hjudged
    | true =>
      refine guarded_bind (applyJob_does rfl) ?_ ?_
      · rintro _ _ ⟨m, progress, rfl, ⟨⟩, hm⟩
        exact conclude_does hm hl
      · rintro fault _ ⟨_, _, _, ⟨⟩, _⟩

/-- A promotion is safe unless the rollout of the target timed out and the host then named an approved head. -/
theorem no_second_mutation_iff {apply : Bool} {out : Except Fault Report}
    (h : Exec (outside X) () (perform X apply) [] w out) :
    SafeRun X w out ↔ ¬ (RolloutUnknown w ∧ HeadApproved w) :=
  (perform_does.exec trivial h).2

namespace Sample

def publicRoot : List UInt8 := [114, 111, 111, 116]

def externals : Externals where
  loads line := [
    ("\x7b\"trustRootBase64\":\"cm9vdA==\"\x7d", Json.obj [("trustRootBase64", .str "cm9vdA==")]),
    ("\x7b\"source\":\"732da87e627a6767eab3d28f014b016f7bcea509\"\x7d", .obj [("source", .str target)]),
    ("\x7b\x7d", .obj [])].lookup line
  b64decode s := if s = "cm9vdA==" then some publicRoot else none
  b64encode _ := "cm9vdA=="
  decodeUtf8 _ := none
  sha256 bytes := if bytes = publicRoot then rootSha else ""
  verify _ _ := .ok ()

def guard (source : String) : Json :=
  .obj [("platformAiCommit", .str source), ("startupScriptSha256", .str (startupSha source)),
    ("permitRequired", .bool true)]

def policy : Json :=
  .obj [("hostStartupGuards", .list [guard base, guard target]),
    ("producerCapabilities", .list [.obj [("transcriptImageDigest", .str "sha256:0")]])]

def reply : Script → Completed
  | .preflight => ⟨0, ["\x7b\"trustRootBase64\":\"cm9vdA==\"\x7d"]⟩
  | .readHead => ⟨0, ["\x7b\"source\":\"732da87e627a6767eab3d28f014b016f7bcea509\"\x7d"]⟩
  | _ => ⟨0, ["\x7b\x7d"]⟩

/-- A host on which every step succeeds, the rollouts apart, which time out. -/
def world {γ : Type} (e : Effect γ) (w : List Attempt) : Option (List Attempt × Except Fault γ) :=
  match e with
  | .gitHead => some (w, .ok base)
  | .loadPolicy => some (w, .ok ([], policy))
  | .ssh script _ => some (w ++ [⟨.remote script, outcomeOf (remoteRecord externals) (.ok (reply script))⟩],
      .ok (reply script))
  | .openTemp => some (w, .ok ())
  | .writeRoot _ => some (w, .ok ())
  | .closeTemp => some (w, .ok ())
  | .issuePermit => some (w, .ok none)
  | .readPermit => some (w, .ok [])
  | .readRoot => some (w, .ok publicRoot)
  | .governedSshPaths => some (w, .ok ("config", "known_hosts"))
  | .isFile _ => some (w, .ok true)
  | .runRollout source _ _ => some (w ++ [⟨.rollout source, .timeout⟩], .error (.timeoutExpired "ssh timed out"))
  | .writeEvidence _ => some (w, .ok ())
  | .readEvidence => some (w, .ok .null)

lemma world_answers : Answers (outside externals) () world := by
  intro γ e w w' r hans
  cases e <;> cases hans <;> rfl

/-- The two rollouts of that host. -/
lemma run_timeout : ∃ w out, Exec (outside externals) () (perform externals true) [] w out ∧ ¬ Orderly w := by
  have hrun : (((perform externals true).interp world []).any fun p => decide (¬ Orderly p.1)) = true := by
    decide
  obtain ⟨⟨w, out⟩, hinterp, horder⟩ := (Option.any_eq_true ..).mp hrun
  exact ⟨w, out, exec_interp world_answers hinterp, of_decide_eq_true horder⟩

end Sample

open Sample in
/-- A rollout of the target that timed out, and the compensation that follows it. -/
theorem no_second_mutation_iff_timeout :
    ∃ w out, Exec (outside externals) () (perform externals true) [] w out ∧ ¬ SafeRun externals w out := by
  obtain ⟨w, out, hexec, horder⟩ := run_timeout
  exact ⟨w, out, hexec, fun hsafe => horder hsafe.orderly⟩

open Sample in
theorem no_second_mutation_iff_compensated :
    ∃ w out, SafeRun externals w out ↔ ¬ (RolloutUnknown w ∧ HeadApproved w) := by
  obtain ⟨w, out, hexec, -⟩ := run_timeout
  exact ⟨w, out, no_second_mutation_iff hexec⟩

end PlatformGitops.LiveAnalysis
