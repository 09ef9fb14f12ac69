import Mathlib.Logic.Relation
import Mathlib.Logic.Function.Basic
import Mathlib.Tactic.Common

/-! Programs that call effects, their runs alone and in a pool of threads, and a proof rule in the
style of rely and guarantee for a pool whose threads may be interleaved, started and stopped anywhere. -/

namespace PlatformGitops.Library

universe u

inductive Prog (ε : Type) (E : Type → Type u) (α : Type) : Type (max 1 u)
  | done (a : α)
  | fail (e : ε)
  | call {β : Type} (e : E β) (next : Except ε β → Prog ε E α)

namespace Prog

variable {ε : Type} {E : Type → Type u} {α β : Type}

def bind : Prog ε E α → (α → Prog ε E β) → Prog ε E β
  | done a, f => f a
  | fail e, _ => fail e
  | call e next, f => call e fun r => (next r).bind f

instance : Monad (Prog ε E) where
  pure := done
  bind := bind

def ofExcept : Except ε α → Prog ε E α
  | .ok a => done a
  | .error e => fail e

def perform (e : E α) : Prog ε E α := call e ofExcept

/-- The program with its failures caught. -/
def attempt : Prog ε E α → Prog ε E (Except ε α)
  | done a => done (.ok a)
  | fail e => done (.error e)
  | call e next => call e fun r => (next r).attempt

/-- Every effect that the program may call is one of `P`. -/
def Only (P : {γ : Type} → E γ → Prop) : Prog ε E α → Prop
  | done _ => True
  | fail _ => True
  | call e next => P e ∧ ∀ r, (next r).Only P

variable {P : {γ : Type} → E γ → Prop}

@[simp] lemma only_pure {a : α} : (pure a : Prog ε E α).Only P := trivial

@[simp] lemma only_fail {e : ε} : (fail e : Prog ε E α).Only P := trivial

@[simp] lemma only_ofExcept {r : Except ε α} : (ofExcept r : Prog ε E α).Only P := by
  cases r <;> trivial

@[simp] lemma only_perform {e : E α} : (perform e : Prog ε E α).Only P ↔ P e :=
  ⟨And.left, fun h => ⟨h, fun _ => only_ofExcept⟩⟩

lemma only_bind {p : Prog ε E α} {f : α → Prog ε E β} (hp : p.Only P) (hf : ∀ a, (f a).Only P) :
    (p >>= f).Only P := by
  change (p.bind f).Only P
  induction p with
  | done a => exact hf a
  | fail e => trivial
  | call e next ih => exact ⟨hp.1, fun r => ih r (hp.2 r)⟩

lemma only_bind_ofExcept {r : Except ε α} {f : α → Prog ε E β} (hf : ∀ a, r = .ok a → (f a).Only P) :
    ((ofExcept r : Prog ε E α) >>= f).Only P := by
  cases r with
  | ok a => exact hf a rfl
  | error e => trivial

lemma only_mono {P Q : {γ : Type} → E γ → Prop} (hPQ : ∀ {γ : Type} {e : E γ}, P e → Q e) {p : Prog ε E α}
    (h : p.Only P) : p.Only Q := by
  induction p with
  | done a => trivial
  | fail e => trivial
  | call e next ih => exact ⟨hPQ h.1, fun r => ih r (h.2 r)⟩

lemma only_all (p : Prog ε E α) : p.Only fun _ => True := by
  induction p with
  | done a => trivial
  | fail e => trivial
  | call e next ih => exact ⟨trivial, ih⟩

lemma only_foldlM {f : β → α → Prog ε E β} {xs : List α} (hf : ∀ b, ∀ x ∈ xs, (f b x).Only P) (b : β) :
    (xs.foldlM f b).Only P := by
  induction xs generalizing b with
  | nil => trivial
  | cons x xs ih =>
    rw [List.foldlM_cons]
    exact only_bind (hf b x List.mem_cons_self) (ih fun b y hy => hf b y (List.mem_cons_of_mem _ hy))

lemma only_attempt {p : Prog ε E α} (hp : p.Only P) : p.attempt.Only P := by
  induction p with
  | done a => trivial
  | fail e => trivial
  | call e next ih => exact ⟨hp.1, fun r => ih r (hp.2 r)⟩

end Prog

/-- What the world may do and answer when a thread calls an effect. -/
structure Machine (ε : Type) (E : Type → Type u) (σ τ : Type) where
  answer : {β : Type} → τ → E β → σ → σ → Except ε β → Prop

variable {ε σ τ : Type} {E : Type → Type u} {α β : Type}

/-- A run of a program from its start to its end, with nothing in between. -/
inductive Exec (M : Machine ε E σ τ) (t : τ) : Prog ε E α → σ → σ → Except ε α → Prop
  | done {a : α} {s : σ} : Exec M t (.done a) s s (.ok a)
  | fail {e : ε} {s : σ} : Exec M t (.fail e) s s (.error e)
  | call {γ : Type} {e : E γ} {next : Except ε γ → Prog ε E α} {s s₁ s₂ : σ} {r : Except ε γ}
      {out : Except ε α} : M.answer t e s s₁ r → Exec M t (next r) s₁ s₂ out → Exec M t (.call e next) s s₂ out

section

variable {M : Machine ε E σ τ} {t : τ} {s s' : σ}

@[simp] lemma exec_pure {a : α} {out : Except ε α} :
    Exec M t (pure a : Prog ε E α) s s' out ↔ s' = s ∧ out = .ok a := by
  constructor
  · rintro ⟨⟩
    exact ⟨rfl, rfl⟩
  · rintro ⟨rfl, rfl⟩
    exact .done

@[simp] lemma exec_fail {e : ε} {out : Except ε α} :
    Exec M t (.fail e : Prog ε E α) s s' out ↔ s' = s ∧ out = .error e := by
  constructor
  · rintro ⟨⟩
    exact ⟨rfl, rfl⟩
  · rintro ⟨rfl, rfl⟩
    exact .fail

@[simp] lemma exec_ofExcept {r out : Except ε α} :
    Exec M t (Prog.ofExcept r : Prog ε E α) s s' out ↔ s' = s ∧ out = r := by
  cases r with
  | ok a => exact exec_pure
  | error e => exact exec_fail

@[simp] lemma exec_perform {e : E α} {out : Except ε α} :
    Exec M t (.perform e) s s' out ↔ M.answer t e s s' out := by
  constructor
  · rintro (_ | _ | ⟨hans, h⟩)
    obtain ⟨rfl, rfl⟩ := exec_ofExcept.mp h
    exact hans
  · intro hans
    exact .call hans (exec_ofExcept.mpr ⟨rfl, rfl⟩)

@[simp] lemma exec_bind {p : Prog ε E α} {f : α → Prog ε E β} {out : Except ε β} :
    Exec M t (p >>= f) s s' out ↔
      (∃ s₁ a, Exec M t p s s₁ (.ok a) ∧ Exec M t (f a) s₁ s' out) ∨
      (∃ e, Exec M t p s s' (.error e) ∧ out = .error e) := by
  change Exec M t (p.bind f) s s' out ↔ _
  induction p generalizing s with
  | done a =>
    constructor
    · intro h
      exact Or.inl ⟨s, a, .done, h⟩
    · rintro (⟨s₁, b, hp, h⟩ | ⟨e, hp, -⟩)
      · cases hp
        exact h
      · cases hp
  | fail e =>
    constructor
    · intro h
      obtain ⟨rfl, rfl⟩ := exec_fail.mp h
      exact Or.inr ⟨e, .fail, rfl⟩
    · rintro (⟨s₁, b, hp, -⟩ | ⟨e', hp, rfl⟩)
      · cases hp
      · cases hp
        exact .fail
  | call e next ih =>
    constructor
    · rintro (_ | _ | ⟨hans, h⟩)
      rcases (ih _).mp h with ⟨s₁, a, hp, hf⟩ | ⟨e', hp, he⟩
      · exact Or.inl ⟨s₁, a, .call hans hp, hf⟩
      · exact Or.inr ⟨e', .call hans hp, he⟩
    · rintro (⟨s₁, a, _ | _ | ⟨hans, hp⟩, hf⟩ | ⟨e', _ | _ | ⟨hans, hp⟩, he⟩)
      · exact .call hans ((ih _).mpr (Or.inl ⟨s₁, a, hp, hf⟩))
      · exact .call hans ((ih _).mpr (Or.inr ⟨e', hp, he⟩))

@[simp] lemma exec_attempt {p : Prog ε E α} {out : Except ε (Except ε α)} :
    Exec M t p.attempt s s' out ↔ ∃ r, Exec M t p s s' r ∧ out = .ok r := by
  induction p generalizing s with
  | done a =>
    constructor
    · rintro ⟨⟩
      exact ⟨.ok a, .done, rfl⟩
    · rintro ⟨r, ⟨⟩, rfl⟩
      exact .done
  | fail e =>
    constructor
    · rintro ⟨⟩
      exact ⟨.error e, .fail, rfl⟩
    · rintro ⟨r, ⟨⟩, rfl⟩
      exact .done
  | call e next ih =>
    constructor
    · rintro (_ | _ | ⟨hans, h⟩)
      obtain ⟨r, hp, he⟩ := (ih _).mp h
      exact ⟨r, .call hans hp, he⟩
    · rintro ⟨r, _ | _ | ⟨hans, hp⟩, he⟩
      exact .call hans ((ih _).mpr ⟨r, hp, he⟩)

end

/-- The run of a program against a world that answers by a function, or blocks. -/
def Prog.interp (world : {γ : Type} → E γ → σ → Option (σ × Except ε γ)) : Prog ε E α → σ → Option (σ × Except ε α)
  | .done a, s => some (s, .ok a)
  | .fail e, s => some (s, .error e)
  | .call e next, s => (world e s).bind fun out => (next out.2).interp world out.1

/-- The first calls of such a run, and what is left of the program after them. -/
def Prog.steps (world : {γ : Type} → E γ → σ → Option (σ × Except ε γ)) :
    Nat → Prog ε E α → σ → Option (σ × Prog ε E α)
  | n + 1, .call e next, s => (world e s).bind fun out => (next out.2).steps world n out.1
  | _, p, s => some (s, p)

def Answers (M : Machine ε E σ τ) (t : τ) (world : {γ : Type} → E γ → σ → Option (σ × Except ε γ)) : Prop :=
  ∀ {γ : Type} (e : E γ) (s s' : σ) (r : Except ε γ), world e s = some (s', r) → M.answer t e s s' r

lemma exec_interp {M : Machine ε E σ τ} {t : τ} {world : {γ : Type} → E γ → σ → Option (σ × Except ε γ)}
    (h : Answers M t world) {p : Prog ε E α} {s s' : σ} {out : Except ε α}
    (hrun : p.interp world s = some (s', out)) : Exec M t p s s' out := by
  induction p generalizing s with
  | done a =>
    cases hrun
    exact .done
  | fail e =>
    cases hrun
    exact .fail
  | call e next ih =>
    obtain ⟨⟨s₁, r⟩, hans, hnext⟩ := Option.bind_eq_some_iff.mp hrun
    exact .call (h e s s₁ r hans) (ih r hnext)

/-- A system of threads: the programs it may start, and what a restart, which stops all of them, leaves. -/
structure System (ε : Type) (E : Type → Type u) (σ τ : Type) extends Machine ε E σ τ where
  start : τ → Prog ε E Unit → Prop
  restart : σ → σ → Prop

abbrev Pool (ε : Type) (E : Type → Type u) (τ : Type) := τ → Option (Prog ε E Unit)

namespace System

variable [DecidableEq τ]

inductive Step (S : System ε E σ τ) : σ × Pool ε E τ → σ × Pool ε E τ → Prop
  | start {s : σ} {pool : Pool ε E τ} {t : τ} {p : Prog ε E Unit} : pool t = none → S.start t p →
      Step S (s, pool) (s, Function.update pool t (some p))
  | run {s s' : σ} {pool : Pool ε E τ} {t : τ} {γ : Type} {e : E γ} {next : Except ε γ → Prog ε E Unit}
      {r : Except ε γ} : pool t = some (.call e next) → S.answer t e s s' r →
      Step S (s, pool) (s', Function.update pool t (some (next r)))
  | stop {s : σ} {pool : Pool ε E τ} {t : τ} : Step S (s, pool) (s, Function.update pool t none)
  | restart {s s' : σ} {pool : Pool ε E τ} : S.restart s s' → Step S (s, pool) (s', fun _ => none)

abbrev Run (S : System ε E σ τ) := Relation.ReflTransGen S.Step

lemma run_exec {S : System ε E σ τ} {t : τ} {p : Prog ε E Unit} {s s' : σ} {out : Except ε Unit}
    (h : Exec S.toMachine t p s s' out) {pool : Pool ε E τ} (hp : pool t = some p) :
    ∃ pool', S.Run (s, pool) (s', pool') ∧ ∀ u, u ≠ t → pool' u = pool u := by
  induction h generalizing pool with
  | done => exact ⟨pool, .refl, fun _ _ => rfl⟩
  | fail => exact ⟨pool, .refl, fun _ _ => rfl⟩
  | @call _ e next s s₁ s₂ r out hans _ ih =>
    obtain ⟨pool', hrun, hsame⟩ := ih (Function.update_self t (some (next r)) pool)
    refine ⟨pool', .head (.run hp hans) hrun, fun u hu => ?_⟩
    rw [hsame u hu, Function.update_of_ne hu]

/-- A thread that is started, runs alone to its end and is gone. -/
lemma run_alone {S : System ε E σ τ} {t : τ} {p : Prog ε E Unit} {s s' : σ} {out : Except ε Unit}
    (hstart : S.start t p) (h : Exec S.toMachine t p s s' out) :
    S.Run (s, fun _ => none) (s', fun _ => none) := by
  have hp : Function.update (fun _ => none : Pool ε E τ) t (some p) t = some p := Function.update_self ..
  obtain ⟨pool', hrun, hsame⟩ := run_exec h hp
  refine .head (.start rfl hstart) (hrun.tail ?_)
  have hempty : Function.update pool' t none = fun _ => none := by
    funext u
    by_cases hu : u = t
    · rw [hu, Function.update_self]
    · rw [Function.update_of_ne hu, hsame u hu, Function.update_of_ne hu]
  exact hempty ▸ .stop

/-- The first calls of a thread of the pool, with nothing in between. -/
lemma run_steps {S : System ε E σ τ} {t : τ} {world : {γ : Type} → E γ → σ → Option (σ × Except ε γ)}
    (h : Answers S.toMachine t world) {n : Nat} {p p' : Prog ε E Unit} {s s' : σ} {pool : Pool ε E τ}
    (hp : pool t = some p) (hrun : p.steps world n s = some (s', p')) :
    S.Run (s, pool) (s', Function.update pool t (some p')) := by
  have hstay : S.Run (s, pool) (s, Function.update pool t (some p)) := by
    rw [← hp, Function.update_eq_self]
  induction n generalizing p s pool with
  | zero =>
    cases p <;> cases hrun <;> exact hstay
  | succ n ih =>
    cases p with
    | done a =>
      cases hrun
      exact hstay
    | fail e =>
      cases hrun
      exact hstay
    | call e next =>
      obtain ⟨⟨s₁, r⟩, hans, hnext⟩ := Option.bind_eq_some_iff.mp hrun
      have htail : S.Run (s₁, Function.update pool t (some (next r)))
          (s', Function.update (Function.update pool t (some (next r))) t (some p')) :=
        ih (Function.update_self ..) hnext (by rw [Function.update_idem])
      rw [Function.update_idem] at htail
      exact .head (.run hp (h e s s₁ r hans)) htail

/-- A thread that is started and stopped, with all others, after its first calls. -/
lemma run_crash {S : System ε E σ τ} {t : τ} {world : {γ : Type} → E γ → σ → Option (σ × Except ε γ)}
    (h : Answers S.toMachine t world) {n : Nat} {p p' : Prog ε E Unit} {s s' s'' : σ} (hstart : S.start t p)
    (hrun : p.steps world n s = some (s', p')) (hrestart : S.restart s' s'') :
    S.Run (s, fun _ => none) (s'', fun _ => none) := by
  have hp : Function.update (fun _ => none : Pool ε E τ) t (some p) t = some p := Function.update_self ..
  exact .head (.start rfl hstart) ((run_steps h hp hrun).tail (.restart hrestart))

end System

/-- An invariant of the shared state, and the changes of it that each thread may make. -/
structure Contract (σ τ : Type) where
  inv : σ → Prop
  guar : τ → σ → σ → Prop

namespace Contract

variable (C : Contract σ τ)

/-- What a thread sees between two of its own steps: any number of steps of the others. -/
def rely (t : τ) : σ → σ → Prop := Relation.ReflTransGen fun s s' => ∃ u, u ≠ t ∧ C.guar u s s'

lemma rely_stable {P : σ → Prop} {t : τ} (hP : ∀ u, u ≠ t → ∀ s s', C.guar u s s' → P s → P s')
    {s s' : σ} (h : C.rely t s s') (hs : P s) : P s' := by
  induction h with
  | refl => exact hs
  | tail _ hstep ih =>
    obtain ⟨u, hu, hg⟩ := hstep
    exact hP u hu _ _ hg ih

/-- Every call of the program, made after any steps of the others, keeps the invariant and the
guarantee of its thread, and at its end the postcondition holds. -/
def wp (M : Machine ε E σ τ) (t : τ) : Prog ε E α → (Except ε α → σ → Prop) → σ → Prop
  | .done a, Q, s => Q (.ok a) s
  | .fail e, Q, s => Q (.error e) s
  | .call e next, Q, s => ∀ s₁, C.rely t s s₁ → C.inv s₁ → ∀ s₂ r, M.answer t e s₁ s₂ r →
      C.guar t s₁ s₂ ∧ C.inv s₂ ∧ wp M t (next r) Q s₂

variable {C} {M : Machine ε E σ τ} {t : τ} {s : σ}

lemma wp_mono {p : Prog ε E α} {Q R : Except ε α → σ → Prop} (hQ : ∀ r s, Q r s → R r s)
    (h : C.wp M t p Q s) : C.wp M t p R s := by
  induction p generalizing s with
  | done a => exact hQ _ _ h
  | fail e => exact hQ _ _ h
  | call e next ih =>
    intro s₁ hr hi s₂ r hans
    obtain ⟨hg, hi₂, hn⟩ := h s₁ hr hi s₂ r hans
    exact ⟨hg, hi₂, ih r hn⟩

lemma wp_bind {p : Prog ε E α} {f : α → Prog ε E β} {Q : Except ε β → σ → Prop}
    (h : C.wp M t p (fun r s => match r with
      | .ok a => C.wp M t (f a) Q s
      | .error e => Q (.error e) s) s) : C.wp M t (p >>= f) Q s := by
  change C.wp M t (p.bind f) Q s
  induction p generalizing s with
  | done a => exact h
  | fail e => exact h
  | call e next ih =>
    intro s₁ hr hi s₂ r hans
    obtain ⟨hg, hi₂, hn⟩ := h s₁ hr hi s₂ r hans
    exact ⟨hg, hi₂, ih r hn⟩

lemma wp_attempt {p : Prog ε E α} {Q : Except ε (Except ε α) → σ → Prop}
    (h : C.wp M t p (fun r s => Q (.ok r) s) s) : C.wp M t p.attempt Q s := by
  induction p generalizing s with
  | done a => exact h
  | fail e => exact h
  | call e next ih =>
    intro s₁ hr hi s₂ r hans
    obtain ⟨hg, hi₂, hn⟩ := h s₁ hr hi s₂ r hans
    exact ⟨hg, hi₂, ih r hn⟩

lemma wp_perform {e : E α} {Q : Except ε α → σ → Prop}
    (h : ∀ s₁, C.rely t s s₁ → C.inv s₁ → ∀ s₂ r, M.answer t e s₁ s₂ r →
      C.guar t s₁ s₂ ∧ C.inv s₂ ∧ Q r s₂) : C.wp M t (.perform e) Q s := by
  intro s₁ hr hi s₂ r hans
  obtain ⟨hg, hi₂, hq⟩ := h s₁ hr hi s₂ r hans
  refine ⟨hg, hi₂, ?_⟩
  cases r <;> exact hq

lemma wp_rely {p : Prog ε E α} {s' : σ} (hr : C.rely t s s') (h : C.wp M t p (fun _ _ => True) s) :
    C.wp M t p (fun _ _ => True) s' := by
  cases p with
  | done a => exact h
  | fail e => exact h
  | call e next => exact fun s₁ hr₁ => h s₁ (hr.trans hr₁)

/-- Two programs that keep to the contract, one after the other. -/
lemma wp_seq {p : Prog ε E α} {f : α → Prog ε E β} (hp : C.wp M t p (fun _ _ => True) s)
    (hf : ∀ a s, C.wp M t (f a) (fun _ _ => True) s) : C.wp M t (p >>= f) (fun _ _ => True) s := by
  refine wp_bind (wp_mono (fun r s _ => ?_) hp)
  cases r with
  | ok a => exact hf a s
  | error e => trivial

/-- An assertion that the other threads keep, and that every call of the program keeps with the contract,
holds at its end, whatever the calls answer. -/
lemma wp_stable {I : σ → Prop} {P : {γ : Type} → E γ → Prop} {p : Prog ε E α}
    (hI : ∀ s s', C.rely t s s' → I s → I s') (hp : p.Only P)
    (hP : ∀ {γ : Type} (e : E γ), P e → ∀ s₁ s₂ r, C.inv s₁ → I s₁ → M.answer t e s₁ s₂ r →
      C.guar t s₁ s₂ ∧ C.inv s₂ ∧ I s₂) (hs : I s) : C.wp M t p (fun _ s => I s) s := by
  induction p generalizing s with
  | done a => exact hs
  | fail e => exact hs
  | call e next ih =>
    intro s₁ hr hi s₂ r hans
    obtain ⟨hg, hi₂, hs₂⟩ := hP e hp.1 s₁ s₂ r hi (hI s s₁ hr hs) hans
    exact ⟨hg, hi₂, ih r (hp.2 r) hs₂⟩

/-- A program whose calls all keep the contract keeps it, whatever they answer. -/
lemma wp_of_only {P : {γ : Type} → E γ → Prop} {p : Prog ε E α} (hp : p.Only P)
    (hP : ∀ {γ : Type} (e : E γ), P e → ∀ s₁ s₂ r, C.inv s₁ → M.answer t e s₁ s₂ r →
      C.guar t s₁ s₂ ∧ C.inv s₂) : C.wp M t p (fun _ _ => True) s := by
  refine wp_stable (I := fun _ => True) (fun _ _ _ h => h) hp (fun e he s₁ s₂ r hi _ hans => ?_) trivial
  obtain ⟨hg, hi₂⟩ := hP e he s₁ s₂ r hi hans
  exact ⟨hg, hi₂, trivial⟩

section

variable [DecidableEq τ] {S : System ε E σ τ}

/-- Every thread of the pool keeps to the contract from the present state on. -/
structure Kept (C : Contract σ τ) (S : System ε E σ τ) (c : σ × Pool ε E τ) : Prop where
  inv : C.inv c.1
  threads : ∀ t p, c.2 t = some p → C.wp S.toMachine t p (fun _ _ => True) c.1

/-- What the contract asks of the programs a system starts, and of its restarts. -/
structure Meets (S : System ε E σ τ) (C : Contract σ τ) : Prop where
  start : ∀ t p s, S.start t p → C.inv s → C.wp S.toMachine t p (fun _ _ => True) s
  restart : ∀ s s', S.restart s s' → C.inv s → C.inv s'

lemma kept_step (hm : Meets S C) {c c' : σ × Pool ε E τ} (hk : Kept C S c) (h : S.Step c c') :
    Kept C S c' ∧ (c'.1 = c.1 ∨ (∃ t, C.guar t c.1 c'.1) ∨ S.restart c.1 c'.1) := by
  cases h with
  | @start s pool t p _ hstart =>
    refine ⟨⟨hk.inv, fun u q hq => ?_⟩, Or.inl rfl⟩
    by_cases hu : u = t
    · subst hu
      obtain rfl : p = q := by simpa using hq
      exact hm.start u p s hstart hk.inv
    · exact hk.threads u q (by simpa [hu] using hq)
  | @run s s' pool t γ e next r hp hans =>
    obtain ⟨hg, hi, hn⟩ := hk.threads t _ hp s .refl hk.inv s' r hans
    refine ⟨⟨hi, fun u q hq => ?_⟩, Or.inr (Or.inl ⟨t, hg⟩)⟩
    by_cases hu : u = t
    · subst hu
      obtain rfl : next r = q := by simpa using hq
      exact hn
    · have ht : t ≠ u := Ne.symm hu
      exact wp_rely (.single ⟨t, ht, hg⟩) (hk.threads u q (by simpa [hu] using hq))
  | @stop s pool t =>
    refine ⟨⟨hk.inv, fun u q hq => ?_⟩, Or.inl rfl⟩
    by_cases hu : u = t
    · simp [hu] at hq
    · exact hk.threads u q (by simpa [hu] using hq)
  | restart hr => exact ⟨⟨hm.restart _ _ hr hk.inv, fun u q hq => by cases hq⟩, Or.inr (Or.inr hr)⟩

lemma kept_run (hm : Meets S C) {c c' : σ × Pool ε E τ} (hk : Kept C S c) (h : S.Run c c') :
    Kept C S c' := by
  induction h with
  | refl => exact hk
  | tail _ hstep ih => exact (kept_step hm ih hstep).1

end

end Contract

end PlatformGitops.Library

/-! Postconditions of a program that runs alone. -/

namespace PlatformGitops.Library

universe u

variable {ε σ τ : Type} {E : Type → Type u} {α β : Type}

/-- Every run of the program from this state ends as `Q` says. -/
def Triple (M : Machine ε E σ τ) (t : τ) (p : Prog ε E α) (Q : Except ε α → σ → Prop) (s : σ) : Prop :=
  ∀ s' out, Exec M t p s s' out → Q out s'

/-- A run that is stopped after any number of calls. -/
inductive Stops (M : Machine ε E σ τ) (t : τ) : Prog ε E α → σ → σ → Prop
  | here {p : Prog ε E α} {s : σ} : Stops M t p s s
  | call {γ : Type} {e : E γ} {next : Except ε γ → Prog ε E α} {s s₁ s₂ : σ} {r : Except ε γ} :
      M.answer t e s s₁ r → Stops M t (next r) s₁ s₂ → Stops M t (.call e next) s s₂

section

variable {M : Machine ε E σ τ} {t : τ} {s : σ}

lemma triple_pure {a : α} {Q : Except ε α → σ → Prop} (h : Q (.ok a) s) : Triple M t (pure a) Q s := by
  intro s' out hexec
  obtain ⟨rfl, rfl⟩ := exec_pure.mp hexec
  exact h

lemma triple_fail {e : ε} {Q : Except ε α → σ → Prop} (h : Q (.error e) s) : Triple M t (.fail e) Q s := by
  intro s' out hexec
  obtain ⟨rfl, rfl⟩ := exec_fail.mp hexec
  exact h

lemma triple_ofExcept {r : Except ε α} {Q : Except ε α → σ → Prop} (h : Q r s) :
    Triple M t (.ofExcept r) Q s := by
  intro s' out hexec
  obtain ⟨rfl, rfl⟩ := exec_ofExcept.mp hexec
  exact h

lemma triple_perform {e : E α} {Q : Except ε α → σ → Prop} (h : ∀ s' r, M.answer t e s s' r → Q r s') :
    Triple M t (.perform e) Q s :=
  fun s' out hexec => h s' out (exec_perform.mp hexec)

lemma triple_mono {p : Prog ε E α} {Q R : Except ε α → σ → Prop} (hp : Triple M t p Q s)
    (h : ∀ r s, Q r s → R r s) : Triple M t p R s :=
  fun s' out hexec => h out s' (hp s' out hexec)

lemma triple_bind {p : Prog ε E α} {f : α → Prog ε E β} {Q : Except ε α → σ → Prop} {R : Except ε β → σ → Prop}
    (hp : Triple M t p Q s) (hf : ∀ a s, Q (.ok a) s → Triple M t (f a) R s)
    (he : ∀ e s, Q (.error e) s → R (.error e) s) : Triple M t (p >>= f) R s := by
  intro s' out hexec
  rcases exec_bind.mp hexec with ⟨s₁, a, hfirst, hrest⟩ | ⟨e, hfirst, rfl⟩
  · exact hf a s₁ (hp s₁ _ hfirst) s' out hrest
  · exact he e s' (hp s' _ hfirst)

lemma triple_attempt {p : Prog ε E α} {f : Except ε α → Prog ε E β} {Q : Except ε α → σ → Prop}
    {R : Except ε β → σ → Prop} (hp : Triple M t p Q s) (hf : ∀ r s, Q r s → Triple M t (f r) R s) :
    Triple M t (p.attempt >>= f) R s := by
  intro s' out hexec
  rcases exec_bind.mp hexec with ⟨s₁, a, hfirst, hrest⟩ | ⟨e, hfirst, rfl⟩
  · obtain ⟨r, hrun, hr⟩ := exec_attempt.mp hfirst
    obtain rfl := Except.ok.inj hr
    exact hf a s₁ (hp s₁ a hrun) s' out hrest
  · obtain ⟨r, -, hr⟩ := exec_attempt.mp hfirst
    cases hr

/-- An assertion that every call of the program keeps holds wherever it is stopped. -/
lemma stops_only {I : σ → Prop} {P : {γ : Type} → E γ → Prop} {p : Prog ε E α} {s' : σ} (hp : p.Only P)
    (hP : ∀ {γ : Type} (e : E γ), P e → ∀ s s' r, I s → M.answer t e s s' r → I s') (hs : I s)
    (h : Stops M t p s s') : I s' := by
  induction h with
  | here => exact hs
  | call hans _ ih => exact ih (hp.2 _) (hP _ hp.1 _ _ _ hs hans)

/-- An assertion that every call of the program keeps holds at its end. -/
lemma triple_only {I : σ → Prop} {P : {γ : Type} → E γ → Prop} {p : Prog ε E α} (hp : p.Only P)
    (hP : ∀ {γ : Type} (e : E γ), P e → ∀ s s' r, I s → M.answer t e s s' r → I s') (hs : I s) :
    Triple M t p (fun _ s => I s) s := by
  intro s' out hexec
  induction hexec with
  | done => exact hs
  | fail => exact hs
  | call hans _ ih => exact ih (hp.2 _) (hP _ hp.1 _ _ _ hs hans)

end

end PlatformGitops.Library
