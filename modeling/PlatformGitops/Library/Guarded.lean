import PlatformGitops.Library.Program

/-! Assertions that hold after every call of a program, and so wherever it is stopped. -/

namespace PlatformGitops.Library

universe u

variable {ε σ τ : Type} {E : Type → Type u} {α β : Type}

/-- The machine with only those steps that meet the condition. -/
def Machine.restrict (M : Machine ε E σ τ) (C : {γ : Type} → E γ → σ → Except ε γ → Prop) : Machine ε E σ τ where
  answer t e s s' r := M.answer t e s s' r ∧ C e s r

/-- After every call of the program `I` holds, and at its end `Q`. -/
def Guarded (M : Machine ε E σ τ) (t : τ) (I : σ → Prop) : Prog ε E α → (Except ε α → σ → Prop) → σ → Prop
  | .done a, Q, s => Q (.ok a) s
  | .fail e, Q, s => Q (.error e) s
  | .call e next, Q, s => ∀ s' r, M.answer t e s s' r → I s' ∧ Guarded M t I (next r) Q s'

/-- The postcondition `J` of a value, and `R` of an error. -/
def Post (J : α → σ → Prop) (R : ε → σ → Prop) : Except ε α → σ → Prop
  | .ok a, s => J a s
  | .error e, s => R e s

@[simp] lemma post_ok {J : α → σ → Prop} {R : ε → σ → Prop} {a : α} {s : σ} : Post J R (.ok a) s ↔ J a s := Iff.rfl

@[simp] lemma post_error {J : α → σ → Prop} {R : ε → σ → Prop} {e : ε} {s : σ} : Post J R (.error e) s ↔ R e s := Iff.rfl

variable {M : Machine ε E σ τ} {t : τ} {I : σ → Prop} {s s' : σ}

lemma guarded_pure {a : α} {Q : Except ε α → σ → Prop} (h : Q (.ok a) s) :
    Guarded M t I (pure a : Prog ε E α) Q s := h

lemma guarded_fail {e : ε} {Q : Except ε α → σ → Prop} (h : Q (.error e) s) :
    Guarded M t I (.fail e : Prog ε E α) Q s := h

lemma guarded_ofExcept {r : Except ε α} {Q : Except ε α → σ → Prop} (h : Q r s) :
    Guarded M t I (.ofExcept r : Prog ε E α) Q s := by
  cases r <;> exact h

lemma guarded_perform {e : E α} {Q : Except ε α → σ → Prop} (h : ∀ s' r, M.answer t e s s' r → I s' ∧ Q r s') :
    Guarded M t I (.perform e) Q s := by
  intro s' r hans
  obtain ⟨hi, hq⟩ := h s' r hans
  exact ⟨hi, guarded_ofExcept hq⟩

lemma guarded_mono {p : Prog ε E α} {Q R : Except ε α → σ → Prop} (hp : Guarded M t I p Q s)
    (h : ∀ r s, Q r s → R r s) : Guarded M t I p R s := by
  induction p generalizing s with
  | done a => exact h _ _ hp
  | fail e => exact h _ _ hp
  | call e next ih =>
    intro s' r hans
    obtain ⟨hi, hn⟩ := hp s' r hans
    exact ⟨hi, ih r hn⟩

lemma guarded_bind {p : Prog ε E α} {f : α → Prog ε E β} {Q : Except ε α → σ → Prop} {R : Except ε β → σ → Prop}
    (hp : Guarded M t I p Q s) (hf : ∀ a s, Q (.ok a) s → Guarded M t I (f a) R s)
    (he : ∀ e s, Q (.error e) s → R (.error e) s) : Guarded M t I (p >>= f) R s := by
  change Guarded M t I (p.bind f) R s
  induction p generalizing s with
  | done a => exact hf a s hp
  | fail e => exact he e s hp
  | call e next ih =>
    intro s' r hans
    obtain ⟨hi, hn⟩ := hp s' r hans
    exact ⟨hi, ih r hn⟩

/-- Two programs in turn, whose errors are of one kind. -/
lemma guarded_then {p : Prog ε E α} {f : α → Prog ε E β} {J : α → σ → Prop} {K : β → σ → Prop} {R : ε → σ → Prop}
    (hp : Guarded M t I p (Post J R) s) (hf : ∀ a s, J a s → Guarded M t I (f a) (Post K R) s) :
    Guarded M t I (p >>= f) (Post K R) s :=
  guarded_bind hp hf fun _ _ he => he

lemma guarded_attempt {p : Prog ε E α} {f : Except ε α → Prog ε E β} {Q : Except ε α → σ → Prop}
    {R : Except ε β → σ → Prop} (hp : Guarded M t I p Q s) (hf : ∀ r s, Q r s → Guarded M t I (f r) R s) :
    Guarded M t I (p.attempt >>= f) R s := by
  change Guarded M t I (p.attempt.bind f) R s
  induction p generalizing s with
  | done a => exact hf _ s hp
  | fail e => exact hf _ s hp
  | call e next ih =>
    intro s' r hans
    obtain ⟨hi, hn⟩ := hp s' r hans
    exact ⟨hi, ih r hn⟩

lemma guarded_and {J : σ → Prop} {p : Prog ε E α} {Q R : Except ε α → σ → Prop} (hp : Guarded M t I p Q s)
    (hq : Guarded M t J p R s) : Guarded M t (fun s => I s ∧ J s) p (fun r s => Q r s ∧ R r s) s := by
  induction p generalizing s with
  | done a => exact ⟨hp, hq⟩
  | fail e => exact ⟨hp, hq⟩
  | call e next ih =>
    intro s' r hans
    obtain ⟨hi, hn⟩ := hp s' r hans
    obtain ⟨hj, hm⟩ := hq s' r hans
    exact ⟨⟨hi, hj⟩, ih r hn hm⟩

lemma guarded_weaken {J : σ → Prop} {p : Prog ε E α} {Q : Except ε α → σ → Prop} (hp : Guarded M t I p Q s)
    (h : ∀ s, I s → J s) : Guarded M t J p Q s := by
  induction p generalizing s with
  | done a => exact hp
  | fail e => exact hp
  | call e next ih =>
    intro s' r hans
    obtain ⟨hi, hn⟩ := hp s' r hans
    exact ⟨h _ hi, ih r hn⟩

/-- An assertion that every call of the program keeps. -/
lemma guarded_only {P : {γ : Type} → E γ → Prop} {p : Prog ε E α} (hp : p.Only P)
    (hP : ∀ {γ : Type} (e : E γ), P e → ∀ s s' r, I s → M.answer t e s s' r → I s') (hs : I s) :
    Guarded M t I p (fun _ s => I s) s := by
  induction p generalizing s with
  | done a => exact hs
  | fail e => exact hs
  | call e next ih =>
    intro s' r hans
    have hi := hP e hp.1 s s' r hs hans
    exact ⟨hi, ih r (hp.2 r) hi⟩

/-- A loop that carries a value, with an assertion about what it has done so far. -/
lemma guarded_foldlM {f : β → α → Prog ε E β} {J : List α → β → σ → Prop} {R : ε → σ → Prop} {xs : List α}
    (hstep : ∀ done x rest b s, xs = done ++ x :: rest → J done b s →
      Guarded M t I (f b x) (Post (J (done ++ [x])) R) s) {b : β} (hs : J [] b s) :
    Guarded M t I (xs.foldlM f b) (Post (J xs) R) s := by
  have hrest : ∀ (rest done : List α) (b : β) (s : σ), xs = done ++ rest → J done b s →
      Guarded M t I (rest.foldlM f b) (Post (J xs) R) s := by
    intro rest
    induction rest with
    | nil =>
      intro done b s hsplit hj
      rw [List.append_nil] at hsplit
      exact guarded_pure (hsplit ▸ hj)
    | cons x rest ih =>
      intro done b s hsplit hj
      rw [List.foldlM_cons]
      refine guarded_bind (hstep done x rest b s hsplit hj) (fun b s hb => ?_) fun e s he => he
      exact ih (done ++ [x]) b s (by simp [hsplit]) hb
  exact hrest xs [] b s rfl hs

/-- What led from the start of a program to its end is a run of it. -/
lemma guarded_run {p : Prog ε E α} {Q : Except ε α → σ → Prop} (hp : Guarded M t I p Q s) :
    Guarded M t I p (fun r s' => Exec M t p s s' r ∧ Q r s') s := by
  induction p generalizing s with
  | done a => exact ⟨.done, hp⟩
  | fail e => exact ⟨.fail, hp⟩
  | call e next ih =>
    intro s' r hans
    obtain ⟨hi, hn⟩ := hp s' r hans
    exact ⟨hi, guarded_mono (ih r hn) fun _ _ ⟨hexec, hq⟩ => ⟨.call hans hexec, hq⟩⟩

lemma Guarded.exec {p : Prog ε E α} {Q : Except ε α → σ → Prop} {out : Except ε α} (hp : Guarded M t I p Q s)
    (hs : I s) (h : Exec M t p s s' out) : I s' ∧ Q out s' := by
  induction h with
  | done => exact ⟨hs, hp⟩
  | fail => exact ⟨hs, hp⟩
  | call hans _ ih =>
    obtain ⟨hi, hn⟩ := hp _ _ hans
    exact ih hn hi

lemma Guarded.stops {p : Prog ε E α} {Q : Except ε α → σ → Prop} (hp : Guarded M t I p Q s) (hs : I s)
    (h : Stops M t p s s') : I s' := by
  induction h with
  | here => exact hs
  | call hans _ ih =>
    obtain ⟨hi, hn⟩ := hp _ _ hans
    exact ih hn hi

end PlatformGitops.Library
