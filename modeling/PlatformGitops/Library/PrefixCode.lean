import Mathlib.Data.List.Infix

/-! Encodings that a reader can cut off whatever stands behind them, and lists of what they encode. -/

namespace PlatformGitops.Library

variable {α β : Type} {code : α → List β} {separator stop : β}

/-- No text starts with the codes of two values. -/
def PrefixCode (code : α → List β) : Prop :=
  ∀ ⦃a b : α⦄ ⦃r r' : List β⦄, code a ++ r = code b ++ r' → a = b ∧ r = r'

/-- A code has a first element, which is not this one. -/
def StartsOff (stop : β) (code : α → List β) : Prop := ∀ a, ∃ c cs, code a = c :: cs ∧ c ≠ stop

namespace PrefixCode

lemma injective (h : PrefixCode code) : Function.Injective code := by
  intro a b hab
  exact (h (congrArg (· ++ []) hab)).1

/-- One code is enough to start with another, both of one text. -/
lemma of_isPrefix (h : ∀ ⦃a b⦄, code a <+: code b → a = b) : PrefixCode code := by
  intro a b r r' heq
  have hab : a = b := by
    rcases List.prefix_or_prefix_of_prefix (List.prefix_append (code a) r) ⟨r', heq.symm⟩ with hpre | hpre
    · exact h hpre
    · exact (h hpre).symm
  subst hab
  exact ⟨rfl, List.append_cancel_left heq⟩

lemma wrapped (h : PrefixCode code) (start : List β) : PrefixCode fun a => start ++ code a := by
  intro a b r r' heq
  rw [List.append_assoc, List.append_assoc] at heq
  exact h (List.append_cancel_left heq)

/-- Codes one after the other, up to an element that none of them starts with. -/
lemma flatMap (h : PrefixCode code) (hstop : StartsOff stop code) :
    PrefixCode fun s : List α => s.flatMap code ++ [stop] := by
  intro s t r r' heq
  simp only [List.append_assoc, List.singleton_append] at heq
  induction s generalizing t with
  | nil =>
    cases t with
    | nil => exact ⟨rfl, (List.cons.inj heq).2⟩
    | cons b t =>
      obtain ⟨c, cs, hcode, hc⟩ := hstop b
      rw [List.flatMap_nil, List.flatMap_cons, hcode] at heq
      exact absurd (List.cons.inj heq).1.symm hc
  | cons a s ih =>
    cases t with
    | nil =>
      obtain ⟨c, cs, hcode, hc⟩ := hstop a
      rw [List.flatMap_nil, List.flatMap_cons, hcode] at heq
      exact absurd (List.cons.inj heq).1 hc
    | cons b t =>
      rw [List.flatMap_cons, List.flatMap_cons, List.append_assoc, List.append_assoc] at heq
      obtain ⟨rfl, hrest⟩ := h heq
      obtain ⟨rfl, rfl⟩ := ih hrest
      exact ⟨rfl, rfl⟩

lemma intercalate_cons (a : α) (s : List α) :
    [separator].intercalate ((a :: s).map code) = code a ++ s.flatMap fun b => separator :: code b := by
  induction s generalizing a with
  | nil => simp
  | cons b s ih =>
    have hcons : [separator].intercalate ((a :: b :: s).map code) =
        code a ++ (separator :: [separator].intercalate ((b :: s).map code)) := by
      simp [List.intercalate]
    rw [hcons, ih, List.flatMap_cons, List.cons_append]

/-- Codes between which a separator stands, up to an element that ends them. -/
lemma intercalate (h : PrefixCode code) (hstop : StartsOff stop code) (hne : separator ≠ stop) :
    PrefixCode fun s : List α => [separator].intercalate (s.map code) ++ [stop] := by
  have hseparated : PrefixCode fun b => separator :: code b := h.wrapped [separator]
  have hstarts : StartsOff stop fun b => separator :: code b := fun a => ⟨separator, code a, rfl, hne⟩
  have hrest := hseparated.flatMap hstarts
  intro s t r r' heq
  cases s with
  | nil =>
    cases t with
    | nil => exact ⟨rfl, List.append_cancel_left heq⟩
    | cons b t =>
      obtain ⟨c, cs, hcode, hc⟩ := hstop b
      simp only [intercalate_cons, hcode] at heq
      exact absurd (List.cons.inj heq).1.symm hc
  | cons a s =>
    cases t with
    | nil =>
      obtain ⟨c, cs, hcode, hc⟩ := hstop a
      simp only [intercalate_cons, hcode] at heq
      exact absurd (List.cons.inj heq).1 hc
    | cons b t =>
      simp only [intercalate_cons, List.append_assoc] at heq
      obtain ⟨rfl, htail⟩ := h heq
      simp only [← List.append_assoc] at htail
      obtain ⟨rfl, rfl⟩ := hrest htail
      exact ⟨rfl, rfl⟩

end PrefixCode

end PlatformGitops.Library
