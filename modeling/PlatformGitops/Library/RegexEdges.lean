import PlatformGitops.Library.RegexMatches

/-! With what a match begins and ends, how long it is, and what stays of the matches of a text when a part of it is
replaced. -/

namespace PlatformGitops.Library.Regex

namespace Pattern

/-- A greedy repetition of so many at least. -/
def atLeast (p : Char → Bool) (n : ℕ) : Pattern := seq (exactly p n) (many p)

variable {n : ℕ} {a b : Pattern} {p : Char → Bool} {before before' : Option Char} {c d : Char}
  {s t w after after' : List Char}

section Edges

/-- The least number of characters of a match. -/
def minWidth : Pattern → ℕ
  | chars _ => 1
  | seq a b => a.minWidth + b.minWidth
  | alt a b => min a.minWidth b.minWidth
  | capture a => a.minWidth
  | _ => 0

lemma minWidth_le (h : a.Matches before w after) : a.minWidth ≤ w.length := by
  induction a generalizing before w after with
  | empty | many | boundary | look => exact Nat.zero_le _
  | chars p =>
    obtain ⟨c, -, rfl⟩ := h
    exact le_refl 1
  | seq a b iha ihb =>
    obtain ⟨u, v, rfl, hu, hv⟩ := h
    rw [List.length_append]
    exact Nat.add_le_add (iha hu) (ihb hv)
  | alt a b iha ihb => exact h.elim (fun ha => (min_le_left _ _).trans (iha ha)) fun hb => (min_le_right _ _).trans (ihb hb)
  | capture a ih => exact ih h

lemma ne_nil_of_matches (hwidth : 0 < a.minWidth) (h : a.Matches before w after) : w ≠ [] := by
  rintro rfl
  exact absurd (minWidth_le h) (Nat.not_le.mpr hwidth)

def nullable : Pattern → Bool
  | chars _ => false
  | seq a b => a.nullable && b.nullable
  | alt a b => a.nullable || b.nullable
  | capture a => a.nullable
  | _ => true

lemma nullable_of_matches (h : a.Matches before [] after) : a.nullable = true := by
  induction a generalizing before after with
  | empty | many | boundary | look => rfl
  | chars p =>
    obtain ⟨c, -, hc⟩ := h
    cases hc
  | seq a b iha ihb =>
    obtain ⟨u, v, huv, hu, hv⟩ := h
    obtain ⟨rfl, rfl⟩ := List.append_eq_nil_iff.mp huv.symm
    exact Bool.and_eq_true_iff.mpr ⟨iha hu, ihb hv⟩
  | alt a b iha ihb => exact Bool.or_eq_true_iff.mpr (h.imp iha ihb)
  | capture a ih => exact ih h

/-- The characters with which a match may begin. -/
def firsts : Pattern → Char → Bool
  | chars p, c | many p, c => p c
  | seq a b, c => a.firsts c || (a.nullable && b.firsts c)
  | alt a b, c => a.firsts c || b.firsts c
  | capture a, c => a.firsts c
  | _, _ => false

lemma firsts_of_matches (h : a.Matches before (c :: w) after) : a.firsts c = true := by
  induction a generalizing before w after with
  | empty => cases h
  | boundary | look => cases h.1
  | chars p =>
    obtain ⟨d, hd, heq⟩ := h
    cases heq
    exact hd
  | many p => exact h c List.mem_cons_self
  | seq a b iha ihb =>
    obtain ⟨u, v, huv, hu, hv⟩ := h
    rw [firsts, Bool.or_eq_true, Bool.and_eq_true]
    cases u with
    | nil =>
      obtain rfl : c :: w = v := huv
      exact .inr ⟨nullable_of_matches hu, ihb hv⟩
    | cons d u =>
      cases huv
      exact .inl (iha hu)
  | alt a b iha ihb =>
    rw [firsts, Bool.or_eq_true]
    exact h.imp iha ihb
  | capture a ih => exact ih h

/-- The characters with which a match may end. -/
def lasts : Pattern → Char → Bool
  | chars p, c | many p, c => p c
  | seq a b, c => b.lasts c || (b.nullable && a.lasts c)
  | alt a b, c => a.lasts c || b.lasts c
  | capture a, c => a.lasts c
  | _, _ => false

example (p : Char → Bool) : (all [char 'a', many p]).minWidth = 1 ∧ (all [char 'a', many p]).nullable = false ∧
    (all [char 'a', many p]).firsts 'b' = false ∧ (all [char 'a', many p]).lasts 'b' = p 'b' := by
  simp [all, char, minWidth, nullable, firsts, lasts]

lemma lasts_of_matches (h : a.Matches before (w ++ [c]) after) : a.lasts c = true := by
  induction a generalizing before w after with
  | empty => exact absurd h (by simp [Matches])
  | boundary | look => exact absurd h.1 (by simp)
  | chars p =>
    obtain ⟨d, hd, heq⟩ := h
    obtain ⟨-, rfl⟩ := List.concat_inj.mp (by simpa using heq : w.concat c = ([] : List Char).concat d)
    exact hd
  | many p => exact h c (by simp)
  | seq a b iha ihb =>
    obtain ⟨u, v, huv, hu, hv⟩ := h
    rw [lasts, Bool.or_eq_true, Bool.and_eq_true]
    obtain rfl | ⟨v, d, rfl⟩ := v.eq_nil_or_concat
    · rw [List.append_nil] at huv
      subst huv
      exact .inr ⟨nullable_of_matches hv, iha hu⟩
    · rw [List.concat_eq_append] at huv hv
      rw [← List.append_assoc] at huv
      obtain ⟨-, hcd⟩ := List.append_inj' huv rfl
      cases hcd
      exact .inl (ihb hv)
  | alt a b iha ihb =>
    rw [lasts, Bool.or_eq_true]
    exact h.imp iha ihb
  | capture a ih => exact ih h

@[simp] lemma minWidth_word (cs : List Char) : (Pattern.word cs).minWidth = cs.length := by
  induction cs with
  | nil => rfl
  | cons c cs ih =>
    rw [Pattern.word, minWidth, ih, List.length_cons, Nat.add_comm]
    rfl

@[simp] lemma minWidth_exactly : (exactly p n).minWidth = n := by
  induction n with
  | zero => rfl
  | succ n ih =>
    rw [exactly, minWidth, ih, Nat.add_comm]
    rfl

@[simp] lemma minWidth_atLeast : (atLeast p n).minWidth = n := by
  rw [atLeast, minWidth, minWidth_exactly]
  rfl

lemma lasts_exactly (h : (exactly p n).lasts c = true) : p c = true := by
  induction n with
  | zero => cases h
  | succ n ih =>
    rw [exactly, lasts, Bool.or_eq_true, Bool.and_eq_true] at h
    exact h.elim ih And.right

lemma lasts_atLeast (h : (atLeast p n).lasts c = true) : p c = true := by
  rw [atLeast, lasts, Bool.or_eq_true, Bool.and_eq_true] at h
  exact h.elim id fun hn => lasts_exactly hn.2

lemma mentions_exactly (h : p c = false) : (exactly p n).mentions c = false := by
  induction n with
  | zero => rfl
  | succ n ih =>
    rw [exactly, mentions, ih]
    simpa [mentions] using h

lemma mentions_atLeast (h : p c = false) : (atLeast p n).mentions c = false := by
  rw [atLeast, mentions, mentions_exactly h]
  exact h

end Edges

section Repetitions

lemma matches_atLeast : (atLeast p n).Matches before w after ↔ n ≤ w.length ∧ ∀ c ∈ w, p c = true := by
  rw [atLeast, matches_seq]
  constructor
  · rintro ⟨u, v, rfl, hu, hv⟩
    obtain ⟨hlen, hall⟩ := matches_exactly.mp hu
    exact ⟨by simp [hlen], List.forall_mem_append.mpr ⟨hall, hv⟩⟩
  · rintro ⟨hlen, hall⟩
    refine ⟨w.take n, w.drop n, (List.take_append_drop n w).symm, ?_, fun c hc => hall c (List.mem_of_mem_drop hc)⟩
    exact matches_exactly.mpr ⟨List.length_take_of_le hlen, fun c hc => hall c (List.mem_of_mem_take hc)⟩

lemma matches_upTo : (upTo p n).Matches before w after ↔ w.length ≤ n ∧ ∀ c ∈ w, p c = true := by
  induction n generalizing before w with
  | zero =>
    rw [upTo, matches_empty, Nat.le_zero, List.length_eq_zero_iff, iff_self_and]
    rintro rfl
    exact List.forall_mem_nil _
  | succ n ih =>
    simp only [upTo, matches_alt, matches_seq, matches_chars, matches_empty, ih]
    constructor
    · rintro (⟨_, v, rfl, ⟨c, hc, rfl⟩, hlen, hv⟩ | rfl)
      · exact ⟨by simpa using hlen, List.forall_mem_cons.mpr ⟨hc, hv⟩⟩
      · simp
    · rintro ⟨hlen, hall⟩
      cases w with
      | nil => exact .inr rfl
      | cons c v =>
        obtain ⟨hc, hv⟩ := List.forall_mem_cons.mp hall
        exact .inl ⟨[c], v, rfl, ⟨c, hc, rfl⟩, by simpa using hlen, hv⟩

end Repetitions

section Context

/-- Of its surroundings a pattern sees only on which side of this boundary they are. -/
def SeesOnly (word : Char → Bool) : Pattern → Prop
  | boundary word' => word' = word
  | look _ => False
  | seq a b | alt a b => a.SeesOnly word ∧ b.SeesOnly word
  | capture a => a.SeesOnly word
  | _ => True

lemma seesOnly_exactly {word : Char → Bool} (n : ℕ) : (exactly p n).SeesOnly word := by
  induction n with
  | zero => trivial
  | succ n ih => exact ⟨trivial, ih⟩

lemma seesOnly_upTo {word : Char → Bool} (n : ℕ) : (upTo p n).SeesOnly word := by
  induction n with
  | zero => trivial
  | succ n ih => exact ⟨⟨trivial, ih⟩, trivial⟩

lemma seesOnly_word {word : Char → Bool} (cs : List Char) : (Pattern.word cs).SeesOnly word := by
  induction cs with
  | nil => trivial
  | cons c cs ih => exact ⟨trivial, ih⟩

lemma seesOnly_atLeast {word : Char → Bool} (n : ℕ) : (atLeast p n).SeesOnly word := ⟨seesOnly_exactly n, trivial⟩

lemma matches_elsewhere {word : Char → Bool} (hsees : a.SeesOnly word) (hbefore : before.any word = before'.any word)
    (hafter : after.head?.any word = after'.head?.any word) (h : a.Matches before w after) :
    a.Matches before' w after' := by
  induction a generalizing before before' w after after' with
  | empty | chars | many => exact h
  | boundary word' =>
    obtain rfl : word' = word := hsees
    obtain ⟨hw, hside⟩ := h
    exact ⟨hw, by rw [← hbefore, ← hafter, hside]⟩
  | look => exact hsees.elim
  | seq a b iha ihb =>
    obtain ⟨u, v, rfl, hu, hv⟩ := h
    refine ⟨u, v, rfl, iha hsees.1 hbefore ?_ hu, ihb hsees.2 ?_ hafter hv⟩
    · cases v with
      | nil => exact hafter
      | cons c v => rfl
    · obtain rfl | ⟨u, c, rfl⟩ := u.eq_nil_or_concat
      · simpa using hbefore
      · simp
  | alt a b iha ihb => exact h.imp (iha hsees.1 hbefore hafter) (ihb hsees.2 hbefore hafter)
  | capture a ih => exact ih hsees hbefore hafter h

end Context

section Occurs

/-- The pattern has a match within the text, which stands between `before` and `after`. -/
def Occurs (a : Pattern) (before : Option Char) (s after : List Char) : Prop :=
  ∃ u w v, s = u ++ (w ++ v) ∧ a.Matches (lastOr before u) w (v ++ after)

lemma occurs_iff_search : a.Occurs before s [] ↔ a.search before s = true := by
  simp only [Occurs, search_iff, List.append_nil, List.append_assoc]

lemma not_occurs_nil (hwidth : 0 < a.minWidth) : ¬ a.Occurs before [] after := by
  rintro ⟨u, w, v, hs, hmatch⟩
  have hw : w = [] := by
    have := congrArg List.length hs
    simp only [List.length_nil, List.length_append] at this
    exact List.length_eq_zero_iff.mp (by omega)
  exact ne_nil_of_matches hwidth hmatch hw

lemma not_occurs_of_short (h : s.length < a.minWidth) : ¬ a.Occurs before s after := by
  rintro ⟨u, w, v, rfl, hmatch⟩
  have := minWidth_le hmatch
  simp only [List.length_append] at h
  omega

/-- Where a character stands in two ways of cutting a text into three. -/
lemma cut_cases {u v w x y : List Char} (h : x ++ d :: y = u ++ (w ++ v)) :
    (∃ v', x = u ++ (w ++ v') ∧ v = v' ++ d :: y) ∨ (∃ w₁ w₂, w = w₁ ++ d :: w₂ ∧ x = u ++ w₁ ∧ y = w₂ ++ v) ∨
      ∃ u', u = x ++ d :: u' ∧ y = u' ++ (w ++ v) := by
  rcases List.append_eq_append_iff.mp h with ⟨m, rfl, hm⟩ | ⟨m, rfl, hm⟩
  · cases m with
    | nil =>
      cases w with
      | nil => exact .inl ⟨[], by simp, by simpa using hm.symm⟩
      | cons e w =>
        cases hm
        exact .inr (.inl ⟨[], w, by simp⟩)
    | cons e m =>
      cases hm
      exact .inr (.inr ⟨m, rfl, rfl⟩)
  · rcases List.append_eq_append_iff.mp hm with ⟨n, rfl, hn⟩ | ⟨n, rfl, hn⟩
    · exact .inl ⟨n, rfl, hn⟩
    · cases n with
      | nil => exact .inl ⟨[], by simp, by simpa using hn.symm⟩
      | cons e n =>
        cases hn
        exact .inr (.inl ⟨m, n, rfl, rfl, rfl⟩)

lemma head_append_cons (v : List Char) (y after : List Char) :
    (v ++ d :: y ++ after).head? = (v ++ [d]).head? := by
  cases v <;> rfl

/-- A character that no match has keeps the matches on both of its sides apart. -/
lemma occurs_separated {word : Char → Bool} (hsees : a.SeesOnly word) (hd : a.mentions d = false) :
    a.Occurs before (s ++ d :: t) after ↔ a.Occurs before s [d] ∨ a.Occurs (some d) t after := by
  constructor
  · rintro ⟨u, w, v, hs, hmatch⟩
    rcases cut_cases hs with ⟨v', rfl, rfl⟩ | ⟨w₁, w₂, rfl, -, -⟩ | ⟨u', rfl, rfl⟩
    · refine .inl ⟨u, w, v', rfl, matches_elsewhere hsees rfl ?_ hmatch⟩
      rw [head_append_cons]
    · have hmem : d ∈ w₁ ++ d :: w₂ := by simp
      simp [mentions_of_mem hmatch hmem] at hd
    · exact .inr ⟨u', w, v, rfl, by simpa using hmatch⟩
  · rintro (⟨u, w, v, rfl, hmatch⟩ | ⟨u, w, v, rfl, hmatch⟩)
    · refine ⟨u, w, v ++ d :: t, by simp, matches_elsewhere hsees rfl ?_ hmatch⟩
      rw [head_append_cons]
    · exact ⟨s ++ d :: u, w, v, by simp, by simpa using hmatch⟩

/-- What a match neither begins nor ends with can be cut off, as long as the boundary does not see it. -/
lemma occurs_between {word blank : Char → Bool} (hsees : a.SeesOnly word) (hwidth : 0 < a.minWidth)
    (hfirst : ∀ c, a.firsts c = true → blank c = false) (hlast : ∀ c, a.lasts c = true → blank c = false)
    (hword : ∀ c, blank c = true → word c = false) {x y : List Char} (hx : ∀ c ∈ x, blank c = true)
    (hy : ∀ c ∈ y, blank c = true) : a.Occurs none (x ++ (s ++ y)) [] ↔ a.Occurs none s [] := by
  have hbefore (u : List Char) : (lastOr none (x ++ u)).any word = (lastOr none u).any word := by
    obtain rfl | ⟨u, c, rfl⟩ := u.eq_nil_or_concat
    · obtain rfl | ⟨x, c, rfl⟩ := x.eq_nil_or_concat
      · rfl
      · simpa using hword c (hx c (by simp))
    · simp
  have hafter (v : List Char) : (v ++ y).head?.any word = v.head?.any word := by
    cases v with
    | nil =>
      cases y with
      | nil => rfl
      | cons c y => simpa using hword c (hy c (by simp))
    | cons c v => rfl
  constructor
  · rintro ⟨u, w, v, hs, hmatch⟩
    have hne := ne_nil_of_matches hwidth hmatch
    obtain ⟨u', rfl, hu'⟩ : ∃ u', u = x ++ u' ∧ s ++ y = u' ++ (w ++ v) := by
      rcases List.append_eq_append_iff.mp hs with ⟨m, hm⟩ | ⟨m, hm, hmv⟩
      · exact ⟨m, hm⟩
      · cases m with
        | nil => exact ⟨[], by simpa using hm.symm, hmv.symm⟩
        | cons e m =>
          obtain ⟨c, w, rfl⟩ := List.exists_cons_of_ne_nil hne
          obtain ⟨rfl, -⟩ := List.cons.inj hmv
          have hblank := hx c (by simp [hm])
          exact absurd (hfirst c (firsts_of_matches hmatch)) (by simp [hblank])
    obtain ⟨v', rfl, hv'⟩ : ∃ v', v = v' ++ y ∧ s = u' ++ (w ++ v') := by
      rw [← List.append_assoc] at hu'
      rcases List.append_eq_append_iff.mp hu' with ⟨m, hm, hmy⟩ | ⟨m, hm, hmv⟩
      · obtain rfl | ⟨m, c, rfl⟩ := m.eq_nil_or_concat
        · exact ⟨[], by simpa using hmy.symm, by simpa using hm.symm⟩
        · obtain ⟨w, e, rfl⟩ := (List.eq_nil_or_concat w).resolve_left hne
          simp only [List.concat_eq_append, ← List.append_assoc] at hm hmy
          obtain ⟨-, hce⟩ := List.append_inj' hm rfl
          obtain rfl : e = c := by simpa using hce
          have hblank := hy e (by simp [hmy])
          rw [List.concat_eq_append] at hmatch
          exact absurd (hlast e (lasts_of_matches hmatch)) (by simp [hblank])
      · exact ⟨m, hmv, by simpa using hm⟩
    refine ⟨u', w, v', hv', matches_elsewhere hsees (hbefore u') ?_ hmatch⟩
    simpa using hafter v'
  · rintro ⟨u, w, v, rfl, hmatch⟩
    refine ⟨x ++ u, w, v ++ y, by simp, matches_elsewhere hsees (hbefore u).symm ?_ hmatch⟩
    simpa using (hafter v).symm

end Occurs

section Finding

/-- What is found stands in the text, between what is before it and what the engine says follows. -/
lemma findIter_captured {skip : ℕ} {found : Place} (h : found ∈ (capture a).findIter skip before s) :
    ∃ u, s = u ++ (found.captured ++ found.rest) ∧ a.Matches (lastOr before u) found.captured found.rest := by
  induction s generalizing skip before with
  | nil =>
    cases skip <;> cases h
  | cons c rest ih =>
    have later {skip : ℕ} (h : found ∈ (capture a).findIter skip (some c) rest) :
        ∃ u, c :: rest = u ++ (found.captured ++ found.rest) ∧
          a.Matches (lastOr before u) found.captured found.rest := by
      obtain ⟨u, hu, hmatch⟩ := ih h
      exact ⟨c :: u, by rw [hu, List.cons_append], by simpa using hmatch⟩
    cases skip with
    | succ skip => exact later h
    | zero =>
      rw [findIter] at h
      cases hrun : ((capture a).run ⟨before, c :: rest, []⟩).head? with
      | none =>
        rw [hrun] at h
        exact later h
      | some t =>
        rw [hrun] at h
        rcases List.mem_cons.mp h with rfl | h
        · obtain ⟨m, hm, rfl⟩ := List.mem_map.mp (List.mem_of_head? hrun)
          obtain ⟨w, hw, -, hmatch⟩ := matches_of_mem_run hm
          replace hw : c :: rest = w ++ m.rest := hw
          have hcaptured : (c :: rest).take ((c :: rest).length - m.rest.length) = w := by
            rw [hw, List.length_append, Nat.add_sub_cancel, List.take_left]
          refine ⟨[], ?_, ?_⟩
          · simpa only [hcaptured, List.nil_append] using hw
          · simpa only [hcaptured, lastOr_nil] using hmatch
        · exact later h

lemma findIter_ne_nil_iff (hwidth : 0 < a.minWidth) :
    (capture a).findIter 0 before s ≠ [] ↔ a.search before s = true := by
  have hcapture (place : Place) : (capture a).run place = [] ↔ a.run place = [] := List.map_eq_nil_iff
  induction s generalizing before with
  | nil =>
    refine iff_of_false (fun h => h rfl) ?_
    rw [← occurs_iff_search]
    exact not_occurs_nil hwidth
  | cons c rest ih =>
    rw [findIter, search, Bool.or_eq_true, Bool.not_eq_true', List.isEmpty_eq_false_iff]
    cases hrun : ((capture a).run ⟨before, c :: rest, []⟩).head? with
    | none =>
      have hnil := (hcapture _).mp (List.head?_eq_none_iff.mp hrun)
      simpa [hnil] using ih
    | some t =>
      have hsome : a.run ⟨before, c :: rest, []⟩ ≠ [] := by
        intro hnil
        rw [(hcapture _).mpr hnil] at hrun
        cases hrun
      exact iff_of_true (List.cons_ne_nil _ _) (.inl hsome)

end Finding

end Pattern

end PlatformGitops.Library.Regex
