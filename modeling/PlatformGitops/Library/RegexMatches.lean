import PlatformGitops.Library.Regex

/-! What a pattern matches, apart from the order in which a matcher finds it. -/

namespace PlatformGitops.Library.Regex

/-- The character before what follows a text. -/
def lastOr (before : Option Char) (w : List Char) : Option Char := w.getLast?.or before

section LastOr

variable {before : Option Char} {c : Char} {u v : List Char}

@[simp] lemma lastOr_nil : lastOr before [] = before := by simp [lastOr]

@[simp] lemma lastOr_cons : lastOr before (c :: u) = lastOr (some c) u := by
  cases h : u.getLast? <;> simp [lastOr, List.getLast?_cons, h]

@[simp] lemma lastOr_append : lastOr before (u ++ v) = lastOr (lastOr before u) v := by
  induction u generalizing before with
  | nil => simp
  | cons c u ih => simp [ih]

lemma lastOr_eq_none : lastOr before u = none ↔ before = none ∧ u = [] := by
  cases h : u.getLast? with
  | none => simp [lastOr, List.getLast?_eq_none_iff.mp h]
  | some c =>
    have hne : u ≠ [] := by
      rintro rfl
      cases h
    simp [lastOr, h, hne]

end LastOr

namespace Pattern

/-- The text is a match, behind the character `before` and in front of the text `after`. -/
def Matches : Pattern → Option Char → List Char → List Char → Prop
  | empty, _, w, _ => w = []
  | chars p, _, w, _ => ∃ c, p c = true ∧ w = [c]
  | many p, _, w, _ => ∀ c ∈ w, p c = true
  | boundary word, before, w, after => w = [] ∧ (before.any word != after.head?.any word) = true
  | look p, before, w, after => w = [] ∧ p before after.head? = true
  | seq a b, before, w, after =>
    ∃ u v, w = u ++ v ∧ a.Matches before u (v ++ after) ∧ b.Matches (lastOr before u) v after
  | alt a b, before, w, after => a.Matches before w after ∨ b.Matches before w after
  | capture a, before, w, after => a.Matches before w after

variable {a b : Pattern} {p : Char → Bool} {before : Option Char} {w after : List Char}

lemma mem_runMany {captured rest : List Char} {t : Place} : t ∈ runMany p before captured rest ↔
    ∃ w, rest = w ++ t.rest ∧ (∀ c ∈ w, p c = true) ∧ t = ⟨lastOr before w, t.rest, captured⟩ := by
  induction rest generalizing before with
  | nil =>
    simp only [runMany, List.mem_singleton, List.nil_eq, List.append_eq_nil_iff]
    constructor
    · rintro rfl
      exact ⟨[], by simp⟩
    · rintro ⟨w, ⟨rfl, hrest⟩, -, ht⟩
      rw [ht, hrest, lastOr_nil]
  | cons c rest ih =>
    simp only [runMany]
    constructor
    · intro h
      split at h
      · next hc =>
        rcases List.mem_append.mp h with h | h
        · obtain ⟨w, hw, hall, ht⟩ := ih.mp h
          refine ⟨c :: w, by simp [hw], List.forall_mem_cons.mpr ⟨hc, hall⟩, ?_⟩
          rwa [lastOr_cons]
        · obtain rfl := List.mem_singleton.mp h
          exact ⟨[], by simp⟩
      · obtain rfl := List.mem_singleton.mp h
        exact ⟨[], by simp⟩
    · rintro ⟨w, hw, hall, ht⟩
      cases w with
      | nil =>
        have hlast : t = ⟨before, c :: rest, captured⟩ := by
          rw [ht, ← List.nil_append t.rest, ← hw, lastOr_nil]
        rw [hlast]
        split <;> simp
      | cons d w =>
        obtain ⟨rfl, hrest⟩ := List.cons.inj hw
        obtain ⟨hd, hall⟩ := List.forall_mem_cons.mp hall
        rw [if_pos hd]
        exact List.mem_append_left _ (ih.mpr ⟨w, hrest, hall, by rwa [lastOr_cons] at ht⟩)

/-- What the matcher finds is a match. -/
lemma matches_of_mem_run {s t : Place} (h : t ∈ a.run s) :
    ∃ w, s.rest = w ++ t.rest ∧ t.before = lastOr s.before w ∧ a.Matches s.before w t.rest := by
  induction a generalizing s t with
  | empty =>
    obtain rfl := List.mem_singleton.mp h
    exact ⟨[], rfl, lastOr_nil.symm, rfl⟩
  | chars p =>
    unfold run at h
    cases hrest : s.rest with
    | nil => simp [hrest] at h
    | cons c rest =>
      by_cases hc : p c = true
      · simp only [hrest, hc, if_true, List.mem_singleton] at h
        subst h
        exact ⟨[c], rfl, by simp, c, hc, rfl⟩
      · simp [hrest, hc] at h
  | many p =>
    obtain ⟨w, hw, hall, ht⟩ := mem_runMany.mp h
    exact ⟨w, hw, by rw [ht], hall⟩
  | boundary word =>
    unfold run Place.atBoundary at h
    split at h
    · next hb =>
      obtain rfl := List.mem_singleton.mp h
      exact ⟨[], rfl, lastOr_nil.symm, rfl, hb⟩
    · cases h
  | look p =>
    unfold run at h
    split at h
    · next hp =>
      obtain rfl := List.mem_singleton.mp h
      exact ⟨[], rfl, lastOr_nil.symm, rfl, hp⟩
    · cases h
  | seq a b iha ihb =>
    obtain ⟨m, hm, ht⟩ := List.mem_flatMap.mp h
    obtain ⟨u, hu, hum, hua⟩ := iha hm
    obtain ⟨v, hv, hvt, hvb⟩ := ihb ht
    refine ⟨u ++ v, by rw [hu, hv, List.append_assoc], by rw [hvt, hum, lastOr_append], u, v, rfl, ?_, ?_⟩
    · rwa [← hv]
    · rwa [← hum]
  | alt a b iha ihb =>
    rcases List.mem_append.mp h with h | h
    · obtain ⟨w, hw, hlast, hmatch⟩ := iha h
      exact ⟨w, hw, hlast, .inl hmatch⟩
    · obtain ⟨w, hw, hlast, hmatch⟩ := ihb h
      exact ⟨w, hw, hlast, .inr hmatch⟩
  | capture a ih =>
    obtain ⟨m, hm, rfl⟩ := List.mem_map.mp h
    obtain ⟨w, hw⟩ := ih hm
    exact ⟨w, hw⟩

/-- The matcher finds every match. -/
lemma mem_run_of_matches {s : Place} (h : a.Matches s.before w after) (hrest : s.rest = w ++ after) :
    ∃ t ∈ a.run s, t.rest = after ∧ t.before = lastOr s.before w := by
  induction a generalizing s w after with
  | empty =>
    obtain rfl : w = [] := h
    exact ⟨s, List.mem_singleton.mpr rfl, hrest, lastOr_nil.symm⟩
  | chars p =>
    obtain ⟨c, hc, rfl⟩ := h
    exact ⟨⟨some c, after, s.captured⟩, by simp [run, hrest, hc], rfl, by simp⟩
  | many p => exact ⟨⟨lastOr s.before w, after, s.captured⟩, mem_runMany.mpr ⟨w, hrest, h, rfl⟩, rfl, rfl⟩
  | boundary word =>
    obtain ⟨rfl, hb⟩ := h
    exact ⟨s, by simp_all [run, Place.atBoundary], hrest, lastOr_nil.symm⟩
  | look p =>
    obtain ⟨rfl, hp⟩ := h
    exact ⟨s, by simp_all [run], hrest, lastOr_nil.symm⟩
  | seq a b iha ihb =>
    obtain ⟨u, v, rfl, hu, hv⟩ := h
    obtain ⟨m, hm, hmrest, hmbefore⟩ := iha hu (by rw [hrest, List.append_assoc])
    obtain ⟨t, ht, htrest, htbefore⟩ := ihb (by rwa [hmbefore]) hmrest
    exact ⟨t, List.mem_flatMap.mpr ⟨m, hm, ht⟩, htrest, by rw [htbefore, hmbefore, lastOr_append]⟩
  | alt a b iha ihb =>
    rcases h with h | h
    · obtain ⟨t, ht, hafter⟩ := iha h hrest
      exact ⟨t, List.mem_append_left _ ht, hafter⟩
    · obtain ⟨t, ht, hafter⟩ := ihb h hrest
      exact ⟨t, List.mem_append_right _ ht, hafter⟩
  | capture a ih =>
    obtain ⟨t, ht, hafter⟩ := ih h hrest
    exact ⟨_, List.mem_map.mpr ⟨t, ht, rfl⟩, hafter⟩

lemma run_ne_nil_iff {s : Place} :
    a.run s ≠ [] ↔ ∃ w after, s.rest = w ++ after ∧ a.Matches s.before w after := by
  constructor
  · intro h
    obtain ⟨t, ht⟩ := List.exists_mem_of_ne_nil _ h
    obtain ⟨w, hw, -, hmatch⟩ := matches_of_mem_run ht
    exact ⟨w, t.rest, hw, hmatch⟩
  · rintro ⟨w, after, hw, hmatch⟩
    obtain ⟨t, ht, -⟩ := mem_run_of_matches hmatch hw
    exact List.ne_nil_of_mem ht

section Combinators

@[simp] lemma matches_empty : empty.Matches before w after ↔ w = [] := Iff.rfl

@[simp] lemma matches_chars : (chars p).Matches before w after ↔ ∃ c, p c = true ∧ w = [c] := Iff.rfl

@[simp] lemma matches_many : (many p).Matches before w after ↔ ∀ c ∈ w, p c = true := Iff.rfl

@[simp] lemma matches_look {l : Option Char → Option Char → Bool} :
    (look l).Matches before w after ↔ w = [] ∧ l before after.head? = true := Iff.rfl

lemma matches_seq : (seq a b).Matches before w after ↔
    ∃ u v, w = u ++ v ∧ a.Matches before u (v ++ after) ∧ b.Matches (lastOr before u) v after := Iff.rfl

@[simp] lemma matches_alt :
    (alt a b).Matches before w after ↔ a.Matches before w after ∨ b.Matches before w after := Iff.rfl

lemma matches_optional : (optional a).Matches before w after ↔ a.Matches before w after ∨ w = [] := Iff.rfl

@[simp] lemma matches_char {c : Char} : (char c).Matches before w after ↔ w = [c] := by
  simp [char]

lemma matches_oneOrMore : (oneOrMore p).Matches before w after ↔ w ≠ [] ∧ ∀ c ∈ w, p c = true := by
  simp only [oneOrMore, matches_seq, matches_chars, matches_many]
  constructor
  · rintro ⟨_, v, rfl, ⟨c, hc, rfl⟩, hv⟩
    exact ⟨nofun, List.forall_mem_cons.mpr ⟨hc, hv⟩⟩
  · rintro ⟨hne, hall⟩
    cases w with
    | nil => exact absurd rfl hne
    | cons c v =>
      obtain ⟨hc, hv⟩ := List.forall_mem_cons.mp hall
      exact ⟨[c], v, rfl, ⟨c, hc, rfl⟩, hv⟩

lemma matches_exactly {n : ℕ} : (exactly p n).Matches before w after ↔ w.length = n ∧ ∀ c ∈ w, p c = true := by
  induction n generalizing before w with
  | zero =>
    rw [exactly, matches_empty, List.length_eq_zero_iff, iff_self_and]
    rintro rfl
    exact List.forall_mem_nil _
  | succ n ih =>
    simp only [exactly, matches_seq, matches_chars, ih]
    constructor
    · rintro ⟨_, v, rfl, ⟨c, hc, rfl⟩, hlen, hv⟩
      exact ⟨by simp [hlen], List.forall_mem_cons.mpr ⟨hc, hv⟩⟩
    · rintro ⟨hlen, hall⟩
      cases w with
      | nil => cases hlen
      | cons c v =>
        obtain ⟨hc, hv⟩ := List.forall_mem_cons.mp hall
        exact ⟨[c], v, rfl, ⟨c, hc, rfl⟩, by simpa using hlen, hv⟩

@[simp] lemma matches_word {cs : List Char} : (word cs).Matches before w after ↔ w = cs := by
  induction cs generalizing before w with
  | nil => simp [word]
  | cons c cs ih =>
    simp only [word, matches_seq, matches_char, ih]
    constructor
    · rintro ⟨_, _, rfl, rfl, rfl⟩
      rfl
    · rintro rfl
      exact ⟨[c], cs, rfl, rfl, rfl⟩

lemma matches_notBehind : (notBehind p).Matches before w after ↔ w = [] ∧ before.any p = false := by
  simp [notBehind]

lemma matches_notAhead : (notAhead p).Matches before w after ↔ w = [] ∧ after.head?.any p = false := by
  simp [notAhead]

/-- One part after another, with a fixed beginning. -/
lemma matches_all_cons {as : List Pattern} : (all (a :: as)).Matches before w after ↔
    ∃ u v, w = u ++ v ∧ a.Matches before u (v ++ after) ∧ (all as).Matches (lastOr before u) v after := Iff.rfl

lemma matches_all_append {as bs : List Pattern} : (all (as ++ bs)).Matches before w after ↔
    ∃ u v, w = u ++ v ∧ (all as).Matches before u (v ++ after) ∧ (all bs).Matches (lastOr before u) v after := by
  induction as generalizing before w with
  | nil =>
    constructor
    · intro h
      exact ⟨[], w, rfl, rfl, by simpa using h⟩
    · rintro ⟨_, v, rfl, rfl, h⟩
      simpa using h
  | cons a as ih =>
    rw [List.cons_append, matches_all_cons]
    constructor
    · rintro ⟨u, _, rfl, ha, h⟩
      obtain ⟨v, x, rfl, has, hbs⟩ := ih.mp h
      refine ⟨u ++ v, x, by simp, ⟨u, v, rfl, by simpa using ha, has⟩, by simpa using hbs⟩
    · rintro ⟨_, x, rfl, ⟨u, v, rfl, ha, has⟩, hbs⟩
      exact ⟨u, v ++ x, by simp, by simpa using ha, ih.mpr ⟨v, x, rfl, has, by simpa using hbs⟩⟩

@[simp] lemma matches_all_nil : (all []).Matches before w after ↔ w = [] := Iff.rfl

end Combinators

section Context

/-- A pattern that looks at nothing but the text it matches. -/
def contextFree : Pattern → Bool
  | boundary _ | look _ => false
  | seq a b | alt a b => a.contextFree && b.contextFree
  | capture a => a.contextFree
  | _ => true

lemma matches_anywhere (hfree : a.contextFree = true) {before' : Option Char} {after' : List Char}
    (h : a.Matches before w after) : a.Matches before' w after' := by
  induction a generalizing before before' w after after' with
  | empty | chars | many => exact h
  | boundary | look => cases hfree
  | seq a b iha ihb =>
    obtain ⟨hfa, hfb⟩ := Bool.and_eq_true_iff.mp hfree
    obtain ⟨u, v, rfl, hu, hv⟩ := h
    exact ⟨u, v, rfl, iha hfa hu, ihb hfb hv⟩
  | alt a b iha ihb =>
    obtain ⟨hfa, hfb⟩ := Bool.and_eq_true_iff.mp hfree
    exact h.imp (iha hfa) (ihb hfb)
  | capture a ih => exact ih hfree h

/-- The characters that a match may have. -/
def mentions : Pattern → Char → Bool
  | chars p, c | many p, c => p c
  | seq a b, c | alt a b, c => a.mentions c || b.mentions c
  | capture a, c => a.mentions c
  | _, _ => false

lemma mentions_of_mem {c : Char} (h : a.Matches before w after) (hc : c ∈ w) : a.mentions c = true := by
  induction a generalizing before w after with
  | empty =>
    obtain rfl : w = [] := h
    cases hc
  | boundary | look =>
    obtain ⟨rfl, -⟩ := h
    cases hc
  | chars p =>
    obtain ⟨d, hd, rfl⟩ := h
    obtain rfl := List.mem_singleton.mp hc
    exact hd
  | many p => exact h c hc
  | seq a b iha ihb =>
    obtain ⟨u, v, rfl, hu, hv⟩ := h
    rw [mentions, Bool.or_eq_true]
    exact (List.mem_append.mp hc).imp (iha hu) (ihb hv)
  | alt a b iha ihb =>
    rw [mentions, Bool.or_eq_true]
    exact h.imp (iha · hc) (ihb · hc)
  | capture a ih => exact ih h hc

end Context

section Search

/-- Whether a pattern matches anywhere in a text. -/
def search (a : Pattern) : Option Char → List Char → Bool
  | before, [] => !(a.run ⟨before, [], []⟩).isEmpty
  | before, c :: rest => !(a.run ⟨before, c :: rest, []⟩).isEmpty || a.search (some c) rest

lemma search_iff {s : List Char} : a.search before s = true ↔
    ∃ u w after, s = u ++ w ++ after ∧ a.Matches (lastOr before u) w after := by
  have hrun (before : Option Char) (s : List Char) :
      (!(a.run ⟨before, s, []⟩).isEmpty) = true ↔ ∃ w after, s = w ++ after ∧ a.Matches before w after := by
    rw [Bool.not_eq_true', List.isEmpty_eq_false_iff, run_ne_nil_iff]
  induction s generalizing before with
  | nil =>
    rw [search, hrun]
    constructor
    · rintro ⟨w, after, hw, hmatch⟩
      exact ⟨[], w, after, hw, by simpa using hmatch⟩
    · rintro ⟨u, w, after, hw, hmatch⟩
      obtain ⟨rfl, rfl, rfl⟩ : u = [] ∧ w = [] ∧ after = [] := by simpa using hw.symm
      exact ⟨[], [], rfl, by simpa using hmatch⟩
  | cons c rest ih =>
    rw [search, Bool.or_eq_true, hrun]
    refine (or_congr Iff.rfl ih).trans ?_
    constructor
    · rintro (⟨w, after, hw, hmatch⟩ | ⟨u, w, after, rfl, hmatch⟩)
      · exact ⟨[], w, after, hw, by simpa using hmatch⟩
      · exact ⟨c :: u, w, after, rfl, by simpa using hmatch⟩
    · rintro ⟨u, w, after, hw, hmatch⟩
      cases u with
      | nil => exact .inl ⟨w, after, hw, by simpa using hmatch⟩
      | cons d u =>
        obtain ⟨rfl, rfl⟩ := List.cons.inj hw
        exact .inr ⟨u, w, after, rfl, by simpa using hmatch⟩

end Search

end Pattern

end PlatformGitops.Library.Regex

/-! What a global search makes of a text: pieces that are kept and matches that are replaced. -/

namespace PlatformGitops.Library.Regex

inductive Piece where
  | kept (c : Char)
  | replaced (w : List Char)
deriving DecidableEq, Repr

/-- The text that a piece stands for. -/
def Piece.source : Piece → List Char
  | kept c => [c]
  | replaced w => w

/-- What is left of a piece when matches are replaced. -/
def Piece.result (by' : List Char) : Piece → List Char
  | kept c => [c]
  | replaced _ => by'

def source (ps : List Piece) : List Char := ps.flatMap Piece.source

def result (by' : List Char) (ps : List Piece) : List Char := ps.flatMap (Piece.result by')

/-- The pieces of a text, from left to right, for a pattern that no empty text matches. -/
def Pattern.scan (a : Pattern) : Nat → Option Char → List Char → List Piece
  | _, _, [] => []
  | skip + 1, _, c :: rest => a.scan skip (some c) rest
  | 0, before, c :: rest =>
    match (a.run ⟨before, c :: rest, []⟩).head? with
    | some t =>
      .replaced (c :: rest.take (rest.length - t.rest.length)) :: a.scan (rest.length - t.rest.length) (some c) rest
    | none => .kept c :: a.scan 0 (some c) rest

/-- The pieces of a text: a match where one starts, and one character where none does. -/
inductive Scanned (a : Pattern) : Option Char → List Char → List Piece → Prop
  | nil {before} : Scanned a before [] []
  | kept {before c rest ps} : a.run ⟨before, c :: rest, []⟩ = [] → Scanned a (some c) rest ps →
      Scanned a before (c :: rest) (.kept c :: ps)
  | replaced {before w after ps} : a.Matches before w after → w ≠ [] → Scanned a (lastOr before w) after ps →
      Scanned a before (w ++ after) (.replaced w :: ps)

section Texts

variable {by' : List Char} {p : Piece} {ps qs : List Piece} {w : List Char}

@[simp] lemma source_nil : source [] = [] := rfl

@[simp] lemma source_cons : source (p :: ps) = p.source ++ source ps := rfl

@[simp] lemma source_append : source (ps ++ qs) = source ps ++ source qs := List.flatMap_append

@[simp] lemma source_kept : source (w.map .kept) = w := by
  induction w with
  | nil => rfl
  | cons c w ih => rw [List.map_cons, source_cons, ih]; rfl

@[simp] lemma result_nil : result by' [] = [] := rfl

@[simp] lemma result_cons : result by' (p :: ps) = p.result by' ++ result by' ps := rfl

@[simp] lemma result_append : result by' (ps ++ qs) = result by' ps ++ result by' qs := List.flatMap_append

@[simp] lemma result_kept : result by' (w.map .kept) = w := by
  induction w with
  | nil => rfl
  | cons c w ih => rw [List.map_cons, result_cons, ih]; rfl

/-- No match goes on where the pieces in front of a place end. -/
lemma cut_outside {rs qs' rs' : List Piece} {x y : List Char} (h : qs ++ rs = qs' ++ .replaced (x ++ y) :: rs')
    (hsource : source qs = source qs' ++ x) : x = [] ∨ y = [] := by
  obtain ⟨t, rfl, -⟩ | ⟨t, rfl, ht⟩ := List.append_eq_append_iff.mp h
  · rw [source_append, List.append_assoc] at hsource
    exact .inl (List.append_eq_nil_iff.mp (List.self_eq_append_right.mp hsource)).2
  · rw [source_append] at hsource
    have hx := List.append_cancel_left hsource
    cases t with
    | nil => exact .inl hx.symm
    | cons p t =>
      obtain ⟨rfl, -⟩ := List.cons.inj ht
      rw [source_cons, Piece.source, List.append_assoc] at hx
      exact .inr (List.append_eq_nil_iff.mp (List.self_eq_append_right.mp hx.symm)).1

end Texts

section Scan

variable {a : Pattern} {before : Option Char} {s rest : List Char} {ps qs : List Piece}

lemma replaceAll_eq_result (by' : List Char) (skip : Nat) :
    a.replaceAll by' skip before s = result by' (a.scan skip before s) := by
  induction s generalizing skip before with
  | nil => cases skip <;> rfl
  | cons c rest ih =>
    cases skip with
    | succ skip => exact ih skip
    | zero =>
      unfold Pattern.replaceAll Pattern.scan
      cases (a.run ⟨before, c :: rest, []⟩).head? with
      | some t => simp only [ih, result_cons, Piece.result]
      | none => simp only [ih, result_cons, Piece.result, List.singleton_append]

lemma replaceAll_of_no_match (by' : List Char) (h : a.search before s = false) : a.replaceAll by' 0 before s = s := by
  induction s generalizing before with
  | nil => rfl
  | cons c rest ih =>
    rw [Pattern.search, Bool.or_eq_false_iff, Bool.not_eq_false', List.isEmpty_iff] at h
    rw [Pattern.replaceAll, h.1]
    exact congrArg (c :: ·) (ih h.2)

lemma scan_skip (a : Pattern) (before : Option Char) (u s : List Char) :
    a.scan u.length before (u ++ s) = a.scan 0 (lastOr before u) s := by
  induction u generalizing before with
  | nil => simp
  | cons c u ih =>
    rw [List.length_cons, List.cons_append, Pattern.scan, ih, lastOr_cons]

lemma scanned_scan (hne : ∀ before after, ¬a.Matches before [] after) (before : Option Char) (s : List Char) :
    Scanned a before s (a.scan 0 before s) := by
  induction hlen : s.length using Nat.strong_induction_on generalizing before s with
  | _ n ih =>
    cases s with
    | nil => exact .nil
    | cons c rest =>
      subst hlen
      unfold Pattern.scan
      cases hrun : (a.run ⟨before, c :: rest, []⟩).head? with
      | none => exact .kept (List.head?_eq_none_iff.mp hrun) (ih rest.length (by simp) _ _ rfl)
      | some t =>
        obtain ⟨w, hw, -, hmatch⟩ := Pattern.matches_of_mem_run (List.mem_of_head? hrun)
        cases w with
        | nil => exact absurd hmatch (hne _ _)
        | cons d u =>
          obtain ⟨rfl, hrest⟩ := List.cons.inj hw
          change rest = u ++ t.rest at hrest
          have hlength : rest.length - t.rest.length = u.length := by simp [hrest]
          have hscan := ih t.rest.length (by simp only [hrest, List.length_cons, List.length_append]; omega) (lastOr (some c) u) t.rest rfl
          rw [← @lastOr_cons before] at hscan
          have hpieces := Scanned.replaced hmatch nofun hscan
          simp only [hlength]
          rw [hrest, List.take_left, scan_skip]
          rwa [lastOr_cons] at hpieces

lemma Scanned.source_eq (h : Scanned a before s ps) : source ps = s := by
  induction h with
  | nil => rfl
  | kept _ _ ih => simp [Piece.source, ih]
  | replaced _ _ _ ih => simp [Piece.source, ih]

/-- The pieces behind some of them are those of the rest of the text. -/
lemma Scanned.drop (h : Scanned a before s (ps ++ qs)) :
    ∃ rest, s = source ps ++ rest ∧ Scanned a (lastOr before (source ps)) rest qs := by
  induction ps generalizing before s with
  | nil => exact ⟨s, rfl, h⟩
  | cons p ps ih =>
    cases h with
    | kept _ hrest =>
      obtain ⟨rest, rfl, hqs⟩ := ih hrest
      exact ⟨rest, rfl, by simpa [Piece.source] using hqs⟩
    | replaced _ _ hrest =>
      obtain ⟨rest, rfl, hqs⟩ := ih hrest
      exact ⟨rest, by simp [Piece.source], by simpa [Piece.source] using hqs⟩

/-- No match starts at a character that is kept. -/
lemma Scanned.no_match {c : Char} {w after : List Char} (h : Scanned a before s (.kept c :: ps)) (hs : s = w ++ after) :
    ¬a.Matches before w after := by
  intro hmatch
  cases h with
  | kept hrun _ => exact Pattern.run_ne_nil_iff.mpr ⟨w, after, hs, hmatch⟩ hrun

/-- Where a text is cut, a piece ends or a match goes on. -/
lemma Scanned.cut {u v : List Char} (h : Scanned a before (u ++ v) ps) :
    (∃ qs rs, ps = qs ++ rs ∧ source qs = u ∧ source rs = v) ∨
      ∃ qs x y rs, ps = qs ++ .replaced (x ++ y) :: rs ∧ x ≠ [] ∧ y ≠ [] ∧ source qs ++ x = u ∧ y ++ source rs = v := by
  generalize hs : u ++ v = s at h
  induction h generalizing u v with
  | nil =>
    obtain ⟨rfl, rfl⟩ := List.append_eq_nil_iff.mp hs
    exact .inl ⟨[], [], rfl, rfl, rfl⟩
  | @kept before c rest ps hrun hrest ih =>
    cases u with
    | nil => exact .inl ⟨[], .kept c :: ps, rfl, rfl, by rw [source_cons, hrest.source_eq]; exact hs.symm⟩
    | cons d u =>
      obtain ⟨rfl, rfl⟩ := List.cons.inj hs
      obtain ⟨qs, rs, rfl, rfl, rfl⟩ | ⟨qs, x, y, rs, rfl, hx, hy, rfl, rfl⟩ := ih rfl
      · exact .inl ⟨.kept d :: qs, rs, rfl, rfl, rfl⟩
      · exact .inr ⟨.kept d :: qs, x, y, rs, rfl, hx, hy, rfl, rfl⟩
  | @replaced before w after ps hmatch hne hrest ih =>
    obtain ⟨t, rfl, rfl⟩ | ⟨t, rfl, rfl⟩ := List.append_eq_append_iff.mp hs
    · cases ht : t with
      | nil =>
        subst ht
        exact .inl ⟨[.replaced (u ++ [])], ps, rfl, by simp [Piece.source], by simpa using hrest.source_eq⟩
      | cons c t' =>
        subst ht
        cases hu : u with
        | nil =>
          subst hu
          refine .inl ⟨[], .replaced (c :: t') :: ps, by simp, rfl, ?_⟩
          rw [source_cons, hrest.source_eq]
          rfl
        | cons d u' =>
          subst hu
          exact .inr ⟨[], d :: u', c :: t', ps, rfl, nofun, nofun, rfl, by rw [hrest.source_eq]⟩
    · obtain ⟨qs, rs, rfl, rfl, rfl⟩ | ⟨qs, x, y, rs, rfl, hx, hy, rfl, rfl⟩ := ih rfl
      · exact .inl ⟨.replaced w :: qs, rs, rfl, rfl, rfl⟩
      · exact .inr ⟨.replaced w :: qs, x, y, rs, rfl, hx, hy, by simp [Piece.source], rfl⟩

end Scan

end PlatformGitops.Library.Regex
