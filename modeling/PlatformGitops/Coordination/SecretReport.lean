import PlatformGitops.Library.RegexEdges
import PlatformGitops.Coordination.SecretPatterns
import Mathlib

/-! When the report of the scanner holds none of the secrets it is about. -/

namespace PlatformGitops.Coordination.SecretScan

open Library Library.Regex Pattern

variable {W : WordTable} {a : Pattern} {c : Char} {p : Char → Bool} {n : ℕ} {s t u v token : Text}
  {before : Option Char}

section Shapes

/-- What all the patterns have in common: they look at the boundaries of words only, are not short, and neither begin
nor end with a blank. -/
structure Solid (W : WordTable) (a : Pattern) : Prop where
  sees : a.SeesOnly W.isWord
  wide : 20 ≤ a.minWidth
  first : ∀ c, a.firsts c = true → isBlank c = false
  last : ∀ c, a.lasts c = true → isBlank c = false

lemma not_blank_of_visible (h : 33 ≤ c.toNat ∧ c.toNat ≤ 126) : isBlank c = false := by
  simp only [isBlank, decide_eq_false_iff_not, List.mem_cons, List.not_mem_nil, or_false]
  omega

lemma visible_of_alphanum (h : c.isAlphanum = true) : 33 ≤ c.toNat ∧ c.toNat ≤ 126 := by
  simp only [Char.isAlphanum, Char.isAlpha, Char.isUpper, Char.isLower, Char.isDigit, Bool.or_eq_true,
    Bool.and_eq_true, decide_eq_true_eq, UInt32.le_iff_toNat_le, ge_iff_le] at h
  change ((65 ≤ c.toNat ∧ c.toNat ≤ 90) ∨ (97 ≤ c.toNat ∧ c.toNat ≤ 122)) ∨ (48 ≤ c.toNat ∧ c.toNat ≤ 57) at h
  omega

lemma not_blank_of_mem (cs : List Char) (hcs : cs.all (fun c => !isBlank c) = true) (h : c.isAlphanum = true ∨ c ∈ cs) :
    isBlank c = false := by
  rcases h with h | h
  · exact not_blank_of_visible (visible_of_alphanum h)
  · simpa using List.all_eq_true.mp hcs c h

lemma solid_githubToken : Solid W (githubToken W) := by
  constructor
  case sees => exact ⟨rfl, seesOnly_word _, trivial, trivial, seesOnly_atLeast _, rfl, trivial⟩
  case wide => simp [githubToken, Pattern.all, minWidth, Pattern.char]
  case first =>
    intro c h
    obtain rfl : c = 'g' := by simpa [githubToken, Pattern.all, firsts, nullable, Pattern.word, Pattern.char] using h
    rfl
  case last =>
    intro c h
    have h : (atLeast (fun c => c.isAlphanum || c == '_') 30).lasts c = true := by
      simpa [githubToken, Pattern.all, lasts, nullable, atLeast, exactly] using h
    have hc := lasts_atLeast h
    exact not_blank_of_mem ['_'] (by decide) (by simpa using hc)

lemma solid_githubPat : Solid W (githubPat W) := by
  constructor
  case sees => exact ⟨rfl, seesOnly_word _, seesOnly_atLeast _, rfl, trivial⟩
  case wide => simp [githubPat, Pattern.all, minWidth]
  case first =>
    intro c h
    obtain rfl : c = 'g' := by simpa [githubPat, Pattern.all, firsts, nullable, Pattern.word, Pattern.char] using h
    rfl
  case last =>
    intro c h
    have h : (atLeast (fun c => c.isAlphanum || c == '_') 40).lasts c = true := by
      simpa [githubPat, Pattern.all, lasts, nullable, atLeast, exactly] using h
    have hc := lasts_atLeast h
    exact not_blank_of_mem ['_'] (by decide) (by simpa using hc)

lemma solid_awsAccessKey : Solid W (awsAccessKey W) := by
  constructor
  case sees => exact ⟨rfl, seesOnly_word _, seesOnly_exactly _, rfl, trivial⟩
  case wide => simp [awsAccessKey, Pattern.all, minWidth]
  case first =>
    intro c h
    obtain rfl : c = 'A' := by simpa [awsAccessKey, Pattern.all, firsts, nullable, Pattern.word, Pattern.char] using h
    rfl
  case last =>
    intro c h
    have h : (exactly (fun c => c.isDigit || c.isUpper) 16).lasts c = true := by
      simpa [awsAccessKey, Pattern.all, lasts, nullable, exactly] using h
    have hc := lasts_exactly h
    refine not_blank_of_mem [] rfl (.inl ?_)
    rw [Bool.or_eq_true] at hc
    rcases hc with hc | hc <;> simp [Char.isAlphanum, Char.isAlpha, hc]

lemma solid_googleApiKey : Solid W (googleApiKey W) := by
  constructor
  case sees => exact ⟨rfl, seesOnly_word _, seesOnly_exactly _, rfl, trivial⟩
  case wide => simp [googleApiKey, Pattern.all, minWidth]
  case first =>
    intro c h
    obtain rfl : c = 'A' := by simpa [googleApiKey, Pattern.all, firsts, nullable, Pattern.word, Pattern.char] using h
    rfl
  case last =>
    intro c h
    have h : (exactly (fun c => c.isAlphanum || c == '_' || c == '-') 35).lasts c = true := by
      simpa [googleApiKey, Pattern.all, lasts, nullable, exactly] using h
    have hc := lasts_exactly h
    exact not_blank_of_mem ['_', '-'] (by decide) (by simpa [or_assoc] using hc)

lemma solid_slackToken : Solid W (slackToken W) := by
  constructor
  case sees => exact ⟨rfl, seesOnly_word _, trivial, trivial, seesOnly_atLeast _, rfl, trivial⟩
  case wide => simp [slackToken, Pattern.all, minWidth, Pattern.char]
  case first =>
    intro c h
    obtain rfl : c = 'x' := by simpa [slackToken, Pattern.all, firsts, nullable, Pattern.word, Pattern.char] using h
    rfl
  case last =>
    intro c h
    have h : (atLeast (fun c => c.isAlphanum || c == '-') 20).lasts c = true := by
      simpa [slackToken, Pattern.all, lasts, nullable, atLeast, exactly] using h
    have hc := lasts_atLeast h
    exact not_blank_of_mem ['-'] (by decide) (by simpa using hc)

lemma solid_privateKey : Solid W privateKey := by
  constructor
  case sees =>
    refine ⟨seesOnly_word _, ⟨⟨seesOnly_word _, seesOnly_word _, seesOnly_word _, seesOnly_word _⟩, trivial⟩,
      seesOnly_word _, trivial⟩
  case wide => simp [privateKey, Pattern.all, Pattern.optional, keyKind, minWidth]
  case first =>
    intro c h
    obtain rfl : c = '-' := by simpa [privateKey, Pattern.all, firsts, nullable, Pattern.word, Pattern.char] using h
    rfl
  case last =>
    intro c h
    obtain rfl : c = '-' := by simpa [privateKey, Pattern.all, lasts, nullable, Pattern.word, Pattern.char] using h
    rfl

lemma solid_bearerToken : Solid W (bearerToken W) := by
  constructor
  case sees =>
    exact ⟨rfl, trivial, seesOnly_word _, ⟨trivial, trivial⟩, seesOnly_atLeast _, seesOnly_upTo _, rfl,
      trivial⟩
  case wide =>
    simp only [bearerToken, Pattern.all, Pattern.oneOrMore, minWidth, minWidth_word, minWidth_atLeast]
    omega
  case first =>
    intro c h
    have hc : c = 'B' ∨ c = 'b' := by simpa [bearerToken, Pattern.all, firsts, nullable] using h
    rcases hc with rfl | rfl <;> rfl
  case last =>
    intro c h
    have h : (upTo (· == '=') 2).lasts c = true ∨ (atLeast tokenChar 40).lasts c = true := by
      simpa [bearerToken, Pattern.all, lasts, nullable, atLeast, exactly, upTo] using h
    rcases h with h | h
    · obtain rfl : c = '=' := by simpa [upTo, lasts, nullable] using h
      rfl
    · have hc := lasts_atLeast h
      exact not_blank_of_mem ['.', '_', '~', '+', '/', '-'] (by decide) (by simpa [tokenChar] using hc)

lemma solid_of_mem {named : String × Pattern} (h : named ∈ PATTERNS W) : Solid W named.2 := by
  simp only [PATTERNS, List.mem_cons, List.not_mem_nil, or_false] at h
  rcases h with rfl | rfl | rfl | rfl | rfl | rfl | rfl
  · exact solid_githubToken
  · exact solid_githubPat
  · exact solid_awsAccessKey
  · exact solid_googleApiKey
  · exact solid_slackToken
  · exact solid_privateKey
  · exact solid_bearerToken

/-- Only the pattern of bearer tokens has a dot in its matches. -/
lemma mentions_dot {named : String × Pattern} (h : named ∈ PATTERNS W) :
    named.2.mentions '.' = false ∨ named.2 = bearerToken W := by
  simp only [PATTERNS, List.mem_cons, List.not_mem_nil, or_false] at h
  rcases h with rfl | rfl | rfl | rfl | rfl | rfl | rfl
  · exact .inl rfl
  · exact .inl rfl
  · exact .inl rfl
  · exact .inl rfl
  · exact .inl rfl
  · exact .inl rfl
  · exact .inr rfl

end Shapes

section Dots

def LeaksWithin (W : WordTable) (before : Option Char) (s after : Text) : Prop :=
  ∃ named ∈ PATTERNS W, named.2.Occurs before s after

/-- A bearer token begins in the first text, runs across three dots and ends in the second. -/
def BearerAcross (W : WordTable) (s t : Text) : Prop :=
  ∃ x b blanks x₁ x₂ es y, s = x ++ b :: (['e', 'a', 'r', 'e', 'r'] ++ (blanks ++ x₁)) ∧ t = x₂ ++ (es ++ y) ∧
    (b = 'B' ∨ b = 'b') ∧ (lastOr none x).any W.isWord = false ∧ blanks ≠ [] ∧ (∀ c ∈ blanks, isBlank c = true) ∧
    (∀ c ∈ x₁ ++ x₂, tokenChar c = true) ∧ 40 ≤ x₁.length + 3 + x₂.length ∧ es.length ≤ 2 ∧
    (∀ c ∈ es, c = '=') ∧ (lastOr (some '.') (x₂ ++ es)).any W.isWord ≠ y.head?.any W.isWord

lemma leaks_iff : Leaks W s ↔ LeaksWithin W none s [] := by
  simp only [Leaks, LeaksWithin, occurs_iff_search]

lemma leaks_strip : Leaks W (strip s) ↔ Leaks W s := by
  obtain ⟨x, y, hs, hx, hy⟩ := strip_spec s
  rw [leaks_iff, leaks_iff]
  refine exists_congr fun named => and_congr_right fun hmem => ?_
  have hsolid := solid_of_mem hmem
  conv_rhs => rw [hs]
  exact (occurs_between hsolid.sees (by have := hsolid.wide; omega) hsolid.first hsolid.last W.blank hx hy).symm

lemma occurs_behind_dot (hsolid : Solid W a) (hdot : a.mentions '.' = false) :
    a.Occurs before ('.' :: t) [] ↔ a.Occurs (some '.') t [] := by
  have hwidth : 0 < a.minWidth := by
    have := hsolid.wide
    omega
  rw [← List.nil_append ('.' :: t), occurs_separated hsolid.sees hdot, or_iff_right (not_occurs_nil hwidth)]

lemma occurs_dots (hsolid : Solid W a) (hdot : a.mentions '.' = false) :
    a.Occurs none (s ++ '.' :: '.' :: '.' :: t) [] ↔ a.Occurs none s ['.'] ∨ a.Occurs (some '.') t [] := by
  rw [occurs_separated hsolid.sees hdot, occurs_behind_dot hsolid hdot, occurs_behind_dot hsolid hdot]

lemma isWord_dot : W.isWord '.' = false := W.ascii '.' (by decide)

lemma isWord_b {b : Char} (hb : b = 'B' ∨ b = 'b') : W.isWord b = true := by
  rcases hb with rfl | rfl <;> exact W.ascii _ (by decide)

lemma matches_bearer {w after : Text} : (bearerToken W).Matches before w after ↔
    ∃ b blanks cs es, w = b :: (['e', 'a', 'r', 'e', 'r'] ++ blanks) ++ (cs ++ es) ∧ (b = 'B' ∨ b = 'b') ∧
      before.any W.isWord = false ∧ blanks ≠ [] ∧ (∀ c ∈ blanks, isBlank c = true) ∧ 40 ≤ cs.length ∧
      (∀ c ∈ cs, tokenChar c = true) ∧ es.length ≤ 2 ∧ (∀ c ∈ es, c = '=') ∧
      (lastOr before w).any W.isWord ≠ after.head?.any W.isWord := by
  simp only [bearerToken, matches_all_cons, matches_word, matches_oneOrMore, matches_atLeast,
    matches_upTo, matches_all_nil, Matches]
  constructor
  · rintro ⟨_, _, rfl, ⟨rfl, hstart⟩, _, _, rfl, ⟨b, hb, rfl⟩, _, _, rfl, rfl, blanks, _, rfl, ⟨hne, hblanks⟩, cs, _, rfl,
      ⟨hlen, hcs⟩, es, _, rfl, ⟨heslen, hes⟩, _, _, rfl, ⟨rfl, hend⟩, rfl⟩
    have hb : b = 'B' ∨ b = 'b' := by simpa using hb
    refine ⟨b, blanks, cs, es, by simp, hb, ?_, hne, hblanks, hlen, hcs, heslen, by simpa using hes, ?_⟩
    · simpa [isWord_b hb] using hstart
    · simpa using hend
  · rintro ⟨b, blanks, cs, es, rfl, hb, hbefore, hne, hblanks, hlen, hcs, heslen, hes, hend⟩
    refine ⟨[], _, rfl, ⟨rfl, by simp [hbefore, isWord_b hb]⟩, [b], _, rfl, ⟨b, by simpa using hb, rfl⟩, _,
      blanks ++ (cs ++ es), by simp, rfl, blanks, _, rfl, ⟨hne, hblanks⟩, cs, _, rfl, ⟨hlen, hcs⟩, es, [],
      by simp, ⟨heslen, by simpa using hes⟩, [], [], rfl, ⟨rfl, ?_⟩, rfl⟩
    simpa using hend

/-- A run of token characters in front of a dot takes the dot in: it can not end between two dots. -/
lemma run_takes_dot {cs es y : Text} (h : '.' :: t = cs ++ (es ++ y)) (hes : ∀ c ∈ es, c = '=')
    (hend : (lastOr (some '.') (cs ++ es)).any W.isWord ≠ y.head?.any W.isWord) :
    ∃ cs', cs = '.' :: cs' ∧ t = cs' ++ (es ++ y) := by
  cases cs with
  | cons d cs =>
    obtain ⟨rfl, ht⟩ := List.cons.inj h
    exact ⟨cs, rfl, ht⟩
  | nil =>
    cases es with
    | cons d es =>
      obtain ⟨hd, -⟩ := List.cons.inj h
      rw [← hd] at hes
      exact absurd (hes '.' List.mem_cons_self) (by decide)
    | nil =>
      rw [List.nil_append, List.nil_append] at h
      rw [← h] at hend
      simp [isWord_dot] at hend

/-- What begins with a letter does not begin with a dot. -/
lemma behind_dot {w : Text} (h : '.' :: t = u ++ (w ++ v)) (hw : ∃ b w', w = b :: w' ∧ b ≠ '.') :
    ∃ u', u = '.' :: u' ∧ t = u' ++ (w ++ v) := by
  cases u with
  | cons d u =>
    obtain ⟨rfl, ht⟩ := List.cons.inj h
    exact ⟨u, rfl, ht⟩
  | nil =>
    obtain ⟨b, w', rfl, hb⟩ := hw
    exact absurd (List.cons.inj h).1.symm hb

lemma no_dot_before {b : Char} {blanks : Text} (hb : b = 'B' ∨ b = 'b') (hblanks : ∀ c ∈ blanks, isBlank c = true) :
    '.' ∉ b :: (['e', 'a', 'r', 'e', 'r'] ++ blanks) := by
  have hblank : '.' ∉ blanks := fun h => absurd (hblanks '.' h) (by decide)
  rcases hb with rfl | rfl <;> simp [hblank]

lemma bearer_starts {b : Char} {w : Text} (hb : b = 'B' ∨ b = 'b') : ∃ c w', b :: w = c :: w' ∧ c ≠ '.' := by
  refine ⟨b, w, rfl, ?_⟩
  rcases hb with rfl | rfl <;> decide

/-- A bearer token within two texts and three dots between them is in one of the texts, or runs across the dots. -/
lemma bearer_dots : (bearerToken W).Occurs none (s ++ '.' :: '.' :: '.' :: t) [] ↔
    (bearerToken W).Occurs none s ['.'] ∨ (bearerToken W).Occurs (some '.') t [] ∨ BearerAcross W s t := by
  constructor
  · rintro ⟨u, w, v, hs, hmatch⟩
    rw [List.append_nil] at hmatch
    rcases cut_cases hs with ⟨v', rfl, rfl⟩ | ⟨w₁, w₂, rfl, rfl, hrest⟩ | ⟨u', rfl, hrest⟩
    · refine .inl ⟨u, w, v', rfl, matches_elsewhere solid_bearerToken.sees rfl ?_ hmatch⟩
      cases v' <;> rfl
    · obtain ⟨b, blanks, cs, es, hw, hb, hbefore, hne, hblanks, hlen, hcs, heslen, hes, hend⟩ := matches_bearer.mp hmatch
      rw [hw] at hend
      rcases cut_cases hw with ⟨v', rfl, rfl⟩ | ⟨x₁, cs₁, rfl, rfl, rfl⟩ | ⟨u', hu, -⟩
      · exact absurd (hes '.' (by simp)) (by decide)
      · rw [List.append_assoc] at hrest
        have hlast : lastOr (lastOr none u) (b :: (['e', 'a', 'r', 'e', 'r'] ++ blanks) ++ (x₁ ++ '.' :: cs₁ ++ es)) =
            lastOr (some '.') (cs₁ ++ es) := by simp
        rw [hlast] at hend
        obtain ⟨cs₂, rfl, hrest₂⟩ := run_takes_dot hrest hes hend
        rw [List.cons_append, lastOr_cons] at hend
        obtain ⟨x₂, rfl, rfl⟩ := run_takes_dot hrest₂ hes hend
        rw [List.cons_append, lastOr_cons] at hend
        refine .inr (.inr ⟨u, b, blanks, x₁, x₂, es, v, by simp, rfl, hb, hbefore, hne, hblanks, ?_, ?_, heslen, hes,
          hend⟩)
        · intro c hc
          refine hcs c ?_
          rcases List.mem_append.mp hc with hc | hc <;> simp [hc]
        · simp only [List.length_append, List.length_cons] at hlen
          omega
      · exact absurd (by rw [hu]; simp) (no_dot_before hb hblanks)
    · obtain ⟨b, blanks, cs, es, rfl, hb, -⟩ := matches_bearer.mp hmatch
      obtain ⟨u₁, rfl, hrest₁⟩ := behind_dot hrest (bearer_starts hb)
      obtain ⟨u₂, rfl, hrest₂⟩ := behind_dot hrest₁ (bearer_starts hb)
      exact .inr (.inl ⟨u₂, _, v, hrest₂, by simpa using hmatch⟩)
  · rintro (⟨u, w, v, rfl, hmatch⟩ | ⟨u, w, v, rfl, hmatch⟩ | hacross)
    · refine ⟨u, w, v ++ '.' :: '.' :: '.' :: t, by simp, matches_elsewhere solid_bearerToken.sees rfl ?_ hmatch⟩
      cases v <;> rfl
    · exact ⟨s ++ '.' :: '.' :: '.' :: u, w, v, by simp, by simpa using hmatch⟩
    · obtain ⟨x, b, blanks, x₁, x₂, es, y, rfl, rfl, hb, hbefore, hne, hblanks, htoken, hlen, heslen, hes, hend⟩ := hacross
      refine ⟨x, b :: (['e', 'a', 'r', 'e', 'r'] ++ blanks) ++ ((x₁ ++ '.' :: '.' :: '.' :: x₂) ++ es), y, by simp, ?_⟩
      refine matches_bearer.mpr ⟨b, blanks, _, es, rfl, hb, hbefore, hne, hblanks, ?_, ?_, heslen, hes, ?_⟩
      · simp only [List.length_append, List.length_cons]
        omega
      · rw [List.forall_mem_append] at htoken
        simp only [List.forall_mem_append, List.forall_mem_cons]
        exact ⟨htoken.1, by decide, by decide, by decide, htoken.2⟩
      · simpa using hend

/-- What leaks from two texts with three dots between them. -/
lemma leaks_dots : Leaks W (s ++ '.' :: '.' :: '.' :: t) ↔
    LeaksWithin W none s ['.'] ∨ LeaksWithin W (some '.') t [] ∨ BearerAcross W s t := by
  rw [leaks_iff]
  have hbearer : ("bearer_token", bearerToken W) ∈ PATTERNS W := by simp [PATTERNS]
  constructor
  · rintro ⟨named, hmem, hoccurs⟩
    rcases mentions_dot hmem with hdot | heq
    · rcases (occurs_dots (solid_of_mem hmem) hdot).mp hoccurs with h | h
      · exact .inl ⟨named, hmem, h⟩
      · exact .inr (.inl ⟨named, hmem, h⟩)
    · rw [heq] at hoccurs
      rcases bearer_dots.mp hoccurs with h | h | h
      · exact .inl ⟨_, hbearer, h⟩
      · exact .inr (.inl ⟨_, hbearer, h⟩)
      · exact .inr (.inr h)
  · rintro (⟨named, hmem, h⟩ | ⟨named, hmem, h⟩ | h)
    · rcases mentions_dot hmem with hdot | heq
      · exact ⟨named, hmem, (occurs_dots (solid_of_mem hmem) hdot).mpr (.inl h)⟩
      · exact ⟨named, hmem, heq ▸ bearer_dots.mpr (.inl (heq ▸ h))⟩
    · rcases mentions_dot hmem with hdot | heq
      · exact ⟨named, hmem, (occurs_dots (solid_of_mem hmem) hdot).mpr (.inr h)⟩
      · exact ⟨named, hmem, heq ▸ bearer_dots.mpr (.inr (.inl (heq ▸ h)))⟩
    · exact ⟨_, hbearer, bearer_dots.mpr (.inr (.inr h))⟩

end Dots

section Reports

/-- The line holds this match of one of the patterns, between what stands before it and behind it. -/
def FoundIn (W : WordTable) (line u token v : Text) : Prop :=
  ∃ named ∈ PATTERNS W, ∃ found ∈ (Pattern.capture named.2).findIter 0 none line,
    line = u ++ (token ++ v) ∧ token = found.captured ∧ v = found.rest

/-- What stands around a match, with its first and last four characters, holds no match itself, neither on one side of
the dots nor, as a bearer token, on both. -/
structure Concealed (W : WordTable) (u token v : Text) : Prop where
  left : ¬ LeaksWithin W none (u ++ token.take 4) ['.']
  right : ¬ LeaksWithin W (some '.') (token.drop (token.length - 4) ++ v) []
  across : ¬ BearerAcross W (u ++ token.take 4) (token.drop (token.length - 4) ++ v)

lemma not_leaks_of_short (h : s.length < 20) : ¬ Leaks W s := by
  rw [leaks_iff]
  rintro ⟨named, hmem, hoccurs⟩
  have hwide := (solid_of_mem hmem).wide
  exact not_occurs_of_short (by omega) hoccurs

lemma redacted_found (h : 12 < token.length) :
    redacted (u ++ (token ++ v)) u.length (u.length + token.length) =
      (u ++ token.take 4) ++ '.' :: '.' :: '.' :: (token.drop (token.length - 4) ++ v) := by
  have htake : (u ++ (token ++ v)).take (u.length + token.length) = u ++ token := by
    rw [← List.append_assoc, ← List.length_append, List.take_left]
  have hdrop : (u ++ (token ++ v)).drop (u.length + token.length) = v := by
    rw [← List.append_assoc, ← List.length_append, List.drop_left]
  rw [redacted, htake, hdrop, List.drop_left, if_pos h, List.take_left]
  simp

lemma snippet_conceals {line : Text} {named : String × Pattern} {found : Place} (hmem : named ∈ PATTERNS W)
    (hfound : found ∈ (Pattern.capture named.2).findIter 0 none line)
    (hline : line = u ++ (found.captured ++ found.rest)) :
    ¬ Leaks W (strip (redacted line (span line found).1 (span line found).2)) ↔
      Concealed W u found.captured found.rest := by
  obtain ⟨before, hbefore, hmatch⟩ := findIter_captured hfound
  have hwide := (solid_of_mem hmem).wide.trans (minWidth_le hmatch)
  have hspan : span line found = (u.length, u.length + found.captured.length) := by
    have hlength := congrArg List.length hline
    simp only [List.length_append] at hlength
    simp only [span, Prod.mk.injEq]
    omega
  rw [hspan, leaks_strip, hline, redacted_found (by omega), leaks_dots]
  constructor
  · intro h
    exact ⟨fun hl => h (.inl hl), fun hr => h (.inr (.inl hr)), fun ha => h (.inr (.inr ha))⟩
  · rintro ⟨hl, hr, ha⟩ (h | h | h)
    · exact hl h
    · exact hr h
    · exact ha h

lemma exists_numbered {lines : List Text} {line : Text} {k : ℕ} :
    (∃ n, (line, n) ∈ lines.zipIdx k) ↔ line ∈ lines := by
  conv_rhs => rw [← List.zipIdx_map_fst k lines, List.mem_map]
  simp

lemma mem_scanFile {file : Text} {text : Option Text} {f : Finding} : f ∈ scanFile W file text ↔
    ∃ content, text = some content ∧ ∃ line n, (line, n) ∈ (splitlines content).zipIdx 1 ∧ ∃ named ∈ PATTERNS W,
      ∃ found ∈ (Pattern.capture named.2).findIter 0 none line, f = ⟨file, n, (span line found).1 + 1, named.1,
        strip (redacted line (span line found).1 (span line found).2)⟩ := by
  cases text with
  | none => simp [scanFile]
  | some content =>
    simp only [scanFile, lineFindings, List.mem_flatMap, List.mem_map, Option.some.injEq, exists_eq_left', Prod.exists]
    simp only [eq_comm]

lemma not_leaks_strings {f : Finding} {named : String × Pattern} (hmem : named ∈ PATTERNS W) (hname : f.pattern = named.1) :
    (∀ s ∈ f.strings, ¬ Leaks W s) ↔ ¬ Leaks W f.file ∧ ¬ Leaks W f.snippet := by
  have hshort : named.1.toList.length < 20 := by
    simp only [PATTERNS, List.mem_cons, List.not_mem_nil, or_false] at hmem
    have hnames : ∀ name ∈ ["github_token", "github_pat", "aws_access_key", "google_api_key", "slack_token",
        "private_key", "bearer_token"], name.toList.length < 20 := by decide
    refine hnames _ ?_
    rcases hmem with rfl | rfl | rfl | rfl | rfl | rfl | rfl <;> simp
  simp only [Finding.strings, hname, List.forall_mem_cons]
  have hkeys (s : Text) (h : s.length < 20) : ¬ Leaks W s := not_leaks_of_short h
  constructor
  · rintro ⟨-, -, -, -, -, hfile, -, hsnippet, -⟩
    exact ⟨hfile, hsnippet⟩
  · rintro ⟨hfile, hsnippet⟩
    refine ⟨hkeys _ (by decide), hkeys _ (by decide), hkeys _ (by decide), hkeys _ (by decide), hkeys _ (by decide),
      hfile, hkeys _ hshort, hsnippet, List.forall_mem_nil _⟩

/-- No text of the printed report holds a secret exactly when this is so of the names of the files with findings, and
of what stands around each match on its line. -/
theorem report_conceals_iff (W : WordTable) (files : List (Text × Option Text)) :
    (∀ s ∈ (report W files).strings, ¬ Leaks W s) ↔
      ∀ file ∈ files, ∀ content, file.2 = some content → ∀ line ∈ splitlines content, ∀ u token v,
        FoundIn W line u token v → ¬ Leaks W file.1 ∧ Concealed W u token v := by
  have hkeys : ∀ s ∈ ["valid".toList, "files_scanned".toList, "findings".toList], ¬ Leaks W s := by
    simp only [List.forall_mem_cons]
    exact ⟨not_leaks_of_short (by decide), not_leaks_of_short (by decide), not_leaks_of_short (by decide),
      List.forall_mem_nil _⟩
  rw [Report.strings, List.forall_mem_append, and_iff_right hkeys]
  constructor
  · rintro h file hfile content hcontent line hline u token v ⟨named, hmem, found, hfound, hcut, rfl, rfl⟩
    obtain ⟨n, hn⟩ := exists_numbered.mpr hline
    have hfinding := (@mem_scanFile W file.1 file.2 _).mpr ⟨content, hcontent, line, n, hn, named, hmem, found, hfound, rfl⟩
    have hstrings := fun s hs => h s (List.mem_flatMap.mpr ⟨_, List.mem_flatMap.mpr ⟨file, hfile, hfinding⟩, hs⟩)
    obtain ⟨hname, hsnippet⟩ := (not_leaks_strings hmem rfl).mp hstrings
    exact ⟨hname, (snippet_conceals hmem hfound hcut).mp hsnippet⟩
  · intro h s hs
    obtain ⟨f, hf, hs⟩ := List.mem_flatMap.mp hs
    obtain ⟨file, hfile, hf⟩ := List.mem_flatMap.mp hf
    obtain ⟨content, hcontent, line, n, hn, named, hmem, found, hfound, rfl⟩ := mem_scanFile.mp hf
    obtain ⟨u, hcut, -⟩ := findIter_captured hfound
    obtain ⟨hname, hconcealed⟩ := h file hfile content hcontent line (exists_numbered.mp ⟨n, hn⟩) u _ _
      ⟨named, hmem, found, hfound, hcut, rfl, rfl⟩
    exact (not_leaks_strings hmem rfl).mpr ⟨hname, (snippet_conceals hmem hfound hcut).mpr hconcealed⟩ s hs

/-- The characters of words among those of ASCII. -/
def asciiWords : WordTable where
  isWord c := decide (c.toNat < 128) && (c.isAlphanum || c == '_')
  ascii c h := by simp [h]
  blank c h := by
    rw [Bool.and_eq_false_iff]
    refine .inr (Bool.not_eq_true _ ▸ fun hword => ?_)
    have hnot := not_blank_of_mem ['_'] (by decide) (by simpa using hword)
    rw [h] at hnot
    cases hnot

def twoTokens : Text :=
  "ghp_".toList ++ List.replicate 36 'a' ++ " ghp_".toList ++ List.replicate 36 'b'

instance : DecidablePred (Leaks W) := fun s =>
  inferInstanceAs (Decidable (∃ named ∈ PATTERNS W, named.2.search none s = true))

/-- Of two tokens on a line each finding shows the other one. -/
theorem report_leaks_second_token :
    ¬ ∀ s ∈ (report asciiWords [("coordination-ledger/notes.md".toList, some twoTokens)]).strings,
      ¬ Leaks asciiWords s := by
  decide +kernel

end Reports

end PlatformGitops.Coordination.SecretScan
