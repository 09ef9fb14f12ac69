import PlatformGitops.Library.TextFile

/-! A text as the list of its lines, each with the character that ends it. -/

namespace PlatformGitops.Library.Text

variable {isEnd : Char → Bool}

def keepEnds (isEnd : Char → Bool) : List Char → List (List Char)
  | [] => []
  | c :: s =>
    if isEnd c then [c] :: keepEnds isEnd s
    else
      match keepEnds isEnd s with
      | [] => [[c]]
      | line :: lines => (c :: line) :: lines

/-- Lines that may be the lines of a text: all of them end, but for the last perhaps. -/
inductive Kept (isEnd : Char → Bool) : List (List Char) → Prop
  | nil : Kept isEnd []
  | last {body} : body ≠ [] → (∀ c ∈ body, isEnd c = false) → Kept isEnd [body]
  | ended {body c lines} : (∀ d ∈ body, isEnd d = false) → isEnd c = true → Kept isEnd lines →
      Kept isEnd ((body ++ [c]) :: lines)

section Lines

variable {body rest : List Char} {c : Char} {lines lines' : List (List Char)}

lemma keepEnds_body (hbody : ∀ d ∈ body, isEnd d = false) (hne : body ≠ []) : keepEnds isEnd body = [body] := by
  induction body with
  | nil => exact absurd rfl hne
  | cons d body ih =>
    obtain ⟨hd, htail⟩ := List.forall_mem_cons.mp hbody
    rw [keepEnds, hd, if_neg nofun]
    cases body with
    | nil => rfl
    | cons e body => rw [ih htail nofun]

lemma keepEnds_ended (hbody : ∀ d ∈ body, isEnd d = false) (hc : isEnd c = true) :
    keepEnds isEnd (body ++ c :: rest) = (body ++ [c]) :: keepEnds isEnd rest := by
  induction body with
  | nil => rw [List.nil_append, keepEnds, if_pos hc, List.nil_append]
  | cons d body ih =>
    obtain ⟨hd, htail⟩ := List.forall_mem_cons.mp hbody
    rw [List.cons_append, keepEnds, hd, if_neg nofun, ih htail]
    rfl

/-- The lines of the text that some lines make up. -/
lemma keepEnds_flatten (h : Kept isEnd lines) : keepEnds isEnd lines.flatten = lines := by
  induction h with
  | nil => rfl
  | last hne hbody => simpa using keepEnds_body hbody hne
  | ended hbody hc _ ih =>
    rw [List.flatten_cons, List.append_assoc, List.singleton_append, keepEnds_ended hbody hc, ih]

lemma kept_keepEnds (isEnd : Char → Bool) (s : List Char) : Kept isEnd (keepEnds isEnd s) ∧ (keepEnds isEnd s).flatten = s := by
  induction s with
  | nil => exact ⟨.nil, rfl⟩
  | cons c s ih =>
    obtain ⟨hkept, hflatten⟩ := ih
    rw [keepEnds]
    split_ifs with hc
    · exact ⟨@Kept.ended _ [] c _ (List.forall_mem_nil _) hc hkept, by rw [List.flatten_cons, hflatten]; rfl⟩
    · have hc : isEnd c = false := by simpa using hc
      cases hlines : keepEnds isEnd s with
      | nil =>
        rw [hlines] at hflatten
        subst hflatten
        exact ⟨.last nofun (by simpa using hc), rfl⟩
      | cons line lines =>
        rw [hlines] at hkept hflatten
        refine ⟨?_, by rw [← hflatten]; rfl⟩
        cases hkept with
        | last hne hbody => exact .last nofun (List.forall_mem_cons.mpr ⟨hc, hbody⟩)
        | @ended body d _ hbody hd hrest =>
          exact @Kept.ended _ (c :: body) d _ (List.forall_mem_cons.mpr ⟨hc, hbody⟩) hd hrest

/-- A line that ends, in the place of another. -/
lemma Kept.replaced {above below : List (List Char)} {line : List Char} (h : Kept isEnd (above ++ line :: below))
    (hbody : ∀ d ∈ body, isEnd d = false) (hc : isEnd c = true) : Kept isEnd (above ++ (body ++ [c]) :: below) := by
  induction above with
  | nil =>
    cases h with
    | last _ _ => exact .ended hbody hc .nil
    | ended _ _ hrest => exact .ended hbody hc hrest
  | cons first above ih =>
    rw [List.cons_append] at h
    generalize hrest : above ++ line :: below = rest at h ih
    cases h with
    | last _ _ => simp at hrest
    | ended hfirst hend hkept => exact .ended hfirst hend (ih hkept)

/-- A line that ends, before another. -/
lemma Kept.inserted {above below : List (List Char)} {line : List Char} (h : Kept isEnd (above ++ line :: below))
    (hbody : ∀ d ∈ body, isEnd d = false) (hc : isEnd c = true) : Kept isEnd (above ++ (body ++ [c]) :: line :: below) := by
  induction above with
  | nil => exact .ended hbody hc h
  | cons first above ih =>
    rw [List.cons_append] at h
    generalize hrest : above ++ line :: below = rest at h ih
    cases h with
    | last _ _ => simp at hrest
    | ended hfirst hend hkept => exact .ended hfirst hend (ih hkept)

lemma Kept.flatten_injective (h : Kept isEnd lines) (h' : Kept isEnd lines') (heq : lines.flatten = lines'.flatten) :
    lines = lines' := by
  rw [← keepEnds_flatten h, heq, keepEnds_flatten h']

/-- A line of a text stays as it is when its line ends are translated. -/
lemma translate_body (hbody : ∀ d ∈ body, d ≠ '\r' ∧ d ≠ '\n') :
    translate false (body ++ rest) = body ++ translate false rest := by
  induction body with
  | nil => rfl
  | cons d body ih =>
    obtain ⟨⟨hcr, hnl⟩, htail⟩ := List.forall_mem_cons.mp hbody
    rw [List.cons_append, translate, if_neg hcr, if_neg fun hd => hnl hd.1, ih htail, List.cons_append]

/-- Texts of which one has no fewer of a character in any line, and more in some line. -/
lemma count_flatten_lt (hlen : lines.length = lines'.length)
    (hle : ∀ (k : ℕ) (a b : List Char), lines[k]? = some a → lines'[k]? = some b → a.count c ≤ b.count c)
    (hlt : ∃ (k : ℕ) (a b : List Char), lines[k]? = some a ∧ lines'[k]? = some b ∧ a.count c < b.count c) :
    lines.flatten.count c < lines'.flatten.count c := by
  induction lines generalizing lines' with
  | nil =>
    obtain ⟨k, a, b, ha, -⟩ := hlt
    cases ha
  | cons line lines ih =>
    cases lines' with
    | nil => cases hlen
    | cons line' lines' =>
      have hfirst := hle 0 line line' rfl rfl
      have hrest (k : ℕ) (a b : List Char) (ha : lines[k]? = some a) (hb : lines'[k]? = some b) := hle (k + 1) a b ha hb
      have hrestle : lines.flatten.count c ≤ lines'.flatten.count c := by
        by_cases hsome : ∃ (k : ℕ) (a b : List Char), lines[k]? = some a ∧ lines'[k]? = some b ∧ a.count c < b.count c
        · exact Nat.le_of_lt (ih (by simpa using hlen) hrest hsome)
        · have hmap : lines.map (List.count c) = lines'.map (List.count c) := by
            refine List.ext_getElem (by simpa using hlen) fun k hk hk' => ?_
            rw [List.getElem_map, List.getElem_map]
            rw [List.length_map] at hk hk'
            have hk1 := List.getElem?_eq_getElem hk
            have hk2 := List.getElem?_eq_getElem hk'
            have hnot : ¬lines[k].count c < lines'[k].count c := fun hlt => hsome ⟨k, _, _, hk1, hk2, hlt⟩
            exact Nat.le_antisymm (hrest k _ _ hk1 hk2) (Nat.not_lt.mp hnot)
          have hcount : lines.flatten.count c = lines'.flatten.count c := by
            rw [List.count_flatten, List.count_flatten, hmap]
          exact Nat.le_of_eq hcount
      rw [List.flatten_cons, List.flatten_cons, List.count_append, List.count_append]
      obtain ⟨k, a, b, ha, hb, hab⟩ := hlt
      cases k with
      | zero =>
        obtain rfl := Option.some.inj ha
        obtain rfl := Option.some.inj hb
        omega
      | succ k =>
        have hstrict := ih (by simpa using hlen) hrest ⟨k, a, b, ha, hb, hab⟩
        omega

/-- Lines are those of a text if each but the last ends, and the last does or is not empty. -/
lemma kept_of_getElem? (h : ∀ (k : ℕ) line, lines[k]? = some line →
    (∃ body c, line = body ++ [c] ∧ (∀ d ∈ body, isEnd d = false) ∧ isEnd c = true) ∨
      (k + 1 = lines.length ∧ line ≠ [] ∧ ∀ d ∈ line, isEnd d = false)) : Kept isEnd lines := by
  induction lines with
  | nil => exact .nil
  | cons line lines ih =>
    obtain ⟨body, c, rfl, hbody, hc⟩ | ⟨hlast, hne, hline⟩ := h 0 line rfl
    · refine .ended hbody hc (ih fun k line' hline' => ?_)
      obtain hended | ⟨hlast, hne⟩ := h (k + 1) line' hline'
      · exact .inl hended
      · exact .inr ⟨by simpa using hlast, hne⟩
    · obtain rfl : lines = [] := by simpa using hlast
      exact .last hne hline

end Lines

end PlatformGitops.Library.Text
