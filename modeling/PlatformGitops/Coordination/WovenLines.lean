import Mathlib.Data.List.Forall2
import PlatformGitops.Coordination.SplitLines
import PlatformGitops.Library.JsonGaps

/-! Lines that are read, told apart by what `str.splitlines` makes of them. -/

namespace PlatformGitops.Coordination

open Library Json

section Bodies

variable {s t u : List Char}

/-- What a reader has of a line that is not blank. -/
structure Body (s : List Char) : Prop where
  stripped : strip s = s
  nonempty : s ≠ []
  oneLine : ∀ c ∈ s, c ≠ '\n' ∧ c ≠ '\r'

lemma Body.no_blanks_left (h : Body (s ++ t)) (hs : ∀ c ∈ s, isBlank c = true) : s = [] := by
  have hlength := length_strip_le t
  rw [← strip_append_left hs t, h.stripped, List.length_append] at hlength
  exact List.length_eq_zero_iff.mp (by omega)

lemma Body.no_blanks_right (h : Body (s ++ t)) (ht : ∀ c ∈ t, isBlank c = true) : t = [] := by
  have hlength := length_strip_le s
  rw [← strip_append_right s ht, h.stripped, List.length_append] at hlength
  exact List.length_eq_zero_iff.mp (by omega)

lemma unmarked_of_isBlank {c : Char} (h : isBlank c = true) : isMark c = false := by
  simp only [isBlank, decide_eq_true_eq, List.mem_cons, List.not_mem_nil, or_false] at h
  simp only [isMark, Bool.and_eq_false_iff, decide_eq_false_iff_not]
  omega

lemma not_isSpace_of_isLineEnd {c : Char} (h : isLineEnd c = true) (hne : c ≠ '\n' ∧ c ≠ '\r') : isSpace c = false := by
  have hnat (d : Char) (hd : c ≠ d) : c.toNat ≠ d.toNat := fun heq => hd (Char.ext (UInt32.toNat_inj.mp heq))
  have hn : c.toNat ≠ 10 := hnat '\n' hne.1
  have hr : c.toNat ≠ 13 := hnat '\r' hne.2
  simp only [isLineEnd, lineEnds, decide_eq_true_eq, List.mem_cons, List.not_mem_nil, or_false] at h
  by_contra hspace
  simp only [isSpace, Bool.not_eq_false, decide_eq_true_eq] at hspace
  rcases hspace with rfl | rfl | rfl | rfl <;> simp at h hn hr

/-- A line end inside a body, with the blanks around it. -/
lemma Body.cases (h : Body s) : pieces s = [s] ∨
    ∃ p g u, s = p ++ (g ++ u) ∧ Gap g ∧ Body u ∧ u.length < s.length ∧ pieces s = p :: pieces u := by
  by_cases hbroken : ∃ c ∈ s, isLineEnd c = true
  · right
    obtain ⟨before, c, after, rfl, hc, hbefore⟩ := exists_lineEnd hbroken
    have hblank := isBlank_of_isLineEnd hc
    obtain ⟨b, b', hsplit, hb, hb'⟩ := strip_spec before
    obtain ⟨a, a', hsplit', ha, ha'⟩ := strip_spec after
    have hwhole : before ++ c :: after = b ++ (strip before ++ ((b' ++ c :: a) ++ (strip after ++ a'))) := by
      conv_lhs => rw [hsplit, hsplit']
      simp
    have hbody : Body (b ++ (strip before ++ ((b' ++ c :: a) ++ (strip after ++ a')))) := hwhole ▸ h
    obtain rfl := hbody.no_blanks_left hb
    have hends : Body ((strip before ++ ((b' ++ c :: a) ++ strip after)) ++ a') := by
      simpa [List.append_assoc] using hbody
    obtain rfl := hends.no_blanks_right ha'
    rw [List.append_nil] at hends
    have hgap : ∀ d ∈ b' ++ c :: a, isBlank d = true := by
      rw [List.forall_mem_append, List.forall_mem_cons]
      exact ⟨hb', hblank, ha⟩
    have hfirst : strip before ≠ [] := by
      intro hnil
      rw [hnil, List.nil_append] at hends
      have hempty := hends.no_blanks_left hgap
      simp at hempty
    have hrest : strip after ≠ [] := by
      intro hnil
      rw [hnil, List.append_nil] at hends
      have hempty := hends.no_blanks_right hgap
      simp at hempty
    have heq : before ++ c :: after = strip before ++ ((b' ++ c :: a) ++ strip after) := by
      rw [hwhole, List.nil_append, List.append_nil]
    have hmem (d : Char) (hd : d ∈ strip after) : d ∈ before ++ c :: after := by
      rw [heq]
      exact List.mem_append_right _ (List.mem_append_right _ hd)
    refine ⟨strip before, b' ++ c :: a, strip after, heq, ⟨fun d hd => unmarked_of_isBlank (hgap d hd), c, by simp, ?_⟩,
      ⟨strip_strip after, hrest, fun d hd => h.oneLine d (hmem d hd)⟩, ?_, ?_⟩
    · exact not_isSpace_of_isLineEnd hc (h.oneLine c (by simp))
    · rw [heq]
      simp only [List.length_append, List.length_cons]
      omega
    · have hpiece : bodies [before] = [strip before] := by simp [bodies, hfirst]
      rw [pieces_append_cons _ _ hc, pieces_of_unbroken hbefore, hpiece, pieces_strip]
      rfl
  · left
    have hunbroken : ∀ c ∈ s, isLineEnd c = false := by simpa using hbroken
    have hne := h.nonempty
    rw [pieces_of_unbroken hunbroken]
    simp [bodies, h.stripped, hne]

lemma Body.pieces_ne_nil (h : Body s) : pieces s ≠ [] := by
  rcases h.cases with hone | ⟨p, g, u, -, -, -, -, hpieces⟩
  · simp [hone]
  · simp [hpieces]

/-- A body with the pieces of another: they differ in gaps, and the longer one goes on with a gap. -/
lemma Body.woven (h : Body s) (h' : Body t) (hpieces : pieces s <+: pieces t) :
    (Woven NoMore s t ∧ pieces s = pieces t) ∨ Woven StartsWithGap s t := by
  induction hn : s.length using Nat.strong_induction_on generalizing s t with
  | _ n ih =>
    rcases h.cases with hone | ⟨p, g, u, rfl, hg, hu, hlt, hmore⟩
    · rw [hone] at hpieces
      rcases h'.cases with hone' | ⟨p', g', u', rfl, hg', -, -, hmore'⟩
      · left
        rw [hone'] at hpieces
        obtain rfl : s = t := by simpa using hpieces
        refine ⟨?_, rfl⟩
        simpa using Woven.append (E := NoMore) (.nil rfl) s
      · right
        rw [hmore'] at hpieces
        obtain rfl : s = p' := by simpa using hpieces
        simpa using Woven.append (E := StartsWithGap) (.nil ⟨g', u', hg', rfl⟩) s
    · rw [hmore] at hpieces
      rcases h'.cases with hone' | ⟨p', g', u', rfl, hg', hu', -, hmore'⟩
      · rw [hone', List.cons_prefix_cons, List.prefix_nil] at hpieces
        exact (hu.pieces_ne_nil hpieces.2).elim
      · rw [hmore', List.cons_prefix_cons] at hpieces
        obtain ⟨rfl, hrest⟩ := hpieces
        rcases ih u.length (hn ▸ hlt) hu hu' hrest rfl with ⟨hwoven, heq⟩ | hwoven
        · exact .inl ⟨(Woven.gap hg hg' hwoven).append p, by rw [hmore, hmore', heq]⟩
        · exact .inr ((Woven.gap hg hg' hwoven).append p)

/-- Bodies that are read and have the same pieces at the front stand for each other. -/
lemma woven_bodies {float : String → String} {bs cs : List (List Char)} (hbs : ∀ b ∈ bs, Body b) (hcs : ∀ c ∈ cs, Body c)
    (hread : ∀ b ∈ bs, (loads float b).isSome = true) (hread' : ∀ c ∈ cs, (loads float c).isSome = true)
    (h : bs.flatMap pieces <+: cs.flatMap pieces) : ∃ kept more, cs = kept ++ more ∧ List.Forall₂ (Woven NoMore) bs kept := by
  induction bs generalizing cs with
  | nil => exact ⟨[], cs, rfl, .nil⟩
  | cons b bs ih =>
    obtain ⟨hb, hbs⟩ := List.forall_mem_cons.mp hbs
    obtain ⟨hreadb, hread⟩ := List.forall_mem_cons.mp hread
    obtain ⟨v, hv⟩ := Option.isSome_iff_exists.mp hreadb
    cases cs with
    | nil =>
      rw [List.flatMap_cons, List.flatMap_nil, List.prefix_nil, List.append_eq_nil_iff] at h
      exact (hb.pieces_ne_nil h.1).elim
    | cons c cs =>
      obtain ⟨hc, hcs⟩ := List.forall_mem_cons.mp hcs
      obtain ⟨hreadc, hread'⟩ := List.forall_mem_cons.mp hread'
      obtain ⟨w, hw⟩ := Option.isSome_iff_exists.mp hreadc
      rw [List.flatMap_cons, List.flatMap_cons] at h
      have hsame : Woven NoMore b c ∧ pieces b = pieces c := by
        rcases List.prefix_or_prefix_of_prefix ((List.prefix_append _ _).trans h) (List.prefix_append _ _) with hle | hle
        · rcases hb.woven hc hle with hsame | hmore
          · exact hsame
          · exact (not_woven_startsWithGap hv hw hmore).elim
        · rcases hc.woven hb hle with ⟨hwoven, heq⟩ | hmore
          · exact ⟨hwoven.symm, heq.symm⟩
          · exact (not_woven_startsWithGap hw hv hmore).elim
      rw [hsame.2, List.prefix_append_right_inj] at h
      obtain ⟨kept, more, rfl, hkept⟩ := ih hbs hcs hread hread' h
      exact ⟨c :: kept, more, rfl, .cons hsame.1 hkept⟩

end Bodies

end PlatformGitops.Coordination
