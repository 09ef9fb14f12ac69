import Mathlib.Data.List.DropRight
import PlatformGitops.Coordination.Replay
import PlatformGitops.Library.Spans

/-! The lines that `str.splitlines` tells apart, and what is left of them once they are stripped. -/

namespace PlatformGitops.Coordination

open Library

section Blanks

variable {s t : List Char}

lemma strip_eq_rdropWhile (s : List Char) : strip s = (s.dropWhile isBlank).rdropWhile isBlank := rfl

/-- A text is its stripped text between blanks. -/
lemma strip_spec (s : List Char) :
    ∃ before after, s = before ++ (strip s ++ after) ∧ (∀ c ∈ before, isBlank c = true) ∧
      ∀ c ∈ after, isBlank c = true := by
  refine ⟨s.takeWhile isBlank, (s.dropWhile isBlank).rtakeWhile isBlank, ?_, fun c => List.mem_takeWhile_imp,
    fun c => List.mem_rtakeWhile_imp⟩
  rw [strip_eq_rdropWhile, List.rdropWhile_append_rtakeWhile, List.takeWhile_append_dropWhile]

lemma strip_append_left (h : ∀ c ∈ s, isBlank c = true) (t : List Char) : strip (s ++ t) = strip t := by
  rw [strip_eq_rdropWhile, List.dropWhile_append_of_pos h, ← strip_eq_rdropWhile]

lemma strip_append_right (s : List Char) (h : ∀ c ∈ t, isBlank c = true) : strip (s ++ t) = strip s := by
  induction t using List.reverseRecOn with
  | nil => rw [List.append_nil]
  | append_singleton t c ih =>
    obtain ⟨ht, hc⟩ := List.forall_mem_append.mp h
    rw [← List.append_assoc, ← ih ht]
    have hc := hc c (List.mem_singleton_self c)
    rw [strip_eq_rdropWhile, strip_eq_rdropWhile, List.dropWhile_append]
    split
    · rename_i hempty
      rw [List.isEmpty_iff.mp hempty, List.dropWhile_cons_of_pos hc]
      rfl
    · rw [List.rdropWhile_concat_pos _ _ _ hc]

lemma strip_eq_nil_iff : strip s = [] ↔ ∀ c ∈ s, isBlank c = true := by
  constructor
  · intro h
    obtain ⟨before, after, hs, hbefore, hafter⟩ := strip_spec s
    rw [hs, h]
    simpa using fun c hc => hc.elim (hbefore c) (hafter c)
  · intro h
    rw [← List.append_nil s, strip_append_left h]
    rfl

lemma head_strip {c : Char} {rest : List Char} (h : strip s = c :: rest) : isBlank c = false := by
  have hstart : (c :: rest) <+: s.dropWhile isBlank := h ▸ List.rdropWhile_prefix _ _
  obtain ⟨more, hmore⟩ := hstart
  by_contra hc
  have hself : (s.dropWhile isBlank).dropWhile isBlank = s.dropWhile isBlank := List.dropWhile_idempotent isBlank s
  rw [← hmore, List.cons_append, List.dropWhile_cons_of_pos (by simpa using hc)] at hself
  have hlength := congrArg List.length hself
  have hle := (List.dropWhile_sublist (l := rest ++ more) isBlank).length_le
  simp only [List.length_cons] at hlength
  omega

lemma strip_strip (s : List Char) : strip (strip s) = strip s := by
  obtain ⟨before, after, hs, hbefore, hafter⟩ := strip_spec s
  conv_rhs => rw [hs, strip_append_left hbefore, strip_append_right _ hafter]

end Blanks

/-- The code points that end a line. -/
def lineEnds : List Nat := [0x0a, 0x0b, 0x0c, 0x0d, 0x1c, 0x1d, 0x1e, 0x85, 0x2028, 0x2029]

def isLineEnd (c : Char) : Bool := c.toNat ∈ lineEnds

def splitlines (s : List Char) : List (List Char) :=
  let parts := (Text.universalNewlines s).splitOnP isLineEnd
  if parts.getLast? = some [] then parts.dropLast else parts

lemma isBlank_of_isLineEnd {c : Char} (h : isLineEnd c = true) : isBlank c = true := by
  simp only [isLineEnd, lineEnds, decide_eq_true_eq, List.mem_cons, List.not_mem_nil, or_false] at h
  simp only [isBlank, decide_eq_true_eq, List.mem_cons, List.not_mem_nil, or_false]
  omega

/-- What the lines hold that are not blank. -/
def bodies (rawLines : List (List Char)) : List (List Char) := (rawLines.map strip).filter (· ≠ [])

lemma bodies_append (rawLines rawLines' : List (List Char)) :
    bodies (rawLines ++ rawLines') = bodies rawLines ++ bodies rawLines' := by
  simp [bodies]

lemma mem_bodies {rawLines : List (List Char)} {body : List Char} :
    body ∈ bodies rawLines ↔ body ≠ [] ∧ ∃ rawLine ∈ rawLines, strip rawLine = body := by
  simp [bodies, and_comm]

lemma bodies_singleton (rawLine : List Char) : bodies [strip rawLine] = bodies [rawLine] := by
  simp [bodies, strip_strip]

lemma bodies_singleton_of_blank {rawLine : List Char} (h : ∀ c ∈ rawLine, isBlank c = true) : bodies [rawLine] = [] := by
  simp [bodies, strip_eq_nil_iff.mpr h]

/-- What the parts of a text hold between its line ends. -/
def pieces (s : List Char) : List (List Char) := bodies (s.splitOnP isLineEnd)

lemma bodies_splitlines (s : List Char) : bodies (splitlines s) = pieces (Text.universalNewlines s) := by
  simp only [splitlines, pieces]
  split
  · rename_i hlast
    conv_rhs => rw [← List.dropLast_append_getLast? _ hlast, bodies_append]
    exact (List.append_nil _).symm
  · rfl

section Pieces

variable {s t : List Char} {c : Char}

lemma pieces_append_cons (s t : List Char) (hc : isLineEnd c = true) : pieces (s ++ c :: t) = pieces s ++ pieces t := by
  rw [pieces, List.splitOnP_append_cons s t hc, bodies_append]
  rfl

lemma pieces_of_unbroken (h : ∀ c ∈ s, isLineEnd c = false) : pieces s = bodies [s] := by
  rw [pieces, List.splitOnP_eq_singleton h]

lemma pieces_blank_cons (s : List Char) (hc : isBlank c = true) : pieces (c :: s) = pieces s := by
  by_cases hend : isLineEnd c = true
  · exact pieces_append_cons [] s hend
  · obtain ⟨part, parts, hparts⟩ := List.exists_cons_of_ne_nil (List.splitOnP_ne_nil isLineEnd s)
    have hpart : strip (c :: part) = strip part := strip_append_left (s := [c]) (by simpa using hc) part
    simp [pieces, List.splitOnP_cons_eq_if_modifyHead, hend, hparts, bodies, hpart]

lemma pieces_append_left (h : ∀ c ∈ s, isBlank c = true) (t : List Char) : pieces (s ++ t) = pieces t := by
  induction s with
  | nil => rfl
  | cons c s ih =>
    obtain ⟨hc, hs⟩ := List.forall_mem_cons.mp h
    rw [List.cons_append, pieces_blank_cons _ hc, ih hs]

/-- The first line end of a text that has one. -/
lemma exists_lineEnd (h : ∃ c ∈ s, isLineEnd c = true) :
    ∃ before c after, s = before ++ c :: after ∧ isLineEnd c = true ∧ ∀ d ∈ before, isLineEnd d = false := by
  induction s with
  | nil => simp at h
  | cons d s ih =>
    by_cases hd : isLineEnd d = true
    · exact ⟨[], d, s, rfl, hd, by simp⟩
    · obtain ⟨before, c, after, hs, hc, hbefore⟩ := ih (by simpa [hd] using h)
      exact ⟨d :: before, c, after, by rw [hs, List.cons_append], hc,
        List.forall_mem_cons.mpr ⟨Bool.eq_false_iff.mpr hd, hbefore⟩⟩

lemma bodies_append_right (s : List Char) (h : ∀ c ∈ t, isBlank c = true) : bodies [s ++ t] = bodies [s] := by
  simp only [bodies, List.map_cons, List.map_nil, strip_append_right _ h]

lemma pieces_append_right (s : List Char) (h : ∀ c ∈ t, isBlank c = true) : pieces (s ++ t) = pieces s := by
  by_cases hs : ∃ c ∈ s, isLineEnd c = true
  · obtain ⟨before, c, after, rfl, hc, -⟩ := exists_lineEnd hs
    rw [List.append_assoc, List.cons_append, pieces_append_cons _ _ hc, pieces_append_cons _ _ hc,
      pieces_append_right after h]
  · have hs : ∀ c ∈ s, isLineEnd c = false := by simpa using hs
    by_cases ht : ∃ c ∈ t, isLineEnd c = true
    · obtain ⟨inner, c, outer, rfl, hc, hinner⟩ := exists_lineEnd ht
      rw [List.forall_mem_append, List.forall_mem_cons] at h
      have houter : pieces outer = [] := by rw [← List.append_nil outer, pieces_append_left h.2.2]; rfl
      rw [← List.append_assoc, pieces_append_cons _ _ hc, houter, List.append_nil,
        pieces_of_unbroken (List.forall_mem_append.mpr ⟨hs, hinner⟩), bodies_append_right s h.1, pieces_of_unbroken hs]
    · have ht : ∀ c ∈ t, isLineEnd c = false := by simpa using ht
      rw [pieces_of_unbroken (List.forall_mem_append.mpr ⟨hs, ht⟩), bodies_append_right s h, pieces_of_unbroken hs]
termination_by s.length

lemma pieces_strip (s : List Char) : pieces (strip s) = pieces s := by
  obtain ⟨before, after, hs, hbefore, hafter⟩ := strip_spec s
  conv_rhs => rw [hs, pieces_append_left hbefore, pieces_append_right _ hafter]

/-- A text whose line ends are all among the blanks around it is one piece. -/
lemma pieces_of_strip (h : ∀ c ∈ strip s, isLineEnd c = false) : pieces s = bodies [s] := by
  rw [← pieces_strip, pieces_of_unbroken h, bodies_singleton]

/-- A text with a line end inside has a first piece before it. -/
lemma mem_pieces_of_lineEnd {inner rest : List Char} (hs : strip s = inner ++ c :: rest) (hc : isLineEnd c = true)
    (hinner : ∀ d ∈ inner, isLineEnd d = false) : strip inner ∈ pieces s ∧ strip inner ≠ [] := by
  obtain ⟨before, after, heq, hbefore, -⟩ := strip_spec s
  have hpieces : pieces s = bodies [inner] ++ pieces (rest ++ after) := by
    rw [heq, pieces_append_left hbefore, hs, List.append_assoc, List.cons_append, pieces_append_cons _ _ hc,
      pieces_of_unbroken hinner]
  have hne : strip inner ≠ [] := by
    cases inner with
    | nil => exact absurd (isBlank_of_isLineEnd hc) (by simp [head_strip hs])
    | cons d inner =>
      intro hempty
      have hd := strip_eq_nil_iff.mp hempty d (List.mem_cons_self ..)
      exact absurd hd (by simp [head_strip hs])
  refine ⟨?_, hne⟩
  rw [hpieces]
  exact List.mem_append_left _ (mem_bodies.mpr ⟨hne, inner, List.mem_singleton_self _, rfl⟩)

lemma length_strip_le (s : List Char) : (strip s).length ≤ s.length := by
  obtain ⟨before, after, hs, -, -⟩ := strip_spec s
  have hlength := congrArg List.length hs
  simp only [List.length_append] at hlength
  omega

lemma length_of_mem_splitOnP {part : List Char} (h : part ∈ s.splitOnP isLineEnd) : part.length ≤ s.length := by
  induction s generalizing part with
  | nil =>
    rw [List.splitOnP_nil, List.mem_singleton] at h
    rw [h]
  | cons c s ih =>
    obtain ⟨first, parts, hparts⟩ := List.exists_cons_of_ne_nil (List.splitOnP_ne_nil isLineEnd s)
    rw [List.splitOnP_cons_eq_if_modifyHead, hparts] at h
    rw [hparts] at ih
    split at h
    · rcases List.mem_cons.mp h with rfl | h
      · exact Nat.zero_le _
      · exact (ih h).trans (Nat.le_succ _)
    · rcases List.mem_cons.mp h with rfl | h
      · exact Nat.succ_le_succ (ih (List.mem_cons_self ..))
      · exact (ih (List.mem_cons_of_mem _ h)).trans (Nat.le_succ _)

lemma of_mem_pieces {body : List Char} (h : body ∈ pieces s) :
    body ≠ [] ∧ strip body = body ∧ body.length ≤ (strip s).length := by
  rw [← pieces_strip] at h
  obtain ⟨hne, part, hpart, rfl⟩ := mem_bodies.mp h
  exact ⟨hne, strip_strip part, (length_strip_le part).trans (length_of_mem_splitOnP hpart)⟩

/-- The pieces of a text are those of its lines. -/
lemma pieces_eq_flatMap (s : List Char) : pieces s = (Text.lines s).flatMap pieces := by
  by_cases hnewline : '\n' ∈ s
  · obtain ⟨line, rest, rfl, hline⟩ := List.eq_append_cons_of_mem hnewline
    rw [pieces_append_cons _ _ (by decide), Text.lines_line hline, List.flatMap_cons, pieces_eq_flatMap rest]
  · by_cases hs : s = []
    · rw [hs]
      rfl
    · rw [Text.lines_of_not_mem hs hnewline, List.flatMap_singleton]
termination_by s.length

lemma bodies_congr {parts parts' : List (List Char)} (hhead : parts.head? = parts'.head?)
    (htail : bodies parts.tail = bodies parts'.tail) : bodies parts = bodies parts' := by
  cases parts with
  | nil =>
    cases parts' with
    | nil => rfl
    | cons part parts' => cases hhead
  | cons part parts =>
    cases parts' with
    | nil => cases hhead
    | cons part' parts' =>
      obtain rfl : part = part' := Option.some.inj hhead
      change bodies ([part] ++ parts) = bodies ([part] ++ parts')
      rw [bodies_append, bodies_append]
      exact congrArg _ htail

/-- Translating the line ends keeps the first part and what the others hold; after a carriage return, what all hold. -/
lemma splitOnP_translate (s : List Char) :
    (((Text.translate false s).splitOnP isLineEnd).head? = (s.splitOnP isLineEnd).head? ∧
      bodies ((Text.translate false s).splitOnP isLineEnd).tail = bodies (s.splitOnP isLineEnd).tail) ∧
      pieces (Text.translate true s) = pieces s := by
  induction s with
  | nil => exact ⟨⟨rfl, rfl⟩, rfl⟩
  | cons c s ih =>
    obtain ⟨⟨hhead, htail⟩, hafter⟩ := ih
    have hpieces : pieces (Text.translate false s) = pieces s := bodies_congr hhead htail
    have hkept : ∀ d, ((d :: Text.translate false s).splitOnP isLineEnd).head? = ((d :: s).splitOnP isLineEnd).head? ∧
        bodies ((d :: Text.translate false s).splitOnP isLineEnd).tail = bodies ((d :: s).splitOnP isLineEnd).tail := by
      intro d
      rw [List.splitOnP_cons_eq_if_modifyHead, List.splitOnP_cons_eq_if_modifyHead]
      split
      · exact ⟨rfl, hpieces⟩
      · simp only [List.head?_modifyHead, List.tail_modifyHead, hhead, htail, and_self]
    by_cases hcr : c = '\r'
    · have hends : isLineEnd '\n' = true ∧ isLineEnd '\r' = true := by decide
      have htranslate : ∀ afterCr, Text.translate afterCr (c :: s) = '\n' :: Text.translate true s := by
        intro afterCr
        rw [Text.translate, if_pos hcr]
      refine ⟨?_, ?_⟩
      · rw [htranslate, hcr, List.splitOnP_cons_eq_if_modifyHead, List.splitOnP_cons_eq_if_modifyHead, if_pos hends.1,
          if_pos hends.2]
        exact ⟨rfl, hafter⟩
      · rw [htranslate, pieces_blank_cons _ (by decide), hafter, hcr, pieces_blank_cons _ (by decide)]
    · have hfalse : Text.translate false (c :: s) = c :: Text.translate false s := by
        rw [Text.translate, if_neg hcr, if_neg (by simp)]
      refine ⟨hfalse ▸ hkept c, ?_⟩
      by_cases hnewline : c = '\n'
      · rw [Text.translate, if_neg hcr, if_pos ⟨hnewline, rfl⟩, hpieces, hnewline, pieces_blank_cons _ (by decide)]
      · rw [Text.translate, if_neg hcr, if_neg (by simp [hnewline])]
        exact bodies_congr (hkept c).1 (hkept c).2

/-- A text has the pieces of the text in which its line ends are translated. -/
lemma pieces_universalNewlines (s : List Char) : pieces (Text.universalNewlines s) = pieces s :=
  bodies_congr (splitOnP_translate s).1.1 (splitOnP_translate s).1.2

end Pieces

end PlatformGitops.Coordination
