import PlatformGitops.Library.Spans
import PlatformGitops.OverlayDigests.Scanners

/-! Which service a digest line counts for: the one that was named last, before any other entry or digest line. -/

namespace PlatformGitops.OverlayDigests

open Library
open Coordination (isBlank isLineEnd)

section Shapes

variable {line key indent gap value digest tail : Text} {svc : Text} {c : Char}

/-- What a field's line looks like. -/
lemma field?_eq_some (hkey : (key ++ [':']).head?.any isTab = false) : field? key line = some (indent, value) ↔
    ∃ gap, line = indent ++ ((key ++ [':']) ++ (gap ++ value)) ∧ indent ≠ [] ∧ (∀ c ∈ indent, isTab c = true) ∧
      (∀ c ∈ gap, isTab c = true) ∧ value.head?.any isTab = false := by
  unfold field?
  constructor
  · intro h
    split_ifs at h with hnone
    obtain ⟨rest, hrest, hpair⟩ := Option.map_eq_some_iff.mp h
    obtain ⟨rfl, rfl⟩ := Prod.mk.inj hpair
    obtain ⟨start, hstart, hbeq⟩ := List.dropPrefix?_eq_some_iff.mp hrest
    obtain rfl := eq_of_beq hbeq
    refine ⟨rest.takeWhile isTab, ?_, hnone, fun c => List.mem_takeWhile_imp, fun c => List.mem_takeWhile_imp,
      head_dropWhile isTab rest⟩
    rw [List.takeWhile_append_dropWhile, ← hstart, List.takeWhile_append_dropWhile]
  · rintro ⟨gap, rfl, hne, hindent, hgap, hvalue⟩
    have hhead : ((key ++ [':']) ++ (gap ++ value)).head?.any isTab = false := by
      cases key <;> exact hkey
    obtain ⟨htake, hdrop⟩ := span_run hindent hhead
    rw [htake, hdrop, if_neg hne]
    have hbegin : ((key ++ [':']) ++ (gap ++ value)).dropPrefix? (key ++ [':']) = some (gap ++ value) :=
      List.dropPrefix?_eq_some_iff.mpr ⟨_, rfl, beq_self_eq_true _⟩
    rw [hbegin, Option.map_some, (span_run hgap hvalue).2]

lemma isDigest_length (h : isDigest digest = true) : digest.length = 71 := by
  simp only [isDigest, decide_eq_true_eq] at h
  exact h.1

lemma isDigest_eq (h : isDigest digest = true) :
    ∃ hex, digest = "sha256:".toList ++ hex ∧ hex.length = 64 ∧ ∀ c ∈ hex, isHexDigit c = true := by
  simp only [isDigest, decide_eq_true_eq, List.all_eq_true] at h
  refine ⟨digest.drop 7, ?_, by simp [h.1], h.2.2⟩
  rw [← h.2.1, List.take_append_drop]

/-- The text of a line `digest:`. -/
def digestField (indent gap digest tail : Text) : Text := indent ++ ("digest:".toList ++ (gap ++ (digest ++ tail)))

lemma digestLine?_eq_some : digestLine? line = some (indent, digest) ↔
    ∃ gap tail, line = digestField indent gap digest tail ∧ indent ≠ [] ∧ (∀ c ∈ indent, isTab c = true) ∧
      (∀ c ∈ gap, isTab c = true) ∧ (∀ c ∈ tail, isTab c = true) ∧ isDigest digest = true := by
  unfold digestLine?
  rw [Option.bind_eq_some_iff]
  constructor
  · rintro ⟨⟨indent', value⟩, hfield, h⟩
    obtain ⟨gap, rfl, hne, hindent, hgap, -⟩ := (field?_eq_some (by decide)).mp hfield
    split_ifs at h with hdigest
    obtain ⟨rfl, rfl⟩ := Prod.mk.inj (Option.some.inj h)
    refine ⟨gap, value.drop 71, ?_, hne, hindent, hgap, by simpa using hdigest.2, hdigest.1⟩
    rw [digestField, List.take_append_drop]
    rfl
  · rintro ⟨gap, tail, rfl, hne, hindent, hgap, htail, hdigest⟩
    have hlength := isDigest_length hdigest
    obtain ⟨hex, rfl, -, -⟩ := isDigest_eq hdigest
    refine ⟨(indent, ("sha256:".toList ++ hex) ++ tail), (field?_eq_some (by decide)).mpr ⟨gap, rfl, hne, hindent, hgap, rfl⟩, ?_⟩
    have htake : (("sha256:".toList ++ hex) ++ tail).take 71 = "sha256:".toList ++ hex := by
      rw [← hlength, List.take_left]
    have hdrop : (("sha256:".toList ++ hex) ++ tail).drop 71 = tail := by
      rw [← hlength, List.drop_left]
    simp only [htake, hdrop]
    rw [if_pos ⟨hdigest, by simpa using htail⟩]

lemma dropWhile_field (hindent : ∀ c ∈ indent, isTab c = true) (hkey : key.head?.any isTab = false) (hne : key ≠ []) :
    (indent ++ (key ++ value)).dropWhile isTab = key ++ value := by
  refine (span_run hindent ?_).2
  cases key with
  | nil => exact absurd rfl hne
  | cons c key => exact hkey

/-- A digest line is nothing else to the scanners. -/
lemma digestLine_only (h : (digestLine? line).isSome = true) :
    isEntryStart line = false ∧ field? "newName".toList line = none ∧ ∀ isWord, isException isWord line = false := by
  obtain ⟨⟨indent, digest⟩, hline⟩ := Option.isSome_iff_exists.mp h
  obtain ⟨gap, tail, rfl, hne, hindent, -⟩ := digestLine?_eq_some.mp hline
  have hdrop : (digestField indent gap digest tail).dropWhile isTab = "digest:".toList ++ (gap ++ (digest ++ tail)) :=
    dropWhile_field hindent (by decide) (by decide)
  refine ⟨by rw [isEntryStart, hdrop]; rfl, ?_, fun isWord => by rw [isException, hdrop]; rfl⟩
  rw [field?, hdrop]
  split <;> rfl

lemma newName_not_start (h : (field? "newName".toList line).isSome = true) :
    isEntryStart line = false ∧ ∀ isWord, isException isWord line = false := by
  obtain ⟨⟨indent, value⟩, hfield⟩ := Option.isSome_iff_exists.mp h
  obtain ⟨gap, rfl, -, hindent, -⟩ := (field?_eq_some (by decide)).mp hfield
  have hdrop : (indent ++ (("newName".toList ++ [':']) ++ (gap ++ value))).dropWhile isTab =
      ("newName".toList ++ [':']) ++ (gap ++ value) := dropWhile_field hindent (by decide) (by decide)
  exact ⟨by rw [isEntryStart, hdrop]; rfl, fun isWord => by rw [isException, hdrop]; rfl⟩

end Shapes

section Current

/-- The service that the next digest line counts for. -/
def step (current : Option Text) (line : Text) : Option Text :=
  if isEntryStart line then none
  else
    match newNameService? line with
    | some svc => some svc
    | none => if (digestLine? line).isSome then none else current

def current (lines : List Text) : Option Text := lines.foldl step none

/-- The digest line at the place counts for the service. -/
def Attributed (lines : List Text) (svc : Text) (place : ℕ) : Prop :=
  current (lines.take place) = some svc ∧ ∃ line, lines[place]? = some line ∧ (digestLine? line).isSome = true

/-- It is the last of the service's. -/
def LastAttributed (lines : List Text) (svc : Text) (place : ℕ) : Prop :=
  Attributed lines svc place ∧ ∀ other, Attributed lines svc other → other ≤ place

variable {lines : List Text} {line svc svc' indent digest : Text} {place other : ℕ}

lemma Attributed.lt (h : Attributed lines svc place) : place < lines.length := by
  obtain ⟨-, line, hline, -⟩ := h
  exact (List.getElem?_eq_some_iff.mp hline).1

lemma Attributed.unique (h : Attributed lines svc place) (h' : Attributed lines svc' place) : svc = svc' :=
  Option.some.inj (h.1.symm.trans h'.1)

lemma current_concat (lines : List Text) (line : Text) : current (lines ++ [line]) = step (current lines) line := by
  rw [current, List.foldl_append]
  rfl

lemma attributed_concat : Attributed (lines ++ [line]) svc place ↔
    Attributed lines svc place ∨ place = lines.length ∧ current lines = some svc ∧ (digestLine? line).isSome = true := by
  unfold Attributed
  rcases Nat.lt_trichotomy place lines.length with hlt | rfl | hgt
  · rw [List.take_append_of_le_length hlt.le, List.getElem?_append_left hlt]
    simp [hlt.ne]
  · simp
  · have hnone : (lines ++ [line])[place]? = none := List.getElem?_eq_none (by simp; omega)
    have hnone' : lines[place]? = none := List.getElem?_eq_none hgt.le
    simp [hnone, hnone', hgt.ne']

lemma lastAttributed_concat_of_not (h : ¬(current lines = some svc ∧ (digestLine? line).isSome = true)) :
    LastAttributed (lines ++ [line]) svc place ↔ LastAttributed lines svc place := by
  have hsame (place : ℕ) : Attributed (lines ++ [line]) svc place ↔ Attributed lines svc place := by
    rw [attributed_concat]
    exact or_iff_left fun hnew => h hnew.2
  simp only [LastAttributed, hsame]

lemma lastAttributed_concat (h : current lines = some svc) (hline : (digestLine? line).isSome = true) :
    LastAttributed (lines ++ [line]) svc place ↔ place = lines.length := by
  constructor
  · rintro ⟨hplace, hlast⟩
    have hnew := hlast _ (attributed_concat.mpr (.inr ⟨rfl, h, hline⟩))
    have hlt := hplace.lt
    simp only [List.length_append, List.length_singleton] at hlt
    omega
  · rintro rfl
    refine ⟨attributed_concat.mpr (.inr ⟨rfl, h, hline⟩), fun other hother => ?_⟩
    have hlt := hother.lt
    simp only [List.length_append, List.length_singleton] at hlt
    omega

end Current

section Walks

variable {lines : List Text} {line svc indent digest : Text} {place : ℕ}

/-- What the walk knows after some lines. -/
structure Walk.Knows (walk : Walk) (lines : List Text) : Prop where
  current : walk.currentSvc = current lines
  found : ∀ svc place indent digest, walk.found.get? svc = some (place, indent, digest) ↔
    LastAttributed lines svc place ∧ ∃ line, lines[place]? = some line ∧ digestLine? line = some (indent, digest)

lemma Walk.Knows.found_concat {walk : Walk} (h : walk.Knows lines)
    (hnot : ∀ svc, ¬(OverlayDigests.current lines = some svc ∧ (digestLine? line).isSome = true)) (svc : Text) (place : ℕ)
    (indent digest : Text) : walk.found.get? svc = some (place, indent, digest) ↔
      LastAttributed (lines ++ [line]) svc place ∧
        ∃ line', (lines ++ [line])[place]? = some line' ∧ digestLine? line' = some (indent, digest) := by
  rw [lastAttributed_concat_of_not (hnot svc), h.found]
  refine and_congr_right fun hlast => ?_
  rw [List.getElem?_append_left hlast.1.lt]

lemma Walk.Knows.step {walk : Walk} (h : walk.Knows (lines.map chomp)) (line : Text) :
    (walk.step (line, lines.length)).Knows (lines.map chomp ++ [chomp line]) := by
  have hcurrent := h.current
  by_cases hstart : isEntryStart (chomp line) = true
  · have hnone : digestLine? (chomp line) = none := by
      by_contra hsome
      rw [(digestLine_only (Option.isSome_iff_ne_none.mpr hsome)).1] at hstart
      cases hstart
    refine ⟨?_, ?_⟩
    · rw [current_concat, OverlayDigests.step, if_pos hstart, Walk.step, if_pos hstart]
    · rw [Walk.step, if_pos hstart]
      exact h.found_concat (by simp [hnone])
  · cases hname : newNameService? (chomp line) with
    | some svc =>
      have hnone : digestLine? (chomp line) = none := by
        by_contra hsome
        have hfield := (digestLine_only (Option.isSome_iff_ne_none.mpr hsome)).2.1
        rw [newNameService?, hfield] at hname
        cases hname
      refine ⟨?_, ?_⟩
      · simp only [current_concat, OverlayDigests.step, Walk.step, if_neg hstart, hname]
      · simp only [Walk.step, if_neg hstart, hname]
        exact h.found_concat (by simp [hnone])
    | none =>
      cases hsvc : walk.currentSvc with
      | none =>
        have hcurrent' := hcurrent.symm.trans hsvc
        refine ⟨?_, ?_⟩
        · simp only [current_concat, OverlayDigests.step, Walk.step, if_neg hstart, hname, hsvc, hcurrent']
          split <;> rfl
        · simp only [Walk.step, if_neg hstart, hname, hsvc]
          exact h.found_concat (by simp [hcurrent'])
      | some svc =>
        have hcurrent' := hcurrent.symm.trans hsvc
        cases hdigest : digestLine? (chomp line) with
        | none =>
          refine ⟨?_, ?_⟩
          · simp [current_concat, OverlayDigests.step, Walk.step, hstart, hname, hsvc, hcurrent', hdigest]
          · simp only [Walk.step, if_neg hstart, hname, hsvc, hdigest]
            exact h.found_concat (by simp [hdigest])
        | some p =>
          obtain ⟨indent, digest⟩ := p
          refine ⟨?_, fun svc' place indent' digest' => ?_⟩
          · simp [current_concat, OverlayDigests.step, Walk.step, hstart, hname, hsvc, hdigest]
          · simp only [Walk.step, if_neg hstart, hname, hsvc, hdigest, Dict.get?, Dict.lookup_set]
            split_ifs with heq
            · subst heq
              rw [lastAttributed_concat hcurrent' (by simp [hdigest])]
              constructor
              · rintro ⟨⟩
                exact ⟨by simp, chomp line, by simp, hdigest⟩
              · rintro ⟨rfl, line', hline', hdigest'⟩
                have hsame : line' = chomp line := by simpa using hline'.symm
                rw [hsame, hdigest] at hdigest'
                obtain ⟨rfl, rfl⟩ := Prod.mk.inj (Option.some.inj hdigest')
                simp
            · have hnot : ¬(OverlayDigests.current (lines.map chomp) = some svc' ∧
                  (digestLine? (chomp line)).isSome = true) := by
                rintro ⟨hcur, -⟩
                exact heq (Option.some.inj (hcur.symm.trans hcurrent'))
              rw [lastAttributed_concat_of_not hnot]
              have hfound := h.found svc' place indent' digest'
              rw [Dict.get?] at hfound
              rw [hfound]
              refine and_congr_right fun hlast => ?_
              rw [List.getElem?_append_left hlast.1.lt]

/-- The index holds the last digest line that counts for a service. -/
lemma indexDigestLines_get? : (indexDigestLines lines).get? svc = some (place, indent, digest) ↔
    LastAttributed (lines.map chomp) svc place ∧
      ∃ line, (lines.map chomp)[place]? = some line ∧ digestLine? line = some (indent, digest) := by
  have hknows : (lines.zipIdx.foldl Walk.step {}).Knows (lines.map chomp) := by
    induction lines using List.reverseRecOn with
    | nil =>
      refine ⟨rfl, fun svc place indent digest => ⟨nofun, ?_⟩⟩
      rintro ⟨⟨hplace, -⟩, -⟩
      exact absurd hplace.lt (by simp)
    | append_singleton lines line ih =>
      rw [List.zipIdx_append, List.foldl_append, List.map_append]
      simpa using ih.step line
  exact hknows.found svc place indent digest

end Walks

end PlatformGitops.OverlayDigests
