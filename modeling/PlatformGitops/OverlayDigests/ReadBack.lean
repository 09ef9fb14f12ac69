import Mathlib.Data.List.Forall2
import PlatformGitops.OverlayDigests.Surgical

/-! The contract's reading of an overlay, and the overlays that it reads the written map back from. -/

namespace PlatformGitops.OverlayDigests

open Library
open Coordination (isLineEnd)

section Inspecting

variable {lines : List Text} {line svc indent digest : Text} {place : ℕ} {isWord : Char → Bool} {s : Inspection}

/-- The two scripts read the same name in a line. -/
def Agrees (line : Text) : Prop := localService? line = none ∧ canonicalService? line = newNameService? line

lemma newName_of_canonical (h : canonicalService? line = some svc) : newNameService? line = some svc := by
  obtain ⟨⟨indent, value⟩, hfield, h⟩ := Option.bind_eq_some_iff.mp h
  obtain ⟨rest, hrest, hname⟩ := Option.bind_eq_some_iff.mp h
  obtain ⟨start, hvalue, hstart⟩ := List.dropPrefix?_eq_some_iff.mp hrest
  obtain rfl := eq_of_beq hstart
  have hvalue : value = canonicalImage ++ rest := hvalue
  have hghcr : value.dropPrefix? "ghcr.io/".toList = some ("halildeu".toList ++ ("/platform-backend-".toList ++ rest)) :=
    List.dropPrefix?_eq_some_iff.mpr ⟨_, by rw [hvalue]; rfl, beq_self_eq_true _⟩
  have howner : ∀ c ∈ "halildeu".toList, isOwnerChar c = true := forall_of_all (by decide)
  have htake : ("halildeu".toList ++ ("/platform-backend-".toList ++ rest)).takeWhile isOwnerChar = "halildeu".toList := by
    rw [List.takeWhile_append_of_pos howner]
    rfl
  have hdrop : ("halildeu".toList ++ ("/platform-backend-".toList ++ rest)).dropWhile isOwnerChar =
      "/platform-backend-".toList ++ rest := by
    rw [List.dropWhile_append_of_pos howner]
    rfl
  have hpath : ("/platform-backend-".toList ++ rest).dropPrefix? "/platform-backend-".toList = some rest :=
    List.dropPrefix?_eq_some_iff.mpr ⟨_, rfl, beq_self_eq_true _⟩
  refine Option.bind_eq_some_iff.mpr ⟨(indent, value), hfield, ?_⟩
  rw [imageService?, hghcr, Option.bind_eq_bind, Option.bind_some, htake, if_neg (by decide), hdrop, hpath]
  exact hname

lemma agrees_of_digest (h : (digestLine? line).isSome = true) : Agrees line := by
  have hfield := (digestLine_only h).2.1
  constructor
  · rw [localService?, serviceUnder?, hfield]
    rfl
  · rw [canonicalService?, serviceUnder?, newNameService?, hfield]
    rfl

lemma newName_isSome (h : newNameService? line = some svc) : (field? "newName".toList line).isSome = true := by
  obtain ⟨p, hp, -⟩ := Option.bind_eq_some_iff.mp h
  rw [hp]
  rfl

lemma digest_none_of_newName (h : newNameService? line = some svc) : digestLine? line = none := by
  by_contra hsome
  have hfield := (digestLine_only (Option.isSome_iff_ne_none.mpr hsome)).2.1
  rw [newNameService?, hfield] at h
  cases h

/-- What the contract knows after some lines. -/
structure Inspection.Knows (s : Inspection) (lines : List Text) : Prop where
  current : s.currentService = current lines
  found : ∀ svc ∈ requiredServices, ∀ digest, s.found.get? svc = some digest ↔
    ∃ place line indent, Attributed lines svc place ∧ lines[place]? = some line ∧ digestLine? line = some (indent, digest)

lemma attributed_concat_of_not (h : ¬(current lines = some svc ∧ (digestLine? line).isSome = true)) :
    Attributed (lines ++ [line]) svc place ↔ Attributed lines svc place := by
  rw [attributed_concat]
  exact or_iff_left fun hnew => h hnew.2

/-- A line that counts for no service that is rolled out leaves what was found. -/
lemma Inspection.Knows.concat {t : Inspection} (h : s.Knows lines) (hunrepeated : Unrepeated lines)
    (hcurrent : t.currentService = OverlayDigests.step (OverlayDigests.current lines) line) (hfound : t.found = s.found)
    (hnot : ∀ svc ∈ requiredServices, ¬(OverlayDigests.current lines = some svc ∧ (digestLine? line).isSome = true)) :
    t.Knows (lines ++ [line]) ∧ Unrepeated (lines ++ [line]) := by
  refine ⟨⟨by rw [hcurrent, current_concat], fun svc hsvc digest => ?_⟩, fun svc hsvc place other hplace hother => ?_⟩
  · rw [hfound, h.found svc hsvc]
    refine exists_congr fun place => exists_congr fun line' => exists_congr fun indent => ?_
    rw [attributed_concat_of_not (hnot svc hsvc)]
    refine and_congr_right fun hplace => ?_
    rw [List.getElem?_append_left hplace.lt]
  · rw [attributed_concat_of_not (hnot svc hsvc)] at hplace hother
    exact hunrepeated svc hsvc place other hplace hother

/-- The first line that counts for the service is the one whose digest is found. -/
lemma Inspection.Knows.set {t : Inspection} {service : Text} (h : s.Knows lines) (hunrepeated : Unrepeated lines)
    (hservice : OverlayDigests.current lines = some service)
    (hdigest : digestLine? line = some (indent, digest)) (hno : ∀ place, ¬Attributed lines service place)
    (hcurrent : t.currentService = OverlayDigests.step (OverlayDigests.current lines) line)
    (hfound : t.found = s.found.set service digest) :
    t.Knows (lines ++ [line]) ∧ Unrepeated (lines ++ [line]) := by
  have hnew : Attributed (lines ++ [line]) service lines.length :=
    attributed_concat.mpr (.inr ⟨rfl, hservice, by simp [hdigest]⟩)
  have hothers {svc : Text} (hne : svc ≠ service) :
      ¬(OverlayDigests.current lines = some svc ∧ (digestLine? line).isSome = true) := by
    rintro ⟨hcur, -⟩
    exact hne (Option.some.inj (hcur.symm.trans hservice))
  refine ⟨⟨by rw [hcurrent, current_concat], fun svc hsvc digest' => ?_⟩, fun svc hsvc place other hplace hother => ?_⟩
  · rw [hfound, Dict.get?, Dict.lookup_set]
    split_ifs with heq
    · subst heq
      constructor
      · intro heq
        obtain rfl := Option.some.inj heq
        exact ⟨_, line, indent, hnew, by simp, hdigest⟩
      · rintro ⟨place, line', indent', hplace, hline', hdigest'⟩
        obtain hold | ⟨rfl, -⟩ := attributed_concat.mp hplace
        · exact absurd hold (hno place)
        · obtain rfl : line = line' := by simpa using hline'
          rw [hdigest] at hdigest'
          obtain ⟨-, rfl⟩ := Prod.mk.inj (Option.some.inj hdigest')
          rfl
    · have hfoundsvc := h.found svc hsvc digest'
      rw [Dict.get?] at hfoundsvc
      rw [hfoundsvc]
      refine exists_congr fun place => exists_congr fun line' => exists_congr fun indent' => ?_
      rw [attributed_concat_of_not (hothers heq)]
      refine and_congr_right fun hplace => ?_
      rw [List.getElem?_append_left hplace.lt]
  · by_cases heq : svc = service
    · subst heq
      obtain hold | ⟨rfl, -⟩ := attributed_concat.mp hplace
      · exact absurd hold (hno place)
      · obtain hold | ⟨rfl, -⟩ := attributed_concat.mp hother
        · exact absurd hold (hno other)
        · rfl
    · rw [attributed_concat_of_not (hothers heq)] at hplace hother
      exact hunrepeated svc hsvc place other hplace hother

lemma goes_on {P : Prop} {Q : Inspection → Prop} {t : Inspection} (h : Q t) :
    (some t = none → P) ∧ ∀ u, some t = some u → Q u := by
  refine ⟨fun hnone => absurd hnone (Option.some_ne_none t), fun u hu => ?_⟩
  obtain rfl := Option.some.inj hu
  exact h

lemma inspect_step (isWord : Char → Bool) (hknows : s.Knows lines) (hunrepeated : Unrepeated lines) (hagree : Agrees line) :
    (s.step isWord line = none → ¬Unrepeated (lines ++ [line])) ∧
      ∀ t, s.step isWord line = some t → t.Knows (lines ++ [line]) ∧ Unrepeated (lines ++ [line]) := by
  obtain ⟨hlocal, hcanonical⟩ := hagree
  have hcurrent := hknows.current
  by_cases hstart : isEntryStart line = true
  · have hdigest : digestLine? line = none := by
      by_contra hsome
      rw [(digestLine_only (Option.isSome_iff_ne_none.mpr hsome)).1] at hstart
      cases hstart
    rw [Inspection.step, if_pos hstart]
    refine goes_on ?_
    exact hknows.concat hunrepeated (by rw [OverlayDigests.step, if_pos hstart]) rfl (by simp [hdigest])
  · by_cases hexception : isException isWord line = true
    · have hdigest : digestLine? line = none := by
        by_contra hsome
        rw [(digestLine_only (Option.isSome_iff_ne_none.mpr hsome)).2.2 isWord] at hexception
        cases hexception
      have hname : newNameService? line = none := by
        by_contra hsome
        obtain ⟨svc, hsvc⟩ := Option.ne_none_iff_exists'.mp hsome
        rw [(newName_not_start (newName_isSome hsvc)).2 isWord] at hexception
        cases hexception
      rw [Inspection.step, if_neg hstart, if_pos hexception]
      refine goes_on ?_
      refine hknows.concat hunrepeated ?_ rfl (by simp [hdigest])
      simp [OverlayDigests.step, hstart, hname, hdigest, hcurrent]
    · unfold Inspection.step
      rw [if_neg hstart, if_neg hexception, hcanonical, hlocal]
      cases hname : newNameService? line with
      | some svc =>
        have hdigest := digest_none_of_newName hname
        refine goes_on ?_
        refine hknows.concat hunrepeated ?_ rfl (by simp [hdigest])
        simp [OverlayDigests.step, hstart, hname]
      | none =>
        cases hservice : s.currentService with
        | none =>
          have hnone := hcurrent.symm.trans hservice
          refine goes_on ?_
          refine hknows.concat hunrepeated ?_ rfl (by simp [hnone])
          simp [OverlayDigests.step, hstart, hname, hnone, hservice]
        | some service =>
          have hsome := hcurrent.symm.trans hservice
          cases hdigest : digestLine? line with
          | none =>
            refine goes_on ?_
            refine hknows.concat hunrepeated ?_ rfl (by simp [hdigest])
            simp [OverlayDigests.step, hstart, hname, hsome, hservice, hdigest]
          | some p =>
            obtain ⟨indent, digest⟩ := p
            have hstep : OverlayDigests.step (OverlayDigests.current lines) line = none := by
              simp [OverlayDigests.step, hstart, hname, hdigest]
            have hnew : Attributed (lines ++ [line]) service lines.length :=
              attributed_concat.mpr (.inr ⟨rfl, hsome, by simp [hdigest]⟩)
            by_cases hrequired : service ∈ requiredServices
            · have hfound := hknows.found service hrequired
              simp only [hrequired, not_true, if_false]
              by_cases hseen : (s.found.get? service).isSome = true
              · rw [if_pos hseen]
                refine ⟨fun _ hall => ?_, fun t ht => absurd ht.symm (Option.some_ne_none t)⟩
                obtain ⟨old, hold⟩ := Option.isSome_iff_exists.mp hseen
                obtain ⟨place, _, _, hplace, -⟩ := (hfound old).mp hold
                have heq := hall service hrequired place _ (attributed_concat.mpr (.inl hplace)) hnew
                exact absurd hplace.lt (by omega)
              · rw [if_neg hseen]
                have hno (place : ℕ) : ¬Attributed lines service place := by
                  intro hplace
                  obtain ⟨line', hline', hsome'⟩ := hplace.2
                  obtain ⟨⟨indent', digest'⟩, hdigest'⟩ := Option.isSome_iff_exists.mp hsome'
                  exact hseen (by simp [(hfound digest').mpr ⟨place, line', indent', hplace, hline', hdigest'⟩])
                exact goes_on (hknows.set hunrepeated hsome hdigest hno hstep.symm rfl)
            · simp only [hrequired, not_false_iff, if_true]
              refine goes_on ?_
              refine hknows.concat hunrepeated hstep.symm rfl fun svc hsvc hcur => ?_
              obtain rfl := Option.some.inj (hcur.1.symm.trans hsome)
              exact hrequired hsvc

/-- The contract stops where a second digest line counts for a service, and else knows the digests. -/
lemma inspect_fold (isWord : Char → Bool) (hagree : ∀ line ∈ lines, Agrees line) :
    (lines.foldlM (Inspection.step isWord) {} = none → ¬Unrepeated lines) ∧
      ∀ s, lines.foldlM (Inspection.step isWord) {} = some s → s.Knows lines ∧ Unrepeated lines := by
  induction lines using List.reverseRecOn with
  | nil =>
    have hno (svc : Text) (place : ℕ) : ¬Attributed [] svc place := fun hplace => absurd hplace.lt (by simp)
    refine ⟨nofun, fun s hs => ?_⟩
    obtain rfl := Option.some.inj hs
    refine ⟨⟨rfl, fun svc _ digest => ⟨nofun, ?_⟩⟩, fun svc _ place other hplace _ => absurd hplace (hno svc place)⟩
    rintro ⟨place, _, _, hplace, -⟩
    exact absurd hplace (hno svc place)
  | append_singleton lines line ih =>
    obtain ⟨hnone, hsome⟩ := ih fun line' hline' => hagree line' (by simp [hline'])
    obtain ⟨hlocal, hcanonical⟩ := hagree line (by simp)
    rw [List.foldlM_append]
    cases hfold : lines.foldlM (Inspection.step isWord) {} with
    | none =>
      refine ⟨fun _ hunrepeated => hnone hfold fun svc hsvc place other hplace hother => ?_, nofun⟩
      exact hunrepeated svc hsvc place other (attributed_concat.mpr (.inl hplace)) (attributed_concat.mpr (.inl hother))
    | some s =>
      obtain ⟨hknows, hunrepeated⟩ := hsome s hfold
      have hstep : (some s >>= fun s => [line].foldlM (Inspection.step isWord) s) = s.step isWord line := by
        cases hstep : s.step isWord line <;> simp [hstep]
      rw [hstep]
      exact inspect_step isWord hknows hunrepeated (hagree line (by simp))

end Inspecting

section Answers

variable {lines : List Text} {svcs : List Text} {g : Text → Option Text}

lemma mapM_pairs (h : ∀ svc ∈ svcs, (g svc).isSome = true) : ∃ answers : Dict Text Text,
    (svcs.mapM fun svc => (g svc).map fun digest => (svc, digest)) = some answers ∧
      ∀ svc, answers.get? svc = if svc ∈ svcs then g svc else none := by
  induction svcs with
  | nil => exact ⟨[], rfl, fun _ => rfl⟩
  | cons svc svcs ih =>
    obtain ⟨hsvc, hrest⟩ := List.forall_mem_cons.mp h
    obtain ⟨digest, hdigest⟩ := Option.isSome_iff_exists.mp hsvc
    obtain ⟨answers, hanswers, hget⟩ := ih hrest
    refine ⟨(svc, digest) :: answers, ?_, fun other => ?_⟩
    · rw [List.mapM_cons, hdigest, hanswers]
      rfl
    · rw [Dict.get?_cons, hget]
      by_cases heq : other = svc
      · simp [heq, hdigest]
      · simp [heq]

/-- Digest lines in the same places, and the same lines elsewhere. -/
def SameNames (lines lines' : List Text) : Prop :=
  List.Forall₂ (fun a b => a = b ∨ (digestLine? a).isSome = true ∧ (digestLine? b).isSome = true) lines lines'

lemma step_digest {current : Option Text} {line : Text} (h : (digestLine? line).isSome = true) : step current line = none := by
  obtain ⟨hstart, hfield, -⟩ := digestLine_only h
  have hname : newNameService? line = none := by rw [newNameService?, hfield]; rfl
  simp [step, hstart, hname, h]

lemma SameNames.current {lines' : List Text} (h : SameNames lines lines') :
    OverlayDigests.current lines = OverlayDigests.current lines' := by
  have hfold : ∀ start, lines.foldl step start = lines'.foldl step start := by
    induction h with
    | nil => exact fun _ => rfl
    | cons hline _ ih =>
      intro start
      obtain rfl | ⟨ha, hb⟩ := hline
      · exact ih _
      · rw [List.foldl_cons, List.foldl_cons, step_digest ha, step_digest hb]
        exact ih _
  exact hfold none

lemma SameNames.attributed {lines' : List Text} (h : SameNames lines lines') {svc : Text} {place : ℕ} :
    Attributed lines svc place ↔ Attributed lines' svc place := by
  have htake : SameNames (lines.take place) (lines'.take place) := List.forall₂_take place h
  unfold Attributed
  rw [htake.current]
  refine and_congr_right fun _ => ?_
  by_cases hplace : place < lines.length
  · have hplace' : place < lines'.length := by rwa [← h.length_eq]
    have hline := h.get hplace hplace'
    rw [List.get_eq_getElem, List.get_eq_getElem] at hline
    rw [List.getElem?_eq_getElem hplace, List.getElem?_eq_getElem hplace']
    obtain heq | ⟨ha, hb⟩ := hline
    · simp [heq]
    · simp [ha, hb]
  · have hplace' : ¬place < lines'.length := by rwa [← h.length_eq]
    rw [List.getElem?_eq_none (not_lt.mp hplace), List.getElem?_eq_none (not_lt.mp hplace')]

end Answers

section ReadingBack

variable {overlay : Overlay} {digestMap : Dict Text Text} {isWord : Char → Bool} {row : Row} {raw : Text}

lemma takeWhile_line (h : ∀ c ∈ row.raw, isLineEnd c = false) : row.line.takeWhile (!isLineEnd ·) = row.raw := by
  rw [Row.line, List.takeWhile_append_of_pos (by simpa using h)]
  cases row.ending with
  | lf => exact List.append_nil _
  | crlf => exact List.append_nil _
  | bare => exact List.append_nil _

/-- What the contract makes of the text of some rows. -/
lemma inspectOverlay_textOf {rows : List Row} (h : Lined rows) : inspectOverlay isWord (some (textOf rows)) =
    ((rows.map Row.raw).foldlM (Inspection.step isWord) {}).bind fun s =>
      requiredServices.mapM fun service => (s.found.get? service).map fun digest => (service, digest) := by
  have hlines : ((rows.map Row.line).map fun line => line.takeWhile (!isLineEnd ·)) = rows.map Row.raw := by
    rw [List.map_map]
    exact List.map_congr_left fun row hrow => takeWhile_line (h.unbroken row hrow)
  unfold inspectOverlay
  rw [Option.bind_eq_bind, Option.bind_some, keptLines_textOf h, hlines]
  rfl

lemma sameNames_of_editable (h : Lined overlay.rows) (hplaced : Placed overlay.rows) (heditable : Editable digestMap overlay) :
    SameNames (overlay.rows.map Row.raw) ((overlay.rows.map (Row.update digestMap)).map Row.raw) := by
  rw [SameNames, List.map_map, List.forall₂_map_left_iff, List.forall₂_map_right_iff, List.forall₂_same]
  intro row hmem
  obtain ⟨place, hrow⟩ := List.getElem?_of_mem hmem
  obtain ⟨hno, -⟩ | ⟨svc, indent, digest, newDigest, hrewrites, hline, hnew, -⟩ :=
    edited_place digestMap h hrow
  · exact .inl (update_raw_of_kept heditable hrow hno).symm
  · obtain ⟨hraw, -⟩ := update_raw_of_rewritten hplaced heditable hrow hrewrites hline hnew
    obtain ⟨_, _, -, hne, hindent, -⟩ := digestLine?_eq_some.mp hline
    refine .inr ⟨by simp [hline], ?_⟩
    rw [Function.comp_apply, hraw, digestLine?_digestText hne hindent (heditable.exact svc newDigest hnew)]
    rfl

/-- The digest that a line holds after the edit. -/
lemma updated_digest (h : Lined overlay.rows) (hplaced : Placed overlay.rows) (heditable : Editable digestMap overlay)
    {svc newDigest : Text} {place : ℕ} (hlast : LastAttributed (overlay.rows.map Row.raw) svc place)
    (hnew : digestMap.get? svc = some newDigest) : ∃ line indent,
      ((overlay.rows.map (Row.update digestMap)).map Row.raw)[place]? = some line ∧
        digestLine? line = some (indent, newDigest) := by
  have hplace := hlast.1.lt
  rw [List.length_map] at hplace
  have hrow := List.getElem?_eq_getElem hplace
  refine ⟨(overlay.rows[place].update digestMap).raw, ?_⟩
  have hget : ((overlay.rows.map (Row.update digestMap)).map Row.raw)[place]? =
      some (overlay.rows[place].update digestMap).raw := by
    rw [List.getElem?_map, List.getElem?_map, hrow]
    rfl
  obtain ⟨hno, -⟩ | ⟨svc', indent, digest, newDigest', hrewrites, hline, hnew', -⟩ :=
    edited_place digestMap h hrow
  · obtain ⟨line, hline, hsome⟩ := hlast.1.2
    obtain ⟨⟨indent, digest⟩, hdigest⟩ := Option.isSome_iff_exists.mp hsome
    have hraw : line = overlay.rows[place].raw := by
      rw [List.getElem?_map, hrow] at hline
      exact (Option.some.inj hline).symm
    have hsame : digest = newDigest := by
      by_contra hne
      exact hno svc ⟨hlast, line, indent, digest, newDigest, hline, hdigest, hnew,
        isDigestValue_iff.mpr (.inl (heditable.exact svc newDigest hnew)), hne⟩
    refine ⟨indent, hget, ?_⟩
    rw [update_raw_of_kept heditable hrow hno, ← hraw, hdigest, hsame]
  · obtain rfl := hrewrites.1.1.unique hlast.1
    rw [hnew] at hnew'
    obtain rfl := Option.some.inj hnew'
    obtain ⟨hraw, -⟩ := update_raw_of_rewritten hplaced heditable hrow hrewrites hline hnew
    obtain ⟨_, _, -, hne, hindent, -⟩ := digestLine?_eq_some.mp hline
    exact ⟨indent, hget, by rw [hraw, digestLine?_digestText hne hindent (heditable.exact svc' newDigest hnew)]⟩

lemma readsBack_iff (h : Lined overlay.rows) (hplaced : Placed overlay.rows)
    (happlied : Applied digestMap (overlay.rows.map Row.raw)) (heditable : Editable digestMap overlay) {written : Text}
    (hwritten : written = textOf (overlay.rows.map (Row.update digestMap))) :
    ReadsBack digestMap overlay written ↔
      (Full digestMap → CanonicalRegistry overlay → Unrepeated (overlay.rows.map Row.raw)) := by
  refine forall_congr' fun hfull => forall_congr' fun hregistry => ?_
  have hlined := updated_lined h heditable.exact
  have hnames := sameNames_of_editable h hplaced heditable
  have hunrepeated : Unrepeated ((overlay.rows.map (Row.update digestMap)).map Row.raw) ↔
      Unrepeated (overlay.rows.map Row.raw) := by
    simp only [Unrepeated, hnames.attributed]
  have hagree : ∀ line ∈ (overlay.rows.map (Row.update digestMap)).map Row.raw, Agrees line := by
    intro line hline
    obtain ⟨place, hplace⟩ := List.getElem?_of_mem hline
    have hlt : place < (overlay.rows.map Row.raw).length := by
      rw [hnames.length_eq]
      exact (List.getElem?_eq_some_iff.mp hplace).1
    have hpair := hnames.get hlt (List.getElem?_eq_some_iff.mp hplace).1
    rw [List.get_eq_getElem, List.get_eq_getElem, (List.getElem?_eq_some_iff.mp hplace).2] at hpair
    obtain heq | ⟨-, hdigest⟩ := hpair
    · obtain ⟨row, hrow, hraw⟩ := List.mem_map.mp (List.getElem_mem hlt)
      obtain ⟨hlocal, hcanonical⟩ := hregistry row hrow
      rw [← heq, ← hraw]
      refine ⟨hlocal, ?_⟩
      cases hname : newNameService? row.raw with
      | some svc => exact hcanonical svc hname
      | none =>
        by_contra hsome
        obtain ⟨svc, hsvc⟩ := Option.ne_none_iff_exists'.mp hsome
        rw [newName_of_canonical hsvc] at hname
        cases hname
    · exact agrees_of_digest hdigest
  rw [hwritten, ← hunrepeated]
  constructor
  · intro hreads
    obtain ⟨answers, hanswers, -⟩ := hreads fun _ => false
    rw [inspectOverlay_textOf hlined] at hanswers
    obtain ⟨s, hs, -⟩ := Option.bind_eq_some_iff.mp hanswers
    exact ((inspect_fold _ hagree).2 s hs).2
  · intro hunique isWord
    rw [inspectOverlay_textOf hlined]
    obtain ⟨hnone, hsome⟩ := inspect_fold isWord hagree
    cases hfold : ((overlay.rows.map (Row.update digestMap)).map Row.raw).foldlM (Inspection.step isWord) {} with
    | none => exact absurd hunique (hnone hfold)
    | some s =>
      obtain ⟨hknows, -⟩ := hsome s hfold
      have hfound (svc : Text) (hsvc : svc ∈ requiredServices) : s.found.get? svc = digestMap.get? svc := by
        obtain ⟨newDigest, hnew⟩ := Option.isSome_iff_exists.mp (hfull svc hsvc)
        obtain ⟨-, place, hlast⟩ := happlied.settled svc newDigest hnew
        obtain ⟨line, indent, hline, hdigest⟩ := updated_digest h hplaced heditable hlast hnew
        rw [hnew]
        exact (hknows.found svc hsvc newDigest).mpr ⟨place, line, indent, hnames.attributed.mp hlast.1, hline, hdigest⟩
      obtain ⟨answers, hanswers, hget⟩ := @mapM_pairs requiredServices s.found.get?
        fun svc hsvc => by rw [hfound svc hsvc]; exact hfull svc hsvc
      refine ⟨answers, by rw [Option.bind_some]; exact hanswers, fun svc => ?_⟩
      rw [hget]
      split_ifs with hsvc
      · exact hfound svc hsvc
      · cases hnew : digestMap.get? svc with
        | none => rfl
        | some newDigest => exact absurd (happlied.known svc newDigest hnew) hsvc

end ReadingBack

section Overlays

variable {rows : List Row} {row : Row} {indent value : Text}

lemma lined_of_ended (hunbroken : (rows.all fun row => row.raw.all (isLineEnd · == false)) = true)
    (hended : ∀ row ∈ rows, row.ending ≠ .bare) : Lined rows := by
  refine ⟨fun row hrow => forall_of_all (List.all_eq_true.mp hunbroken row hrow), fun before row after hrows hbare => ?_⟩
  exact absurd hbare (hended row (by rw [hrows]; simp))

/-- A digest line in the spelling that is written holds its digest. -/
lemma placed_of_digestText (h : ∀ row ∈ rows, ∀ lead value trail, row.content = .digest lead value trail →
    ∃ indent, lead = digestText indent [] ∧ trail = [] ∧ indent ≠ [] ∧ (∀ c ∈ indent, isTab c = true) ∧
      isDigest value = true) : Placed rows := by
  intro row hrow lead value trail hcontent indent gap digest tail hraw hindent hgap htail hdigest
  obtain ⟨indent', rfl, rfl, hne, hindent', hvalue⟩ := h row hrow lead value trail hcontent
  have htext : row.raw = digestText indent' value := by
    rw [raw_digest hcontent]
    simp [digestText]
  have hread := digestLine?_digestText hne hindent' hvalue
  have hindentne : indent ≠ [] := by
    rintro rfl
    rw [← htext, hraw] at hread
    obtain ⟨_, _, hfield, hne', htabs, -⟩ := digestLine?_eq_some.mp hread
    cases indent' with
    | nil => exact hne' rfl
    | cons c indent' =>
      obtain ⟨rfl, -⟩ := List.cons.inj hfield
      exact absurd (htabs _ List.mem_cons_self) (by decide)
  have hsame := digestLine?_eq_some.mpr ⟨gap, tail, rfl, hindentne, hindent, hgap, htail, hdigest⟩
  rw [← hraw, htext, hread] at hsame
  obtain ⟨rfl, rfl⟩ := Prod.mk.inj (Option.some.inj hsame)
  obtain ⟨rfl, rfl⟩ := spelling_unique hvalue (hraw.symm.trans htext)
  exact ⟨by simp [digestText], rfl, rfl⟩

def digestOf (c : Char) : Text := "sha256:".toList ++ List.replicate 64 c

/-- An entry of one service, in lines that all end alike. -/
def authEntry (ending : Ending) : Entry where
  newName := some "ghcr.io/halildeu/platform-backend-auth-service".toList
  lines := [(.plain "  - name: auth-service".toList, ending),
    (.plain "    newName: ghcr.io/halildeu/platform-backend-auth-service".toList, ending),
    (.digest "    digest: ".toList (digestOf 'a') [], ending)]

def authMap : Dict Text Text := [("auth-service".toList, digestOf 'b')]

lemma auth_placed {overlay : Overlay} (h : ∀ row ∈ overlay.rows, row.content ∈
    [Content.plain "  - name: auth-service".toList,
      .plain "    newName: ghcr.io/halildeu/platform-backend-auth-service".toList,
      .digest "    digest: ".toList (digestOf 'a') []]) : Placed overlay.rows := by
  refine placed_of_digestText fun row hrow lead value trail hcontent => ?_
  have hmem := h row hrow
  simp only [hcontent, List.mem_cons, List.not_mem_nil, or_false, reduceCtorEq, false_or, Content.digest.injEq] at hmem
  obtain ⟨rfl, rfl, rfl⟩ := hmem
  exact ⟨"    ".toList, by decide, rfl, by decide, forall_of_all (by decide), by decide⟩

end Overlays

/-- The file after the run. -/
def Outcome.file (outcome : Outcome) (text : Text) : Text := outcome.written.getD text

theorem digests_written_iff {overlay : Overlay} {options : Options} {digestMap : Dict Text Text} (h : Lined overlay.rows)
    (hplaced : Placed overlay.rows) (hmode : options.check = false)
    (hexit : (applyDigests options digestMap (some (textOf overlay.rows))).exit = 0) :
    Surgical digestMap overlay
        ((applyDigests options digestMap (some (textOf overlay.rows))).file (textOf overlay.rows)) ∧
      ReadsBack digestMap overlay
        ((applyDigests options digestMap (some (textOf overlay.rows))).file (textOf overlay.rows)) ↔
    Editable digestMap overlay ∧
      (Full digestMap → CanonicalRegistry overlay → Unrepeated (overlay.rows.map Row.raw)) := by
  obtain ⟨happlied, hwritten⟩ := applyDigests_zero hmode hexit
  rw [keptLines_textOf h, map_chomp h] at happlied
  rw [keptLines_textOf h] at hwritten
  have hfile : (applyDigests options digestMap (some (textOf overlay.rows))).file (textOf overlay.rows) =
      if (editLines digestMap (overlay.rows.map Row.line)).changes = [] then textOf overlay.rows
        else (editLines digestMap (overlay.rows.map Row.line)).lines.flatten := by
    rw [Outcome.file, hwritten]
    split_ifs <;> rfl
  rw [surgical_iff h hplaced happlied hfile]
  refine and_congr_right fun heditable => readsBack_iff h hplaced happlied heditable ?_
  exact ((surgical_iff h hplaced happlied hfile).mpr heditable).exact

theorem digests_written_iff_auth :
    Surgical authMap [.entry (authEntry .lf)]
        ((applyDigests {} authMap (some (textOf (Overlay.rows [.entry (authEntry .lf)])))).file
          (textOf (Overlay.rows [.entry (authEntry .lf)]))) ∧
      ReadsBack authMap [.entry (authEntry .lf)]
        ((applyDigests {} authMap (some (textOf (Overlay.rows [.entry (authEntry .lf)])))).file
          (textOf (Overlay.rows [.entry (authEntry .lf)]))) ↔
    Editable authMap [.entry (authEntry .lf)] ∧
      (Full authMap → CanonicalRegistry [.entry (authEntry .lf)] →
        Unrepeated ((Overlay.rows [.entry (authEntry .lf)]).map Row.raw)) :=
  digests_written_iff (lined_of_ended (by decide +kernel) (by decide)) (auth_placed (by simp [Overlay.rows, Part.rows, authEntry]))
    rfl (by decide +kernel)

/-- Lines that end in a carriage return, and two entries of one service. -/
theorem crlf_and_twin_entries_change :
    (¬ ∀ (overlay : Overlay) (options : Options) (digestMap : Dict Text Text), Lined overlay.rows → Placed overlay.rows →
      options.check = false → (applyDigests options digestMap (some (textOf overlay.rows))).exit = 0 →
        Surgical digestMap overlay
            ((applyDigests options digestMap (some (textOf overlay.rows))).file (textOf overlay.rows)) ∧
          ReadsBack digestMap overlay
            ((applyDigests options digestMap (some (textOf overlay.rows))).file (textOf overlay.rows))) ∧
    (applyDigests {} authMap (some (textOf (Overlay.rows [.entry (authEntry .crlf)])))).file [] ≠
      textOf ((Overlay.rows [.entry (authEntry .crlf)]).map (Row.update authMap)) ∧
    (applyDigests {} authMap (some (textOf (Overlay.rows [.entry (authEntry .lf), .entry (authEntry .lf)])))).file [] ≠
      textOf ((Overlay.rows [.entry (authEntry .lf), .entry (authEntry .lf)]).map (Row.update authMap)) := by
  refine ⟨fun h => ?_, by decide +kernel, by decide +kernel⟩
  have hsurgical := (h [.entry (authEntry .crlf)] {} authMap (lined_of_ended (by decide +kernel) (by decide))
    (auth_placed (by simp [Overlay.rows, Part.rows, authEntry])) rfl (by decide +kernel)).1
  exact absurd hsurgical.exact (by decide +kernel)

end PlatformGitops.OverlayDigests
