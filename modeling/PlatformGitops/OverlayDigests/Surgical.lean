import PlatformGitops.OverlayDigests.Documents

/-! When the digests of a map are written into an overlay and nothing else is. -/

namespace PlatformGitops.OverlayDigests

open Library
open Coordination (isLineEnd)

section Digests

variable {digest newDigest indent gap tail raw : Text}

/-- A digest of a map is a digest, or one with a newline behind it. -/
lemma isDigestValue_iff : isDigestValue digest = true ↔
    isDigest digest = true ∨ ∃ value, digest = value ++ ['\n'] ∧ isDigest value = true := by
  unfold isDigestValue chomp
  constructor
  · intro h
    split_ifs at h with hlast
    · refine .inr ⟨digest.dropLast, ?_, h⟩
      exact (List.dropLast_append_getLast? '\n' hlast).symm
    · exact .inl h
  · rintro (h | ⟨value, rfl, h⟩)
    · split_ifs with hlast
      · obtain ⟨hex, rfl, hlen, hhex⟩ := isDigest_eq h
        have hmem : '\n' ∈ "sha256:".toList ++ hex := List.mem_of_getLast? hlast
        rcases List.mem_append.mp hmem with hmem | hmem
        · exact absurd hmem (by decide)
        · exact absurd (hhex _ hmem) (by decide)
      · exact h
    · rw [if_pos (by simp), List.dropLast_concat]
      exact h

lemma digest_unbroken (h : isDigest digest = true) : ∀ c ∈ digest, isLineEnd c = false := by
  obtain ⟨hex, rfl, -, hhex⟩ := isDigest_eq h
  intro c hc
  rcases List.mem_append.mp hc with hc | hc
  · exact forall_of_all (s := "sha256:".toList) (by decide) c hc
  · have hc := hhex c hc
    simp only [isHexDigit, decide_eq_true_eq, Char.le_def, UInt32.le_iff_toNat_le] at hc
    have hval : c.val.toNat = c.toNat := rfl
    have hletters : ('a' : Char).val.toNat = 97 ∧ ('f' : Char).val.toNat = 102 := ⟨rfl, rfl⟩
    have hdigits : ('0' : Char).val.toNat = 48 ∧ ('9' : Char).val.toNat = 57 := ⟨rfl, rfl⟩
    simp only [isLineEnd, Coordination.lineEnds, decide_eq_false_iff_not, List.mem_cons, List.not_mem_nil, or_false]
    omega

lemma tabs_unbroken (h : ∀ c ∈ indent, isTab c = true) : ∀ c ∈ indent, isLineEnd c = false := by
  intro c hc
  have hc := h c hc
  simp only [isTab, decide_eq_true_eq] at hc
  rcases hc with rfl | rfl <;> decide

lemma digestText_unbroken (hindent : ∀ c ∈ indent, isTab c = true) (hdigest : isDigest digest = true) :
    ∀ c ∈ digestText indent digest, isLineEnd c = false := by
  intro c hc
  rw [digestText, List.append_assoc] at hc
  rcases List.mem_append.mp hc with hc | hc
  · exact tabs_unbroken hindent c hc
  · rcases List.mem_append.mp hc with hc | hc
    · exact forall_of_all (s := "digest: ".toList) (by decide) c hc
    · exact digest_unbroken hdigest c hc

lemma digestText_eq : digestText indent digest = digestField indent [' '] digest [] := by
  simp [digestText, digestField]

lemma digestLine?_digestText (hne : indent ≠ []) (hindent : ∀ c ∈ indent, isTab c = true) (hdigest : isDigest digest = true) :
    digestLine? (digestText indent digest) = some (indent, digest) := by
  rw [digestText_eq]
  exact digestLine?_eq_some.mpr ⟨[' '], [], rfl, hne, hindent, forall_of_all (by decide), nofun, hdigest⟩

/-- Only one spelling of a digest line is the one that is written. -/
lemma spelling_unique (hdigest : isDigest digest = true) (h : digestField indent gap digest tail = digestText indent digest) :
    gap = [' '] ∧ tail = [] := by
  rw [digestText_eq, digestField, digestField] at h
  have hrest := List.append_cancel_left (List.append_cancel_left h)
  obtain ⟨hex, rfl, -, -⟩ := isDigest_eq hdigest
  cases gap with
  | nil => exact absurd (List.cons.inj hrest).1 (by decide)
  | cons c gap =>
    obtain ⟨rfl, hgap⟩ := List.cons.inj hrest
    have hgap : gap ++ (("sha256:".toList ++ hex) ++ tail) = [] ++ (("sha256:".toList ++ hex) ++ []) := hgap
    have hlength := congrArg List.length hgap
    rw [List.length_append, List.length_append, List.nil_append, List.append_nil] at hlength
    have hgap' : gap = [] := List.eq_nil_of_length_eq_zero (by omega)
    have htail' : tail = [] := List.eq_nil_of_length_eq_zero (by omega)
    exact ⟨by rw [hgap'], htail'⟩

end Digests

section Rows

variable {rows : List Row} {row : Row} {digestMap : Dict Text Text} {place : ℕ} {svc owner newDigest indent digest lead value
  trail raw : Text}

@[simp] lemma update_ending : (row.update digestMap).ending = row.ending := by
  unfold Row.update
  split <;> rfl

lemma update_of_digest (hservice : row.service = some owner) (hnew : digestMap.get? owner = some newDigest)
    (hcontent : row.content = .digest lead value trail) : (row.update digestMap).raw = lead ++ newDigest ++ trail := by
  simp [Row.update, hservice, hnew, hcontent, Row.raw, Content.raw]

/-- A row that is not the mapped digest of an entry stays. -/
lemma update_cases (row : Row) (digestMap : Dict Text Text) : row.update digestMap = row ∨
    ∃ owner newDigest lead value trail, row.service = some owner ∧ digestMap.get? owner = some newDigest ∧
      row.content = .digest lead value trail := by
  unfold Row.update
  split
  · rename_i newDigest lead value trail hservice hcontent
    obtain ⟨owner, howner, hnew⟩ := Option.bind_eq_some_iff.mp hservice
    exact .inr ⟨owner, newDigest, lead, value, trail, howner, hnew, hcontent⟩
  · exact .inl rfl

lemma raw_digest (h : row.content = .digest lead value trail) : row.raw = lead ++ value ++ trail := by
  rw [Row.raw, h]
  rfl

/-- A line that was not rewritten is the line of the new overlay only if it does not end in a carriage return and nothing
changes in it. -/
lemma kept_line (hraw : ∀ c ∈ row.raw, isLineEnd c = false) (h : row.line = (row.update digestMap).text) :
    row.ending ≠ .crlf ∧ row.raw = (row.update digestMap).raw := by
  rw [Row.line, Row.text, update_ending] at h
  cases hending : row.ending with
  | lf =>
    rw [hending] at h
    exact ⟨by decide, List.append_cancel_right h⟩
  | crlf =>
    rw [hending, Ending.read, Ending.text] at h
    have hsplit : (row.update digestMap).raw ++ ['\r', '\n'] = ((row.update digestMap).raw ++ ['\r']) ++ ['\n'] := by simp
    rw [hsplit] at h
    have hcr : '\r' ∈ row.raw := by
      rw [List.append_cancel_right h]
      simp
    exact absurd rfl (not_break hraw _ hcr).1
  | bare =>
    rw [hending] at h
    exact ⟨by decide, List.append_cancel_right h⟩

lemma rewritten_line (hraw : ∀ c ∈ raw, isLineEnd c = false)
    (hupdate : ∀ c ∈ (row.update digestMap).raw, isLineEnd c = false) (h : raw ++ ['\n'] = (row.update digestMap).text) :
    row.ending = .lf ∧ raw = (row.update digestMap).raw := by
  rw [Row.text, update_ending] at h
  cases hending : row.ending with
  | lf =>
    rw [hending] at h
    exact ⟨rfl, List.append_cancel_right h⟩
  | crlf =>
    rw [hending, Ending.text] at h
    have hsplit : (row.update digestMap).raw ++ ['\r', '\n'] = ((row.update digestMap).raw ++ ['\r']) ++ ['\n'] := by simp
    rw [hsplit] at h
    have hcr : '\r' ∈ raw := by
      rw [List.append_cancel_right h]
      simp
    exact absurd rfl (not_break hraw _ hcr).1
  | bare =>
    rw [hending, Ending.text, List.append_nil] at h
    have hnl : '\n' ∈ (row.update digestMap).raw := by
      rw [← h]
      simp
    exact absurd rfl (not_break hupdate _ hnl).2

lemma update_lined (h : Lined rows) (hupdate : ∀ row ∈ rows.map (Row.update digestMap), ∀ c ∈ row.raw, isLineEnd c = false)
    (hne : ∀ row ∈ rows, row.raw ≠ [] → (row.update digestMap).raw ≠ []) : Lined (rows.map (Row.update digestMap)) := by
  refine ⟨hupdate, fun before row after hrows hbare => ?_⟩
  obtain ⟨before', rest, rfl, rfl, hrest⟩ := List.map_eq_append_iff.mp hrows
  obtain ⟨row', after', rfl, rfl, rfl⟩ := List.map_eq_cons_iff.mp hrest
  obtain ⟨rfl, hraw⟩ := h.ended before' row' after' rfl (by simpa using hbare)
  exact ⟨rfl, hne row' (by simp) hraw⟩

end Rows

section Lines

variable {overlay : Overlay} {digestMap : Dict Text Text} {lines : List Text} {place : ℕ} {svc : Text} {row : Row} {line : Text}

/-- What becomes of the line at a place. -/
lemma edited_place (digestMap : Dict Text Text) (h : Lined overlay.rows) (hrow : overlay.rows[place]? = some row) :
    ((∀ svc, ¬Rewrites digestMap (overlay.rows.map Row.raw) place svc) ∧
      (editLines digestMap (overlay.rows.map Row.line)).lines[place]? = some row.line) ∨
    ∃ svc indent digest newDigest, Rewrites digestMap (overlay.rows.map Row.raw) place svc ∧
      digestLine? row.raw = some (indent, digest) ∧ digestMap.get? svc = some newDigest ∧
        isDigestValue newDigest = true ∧ digest ≠ newDigest ∧
          (editLines digestMap (overlay.rows.map Row.line)).lines[place]? = some (digestText indent newDigest ++ ['\n']) := by
  by_cases hsome : ∃ svc, Rewrites digestMap (overlay.rows.map Row.raw) place svc
  · obtain ⟨svc, hrewrites⟩ := hsome
    have hlines := hrewrites
    obtain ⟨hlast, raw, indent, digest, newDigest, hraw, hline, hnew, hvalue, hne⟩ := hrewrites
    have hsame : raw = row.raw := by simpa [hrow] using hraw.symm
    subst hsame
    refine .inr ⟨svc, indent, digest, newDigest, hlines, hline, hnew, hvalue, hne, ?_⟩
    rw [← map_chomp h] at hlast hraw
    exact editLines_rewritten hlast hraw hline hnew hvalue hne
  · have hnone := not_exists.mp hsome
    refine .inl ⟨hnone, ?_⟩
    rw [editLines_kept (by rwa [map_chomp h]), List.getElem?_map, hrow]
    rfl

lemma newline_count_line (h : ∀ c ∈ row.raw, isLineEnd c = false) (hline : line = row.line ∨ line = row.text) :
    line.count '\n' = (if row.ending = .bare then 0 else 1) := by
  have hraw : row.raw.count '\n' = 0 := List.count_eq_zero.mpr fun hc => (not_break h _ hc).2 rfl
  rcases hline with rfl | rfl
  · rw [Row.line, List.count_append, hraw]
    cases row.ending <;> rfl
  · rw [Row.text, List.count_append, hraw]
    cases row.ending <;> rfl

/-- A digest with a newline behind it is always written. -/
lemma rewrites_of_not_digest {raws : List Text} {newDigest : Text} (happlied : Applied digestMap raws)
    (hnew : digestMap.get? svc = some newDigest) (hnot : ¬isDigest newDigest = true) :
    ∃ value, newDigest = value ++ ['\n'] ∧ ∃ place, Rewrites digestMap raws place svc := by
  obtain ⟨hvalue, place, hlast⟩ := happlied.settled svc newDigest hnew
  obtain hdigest | ⟨value, rfl, hdigest⟩ := isDigestValue_iff.mp hvalue
  · exact absurd hdigest hnot
  · obtain ⟨line, hline, hsome⟩ := hlast.1.2
    obtain ⟨⟨indent, digest⟩, hdigestLine⟩ := Option.isSome_iff_exists.mp hsome
    obtain ⟨_, _, -, -, -, -, -, hold⟩ := digestLine?_eq_some.mp hdigestLine
    have hne : digest ≠ value ++ ['\n'] := by
      rintro rfl
      exact absurd (digest_unbroken hold '\n' (by simp)) (by decide)
    exact ⟨value, rfl, place, hlast, line, indent, digest, _, hline, hdigestLine, hnew, hvalue, hne⟩

/-- It makes a line too many. -/
lemma exact_of_surgical (h : Lined overlay.rows)
    (happlied : Applied digestMap (overlay.rows.map Row.raw))
    (hupdate : ∀ row ∈ overlay.rows.map (Row.update digestMap), ∀ c ∈ row.raw, isLineEnd c = false)
    (hwritten : (editLines digestMap (overlay.rows.map Row.line)).lines.flatten =
      textOf (overlay.rows.map (Row.update digestMap))) {newDigest : Text} (hnew : digestMap.get? svc = some newDigest) :
    isDigest newDigest = true := by
  by_contra hnot
  obtain ⟨value, rfl, place, hrewrites⟩ := rewrites_of_not_digest happlied hnew hnot
  have hlast := hrewrites.1
  have hcount : (textOf (overlay.rows.map (Row.update digestMap))).count '\n' =
      (overlay.rows.map Row.line).flatten.count '\n' := by
    rw [textOf, List.count_flatten, List.count_flatten, List.map_map, List.map_map, List.map_map]
    congr 1
    refine List.map_congr_left fun row hrow => ?_
    have hold := newline_count_line (h.unbroken row hrow) (.inl rfl)
    have hnew := newline_count_line (hupdate _ (List.mem_map_of_mem hrow)) (.inr rfl)
    rw [update_ending] at hnew
    exact hnew.trans hold.symm
  have hlt := @Text.count_flatten_lt '\n' (overlay.rows.map Row.line) (editLines digestMap (overlay.rows.map Row.line)).lines
    editLines_length.symm ?_ ?_
  · rw [hwritten, hcount] at hlt
    exact lt_irrefl _ hlt
  · intro k a b ha hb
    obtain ⟨row, hrow, rfl⟩ := List.getElem?_map .. ▸ ha |> Option.map_eq_some_iff.mp
    have hcountrow := newline_count_line (h.unbroken row (List.mem_of_getElem? hrow)) (.inl rfl)
    obtain ⟨-, hkept⟩ | ⟨_, indent', _, newDigest', -, -, -, -, -, hedited⟩ := edited_place digestMap h hrow
    · rw [hkept] at hb
      rw [Option.some.inj hb]
    · rw [hedited] at hb
      rw [← Option.some.inj hb, hcountrow, List.count_append]
      split_ifs <;> simp
  · have hlt := hlast.1.lt
    rw [List.length_map] at hlt
    have hrow := List.getElem?_eq_getElem hlt
    obtain ⟨hnone, -⟩ | ⟨svc', indent', digest', newDigest', hrewrites', -, hnew', -, -, hedited⟩ :=
      edited_place digestMap h hrow
    · exact absurd hrewrites (hnone svc)
    · obtain rfl := hrewrites'.1.1.unique hlast.1
      rw [hnew] at hnew'
      obtain rfl := Option.some.inj hnew'
      refine ⟨place, _, _, by rw [List.getElem?_map, hrow]; rfl, hedited, ?_⟩
      rw [newline_count_line (h.unbroken _ (List.mem_of_getElem? hrow)) (.inl rfl)]
      simp only [digestText, List.count_append, List.count_singleton_self]
      split_ifs <;> omega

end Lines

section Exactness

variable {overlay : Overlay} {digestMap : Dict Text Text} {place : ℕ} {svc : Text} {row : Row}

/-- The lines after the edit are lines of a text. -/
lemma edited_kept (h : Lined overlay.rows)
    (hexact : ∀ svc newDigest, digestMap.get? svc = some newDigest → isDigest newDigest = true) :
    Text.Kept (· == '\n') (editLines digestMap (overlay.rows.map Row.line)).lines := by
  have hbody {raw : Text} (hraw : ∀ c ∈ raw, isLineEnd c = false) : ∀ c ∈ raw, (c == '\n') = false := by
    intro c hc
    simpa using (not_break hraw c hc).2
  refine Text.kept_of_getElem? fun k line hline => ?_
  have hlt : k < overlay.rows.length := by
    have hlt := (List.getElem?_eq_some_iff.mp hline).1
    rwa [editLines_length, List.length_map] at hlt
  have hrow := List.getElem?_eq_getElem hlt
  obtain ⟨-, hkept⟩ | ⟨svc, indent, digest, newDigest, -, hdigest, hnew, -, -, hedited⟩ :=
    edited_place digestMap h hrow
  · rw [hline] at hkept
    obtain rfl := Option.some.inj hkept
    have hraw := h.unbroken _ (List.mem_of_getElem? hrow)
    by_cases hbare : overlay.rows[k].ending = .bare
    · have hsplit : overlay.rows = overlay.rows.take k ++ overlay.rows[k] :: overlay.rows.drop (k + 1) := by
        rw [List.getElem_cons_drop, List.take_append_drop]
      obtain ⟨hdrop, hne⟩ := h.ended _ _ _ hsplit hbare
      have hlast := List.drop_eq_nil_iff.mp hdrop
      refine .inr ⟨?_, ?_, ?_⟩
      · rw [editLines_length, List.length_map]
        omega
      · rwa [Row.line, hbare, Ending.read, List.append_nil]
      · rw [Row.line, hbare, Ending.read, List.append_nil]
        exact hbody hraw
    · refine .inl ⟨overlay.rows[k].raw, '\n', ?_, hbody hraw, rfl⟩
      rw [Row.line]
      cases hending : overlay.rows[k].ending with
      | lf => rfl
      | crlf => rfl
      | bare => exact absurd hending hbare
  · rw [hline] at hedited
    obtain rfl := Option.some.inj hedited
    obtain ⟨_, _, -, -, hindent, -⟩ := digestLine?_eq_some.mp hdigest
    exact .inl ⟨_, _, rfl, hbody (digestText_unbroken hindent (hexact svc newDigest hnew)), rfl⟩

/-- The updated rows are lines of a text. -/
lemma updated_lined (h : Lined overlay.rows)
    (hexact : ∀ svc newDigest, digestMap.get? svc = some newDigest → isDigest newDigest = true) :
    Lined (overlay.rows.map (Row.update digestMap)) := by
  refine update_lined h (fun row hrow => ?_) fun row hrow hne => ?_
  · obtain ⟨row, hmem, rfl⟩ := List.mem_map.mp hrow
    obtain hsame | ⟨owner, newDigest, lead, value, trail, hservice, hnew, hcontent⟩ := update_cases row digestMap
    · rw [hsame]
      exact h.unbroken row hmem
    · have hraw := h.unbroken row hmem
      rw [raw_digest hcontent] at hraw
      rw [update_of_digest hservice hnew hcontent]
      intro c hc
      rcases List.mem_append.mp hc with hc | hc
      · rcases List.mem_append.mp hc with hc | hc
        · exact hraw c (by simp [hc])
        · exact digest_unbroken (hexact owner newDigest hnew) c hc
      · exact hraw c (by simp [hc])
  · obtain hsame | ⟨owner, newDigest, lead, value, trail, hservice, hnew, hcontent⟩ := update_cases row digestMap
    · rwa [hsame]
    · rw [update_of_digest hservice hnew hcontent]
      obtain ⟨hex, rfl, -, -⟩ := isDigest_eq (hexact owner newDigest hnew)
      simp

/-- In a row that is placed and seen as a digest line, the digest is what the line reads. -/
lemma placed_digest (hplaced : Placed overlay.rows) (hmem : row ∈ overlay.rows) {lead value trail indent digest : Text}
    (hcontent : row.content = .digest lead value trail) (hline : digestLine? row.raw = some (indent, digest)) :
    ∃ gap, row.raw = digestField indent gap digest trail ∧ lead = indent ++ ("digest:".toList ++ gap) ∧ value = digest ∧
      (∀ c ∈ indent, isTab c = true) ∧ (∀ c ∈ gap, isTab c = true) ∧ (∀ c ∈ trail, isTab c = true) ∧ indent ≠ [] := by
  obtain ⟨gap, tail, hraw, hne, hindent, hgap, htail, hdigest⟩ := digestLine?_eq_some.mp hline
  obtain ⟨hlead, hvalue, rfl⟩ := hplaced row hmem lead value trail hcontent indent gap digest tail hraw hindent hgap htail
    hdigest
  exact ⟨gap, hraw, hlead, hvalue, hindent, hgap, htail, hne⟩

lemma update_eq_of_value {owner newDigest lead value trail : Text} (hservice : row.service = some owner)
    (hnew : digestMap.get? owner = some newDigest) (hcontent : row.content = .digest lead value trail) :
    (row.update digestMap).raw = row.raw ↔ value = newDigest := by
  rw [update_of_digest hservice hnew hcontent, raw_digest hcontent]
  constructor
  · intro h
    exact (List.append_cancel_left (List.append_cancel_right h)).symm
  · rintro rfl
    rfl

/-- A row whose line stays is a row that holds no other digest than the mapped one. -/
lemma update_raw_of_kept (heditable : Editable digestMap overlay) (hrow : overlay.rows[place]? = some row)
    (hno : ∀ svc, ¬Rewrites digestMap (overlay.rows.map Row.raw) place svc) : (row.update digestMap).raw = row.raw := by
  obtain hsame | ⟨owner, newDigest, lead, value, trail, hservice, hnew, hcontent⟩ := update_cases row digestMap
  · rw [hsame]
  · refine (update_eq_of_value hservice hnew hcontent).mpr ?_
    by_contra hne
    obtain ⟨svc, hrewrites⟩ := heditable.kept place row owner newDigest lead value trail hrow hservice hnew hcontent hne
    exact hno svc hrewrites

/-- A row whose line is rewritten holds the digest that is written. -/
lemma update_raw_of_rewritten (hplaced : Placed overlay.rows) (heditable : Editable digestMap overlay)
    (hrow : overlay.rows[place]? = some row) (hrewrites : Rewrites digestMap (overlay.rows.map Row.raw) place svc)
    {indent digest newDigest : Text} (hline : digestLine? row.raw = some (indent, digest))
    (hnew : digestMap.get? svc = some newDigest) :
    (row.update digestMap).raw = digestText indent newDigest ∧ row.ending = .lf := by
  obtain ⟨owner, lead, value, trail, indent', digest', hservice, howner, hcontent, hline', hraw, hending⟩ :=
    heditable.rewritten place svc newDigest row hrewrites hnew hrow
  rw [hline] at hline'
  obtain ⟨rfl, rfl⟩ := Prod.mk.inj (Option.some.inj hline')
  obtain ⟨gap, hfield, rfl, -, -⟩ := placed_digest hplaced (List.mem_of_getElem? hrow) hcontent hline
  obtain ⟨_, _, -, -, -, -, -, hdigest⟩ := digestLine?_eq_some.mp hline
  obtain ⟨rfl, rfl⟩ := spelling_unique hdigest (hfield.symm.trans hraw)
  refine ⟨?_, hending⟩
  rw [update_of_digest hservice howner hcontent]
  simp [digestText]

lemma editable_of_kept (h : Lined overlay.rows) (hcomplete : Complete digestMap overlay)
    (hexact : ∀ svc newDigest, digestMap.get? svc = some newDigest → isDigest newDigest = true)
    (hno : ∀ place svc, ¬Rewrites digestMap (overlay.rows.map Row.raw) place svc)
    (htext : textOf overlay.rows = textOf (overlay.rows.map (Row.update digestMap))) : Editable digestMap overlay := by
  refine ⟨hcomplete, hexact, fun place svc _ _ hrewrites => absurd hrewrites (hno place svc), ?_,
    fun place svc hrewrites => absurd hrewrites (hno place svc)⟩
  intro place row owner newDigest lead value trail hrow hservice hnew hcontent hne
  have hlines := (texts_kept h).flatten_injective (texts_kept (updated_lined h hexact)) htext
  have hplace : row.text = (row.update digestMap).text := by
    have hget := congrArg (·[place]?) hlines
    simpa [hrow] using hget
  rw [Row.text, Row.text, update_ending] at hplace
  exact absurd ((update_eq_of_value hservice hnew hcontent).mp (List.append_cancel_right hplace).symm) hne

lemma editable_of_lines (h : Lined overlay.rows) (hplaced : Placed overlay.rows) (hcomplete : Complete digestMap overlay)
    (hexact : ∀ svc newDigest, digestMap.get? svc = some newDigest → isDigest newDigest = true)
    (hlines : (editLines digestMap (overlay.rows.map Row.line)).lines =
      (overlay.rows.map (Row.update digestMap)).map Row.text) : Editable digestMap overlay := by
  have hplace {place : ℕ} {row : Row} (hrow : overlay.rows[place]? = some row) :
      (editLines digestMap (overlay.rows.map Row.line)).lines[place]? = some (row.update digestMap).text := by
    rw [hlines, List.getElem?_map, List.getElem?_map, hrow]
    rfl
  have hupdated := (updated_lined h hexact).unbroken
  have hrewritten {place : ℕ} {row : Row} (hrow : overlay.rows[place]? = some row) {svc indent digest newDigest : Text}
      (hline : digestLine? row.raw = some (indent, digest)) (hnew : digestMap.get? svc = some newDigest)
      (hedited : (editLines digestMap (overlay.rows.map Row.line)).lines[place]? = some (digestText indent newDigest ++ ['\n'])) :
      row.ending = .lf ∧ digestText indent newDigest = (row.update digestMap).raw := by
    obtain ⟨_, _, -, -, hindent, -⟩ := digestLine?_eq_some.mp hline
    rw [hplace hrow] at hedited
    exact rewritten_line (digestText_unbroken hindent (hexact svc newDigest hnew))
      (hupdated _ (List.mem_map_of_mem (List.mem_of_getElem? hrow))) (Option.some.inj hedited).symm
  have hkept {place : ℕ} {row : Row} (hrow : overlay.rows[place]? = some row)
      (hedited : (editLines digestMap (overlay.rows.map Row.line)).lines[place]? = some row.line) :
      row.ending ≠ .crlf ∧ row.raw = (row.update digestMap).raw := by
    rw [hplace hrow] at hedited
    exact kept_line (h.unbroken row (List.mem_of_getElem? hrow)) (Option.some.inj hedited).symm
  refine ⟨hcomplete, hexact, ?_, ?_, ?_⟩
  · intro place svc newDigest row hrewrites hnew hrow
    obtain ⟨hno, -⟩ | ⟨svc', indent, digest, newDigest', hrewrites', hline, hnew', -, hne, hedited⟩ :=
      edited_place digestMap h hrow
    · exact absurd hrewrites (hno svc)
    · obtain rfl := hrewrites'.1.1.unique hrewrites.1.1
      rw [hnew] at hnew'
      obtain rfl := Option.some.inj hnew'
      obtain ⟨hending, hraw⟩ := hrewritten hrow hline hnew hedited
      have hdigest := hexact svc' newDigest hnew
      obtain ⟨_, _, -, hindentne, hindent, -⟩ := digestLine?_eq_some.mp hline
      have hwritten := digestLine?_digestText hindentne hindent hdigest
      obtain hsame | ⟨owner, ownDigest, lead, value, trail, hservice, hown, hcontent⟩ := update_cases row digestMap
      · rw [hraw, hsame, hline] at hwritten
        exact absurd (Prod.mk.inj (Option.some.inj hwritten)).2 hne
      · obtain ⟨gap, hfield, rfl, -, -, hgap, htrail, -⟩ :=
          placed_digest hplaced (List.mem_of_getElem? hrow) hcontent hline
        have hupdate := update_of_digest hservice hown hcontent
        have hform : (indent ++ ("digest:".toList ++ gap)) ++ ownDigest ++ trail = digestField indent gap ownDigest trail := by
          simp [digestField]
        rw [hform] at hupdate
        have hread : digestLine? (row.update digestMap).raw = some (indent, ownDigest) := by
          rw [hupdate]
          exact digestLine?_eq_some.mpr ⟨gap, trail, rfl, hindentne, hindent, hgap, htrail, hexact owner ownDigest hown⟩
        rw [← hraw, hwritten] at hread
        obtain rfl := (Prod.mk.inj (Option.some.inj hread)).2
        obtain ⟨rfl, rfl⟩ := spelling_unique hdigest (hupdate.symm.trans hraw.symm)
        exact ⟨owner, _, value, [], indent, digest, hservice, hown, hcontent, hline, by rw [hfield, digestText_eq], hending⟩
  · intro place row owner newDigest lead value trail hrow hservice hnew hcontent hne
    obtain ⟨-, hedited⟩ | ⟨svc, -, -, -, hrewrites, -⟩ := edited_place digestMap h hrow
    · exact absurd ((update_eq_of_value hservice hnew hcontent).mp (hkept hrow hedited).2.symm) hne
    · exact ⟨svc, hrewrites⟩
  · intro _ _ _ row hmem
    obtain ⟨place, hrow⟩ := List.getElem?_of_mem hmem
    obtain ⟨-, hedited⟩ | ⟨svc, indent, digest, newDigest, -, hline, hnew, -, -, hedited⟩ :=
      edited_place digestMap h hrow
    · exact (hkept hrow hedited).1
    · rw [(hrewritten hrow hline hnew hedited).1]
      rintro ⟨⟩

/-- The lines after the edit of an overlay that may be edited. -/
lemma lines_of_editable (h : Lined overlay.rows) (hplaced : Placed overlay.rows) (heditable : Editable digestMap overlay)
    (hsome : ∃ place svc, Rewrites digestMap (overlay.rows.map Row.raw) place svc) :
    (editLines digestMap (overlay.rows.map Row.line)).lines =
      (overlay.rows.map (Row.update digestMap)).map Row.text := by
  obtain ⟨place, svc, hrewrites⟩ := hsome
  have hends := heditable.ends place svc hrewrites
  refine List.ext_getElem? fun place => ?_
  rw [List.getElem?_map, List.getElem?_map]
  cases hrow : overlay.rows[place]? with
  | none =>
    have hlen := List.getElem?_eq_none_iff.mp hrow
    exact List.getElem?_eq_none (by rw [editLines_length, List.length_map]; exact hlen)
  | some row =>
    have hmem := List.mem_of_getElem? hrow
    obtain ⟨hno, hedited⟩ | ⟨svc, indent, digest, newDigest, hrewrites, hline, hnew, -, -, hedited⟩ :=
      edited_place digestMap h hrow
    · rw [hedited, Option.map_some, Option.map_some, Row.text, update_ending, update_raw_of_kept heditable hrow hno, Row.line]
      cases hending : row.ending with
      | lf => rfl
      | crlf => exact absurd hending (hends row hmem)
      | bare => rfl
    · obtain ⟨hraw, hending⟩ := update_raw_of_rewritten hplaced heditable hrow hrewrites hline hnew
      rw [hedited, Option.map_some, Option.map_some, Row.text, update_ending, hraw, hending]
      rfl

lemma surgical_iff (h : Lined overlay.rows) (hplaced : Placed overlay.rows)
    (happlied : Applied digestMap (overlay.rows.map Row.raw)) {written : Text}
    (hwritten : written = if (editLines digestMap (overlay.rows.map Row.line)).changes = [] then textOf overlay.rows
      else (editLines digestMap (overlay.rows.map Row.line)).lines.flatten) :
    Surgical digestMap overlay written ↔ Editable digestMap overlay := by
  have hchanges := @editLines_changes digestMap (overlay.rows.map Row.line)
  rw [map_chomp h] at hchanges
  by_cases hnone : (editLines digestMap (overlay.rows.map Row.line)).changes = []
  · rw [if_pos hnone] at hwritten
    have hno := hchanges.mp hnone
    constructor
    · intro hsurgical
      refine editable_of_kept h hsurgical.complete (fun svc newDigest hnew => ?_) hno (hwritten.symm.trans hsurgical.exact)
      by_contra hnot
      obtain ⟨_, -, place, hrewrites⟩ := rewrites_of_not_digest happlied hnew hnot
      exact hno place svc hrewrites
    · intro heditable
      refine ⟨heditable.complete, (updated_lined h heditable.exact).unbroken, ?_⟩
      rw [hwritten, textOf, textOf, List.map_map]
      congr 1
      refine List.map_congr_left fun row hmem => ?_
      obtain ⟨place, hrow⟩ := List.getElem?_of_mem hmem
      rw [Function.comp_apply, Row.text, Row.text, update_ending, update_raw_of_kept heditable hrow (hno place)]
  · rw [if_neg hnone] at hwritten
    constructor
    · intro hsurgical
      have hexact (svc newDigest : Text) (hnew : digestMap.get? svc = some newDigest) : isDigest newDigest = true :=
        exact_of_surgical h happlied hsurgical.unbroken (hwritten.symm.trans hsurgical.exact) hnew
      exact editable_of_lines h hplaced hsurgical.complete hexact
        ((edited_kept h hexact).flatten_injective (texts_kept (updated_lined h hexact))
          (hwritten.symm.trans hsurgical.exact))
    · intro heditable
      have hsome : ∃ place svc, Rewrites digestMap (overlay.rows.map Row.raw) place svc := by
        by_contra hno
        exact hnone (hchanges.mpr fun place svc hrewrites => hno ⟨place, svc, hrewrites⟩)
      refine ⟨heditable.complete, (updated_lined h heditable.exact).unbroken, ?_⟩
      rw [hwritten, lines_of_editable h hplaced heditable hsome, textOf]

end Exactness

end PlatformGitops.OverlayDigests
