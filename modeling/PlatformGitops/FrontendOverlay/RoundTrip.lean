import PlatformGitops.FrontendOverlay.PinLines
import Mathlib

/-! What the script has written is what it reads. -/

namespace PlatformGitops.FrontendOverlay

open Library
open Coordination (isLineEnd)
open OverlayDigests (Text isTab isDigest keptLines)

section Frames

variable {lines before inside after : List Text} {line indent : Text}

/-- The entry of the frontend, from its first line to the next entry that is as far to the right. -/
structure Frame (before : List Text) (line : Text) (inside after : List Text) (indent : Text) : Prop where
  opens : frontend? line = some indent
  above : ∀ l ∈ before, frontend? l = none
  inner : ∀ l ∈ inside, frontend? l = none ∧ ∀ e, entryLine? (rstrip l) = some e → e.1.length ≠ indent.length
  below : ∀ l ∈ after, frontend? l = none
  stop : ∀ l, after.head? = some l → ∃ e, entryLine? (rstrip l) = some e ∧ e.1.length = indent.length

lemma found_none {β : Type} {f : Text → Option β} {xs : List Text} {start : ℕ} (h : ∀ x ∈ xs, f x = none) :
    found f xs start = [] := found_eq_nil_iff.mpr h

lemma Frame.entries (h : Frame before line inside after indent) :
    found frontend? (before ++ line :: (inside ++ after)) 0 = [(before.length, indent)] := by
  have hinside : ∀ l ∈ inside, frontend? l = none := fun l hl => (h.inner l hl).1
  rw [found_append, found_none h.above, found_cons_some h.opens,
    found_none (List.forall_mem_append.mpr ⟨hinside, h.below⟩), List.nil_append, Nat.zero_add]

lemma find?_found_none {xs : List Text} {start width : ℕ}
    (h : ∀ l ∈ xs, ∀ e, entryLine? (rstrip l) = some e → e.1.length ≠ width) :
    (found (fun line => entryLine? (rstrip line)) xs start).find? (fun p => p.2.1.length = width) = none := by
  rw [List.find?_eq_none]
  intro p hp
  rw [found, List.mem_filterMap] at hp
  obtain ⟨⟨l, i⟩, hmem, hl⟩ := hp
  obtain ⟨e, he, rfl⟩ := Option.map_eq_some_iff.mp hl
  simpa using h l (List.fst_mem_of_mem_zipIdx hmem) e he

lemma drop_frame (before : List Text) (line : Text) (rest : List Text) :
    (before ++ line :: rest).drop (before.length + 1) = rest := by
  rw [← List.drop_drop, List.drop_left]
  rfl

lemma Frame.entryEnd (h : Frame before line inside after indent) :
    entryEnd (before ++ line :: (inside ++ after)) before.length indent.length = before.length + 1 + inside.length := by
  rw [FrontendOverlay.entryEnd, drop_frame, found_append, List.find?_append, find?_found_none fun l hl => (h.inner l hl).2,
    Option.none_or]
  cases after with
  | nil => simp [found]; omega
  | cons l after =>
    obtain ⟨e, he, hwidth⟩ := h.stop l rfl
    rw [found_cons_some (f := fun line => entryLine? (rstrip line)) he, List.find?_cons_of_pos (by simpa using hwidth)]
    rfl

lemma Frame.inspect (h : Frame before line inside after indent) :
    inspectLines (before ++ line :: (inside ++ after)) =
      inspectFields inside before.length (before.length + 1 + inside.length) := by
  have hinside : ((before ++ line :: (inside ++ after)).take (before.length + 1 + inside.length)).drop (before.length + 1) =
      inside := by
    rw [List.drop_take, Nat.add_sub_cancel_left, drop_frame, List.take_left]
  rw [inspectLines, h.entries]
  dsimp only
  rw [h.entryEnd, hinside]

lemma exists_frame {pin : FrontendPin} (h : inspectLines lines = .ok pin) : ∃ before line inside after indent,
    lines = before ++ line :: (inside ++ after) ∧ Frame before line inside after indent := by
  unfold inspectLines at h
  split at h
  · rename_i start indent hentries
    obtain ⟨before, line, rest, rfl, -, hline, hbefore, hrest⟩ := found_eq_singleton hentries
    let inner : Text → Bool := fun l => !(entryLine? (rstrip l)).any fun e => e.1.length = indent.length
    refine ⟨before, line, rest.takeWhile inner, rest.dropWhile inner, indent, by rw [List.takeWhile_append_dropWhile],
      hline, hbefore, fun l hl => ?_, fun l hl => hrest l ((List.dropWhile_sublist inner).subset hl), fun l hl => ?_⟩
    · refine ⟨hrest l ((List.takeWhile_sublist inner).subset hl), fun e he => ?_⟩
      have hinner : inner l = true := List.mem_takeWhile_imp hl
      simpa [inner, he] using hinner
    · have hnot := head_dropWhile inner rest
      rw [hl] at hnot
      simpa [inner, Option.any_eq_true] using hnot
  · cases h

end Frames

section Shapes

variable {lines : List Text} {marks : Option Key → Option (ℕ × Text × Text)} {k k' : Option Key} {i : ℕ}
  {p a : Text × Text} {x : Text}

/-- What is found in the entry of the frontend, for each key and for the source revision. -/
def Shape (lines : List Text) (marks : Option Key → Option (ℕ × Text × Text)) : Prop :=
  ∃ before line inside after indent, lines = before ++ line :: (inside ++ after) ∧
    Frame before line inside after indent ∧ ∀ k, found (mark? k) inside (before.length + 1) = (marks k).toList

/-- The lines of a text in which the line ends are translated. -/
structure Sound (lines : List Text) : Prop where
  kept : Text.Kept isLineEnd lines
  plain : ∀ l ∈ lines, '\r' ∉ l

/-- A line of its own with a mark. -/
structure MarkLine (k : Option Key) (x : Text) (a : Text × Text) : Prop where
  mark : mark? k x = some a
  line : ∃ body, x = body ++ ['\n'] ∧ ∀ c ∈ body, isLineEnd c = false

lemma markLine {indent value : Text} (hindent : Indent indent) (h : Writes k value) :
    MarkLine k (markText k indent value) (indent, value) :=
  ⟨mark?_markText hindent h, markText_line hindent h⟩

lemma MarkLine.plain (h : MarkLine k x a) : '\r' ∉ x := by
  obtain ⟨body, rfl, hbody⟩ := h.line
  intro hmem
  rcases List.mem_append.mp hmem with hmem | hmem
  · exact absurd (hbody _ hmem) (by decide)
  · exact absurd hmem (by decide)

lemma inner_of_mark (h : mark? k x = some a) (indent : Text) :
    frontend? x = none ∧ ∀ e, entryLine? (rstrip x) = some e → e.1.length ≠ indent.length := by
  have hnone := entryLine?_of_mark h
  refine ⟨by rw [frontend?, hnone, Option.bind_none], fun e he => ?_⟩
  rw [hnone] at he
  cases he

/-- Where the mark of a key is. -/
lemma Shape.place (h : Shape lines marks) (hk : marks k = some (i, p)) :
    ∃ before line u y v after indent, lines = (before ++ line :: u) ++ y :: (v ++ after) ∧
      Frame before line (u ++ y :: v) after indent ∧ i = (before ++ line :: u).length ∧ mark? k y = some p ∧
      ∀ k, found (mark? k) (u ++ y :: v) (before.length + 1) = (marks k).toList := by
  obtain ⟨before, line, inside, after, indent, rfl, hframe, hfound⟩ := h
  have hone := hfound k
  rw [hk, Option.toList_some] at hone
  obtain ⟨u, y, v, rfl, rfl, hy, -, -⟩ := found_eq_singleton hone
  refine ⟨before, line, u, y, v, after, indent, by simp, hframe, ?_, hy, hfound⟩
  rw [List.length_append, List.length_cons]
  omega

/-- The line of a mark in another spelling. -/
lemma Shape.set (h : Shape lines marks) (hk : marks k = some (i, p)) (hx : MarkLine k x a) :
    Shape (lines.set i x) (Function.update marks k (some (i, a))) ∧ (Sound lines → Sound (lines.set i x)) ∧
      ∀ places, i ∈ places → without places (lines.set i x) 0 = without places lines 0 := by
  obtain ⟨before, line, u, y, v, after, indent, rfl, hframe, rfl, hy, hfound⟩ := h.place hk
  rw [set_middle]
  refine ⟨⟨before, line, u ++ x :: v, after, indent, by simp, ⟨hframe.opens, hframe.above, ?_, hframe.below, hframe.stop⟩,
    fun k' => ?_⟩, fun hsound => ⟨?_, ?_⟩, fun places hmem => ?_⟩
  · have hinner := hframe.inner
    rw [List.forall_mem_append, List.forall_mem_cons] at hinner ⊢
    exact ⟨hinner.1, inner_of_mark hx.mark indent, hinner.2.2⟩
  · have hplace : before.length + 1 + u.length = (before ++ line :: u).length := by
      rw [List.length_append, List.length_cons]
      omega
    by_cases hkey : k' = k
    · subst hkey
      have hone := hfound k'
      rw [hk, Option.toList_some, ← hplace] at hone
      rw [Function.update_self, Option.toList_some, ← hplace]
      exact found_replaced_self hone hy hx.mark
    · rw [Function.update_of_ne hkey, ← hfound k']
      exact found_replaced (mark?_of_ne hy hkey) (mark?_of_ne hx.mark hkey)
  · obtain ⟨body, rfl, hbody⟩ := hx.line
    exact hsound.kept.replaced hbody (by decide)
  · have hplain := hsound.plain
    rw [List.forall_mem_append, List.forall_mem_cons] at hplain ⊢
    exact ⟨hplain.1, hx.plain, hplain.2.2⟩
  · exact without_replaced (by rwa [Nat.zero_add])

/-- A line with a new mark before that of another key. -/
lemma Shape.insert (h : Shape lines marks) (hnone : marks k = none) (hk : marks k' = some (i, p)) (hx : MarkLine k x a) :
    Shape (lines.insertIdx i x)
        (Function.update (fun j => (marks j).map fun q => (shifted i q.1, q.2)) k (some (i, a))) ∧
      (Sound lines → Sound (lines.insertIdx i x)) ∧
      ∀ places, without (i :: places.map (shifted i)) (lines.insertIdx i x) 0 = without places lines 0 := by
  obtain ⟨before, line, u, y, v, after, indent, rfl, hframe, rfl, hy, hfound⟩ := h.place hk
  rw [insertIdx_middle]
  refine ⟨⟨before, line, u ++ x :: y :: v, after, indent, by simp,
    ⟨hframe.opens, hframe.above, ?_, hframe.below, hframe.stop⟩, fun j => ?_⟩, fun hsound => ⟨?_, ?_⟩, fun places => ?_⟩
  · have hinner := hframe.inner
    rw [List.forall_mem_append, List.forall_mem_cons] at hinner ⊢
    rw [List.forall_mem_cons]
    exact ⟨hinner.1, inner_of_mark hx.mark indent, hinner.2⟩
  · have hplace : before.length + 1 + u.length = (before ++ line :: u).length := by
      rw [List.length_append, List.length_cons]
      omega
    by_cases hkey : j = k
    · subst hkey
      have hempty := hfound j
      rw [hnone, Option.toList_none] at hempty
      rw [Function.update_self, Option.toList_some, ← hplace]
      exact found_inserted_self hempty hx.mark
    · rw [Function.update_of_ne hkey, found_inserted (mark?_of_ne hx.mark hkey), hfound j, hplace]
      cases marks j <;> rfl
  · obtain ⟨body, rfl, hbody⟩ := hx.line
    exact hsound.kept.inserted hbody (by decide)
  · have hplain := hsound.plain
    rw [List.forall_mem_append, List.forall_mem_cons] at hplain ⊢
    rw [List.forall_mem_cons]
    exact ⟨hplain.1, hx.plain, hplain.2⟩
  · have hinserted := without_inserted places (before ++ line :: u) (y :: (v ++ after)) x 0
    rwa [Nat.zero_add] at hinserted

/-- The places that are edited. -/
def places (marks : Option Key → Option (ℕ × Text × Text)) : List ℕ :=
  [none, some .newTag, some .digest].filterMap fun k => (marks k).map (·.1)

lemma mem_places {j : ℕ} : j ∈ places marks ↔ ∃ k, k ≠ some .newName ∧ (marks k).map (·.1) = some j := by
  rw [places, List.mem_filterMap]
  constructor
  · rintro ⟨k, hk, hplace⟩
    refine ⟨k, ?_, hplace⟩
    rintro rfl
    revert hk
    decide
  · rintro ⟨k, hk, hplace⟩
    refine ⟨k, ?_, hplace⟩
    rcases k with _ | _ | _ | _
    · simp
    · exact absurd rfl hk
    · simp
    · simp

lemma places_congr {marks' : Option Key → Option (ℕ × Text × Text)} (h : ∀ k, (marks' k).map (·.1) = (marks k).map (·.1)) :
    places marks' = places marks := by
  simp only [places, h]

/-- A mark that is written where its line is, or before the line of another mark. -/
def writeMark (marks : Option Key → Option (ℕ × Text × Text)) (k : Option Key) (place : ℕ) (x : Text) (lines : List Text) :
    List Text :=
  match (marks k).map (·.1) with
  | none => lines.insertIdx place x
  | some place => lines.set place x

lemma Shape.write (h : Shape lines marks) (hname : k ≠ some .newName) (hx : MarkLine k x a)
    (hk' : marks k = none → marks k' = some (i, p)) : ∃ marks' place, Shape (writeMark marks k i x lines) marks' ∧
      marks' k = some (place, a) ∧ (∀ j, j ≠ k → (marks' j).map (·.2) = (marks j).map (·.2)) ∧
      (Sound lines → Sound (writeMark marks k i x lines)) ∧
      without (places marks') (writeMark marks k i x lines) 0 = without (places marks) lines 0 := by
  unfold writeMark
  cases hk : marks k with
  | some q =>
    obtain ⟨place, old⟩ := q
    obtain ⟨hshape, hsound, hothers⟩ := h.set hk hx
    refine ⟨_, place, hshape, Function.update_self _ _ _, fun j hj => by rw [Function.update_of_ne hj], hsound, ?_⟩
    have hplaces : places (Function.update marks k (some (place, a))) = places marks := by
      refine places_congr fun j => ?_
      by_cases hj : j = k
      · rw [hj, Function.update_self, hk]
        rfl
      · rw [Function.update_of_ne hj]
    rw [hplaces]
    exact hothers _ (mem_places.mpr ⟨k, hname, by rw [hk]; rfl⟩)
  | none =>
    obtain ⟨hshape, hsound, hothers⟩ := h.insert hk (hk' hk) hx
    refine ⟨_, i, hshape, Function.update_self _ _ _, fun j hj => ?_, hsound, ?_⟩
    · rw [Function.update_of_ne hj, Option.map_map]
      rfl
    · rw [← hothers (places marks)]
      refine without_congr fun j _ _ => ?_
      rw [mem_places, List.mem_cons, List.mem_map]
      constructor
      · rintro ⟨key, hkey, hplace⟩
        by_cases heq : key = k
        · rw [heq, Function.update_self] at hplace
          exact .inl (Option.some.inj hplace).symm
        · rw [Function.update_of_ne heq, Option.map_map] at hplace
          obtain ⟨q, hq, rfl⟩ := Option.map_eq_some_iff.mp hplace
          exact .inr ⟨q.1, mem_places.mpr ⟨key, hkey, by rw [hq]; rfl⟩, rfl⟩
      · rintro (rfl | ⟨old, hold, rfl⟩)
        · exact ⟨k, hname, by rw [Function.update_self]; rfl⟩
        · obtain ⟨key, hkey, hplace⟩ := mem_places.mp hold
          obtain ⟨q, hq, rfl⟩ := Option.map_eq_some_iff.mp hplace
          have hne : key ≠ k := by
            rintro rfl
            rw [hk] at hq
            cases hq
          exact ⟨key, hkey, by rw [Function.update_of_ne hne, hq]; rfl⟩

end Shapes

section Pins

variable {lines : List Text} {marks : Option Key → Option (ℕ × Text × Text)} {pin : FrontendPin} {start stop : ℕ}

lemma single_eq_ok {values : List (ℕ × Text × Text)} {key : String} {o : Option (ℕ × Text × Text)} :
    single values key = .ok o ↔ values = o.toList := by
  rw [single]
  rcases values with _ | ⟨first, _ | ⟨second, rest⟩⟩
  · cases o <;> simp
  · cases o <;> simp
  · cases o <;> simp

/-- A pin holds what is found under each key. -/
structure Reading (pin : FrontendPin) (marks : Option Key → Option (ℕ × Text × Text)) : Prop where
  image : (marks (some .newName)).map (·.2.2) = some canonicalImage
  tag : (marks (some .newTag)).map (·.2.2) = pin.tag
  tagLine : (marks (some .newTag)).map (·.1) = pin.tagLine
  source : (marks none).map (·.2.2) = pin.sourceSha
  sourceLine : (marks none).map (·.1) = pin.sourceLine
  digest : marks (some .digest) = some (pin.digestLine, pin.fieldIndent, pin.digest)
  validDigest : isDigest pin.digest = true
  validTag : ∀ tag, pin.tag = some tag → isTag tag = true

/-- What can be read: the image, a digest, and a tag if any. -/
structure Readable (marks : Option Key → Option (ℕ × Text × Text)) : Prop where
  image : (marks (some .newName)).map (·.2.2) = some canonicalImage
  digest : ∃ digest, (marks (some .digest)).map (·.2.2) = some digest ∧ isDigest digest = true
  tag : ∀ tag, (marks (some .newTag)).map (·.2.2) = some tag → isTag tag = true

lemma Reading.readable (h : Reading pin marks) : Readable marks :=
  ⟨h.image, ⟨pin.digest, by rw [h.digest]; rfl, h.validDigest⟩, fun tag htag => h.validTag tag (h.tag ▸ htag)⟩

lemma pinOf_eq_ok : pinOf start stop (marks (some .newName)) (marks (some .newTag)) (marks (some .digest)) (marks none) =
    .ok pin → Reading pin marks := by
  intro h
  unfold pinOf at h
  split at h
  · cases h
  · rename_i place indent image himage
    split_ifs at h with hcanonical
    split at h
    · cases h
    · rename_i digestLine fieldIndent digest hdigest
      split_ifs at h with hvalid
      split at h
      · cases h
      · rename_i htag
        obtain rfl := Except.ok.inj h
        refine ⟨by rw [himage, Option.map_some, not_not.mp hcanonical], rfl, rfl, rfl, rfl, hdigest, hvalid,
          fun tag hsome => ?_⟩
        obtain ⟨q, hq, rfl⟩ := Option.map_eq_some_iff.mp hsome
        rw [hq] at htag
        simpa [Option.filter] using htag

lemma Readable.exists_pin (h : Readable marks) (start stop : ℕ) : ∃ pin,
    pinOf start stop (marks (some .newName)) (marks (some .newTag)) (marks (some .digest)) (marks none) = .ok pin := by
  obtain ⟨himage, ⟨digest, hdigest, hvalid⟩, htag⟩ := h
  obtain ⟨⟨place, indent, image⟩, hname, rfl⟩ := Option.map_eq_some_iff.mp himage
  obtain ⟨⟨digestLine, fieldIndent, digest⟩, hfield, rfl⟩ := Option.map_eq_some_iff.mp hdigest
  have hnone : ((marks (some .newTag)).filter fun tag => !isTag tag.2.2) = none := by
    rw [Option.filter_eq_none_iff]
    intro q hq
    simpa using htag q.2.2 (by rw [hq]; rfl)
  simp only [pinOf, hname, hfield]
  rw [if_neg (not_not.mpr rfl), if_neg (not_not.mpr hvalid), hnone]
  exact ⟨_, rfl⟩

structure Pinned (lines : List Text) (pin : FrontendPin) (marks : Option Key → Option (ℕ × Text × Text)) : Prop where
  inspect : inspectLines lines = .ok pin
  shape : Shape lines marks
  reading : Reading pin marks

lemma inspect_shape {before inside after : List Text} {line indent : Text} (h : Frame before line inside after indent)
    (hfound : ∀ k, found (mark? k) inside (before.length + 1) = (marks k).toList) :
    inspectLines (before ++ line :: (inside ++ after)) = pinOf before.length (before.length + 1 + inside.length)
      (marks (some .newName)) (marks (some .newTag)) (marks (some .digest)) (marks none) := by
  have hsingle (k : Option Key) (key : String) :
      single (found (mark? k) inside (before.length + 1)) key = .ok (marks k) := single_eq_ok.mpr (hfound k)
  have himage := hsingle (some .newName) "newName"
  have htag := hsingle (some .newTag) "newTag"
  have hdigest := hsingle (some .digest) "digest"
  have hsource := hsingle none "sourceRevision"
  rw [h.inspect, inspectFields]
  change ((single (found (mark? (some .newName)) inside (before.length + 1)) "newName") >>= fun image =>
    (single (found (mark? (some .newTag)) inside (before.length + 1)) "newTag") >>= fun tag =>
      (single (found (mark? (some .digest)) inside (before.length + 1)) "digest") >>= fun digest =>
        (single (found (mark? none) inside (before.length + 1)) "sourceRevision") >>= fun source =>
          pinOf _ _ image tag digest source) = _
  rw [himage, htag, hdigest, hsource]
  rfl

lemma Shape.pinned (h : Shape lines marks) (hread : Readable marks) : ∃ pin, Pinned lines pin marks := by
  obtain ⟨before, line, inside, after, indent, rfl, hframe, hfound⟩ := h
  obtain ⟨pin, hpin⟩ := hread.exists_pin before.length (before.length + 1 + inside.length)
  exact ⟨pin, by rw [inspect_shape hframe hfound, hpin], ⟨before, line, inside, after, indent, rfl, hframe, hfound⟩,
    pinOf_eq_ok hpin⟩

/-- The fields by their names. -/
def marksOf (image tag digest source : Option (ℕ × Text × Text)) : Option Key → Option (ℕ × Text × Text)
  | some .newName => image
  | some .newTag => tag
  | some .digest => digest
  | none => source

lemma pinned_of_inspect (h : inspectLines lines = .ok pin) : ∃ marks, Pinned lines pin marks := by
  obtain ⟨before, line, inside, after, indent, rfl, hframe⟩ := exists_frame h
  have hfields := h
  rw [hframe.inspect, inspectFields] at hfields
  simp only [Fallible.bind_eq_ok] at hfields
  obtain ⟨image, himage, tag, htag, digest, hdigest, source, hsource, hpin⟩ := hfields
  have hfound : ∀ k, found (mark? k) inside (before.length + 1) = (marksOf image tag digest source k).toList := by
    rintro (_ | _ | _ | _)
    · exact single_eq_ok.mp hsource
    · exact single_eq_ok.mp himage
    · exact single_eq_ok.mp htag
    · exact single_eq_ok.mp hdigest
  exact ⟨_, h, ⟨before, line, inside, after, indent, rfl, hframe, hfound⟩,
    @pinOf_eq_ok (marksOf image tag digest source) pin _ _ hpin⟩

lemma Pinned.indent (h : Pinned lines pin marks) : Indent pin.fieldIndent := by
  obtain ⟨before, line, u, y, v, after, indent, -, -, -, hy, -⟩ := h.shape.place h.reading.digest
  exact fieldLine?_indent (keyed?_eq_some.mp hy)

end Pins

/-- The lines of a file but those that hold the source revision, the tag and the digest of the frontend. -/
def others (pin : FrontendPin) (lines : List Text) : List Text :=
  without (pin.sourceLine.toList ++ pin.tagLine.toList ++ [pin.digestLine]) lines 0

section Edits

variable {lines : List Text} {marks : Option Key → Option (ℕ × Text × Text)} {pin : FrontendPin} {request : PinRequest}
  {k : Option Key} {i : ℕ} {value : Text}

lemma Reading.others (h : Reading pin marks) (lines : List Text) : others pin lines = without (places marks) lines 0 := by
  have hplaces : pin.sourceLine.toList ++ pin.tagLine.toList ++ [pin.digestLine] = places marks := by
    rw [← h.sourceLine, ← h.tagLine, places]
    simp only [List.filterMap_cons, List.filterMap_nil, h.digest, Option.map_some]
    cases (marks none) <;> cases (marks (some .newTag)) <;> rfl
  rw [FrontendOverlay.others, hplaces]

/-- An edit of the lines after which the entry still reads, with other values. -/
structure Edited (lines lines' : List Text) (pin pin' : FrontendPin) : Prop where
  sound : Sound lines → Sound lines'
  others : others pin' lines' = others pin lines

lemma Edited.refl (lines : List Text) (pin : FrontendPin) : Edited lines lines pin pin := ⟨id, rfl⟩

lemma Edited.trans {lines' lines'' : List Text} {pin' pin'' : FrontendPin} (h : Edited lines lines' pin pin')
    (h' : Edited lines' lines'' pin' pin'') : Edited lines lines'' pin pin'' :=
  ⟨fun hsound => h'.sound (h.sound hsound), h'.others.trans h.others⟩

/-- The values that keep an entry readable. -/
def Fits : Option Key → Text → Prop
  | none, value => isFullSha value = true
  | some .newName, _ => False
  | some .newTag, value => isTag value = true
  | some .digest, value => isDigest value = true

lemma Fits.writes (h : Fits k value) : Writes k value := by
  rcases k with _ | _ | _ | _
  · exact h
  · exact h.elim
  · exact value_of_tag h
  · exact value_of_digest h

lemma Pinned.write (h : Pinned lines pin marks) (hfits : Fits k value)
    (hplace : marks k = none → ∃ k' p, marks k' = some (i, p)) : ∃ pin' marks',
      Pinned (writeMark marks k i (markText k pin.fieldIndent value) lines) pin' marks' ∧
      (marks' k).map (·.2.2) = some value ∧ (∀ j, j ≠ k → (marks' j).map (·.2.2) = (marks j).map (·.2.2)) ∧
      Edited lines (writeMark marks k i (markText k pin.fieldIndent value) lines) pin pin' := by
  have hname : k ≠ some .newName := by
    rintro rfl
    exact hfits
  obtain ⟨marks', place, hshape, hself, hother, hsound, hwithout⟩ : ∃ marks' place,
      Shape (writeMark marks k i (markText k pin.fieldIndent value) lines) marks' ∧
      marks' k = some (place, pin.fieldIndent, value) ∧ (∀ j, j ≠ k → (marks' j).map (·.2) = (marks j).map (·.2)) ∧
      (Sound lines → Sound (writeMark marks k i (markText k pin.fieldIndent value) lines)) ∧
      without (places marks') (writeMark marks k i (markText k pin.fieldIndent value) lines) 0 =
        without (places marks) lines 0 := by
    have hline := markLine h.indent hfits.writes
    cases hk : marks k with
    | none =>
      obtain ⟨k', p, hk'⟩ := hplace hk
      exact h.shape.write hname hline fun _ => hk'
    | some q => exact @Shape.write _ _ k k i q.2 _ _ h.shape hname hline fun hnone => by rw [hk] at hnone; cases hnone
  have hvalues : ∀ j, j ≠ k → (marks' j).map (·.2.2) = (marks j).map (·.2.2) := by
    intro j hj
    have hpair := congrArg (Option.map Prod.snd) (hother j hj)
    rwa [Option.map_map, Option.map_map] at hpair
  have hread := h.reading.readable
  have hvalue : (marks' k).map (·.2.2) = some value := by rw [hself]; rfl
  have hreadable : Readable marks' := by
    refine ⟨(hvalues _ hname.symm).trans hread.image, ?_, fun tag htag => ?_⟩
    · by_cases hdigest : some .digest = k
      · subst hdigest
        exact ⟨value, hvalue, hfits⟩
      · rw [hvalues _ hdigest]
        exact hread.digest
    · by_cases hkey : some .newTag = k
      · subst hkey
        rw [hvalue] at htag
        obtain rfl := Option.some.inj htag
        exact hfits
      · rw [hvalues _ hkey] at htag
        exact hread.tag tag htag
  obtain ⟨pin', hpinned⟩ := hshape.pinned hreadable
  refine ⟨pin', marks', hpinned, hvalue, hvalues, hsound, ?_⟩
  rw [hpinned.reading.others, h.reading.others, hwithout]

lemma editSource_spec (h : Pinned lines pin marks) (hsha : isFullSha request.sha = true) : ∃ pin' marks',
    Pinned (editSource request pin lines).2 pin' marks' ∧ pin'.sourceSha = some request.sha ∧ pin'.tag = pin.tag ∧
      pin'.digest = pin.digest ∧ Edited lines (editSource request pin lines).2 pin pin' := by
  unfold editSource
  split_ifs with hsame
  · exact ⟨pin, marks, h, hsame, rfl, rfl, .refl _ _⟩
  · have hplace : ∃ k' p, marks k' = some (pin.tagLine.getD pin.digestLine, p) := by
      cases htag : marks (some .newTag) with
      | none =>
        refine ⟨some .digest, (pin.fieldIndent, pin.digest), ?_⟩
        rw [← h.reading.tagLine, htag]
        exact h.reading.digest
      | some q =>
        refine ⟨some .newTag, q.2, ?_⟩
        rw [← h.reading.tagLine, htag]
        rfl
    obtain ⟨pin', marks', hpinned, hvalue, hvalues, hedited⟩ := h.write (k := none) hsha fun _ => hplace
    rw [writeMark, h.reading.sourceLine] at hpinned hedited
    refine ⟨pin', marks', hpinned, ?_, ?_, ?_, hedited⟩
    · rw [← hpinned.reading.source, hvalue]
    · rw [← hpinned.reading.tag, hvalues (some .newTag) (by decide), h.reading.tag]
    · have hdigest := hvalues (some .digest) (by decide)
      rw [hpinned.reading.digest, h.reading.digest] at hdigest
      exact Option.some.inj hdigest

lemma editTag_spec (h : Pinned lines pin marks) (htag : isTag request.tag = true) : ∃ pin' marks',
    Pinned (editTag request pin lines).2 pin' marks' ∧ pin'.sourceSha = pin.sourceSha ∧ pin'.tag = some request.tag ∧
      pin'.digest = pin.digest ∧ Edited lines (editTag request pin lines).2 pin pin' := by
  unfold editTag
  split_ifs with hsame
  · exact ⟨pin, marks, h, rfl, hsame, rfl, .refl _ _⟩
  · obtain ⟨pin', marks', hpinned, hvalue, hvalues, hedited⟩ :=
      @Pinned.write _ _ _ (some .newTag) pin.digestLine _ h htag fun _ => ⟨_, _, h.reading.digest⟩
    rw [writeMark, h.reading.tagLine] at hpinned hedited
    refine ⟨pin', marks', hpinned, ?_, ?_, ?_, hedited⟩
    · rw [← hpinned.reading.source, hvalues none (by decide), h.reading.source]
    · rw [← hpinned.reading.tag, hvalue]
    · have hdigest := hvalues (some .digest) (by decide)
      rw [hpinned.reading.digest, h.reading.digest] at hdigest
      exact Option.some.inj hdigest

lemma editDigest_spec (h : Pinned lines pin marks) (hdigest : isDigest request.digest = true) : ∃ pin' marks',
    Pinned (editDigest request pin lines).2 pin' marks' ∧ pin'.sourceSha = pin.sourceSha ∧ pin'.tag = pin.tag ∧
      pin'.digest = request.digest ∧ Edited lines (editDigest request pin lines).2 pin pin' := by
  unfold editDigest
  split_ifs with hsame
  · exact ⟨pin, marks, h, rfl, rfl, hsame, .refl _ _⟩
  · obtain ⟨pin', marks', hpinned, hvalue, hvalues, hedited⟩ :=
      @Pinned.write _ _ _ (some .digest) pin.digestLine _ h hdigest fun _ => ⟨_, _, h.reading.digest⟩
    rw [writeMark, h.reading.digest] at hpinned hedited
    refine ⟨pin', marks', hpinned, ?_, ?_, ?_, hedited⟩
    · rw [← hpinned.reading.source, hvalues none (by decide), h.reading.source]
    · rw [← hpinned.reading.tag, hvalues (some .newTag) (by decide), h.reading.tag]
    · rw [hpinned.reading.digest] at hvalue
      exact Option.some.inj hvalue

end Edits

/-- What the pin of a request does to a file that can be read. -/
structure RoundTrip (request : PinRequest) (file after : Text) (changes : List Change) : Prop where
  reads : ∃ pin, inspectFile after = .ok pin ∧ pin.sourceSha = some request.sha ∧ pin.tag = some request.tag ∧
    pin.digest = request.digest
  keeps : ∃ pin pin', inspectFile file = .ok pin ∧ inspectFile after = .ok pin' ∧
    others pin' (linesOf after) = others pin (linesOf file)
  again : applyPin request false after = (.ok [], after)
  check : applyPin request true file = (.ok changes, file)

section Files

variable {request : PinRequest} {lines : List Text} {file : Text}

lemma sound_linesOf (file : Text) : Sound (linesOf file) := by
  obtain ⟨hkept, hflatten⟩ := Text.kept_keepEnds isLineEnd (Text.universalNewlines file)
  refine ⟨hkept, fun l hl hmem => ?_⟩
  have hcr : '\r' ∈ (keptLines (Text.universalNewlines file)).flatten := List.mem_flatten.mpr ⟨l, hl, hmem⟩
  rw [keptLines, hflatten] at hcr
  exact Text.not_mem_translate false file hcr

lemma Sound.linesOf (h : Sound lines) : linesOf lines.flatten = lines := by
  have hplain : '\r' ∉ lines.flatten := by
    intro hmem
    obtain ⟨l, hl, hcr⟩ := List.mem_flatten.mp hmem
    exact h.plain l hl hcr
  rw [FrontendOverlay.linesOf, Text.universalNewlines_eq_self hplain, keptLines, Text.keepEnds_flatten h.kept]

lemma validateRequest_eq_ok (h : validateRequest request = .ok ()) :
    isFullSha request.sha = true ∧ isTag request.tag = true ∧ isDigest request.digest = true := by
  simp only [validateRequest, Fallible.bind_eq_ok, Fallible.rejectIf_eq_ok, not_or, not_not, ne_eq] at h
  obtain ⟨-, hsha, -, -, -, -, -, ⟨htag, -⟩, hdigest⟩ := h
  exact ⟨hsha, htag, hdigest⟩

/-- The lines are edited once their entry can be read. -/
lemma editLines_spec (h : validateRequest request = .ok ()) {pin : FrontendPin} (hpin : inspectLines lines = .ok pin) :
    ∃ changes lines' pin', editLines request lines = .ok (changes, lines') ∧ inspectLines lines' = .ok pin' ∧
      pin'.sourceSha = some request.sha ∧ pin'.tag = some request.tag ∧ pin'.digest = request.digest ∧
      Edited lines lines' pin pin' ∧ (changes = [] → lines' = lines) := by
  obtain ⟨hsha, htag, hdigest⟩ := validateRequest_eq_ok h
  obtain ⟨marks, hpinned⟩ := pinned_of_inspect hpin
  obtain ⟨pin1, marks1, hpinned1, hsource1, -, -, hedited1⟩ := editSource_spec hpinned hsha
  obtain ⟨pin2, marks2, hpinned2, hsource2, htag2, -, hedited2⟩ := editTag_spec hpinned1 htag
  obtain ⟨pin3, marks3, hpinned3, hsource3, htag3, hdigest3, hedited3⟩ := editDigest_spec hpinned2 hdigest
  have hlines : editLines request lines = .ok ((editSource request pin lines).1 ++
      (editTag request pin1 (editSource request pin lines).2).1 ++
      (editDigest request pin2 (editTag request pin1 (editSource request pin lines).2).2).1,
      (editDigest request pin2 (editTag request pin1 (editSource request pin lines).2).2).2) := by
    simp only [editLines, hpin, hpinned1.inspect, hpinned2.inspect, bind, Except.bind, pure, Except.pure]
  refine ⟨_, _, pin3, hlines, hpinned3.inspect, hsource3.trans (hsource2.trans hsource1), htag3.trans htag2, hdigest3,
    hedited1.trans (hedited2.trans hedited3), fun hnone => ?_⟩
  · simp only [List.append_eq_nil_iff] at hnone
    obtain ⟨⟨hnone1, hnone2⟩, hnone3⟩ := hnone
    have hsource : (editSource request pin lines).2 = lines := by
      unfold editSource at hnone1 ⊢
      split_ifs at hnone1 ⊢
      rfl
    have htags : (editTag request pin1 (editSource request pin lines).2).2 = lines := by
      unfold editTag at hnone2 ⊢
      split_ifs at hnone2 ⊢
      exact hsource
    unfold editDigest at hnone3 ⊢
    split_ifs at hnone3 ⊢
    exact htags

/-- An entry that holds what is requested is not edited. -/
lemma editLines_same {pin : FrontendPin} (hpin : inspectLines lines = .ok pin) (hsource : pin.sourceSha = some request.sha)
    (htag : pin.tag = some request.tag) (hdigest : pin.digest = request.digest) : editLines request lines = .ok ([], lines) := by
  simp only [editLines, hpin, editSource, if_pos hsource, editTag, if_pos htag, editDigest, if_pos hdigest, bind, Except.bind,
    pure, Except.pure, List.append_nil]

/-- A valid request is refused without a change, or it is written and read back. -/
theorem apply_pin_round_trip (request : PinRequest) (h : validateRequest request = .ok ()) (file : Text) :
    (∃ error, ∀ check, applyPin request check file = (.error error, file)) ∨
      ∃ changes after, applyPin request false file = (.ok changes, after) ∧ RoundTrip request file after changes := by
  cases hinspect : inspectLines (linesOf file) with
  | error error =>
    refine .inl ⟨error, fun check => ?_⟩
    simp only [applyPin, h, editLines, hinspect, bind, Except.bind]
  | ok pin =>
    obtain ⟨changes, lines, pin', hlines, hpin', hsource, htag, hdigest, hedited, hnone⟩ := editLines_spec h hinspect
    have hsound := hedited.sound (sound_linesOf file)
    have happly (check : Bool) : applyPin request check file =
        (.ok changes, if changes = [] ∨ check = true then file else lines.flatten) := by
      simp only [applyPin, h, hlines, bind, Except.bind]
    have hafter : linesOf (if changes = [] ∨ false = true then file else lines.flatten) = lines := by
      by_cases hempty : changes = []
      · rw [if_pos (.inl hempty), hnone hempty]
      · rw [if_neg (by simp [hempty]), hsound.linesOf]
    generalize hfile : (if changes = [] ∨ false = true then file else lines.flatten) = after at hafter
    refine .inr ⟨changes, after, by rw [happly, hfile], ⟨pin', ?_, hsource, htag, hdigest⟩, ⟨pin, pin', hinspect, ?_, ?_⟩,
      ?_, ?_⟩
    · rw [inspectFile, hafter, hpin']
    · rw [inspectFile, hafter, hpin']
    · rw [hafter, hedited.others]
    · simp only [applyPin, h, hafter, editLines_same hpin' hsource htag hdigest, bind, Except.bind, true_or, if_true]
    · rw [happly, if_pos (.inr rfl)]

end Files

namespace Sample

def request : PinRequest where
  sha := List.replicate 40 'b'
  shortSha := List.replicate 7 'b'
  image := canonicalImage
  tag := "sha-bbbbbbb".toList
  digest := "sha256:".toList ++ List.replicate 64 'c'

def overlay : Text :=
  "images:\n  - name: frontend\n    newName: ghcr.io/halildeu/platform-web-frontend-testai\n    digest: sha256:".toList ++
    List.replicate 64 'a'

end Sample

open Sample in
/-- An entry without a tag and a source revision, in a file without a newline at its end. -/
theorem apply_pin_round_trip_inserted :
    (∃ error, ∀ check, applyPin request check overlay = (.error error, overlay)) ∨
      ∃ changes after, applyPin request false overlay = (.ok changes, after) ∧ RoundTrip request overlay after changes :=
  apply_pin_round_trip request (by decide +kernel) overlay

open Sample in
example : (applyPin request false overlay).1.toOption = some [.sourceRevision none request.sha, .tag none request.tag,
    .digest ("sha256:".toList ++ List.replicate 64 'a') request.digest] := by
  decide +kernel

end PlatformGitops.FrontendOverlay
