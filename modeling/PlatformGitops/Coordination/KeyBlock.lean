import PlatformGitops.Coordination.SplitLines
import PlatformGitops.Library.Dict

/-! Blocks of lines `key: value` that stand in a text between two markers. -/

namespace PlatformGitops.Coordination

open Library Fallible

section Cutting

/-- The text before the first place where the pattern is found, and the text from there. -/
def cutAt (pattern : List Char) : List Char → Option (List Char × List Char)
  | [] => if pattern = [] then some ([], []) else none
  | c :: s =>
    if pattern.isPrefixOf (c :: s) then some ([], c :: s) else (cutAt pattern s).map fun p => (c :: p.1, p.2)

variable {pattern s t a b : List Char} {c : Char}

lemma cutAt_of_starts (h : pattern <+: s) : cutAt pattern s = some ([], s) := by
  cases s with
  | nil => rw [cutAt, if_pos (List.prefix_nil.mp h)]
  | cons c s => rw [cutAt, if_pos (List.isPrefixOf_iff_prefix.mpr h)]

lemma cutAt_cons (h : ¬ pattern <+: c :: s) : cutAt pattern (c :: s) = (cutAt pattern s).map fun p => (c :: p.1, p.2) := by
  rw [cutAt, if_neg (by rwa [List.isPrefixOf_iff_prefix])]

lemma cutAt_eq_none : cutAt pattern s = none ↔ ¬ pattern <:+: s := by
  induction s with
  | nil => simp [cutAt, List.infix_nil]
  | cons c s ih =>
    rw [List.infix_cons_iff, not_or, ← ih]
    by_cases h : pattern <+: c :: s
    · simp [cutAt_of_starts h, h]
    · simp [cutAt_cons h, h]

lemma cutAt_eq_some (h : cutAt pattern s = some (a, b)) : s = a ++ b ∧ pattern <+: b := by
  induction s generalizing a with
  | nil =>
    simp only [cutAt] at h
    split at h
    · rename_i hpattern
      cases h
      exact ⟨rfl, hpattern ▸ List.prefix_refl _⟩
    · cases h
  | cons c s ih =>
    by_cases hstart : pattern <+: c :: s
    · rw [cutAt_of_starts hstart] at h
      cases h
      exact ⟨rfl, hstart⟩
    · rw [cutAt_cons hstart, Option.map_eq_some_iff] at h
      obtain ⟨⟨a', b'⟩, hcut, heq⟩ := h
      cases heq
      obtain ⟨rfl, hb⟩ := ih hcut
      exact ⟨rfl, hb⟩

/-- A pattern without the character is found on one side of it. -/
lemma cutAt_append_cons (hs : ¬ pattern <:+: s) (hc : c ∉ pattern) (t : List Char) :
    cutAt pattern (s ++ c :: t) = (cutAt pattern t).map fun p => (s ++ c :: p.1, p.2) := by
  have hne : pattern ≠ [] := fun hnil => hs (hnil ▸ List.nil_infix)
  induction s with
  | nil =>
    refine cutAt_cons fun hstart => ?_
    obtain ⟨d, pattern, rfl⟩ := List.exists_cons_of_ne_nil hne
    exact hc ((List.cons_prefix_cons.mp hstart).1 ▸ List.mem_cons_self ..)
  | cons d s ih =>
    rw [List.infix_cons_iff, not_or] at hs
    have hstart : ¬ pattern <+: d :: (s ++ c :: t) := by
      intro hstart
      rcases List.prefix_or_prefix_of_prefix hstart (List.prefix_append (d :: s) (c :: t)) with h | ⟨more, rfl⟩
      · exact hs.1 h
      · have hmore := (List.prefix_append_right_inj (d :: s)).mp hstart
        cases more with
        | nil => exact hs.1 (by simp)
        | cons e more =>
          obtain rfl := (List.cons_prefix_cons.mp hmore).1
          exact hc (by simp)
    rw [List.cons_append, cutAt_cons hstart, ih hs.2, Option.map_map]
    rfl

lemma prefix_append_of_length_le (h : pattern.length ≤ s.length) (t : List Char) :
    pattern <+: s ++ t ↔ pattern <+: s := by
  constructor
  · exact fun hstart => List.prefix_of_prefix_length_le hstart (List.prefix_append s t) h
  · exact fun hstart => hstart.trans (List.prefix_append s t)

/-- Where a pattern is found does not depend on what follows it. -/
lemma cutAt_append (h : cutAt pattern (a ++ pattern) = some (a, pattern)) (t : List Char) :
    cutAt pattern (a ++ (pattern ++ t)) = some (a, pattern ++ t) := by
  induction a with
  | nil => exact cutAt_of_starts (List.prefix_append _ _)
  | cons c a ih =>
    have hstart : ¬ pattern <+: c :: (a ++ pattern) := by
      intro hstart
      rw [List.cons_append, cutAt_of_starts hstart] at h
      cases h
    rw [List.cons_append, cutAt_cons hstart, Option.map_eq_some_iff] at h
    obtain ⟨⟨a', b'⟩, hcut, heq⟩ := h
    cases heq
    rw [List.cons_append, ← List.append_assoc, cutAt_cons, List.append_assoc, ih hcut]
    · rfl
    · rw [← List.cons_append, prefix_append_of_length_le (by simp; omega)]
      exact hstart

lemma cutAt_self (h : cutAt pattern s = some (a, b)) : cutAt pattern (a ++ pattern) = some (a, pattern) := by
  induction s generalizing a with
  | nil =>
    obtain ⟨hs, hb⟩ := cutAt_eq_some h
    obtain ⟨rfl, rfl⟩ := List.append_eq_nil_iff.mp hs.symm
    exact cutAt_of_starts (List.prefix_refl _)
  | cons c s ih =>
    by_cases hstart : pattern <+: c :: s
    · rw [cutAt_of_starts hstart] at h
      cases h
      exact cutAt_of_starts (List.prefix_refl _)
    · rw [cutAt_cons hstart, Option.map_eq_some_iff] at h
      obtain ⟨⟨a', b'⟩, hcut, heq⟩ := h
      cases heq
      obtain ⟨rfl, more, rfl⟩ := cutAt_eq_some hcut
      rw [List.cons_append, cutAt_cons, ih hcut]
      · rfl
      · rwa [← prefix_append_of_length_le (t := more) (by simp; omega), List.cons_append, List.append_assoc]

end Cutting

section Reading

abbrev KeyValues := Dict String String

def trimmed (s : List Char) : String := String.ofList (strip s)

variable {ε : Type} (missing : List Char → ε)

def parseKeyLine (parsed : KeyValues) (rawLine : List Char) : Except ε KeyValues :=
  let line := strip rawLine
  if line = [] then .ok parsed
  else
    match cutAt [':'] line with
    | none => .error (missing line)
    | some (key, rest) => .ok (parsed.set (trimmed key) (trimmed rest.tail))

def parseKeyLines (text : List Char) : Except ε KeyValues := (splitlines text).foldlM (parseKeyLine missing) []

structure KeyBlock where
  before : List Char
  after : List Char
  parsed : KeyValues
deriving DecidableEq

/-- The first block of a text, with the texts on both sides of it. -/
def parseBlock (opening closing : List Char) (unclosed : ε) (body : List Char) : Except ε (Option KeyBlock) :=
  match cutAt opening body with
  | none => .ok none
  | some (before, found) =>
    match cutAt closing found with
    | none => .error unclosed
    | some (marked, rest) => do
      let parsed ← parseKeyLines missing (strip (marked.drop opening.length))
      pure (some ⟨before, rest.drop closing.length, parsed⟩)

def keyLine (key : String) (text : List Char) : List Char := key.toList ++ ':' :: ' ' :: text

def keyLines (entries : List (String × List Char)) : List Char := entries.flatMap fun e => keyLine e.1 e.2 ++ ['\n']

def renderBlock (opening closing : List Char) (entries : List (String × List Char)) : List Char :=
  opening ++ '\n' :: (keyLines entries ++ closing)

end Reading

section Lengths

variable {s t : List Char} {c : Char}

lemma rdropWhile_append_cons (s t : List Char) (hc : isBlank c = false) :
    (s ++ c :: t).rdropWhile isBlank = s ++ c :: t.rdropWhile isBlank := by
  induction t using List.reverseRecOn with
  | nil => exact List.rdropWhile_concat_neg _ _ _ (by simp [hc])
  | append_singleton t d ih =>
    rw [← List.cons_append, ← List.append_assoc]
    by_cases hd : isBlank d = true
    · rw [List.rdropWhile_concat_pos _ _ _ hd, List.rdropWhile_concat_pos _ _ _ hd, ih]
    · rw [List.rdropWhile_concat_neg _ _ _ hd, List.rdropWhile_concat_neg _ _ _ hd]
      simp

lemma strip_append_cons (s t : List Char) (hc : isBlank c = false) :
    strip (s ++ c :: t) = s.dropWhile isBlank ++ c :: t.rdropWhile isBlank := by
  have hdrop : (s ++ c :: t).dropWhile isBlank = s.dropWhile isBlank ++ c :: t := by
    rw [List.dropWhile_append]
    split
    · rename_i hempty
      rw [List.isEmpty_iff.mp hempty, List.dropWhile_cons_of_neg (by simp [hc])]
      rfl
    · rfl
  rw [strip_eq_rdropWhile, hdrop, rdropWhile_append_cons _ _ hc]

lemma length_strip_lt (s t : List Char) (hc : isBlank c = false) :
    (strip s).length < (strip (s ++ c :: t)).length := by
  have hle : (strip s).length ≤ (s.dropWhile isBlank).length := (List.rdropWhile_prefix _ _).length_le
  rw [strip_append_cons s t hc, List.length_append, List.length_cons]
  omega

lemma length_strip_append_left (s t : List Char) : (strip s).length ≤ (strip (s ++ t)).length := by
  induction t using List.reverseRecOn with
  | nil => rw [List.append_nil]
  | append_singleton t c ih =>
    rw [← List.append_assoc]
    by_cases hc : isBlank c = true
    · rwa [strip_append_right _ (by simpa using hc)]
    · exact ih.trans (length_strip_lt (s ++ t) [] (by simpa using hc)).le

/-- The first character of a text that is not blank. -/
lemma exists_not_blank (h : ¬ ∀ c ∈ s, isBlank c = true) :
    ∃ before c after, s = before ++ c :: after ∧ (∀ d ∈ before, isBlank d = true) ∧ isBlank c = false := by
  obtain ⟨c, rest, hrest⟩ := List.exists_cons_of_ne_nil (mt strip_eq_nil_iff.mp h)
  obtain ⟨before, after, hs, hbefore, -⟩ := strip_spec s
  exact ⟨before, c, rest ++ after, by rw [hrest] at hs; exact hs, hbefore, head_strip hrest⟩

lemma length_strip_append_right (s t : List Char) : (strip t).length ≤ (strip (s ++ t)).length := by
  by_cases ht : ∀ c ∈ t, isBlank c = true
  · rw [strip_eq_nil_iff.mpr ht]
    exact Nat.zero_le _
  · obtain ⟨before, c, after, rfl, hbefore, hc⟩ := exists_not_blank ht
    have hdrop : before.dropWhile isBlank = [] := List.dropWhile_eq_nil_iff.mpr hbefore
    rw [← List.append_assoc, strip_append_cons before after hc, strip_append_cons (s ++ before) after hc, hdrop]
    simp

/-- What stands before a line end inside a text is shorter than the text. -/
lemma length_strip_lt_of_broken (s : List Char) (ht : ¬ ∀ c ∈ t, isBlank c = true) :
    (strip s).length < (strip (s ++ c :: t)).length := by
  obtain ⟨before, d, after, rfl, -, hd⟩ := exists_not_blank ht
  have hlt := length_strip_lt (s ++ c :: before) after hd
  have hle := length_strip_append_left s (c :: before)
  rw [List.append_assoc, List.cons_append] at hlt
  omega

end Lengths

section Lines

variable {ε : Type} {missing : List Char → ε} {parsed parsed' : KeyValues} {key : String} {text s t : List Char}
variable {c : Char}

def readPieces (missing : List Char → ε) (parsed : KeyValues) (s : List Char) : Except ε KeyValues :=
  (pieces s).foldlM (parseKeyLine missing) parsed

lemma parseKeyLine_strip (rawLine : List Char) :
    parseKeyLine missing parsed (strip rawLine) = parseKeyLine missing parsed rawLine := by
  simp only [parseKeyLine, strip_strip]

lemma foldlM_bodies (rawLines : List (List Char)) (parsed : KeyValues) :
    rawLines.foldlM (parseKeyLine missing) parsed = (bodies rawLines).foldlM (parseKeyLine missing) parsed := by
  induction rawLines generalizing parsed with
  | nil => rfl
  | cons rawLine rawLines ih =>
    by_cases hblank : strip rawLine = []
    · have hskip : parseKeyLine missing parsed rawLine = .ok parsed := by rw [parseKeyLine, if_pos hblank]
      have hbodies : bodies (rawLine :: rawLines) = bodies rawLines := by simp [bodies, hblank]
      rw [List.foldlM_cons, hskip, hbodies, ← ih]
      rfl
    · have hbodies : bodies (rawLine :: rawLines) = strip rawLine :: bodies rawLines := by simp [bodies, hblank]
      rw [List.foldlM_cons, hbodies, List.foldlM_cons, parseKeyLine_strip]
      exact congrArg _ (funext ih)

lemma parseKeyLines_strip (s : List Char) : parseKeyLines missing (strip s) = readPieces missing [] s := by
  rw [parseKeyLines, foldlM_bodies, bodies_splitlines, pieces_universalNewlines, pieces_strip, readPieces]

lemma readPieces_append_cons (s t : List Char) (hc : isLineEnd c = true) :
    readPieces missing parsed (s ++ c :: t) =
      readPieces missing parsed s >>= fun parsed => readPieces missing parsed t := by
  rw [readPieces, pieces_append_cons s t hc, List.foldlM_append]
  rfl

lemma readPieces_of_unbroken (h : ∀ c ∈ s, isLineEnd c = false) :
    readPieces missing parsed s = parseKeyLine missing parsed s := by
  rw [readPieces, pieces_of_unbroken h, ← foldlM_bodies, List.foldlM_cons]
  exact bind_pure _

/-- A key that is read as it was written. -/
structure PlainKey (key : String) : Prop where
  stripped : strip key.toList = key.toList
  noColon : ':' ∉ key.toList
  unbroken : ∀ c ∈ key.toList, isLineEnd c = false

lemma cutAt_singleton (h : c ∉ s) (t : List Char) : cutAt [c] (s ++ c :: t) = some (s, c :: t) := by
  induction s with
  | nil => exact cutAt_of_starts (by simp)
  | cons d s ih =>
    rw [List.mem_cons, not_or] at h
    rw [List.cons_append, cutAt_cons (by simpa using h.1), ih h.2]
    rfl

lemma strip_rdropWhile (s : List Char) : strip (s.rdropWhile isBlank) = strip s := by
  conv_rhs => rw [← List.rdropWhile_append_rtakeWhile (p := isBlank) (l := s)]
  exact (strip_append_right _ fun c => List.mem_rtakeWhile_imp).symm

lemma dropWhile_of_stripped (h : strip s = s) : s.dropWhile isBlank = s := by
  refine (List.dropWhile_sublist isBlank).eq_of_length_le ?_
  have hle : (strip s).length ≤ (s.dropWhile isBlank).length := (List.rdropWhile_prefix _ _).length_le
  rwa [h] at hle

lemma PlainKey.parseKeyLine (hkey : PlainKey key) (parsed : KeyValues) (text : List Char) :
    Coordination.parseKeyLine missing parsed (keyLine key text) = .ok (parsed.set key (trimmed text)) := by
  have hline : strip (keyLine key text) = key.toList ++ ':' :: (' ' :: text).rdropWhile isBlank := by
    rw [keyLine, strip_append_cons _ _ (by decide), dropWhile_of_stripped hkey.stripped]
  have hname : trimmed key.toList = key := by rw [trimmed, hkey.stripped, String.ofList_toList]
  have hvalue : trimmed ((' ' :: text).rdropWhile isBlank) = trimmed text := by
    rw [trimmed, strip_rdropWhile, trimmed]
    exact congrArg _ (strip_append_left (s := [' ']) (forall_of_all (by decide)) text)
  simp only [Coordination.parseKeyLine, hline, cutAt_singleton hkey.noColon, List.tail_cons, hname, hvalue,
    List.append_eq_nil_iff, reduceCtorEq, and_false, if_false]

/-- A text that ends no line before its last character that is not blank. -/
def Tame (text : List Char) : Prop := ∀ c ∈ text.rdropWhile isBlank, isLineEnd c = false

instance (text : List Char) : Decidable (Tame text) := inferInstanceAs (Decidable (∀ _ ∈ _, _))

lemma readPieces_tame (hkey : PlainKey key) (h : Tame text) :
    readPieces missing parsed (keyLine key text) = .ok (parsed.set key (trimmed text)) := by
  have hsplit : keyLine key text = keyLine key (text.rdropWhile isBlank) ++ text.rtakeWhile isBlank := by
    simp [keyLine, List.rdropWhile_append_rtakeWhile]
  have hunbroken : ∀ c ∈ keyLine key (text.rdropWhile isBlank), isLineEnd c = false := by
    rw [keyLine, List.forall_mem_append, List.forall_mem_cons, List.forall_mem_cons]
    exact ⟨hkey.unbroken, by decide, by decide, h⟩
  rw [hsplit, readPieces, pieces_append_right _ fun c => List.mem_rtakeWhile_imp, ← readPieces,
    readPieces_of_unbroken hunbroken, hkey.parseKeyLine, trimmed, strip_rdropWhile, trimmed]

lemma parseKeyLine_eq_ok {body : List Char} (hne : body ≠ []) (hstrip : strip body = body)
    (h : parseKeyLine missing parsed body = .ok parsed') :
    ∃ key value, parsed' = parsed.set key value ∧ value.toList.length < body.length := by
  rw [parseKeyLine, hstrip, if_neg hne] at h
  split at h
  · cases h
  · rename_i name rest hcut
    cases h
    refine ⟨_, _, rfl, ?_⟩
    obtain ⟨rfl, more, rfl⟩ := cutAt_eq_some hcut
    have hle := length_strip_le more
    simp only [trimmed, String.toList_ofList, List.cons_append, List.nil_append, List.tail_cons, List.length_append,
      List.length_cons]
    omega

/-- What pieces leave under a key is what was there, or shorter than the text they come from. -/
lemma lookup_readPieces {value : String} (hvalue : parsed.lookup key = some value)
    (h : readPieces missing parsed s = .ok parsed') :
    ∃ value', parsed'.lookup key = some value' ∧ (value' = value ∨ value'.toList.length < (strip s).length) := by
  have hpieces : ∀ body ∈ pieces s, body ≠ [] ∧ strip body = body ∧ body.length ≤ (strip s).length :=
    fun body => of_mem_pieces
  rw [readPieces] at h
  generalize pieces s = parts at h hpieces
  induction parts generalizing parsed value with
  | nil =>
    cases h
    exact ⟨value, hvalue, .inl rfl⟩
  | cons body parts ih =>
    obtain ⟨⟨hne, hstrip, hlength⟩, hparts⟩ := List.forall_mem_cons.mp hpieces
    rw [List.foldlM_cons, bind_eq_ok] at h
    obtain ⟨middle, hbody, h⟩ := h
    obtain ⟨name, written, rfl, hwritten⟩ := parseKeyLine_eq_ok hne hstrip hbody
    by_cases hname : key = name
    · subst hname
      have hlookup : (parsed.set key written).lookup key = some written := by rw [Dict.lookup_set, if_pos rfl]
      obtain ⟨value', hvalue', hshort⟩ := ih hlookup h hparts
      refine ⟨value', hvalue', .inr ?_⟩
      rcases hshort with rfl | hshort
      · omega
      · exact hshort
    · have hlookup : (parsed.set name written).lookup key = some value := by
        rw [Dict.lookup_set, if_neg hname, hvalue]
      exact ih hlookup h hparts

/-- A text that is broken up leaves something shorter under its key. -/
lemma short_of_wild (hkey : PlainKey key) (htext : ¬ Tame text)
    (h : readPieces missing parsed (keyLine key text) = .ok parsed') :
    ∃ value, parsed'.lookup key = some value ∧ value.toList.length < (strip text).length := by
  simp only [Tame, not_forall, Bool.not_eq_false] at htext
  obtain ⟨e, he, hend⟩ := htext
  obtain ⟨before, c, after, hsplit, hc, hbefore⟩ := exists_lineEnd ⟨e, he, hend⟩
  have hrest : ¬ ∀ d ∈ after, isBlank d = true := by
    intro hblank
    have hall : ∀ d ∈ c :: after, isBlank d = true := List.forall_mem_cons.mpr ⟨isBlank_of_isLineEnd hc, hblank⟩
    have hself := List.rdropWhile_idempotent isBlank text
    rw [hsplit] at hself
    have hlast : (before ++ c :: after).getLast (by simp) ∈ c :: after := by
      rw [List.getLast_append_of_ne_nil _ (List.cons_ne_nil _ _)]
      exact List.getLast_mem _
    exact absurd (hall _ hlast) (List.rdropWhile_eq_self_iff.mp hself (by simp))
  have hstrip : strip text = strip (before ++ c :: after) := by rw [← hsplit, strip_rdropWhile]
  have hline : keyLine key text = keyLine key before ++ c :: (after ++ text.rtakeWhile isBlank) := by
    conv_lhs => rw [← List.rdropWhile_append_rtakeWhile (p := isBlank) (l := text), hsplit]
    simp [keyLine]
  have hunbroken : ∀ d ∈ keyLine key before, isLineEnd d = false := by
    rw [keyLine, List.forall_mem_append, List.forall_mem_cons, List.forall_mem_cons]
    exact ⟨hkey.unbroken, by decide, by decide, hbefore⟩
  rw [hline, readPieces_append_cons _ _ hc, readPieces_of_unbroken hunbroken, hkey.parseKeyLine, bind_eq_ok] at h
  obtain ⟨middle, hmiddle, h⟩ := h
  cases hmiddle
  have hlookup : (parsed.set key (trimmed before)).lookup key = some (trimmed before) := by
    rw [Dict.lookup_set, if_pos rfl]
  obtain ⟨value, hvalue, hshort⟩ := lookup_readPieces hlookup h
  refine ⟨value, hvalue, ?_⟩
  rw [hstrip]
  rcases hshort with rfl | hshort
  · rw [trimmed, String.toList_ofList]
    exact length_strip_lt_of_broken before hrest
  · rw [strip_append_right _ fun c => List.mem_rtakeWhile_imp] at hshort
    have hle := length_strip_append_right (before ++ [c]) after
    rw [List.append_assoc, List.singleton_append] at hle
    omega

lemma lookup_keyLine (hkey : PlainKey key) (h : readPieces missing parsed (keyLine key text) = .ok parsed') :
    ∃ value, parsed'.lookup key = some value ∧ value.toList.length ≤ (strip text).length := by
  by_cases htext : Tame text
  · rw [readPieces_tame hkey htext] at h
    cases h
    refine ⟨trimmed text, by rw [Dict.lookup_set, if_pos rfl], ?_⟩
    rw [trimmed, String.toList_ofList]
  · obtain ⟨value, hvalue, hshort⟩ := short_of_wild hkey htext h
    exact ⟨value, hvalue, hshort.le⟩

end Lines

section Blocks

variable {ε : Type} {missing : List Char → ε} {unclosed : ε} {parsed parsed' : KeyValues}
variable {entries : List (String × List Char)} {opening closing before after t : List Char}

lemma keyLines_cons (e : String × List Char) (entries : List (String × List Char)) :
    keyLines (e :: entries) = keyLine e.1 e.2 ++ '\n' :: keyLines entries := by
  simp [keyLines]

lemma readPieces_cons (e : String × List Char) (entries : List (String × List Char)) :
    readPieces missing parsed (keyLines (e :: entries)) =
      readPieces missing parsed (keyLine e.1 e.2) >>= fun parsed => readPieces missing parsed (keyLines entries) := by
  rw [keyLines_cons, readPieces_append_cons _ _ (by decide)]

/-- The keys of a block, which are told apart. -/
structure PlainKeys (entries : List (String × List Char)) : Prop where
  plain : ∀ e ∈ entries, PlainKey e.1
  nodup : (entries.map (·.1)).Nodup

lemma PlainKeys.tail {e : String × List Char} (h : PlainKeys (e :: entries)) :
    PlainKey e.1 ∧ (∀ f ∈ entries, f.1 ≠ e.1) ∧ PlainKeys entries := by
  obtain ⟨hfresh, hnodup⟩ := List.nodup_cons.mp h.nodup
  obtain ⟨hplain, hplains⟩ := List.forall_mem_cons.mp h.plain
  exact ⟨hplain, fun f hf heq => hfresh (List.mem_map.mpr ⟨f, hf, heq⟩), hplains, hnodup⟩

def values (entries : List (String × List Char)) : KeyValues := entries.map fun e => (e.1, trimmed e.2)

/-- A block of tame texts is read as its keys and texts. -/
lemma readPieces_keyLines (hkeys : PlainKeys entries) (htame : ∀ e ∈ entries, Tame e.2)
    (hfresh : ∀ e ∈ entries, e.1 ∉ parsed.map (·.1)) :
    readPieces missing parsed (keyLines entries) = .ok (parsed ++ values entries) := by
  induction entries generalizing parsed with
  | nil =>
    rw [values, List.map_nil, List.append_nil]
    rfl
  | cons e entries ih =>
    obtain ⟨hplain, hother, hrest⟩ := hkeys.tail
    obtain ⟨htext, htexts⟩ := List.forall_mem_cons.mp htame
    obtain ⟨hnew, hnews⟩ := List.forall_mem_cons.mp hfresh
    have hset : parsed.set e.1 (trimmed e.2) = parsed ++ [(e.1, trimmed e.2)] := Dict.set_of_not_mem hnew
    have hnext : ∀ f ∈ entries, f.1 ∉ (parsed ++ [(e.1, trimmed e.2)]).map (·.1) := by
      intro f hf
      simpa using ⟨by simpa using hnews f hf, hother f hf⟩
    rw [readPieces_cons, readPieces_tame hplain htext, hset]
    change readPieces missing (parsed ++ [(e.1, trimmed e.2)]) (keyLines entries) = _
    rw [ih hrest htexts hnext, List.append_assoc]
    rfl

lemma lookup_of_tame {key : String} (hkeys : PlainKeys entries) (htame : ∀ e ∈ entries, Tame e.2)
    (hother : ∀ e ∈ entries, e.1 ≠ key) (h : readPieces missing parsed (keyLines entries) = .ok parsed') :
    parsed'.lookup key = parsed.lookup key := by
  induction entries generalizing parsed with
  | nil =>
    cases h
    rfl
  | cons e entries ih =>
    obtain ⟨hplain, -, hrest⟩ := hkeys.tail
    obtain ⟨htext, htexts⟩ := List.forall_mem_cons.mp htame
    obtain ⟨hne, hothers⟩ := List.forall_mem_cons.mp hother
    rw [readPieces_cons, readPieces_tame hplain htext] at h
    rw [ih hrest htexts hothers h, Dict.lookup_set, if_neg (Ne.symm hne)]

/-- A block that shows its texts has only tame ones. -/
lemma tame_of_lookup (hkeys : PlainKeys entries) (h : readPieces missing parsed (keyLines entries) = .ok parsed')
    (hshows : ∀ e ∈ entries, parsed'.lookup e.1 = some (trimmed e.2)) : ∀ e ∈ entries, Tame e.2 := by
  induction entries generalizing parsed with
  | nil => simp
  | cons e entries ih =>
    obtain ⟨hplain, hother, hrest⟩ := hkeys.tail
    obtain ⟨hshow, hshows⟩ := List.forall_mem_cons.mp hshows
    rw [readPieces_cons, bind_eq_ok] at h
    obtain ⟨middle, hline, h⟩ := h
    have htame := ih hrest h hshows
    refine List.forall_mem_cons.mpr ⟨?_, htame⟩
    by_contra hwild
    obtain ⟨value, hvalue, hshort⟩ := short_of_wild hplain hwild hline
    rw [← lookup_of_tame hrest htame hother h, hshow] at hvalue
    cases hvalue
    rw [trimmed, String.toList_ofList] at hshort
    exact absurd hshort (lt_irrefl _)

/-- Markers between which the lines of a block can stand. -/
structure Markers (opening closing : List Char) (keys : List String) : Prop where
  visible : ∃ c more, closing = c :: more ∧ isBlank c = false
  apart : ¬ closing <:+: opening
  oneLine : '\n' ∉ closing
  oneWord : ' ' ∉ closing
  keys : ∀ key ∈ keys, ¬ closing <:+: key.toList ++ [':']

lemma cutAt_append_right {pattern s a b : List Char} (h : cutAt pattern s = some (a, b)) (t : List Char) :
    cutAt pattern (s ++ t) = some (a, b ++ t) := by
  obtain ⟨rfl, more, rfl⟩ := cutAt_eq_some h
  rw [List.append_assoc, List.append_assoc]
  exact cutAt_append (cutAt_self h) (more ++ t)

lemma keyLine_eq (key : String) (text : List Char) : keyLine key text = (key.toList ++ [':']) ++ ' ' :: text := by
  simp [keyLine]

lemma cutAt_keyLine {key : String} (hword : ' ' ∉ closing) (hkey : ¬ closing <:+: key.toList ++ [':']) (text : List Char) :
    cutAt closing (keyLine key text) = (cutAt closing text).map fun p => (keyLine key p.1, p.2) := by
  rw [keyLine_eq, cutAt_append_cons hkey hword]
  simp only [keyLine_eq]

lemma Markers.tail {e : String × List Char} (h : Markers opening closing ((e :: entries).map (·.1))) :
    ¬ closing <:+: e.1.toList ++ [':'] ∧ Markers opening closing (entries.map (·.1)) :=
  ⟨h.keys _ (List.mem_cons_self ..), h.visible, h.apart, h.oneLine, h.oneWord,
    fun key hkey => h.keys key (List.mem_cons_of_mem _ hkey)⟩

/-- A block closes where it was closed when none of its texts closes it. -/
lemma cutAt_keyLines (hmarkers : Markers opening closing (entries.map (·.1))) (h : ∀ e ∈ entries, ¬ closing <:+: e.2)
    (t : List Char) : cutAt closing (keyLines entries ++ (closing ++ t)) = some (keyLines entries, closing ++ t) := by
  induction entries with
  | nil => exact cutAt_of_starts (List.prefix_append _ _)
  | cons e entries ih =>
    obtain ⟨hkey, hrest⟩ := hmarkers.tail
    obtain ⟨htext, htexts⟩ := List.forall_mem_cons.mp h
    have hline : ¬ closing <:+: keyLine e.1 e.2 := by
      rw [← cutAt_eq_none, cutAt_keyLine hmarkers.oneWord hkey, cutAt_eq_none.mpr htext]
      rfl
    rw [keyLines_cons, List.append_assoc, List.cons_append, cutAt_append_cons hline hmarkers.oneLine,
      ih hrest htexts]
    rfl

/-- A text with a closing marker closes the block at its first one. -/
lemma cutAt_keyLines_early (hmarkers : Markers opening closing (entries.map (·.1)))
    (h : ∃ e ∈ entries, closing <:+: e.2) (t : List Char) :
    ∃ shown e rest text more more', entries = shown ++ e :: rest ∧ e.2 = text ++ (closing ++ more) ∧
      cutAt closing (keyLines entries ++ t) = some (keyLines shown ++ keyLine e.1 text, closing ++ more') := by
  induction entries with
  | nil => simp at h
  | cons e entries ih =>
    obtain ⟨hkey, hrest⟩ := hmarkers.tail
    rw [keyLines_cons, List.append_assoc]
    cases htext : cutAt closing e.2 with
    | some p =>
      obtain ⟨text, found⟩ := p
      obtain ⟨hsplit, more, rfl⟩ := cutAt_eq_some htext
      have hline : cutAt closing (keyLine e.1 e.2) = some (keyLine e.1 text, closing ++ more) := by
        rw [cutAt_keyLine hmarkers.oneWord hkey, htext]
        rfl
      refine ⟨[], e, entries, text, more, more ++ ('\n' :: keyLines entries ++ t), rfl, hsplit, ?_⟩
      rw [cutAt_append_right hline, List.append_assoc]
      rfl
    | none =>
      have hnot : ¬ closing <:+: e.2 := cutAt_eq_none.mp htext
      obtain ⟨shown, e', rest, text, more, more', rfl, hsplit, hcut⟩ := ih hrest (by simpa [hnot] using h)
      have hline : ¬ closing <:+: keyLine e.1 e.2 := by
        rw [← cutAt_eq_none, cutAt_keyLine hmarkers.oneWord hkey, htext]
        rfl
      refine ⟨e :: shown, e', rest, text, more, more', rfl, hsplit, ?_⟩
      rw [List.cons_append, cutAt_append_cons hline hmarkers.oneLine, hcut, keyLines_cons]
      simp

lemma readPieces_append (shown : List (String × List Char)) (text : List Char) :
    readPieces missing parsed (keyLines shown ++ text) =
      readPieces missing parsed (keyLines shown) >>= fun parsed => readPieces missing parsed text := by
  induction shown generalizing parsed with
  | nil => rfl
  | cons e shown ih =>
    rw [keyLines_cons, List.append_assoc, List.cons_append, readPieces_append_cons _ _ (by decide),
      readPieces_append_cons _ _ (by decide), bind_assoc]
    exact congrArg _ (funext fun parsed => ih)

lemma parseBlock_of_cut {body found marked rest : List Char} (hopen : cutAt opening body = some (before, found))
    (hclose : cutAt closing found = some (opening ++ '\n' :: marked, rest)) :
    parseBlock missing opening closing unclosed body =
      (readPieces missing [] marked >>= fun parsed => pure (some ⟨before, rest.drop closing.length, parsed⟩)) := by
  have hmarked : readPieces missing [] ('\n' :: marked) = readPieces missing [] marked := by
    rw [readPieces, readPieces, pieces_blank_cons _ (by decide)]
  simp only [parseBlock, hopen, hclose, List.drop_left, parseKeyLines_strip, hmarked]

/-- What a block shows: the opening marker is found where it was put, and what is read from there on. -/
def Shows (missing : List Char → ε) (unclosed : ε) (opening closing before after : List Char)
    (entries : List (String × List Char)) : Prop :=
  parseBlock missing opening closing unclosed (before ++ (renderBlock opening closing entries ++ after)) =
    .ok (some ⟨before, after, values entries⟩)

/-- A text that stands in a block as it is. -/
def Fits (closing text : List Char) : Prop := Tame text ∧ ¬ closing <:+: text

lemma cutAt_renderBlock (hopen : cutAt opening (before ++ opening) = some (before, opening)) :
    cutAt opening (before ++ (renderBlock opening closing entries ++ after)) =
      some (before, opening ++ '\n' :: (keyLines entries ++ (closing ++ after))) := by
  have hbody : renderBlock opening closing entries ++ after = opening ++ '\n' :: (keyLines entries ++ (closing ++ after)) := by
    simp [renderBlock]
  rw [hbody, cutAt_append hopen]

lemma cutAt_marked (hmarkers : Markers opening closing (entries.map (·.1))) {text rest : List Char}
    (hcut : cutAt closing text = some (before, rest)) :
    cutAt closing (opening ++ '\n' :: text) = some (opening ++ '\n' :: before, rest) := by
  rw [cutAt_append_cons hmarkers.apart hmarkers.oneLine, hcut]
  rfl

lemma shows_of_fits (hkeys : PlainKeys entries) (hmarkers : Markers opening closing (entries.map (·.1)))
    (hopen : cutAt opening (before ++ opening) = some (before, opening)) (h : ∀ e ∈ entries, Fits closing e.2) :
    Shows missing unclosed opening closing before after entries := by
  have hclose := cutAt_keyLines hmarkers (fun e he => (h e he).2) after
  rw [Shows, parseBlock_of_cut (cutAt_renderBlock hopen) (cutAt_marked hmarkers hclose),
    readPieces_keyLines hkeys (fun e he => (h e he).1) (by simp), List.drop_left]
  rfl

/-- A block from which the keys and texts are read has only texts that fit. -/
lemma fits_of_parseBlock (hkeys : PlainKeys entries) (hmarkers : Markers opening closing (entries.map (·.1)))
    (hopen : cutAt opening (before ++ opening) = some (before, opening)) {block : KeyBlock}
    (h : parseBlock missing opening closing unclosed (before ++ (renderBlock opening closing entries ++ after)) =
      .ok (some block))
    (hshows : ∀ e ∈ entries, block.parsed.lookup e.1 = some (trimmed e.2)) : ∀ e ∈ entries, Fits closing e.2 := by
  have hcuts : ∀ e ∈ entries, ¬ closing <:+: e.2 := by
    by_contra hearly
    simp only [not_forall, not_not] at hearly
    obtain ⟨e, he, hinside⟩ := hearly
    obtain ⟨shown, e, rest, text, more, more', rfl, hsplit, hcut⟩ :=
      cutAt_keyLines_early hmarkers ⟨e, he, hinside⟩ (closing ++ after)
    rw [parseBlock_of_cut (cutAt_renderBlock hopen) (cutAt_marked hmarkers hcut), readPieces_append, bind_eq_ok] at h
    obtain ⟨parsed, hlines, h⟩ := h
    cases h
    obtain ⟨middle, -, hline⟩ := bind_eq_ok.mp hlines
    have hmem : e ∈ shown ++ e :: rest := by simp
    obtain ⟨value, hvalue, hshort⟩ := lookup_keyLine (hkeys.plain e hmem) hline
    obtain ⟨c, closing, rfl, hc⟩ := hmarkers.visible
    have hlt := length_strip_lt text (closing ++ more) hc
    rw [hshows e hmem, Option.some.injEq] at hvalue
    rw [← hvalue, trimmed, String.toList_ofList, hsplit, List.cons_append] at hshort
    omega
  have hclose := cutAt_keyLines hmarkers hcuts after
  rw [parseBlock_of_cut (cutAt_renderBlock hopen) (cutAt_marked hmarkers hclose), bind_eq_ok] at h
  obtain ⟨parsed, hlines, h⟩ := h
  cases h
  have htame := tame_of_lookup hkeys hlines hshows
  exact fun e he => ⟨htame e he, hcuts e he⟩

end Blocks

end PlatformGitops.Coordination
