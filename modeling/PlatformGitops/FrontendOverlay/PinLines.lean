import PlatformGitops.FrontendOverlay.ApplyPin
import PlatformGitops.OverlayDigests.Surgical

/-! The lines that the script writes, and how it reads them. -/

namespace PlatformGitops.FrontendOverlay

open Library
open Coordination (isBlank isLineEnd)
open OverlayDigests (Text isTab field? isHexDigit isDigest field?_eq_some tabs_unbroken)

section Shapes

variable {s line indent sha value name : Text} {key key' : Key} {c : Char}

lemma rstrip_line (h : ∀ c ∈ s, isLineEnd c = false) : rstrip (s ++ ['\n']) = s := by
  rw [rstrip, List.rdropWhile_concat_pos _ _ _ (by decide)]
  rw [List.rdropWhile_eq_self_iff]
  intro hne hlast
  have hend := h _ (List.getLast_mem hne)
  simp only [decide_eq_true_eq] at hlast
  rcases hlast with hlast | hlast <;> rw [hlast] at hend <;> exact absurd hend (by decide)

lemma hex_facts (h : isHexDigit c = true) : isBlank c = false ∧ isLineEnd c = false ∧ isTab c = false := by
  simp only [isHexDigit, decide_eq_true_eq, Char.le_def, UInt32.le_iff_toNat_le] at h
  have hval : c.val.toNat = c.toNat := rfl
  have hletters : ('a' : Char).val.toNat = 97 ∧ ('f' : Char).val.toNat = 102 := ⟨rfl, rfl⟩
  have hdigits : ('0' : Char).val.toNat = 48 ∧ ('9' : Char).val.toNat = 57 := ⟨rfl, rfl⟩
  refine ⟨?_, ?_, ?_⟩
  · simp only [isBlank, decide_eq_false_iff_not, List.mem_cons, List.not_mem_nil, or_false]
    omega
  · simp only [isLineEnd, Coordination.lineEnds, decide_eq_false_iff_not, List.mem_cons, List.not_mem_nil, or_false]
    omega
  · simp only [isTab, decide_eq_false_iff_not]
    rintro (rfl | rfl)
    · exact absurd h (by decide)
    · exact absurd h (by decide)

/-- A value that is written: visible characters only. -/
structure Value (s : Text) : Prop where
  nonempty : s ≠ []
  visible : ∀ c ∈ s, isBlank c = false ∧ isLineEnd c = false ∧ isTab c = false

lemma value_of_hex (hne : s ≠ []) (h : ∀ c ∈ s, isHexDigit c = true) : Value s :=
  ⟨hne, fun c hc => hex_facts (h c hc)⟩

lemma value_append (start : Text) (hs : Value s) (hstart : (start.all fun c => !isBlank c && !isLineEnd c && !isTab c) = true) :
    Value (start ++ s) := by
  refine ⟨by simp [hs.nonempty], fun c hc => ?_⟩
  rcases List.mem_append.mp hc with hc | hc
  · simpa [and_assoc] using List.all_eq_true.mp hstart c hc
  · exact hs.visible c hc

lemma value_of_digest (h : isDigest s = true) : Value s := by
  obtain ⟨hex, rfl, hlength, hhex⟩ := OverlayDigests.isDigest_eq h
  have hne : hex ≠ [] := by
    rintro rfl
    cases hlength
  exact value_append _ (value_of_hex hne hhex) (by decide)

lemma value_of_tag (h : isTag s = true) : Value s := by
  simp only [isTag, decide_eq_true_eq, List.all_eq_true] at h
  obtain ⟨hlength, hstart, hhex⟩ := h
  have hne : s.drop 4 ≠ [] := by
    intro hnil
    have hdrop := congrArg List.length hnil
    rw [List.length_drop, hlength] at hdrop
    cases hdrop
  have hvalue := value_append "sha-".toList (value_of_hex hne hhex) (by decide)
  rwa [← hstart, List.take_append_drop] at hvalue

lemma value_of_sha (h : isFullSha s = true) : Value s := by
  simp only [isFullSha, decide_eq_true_eq, List.all_eq_true] at h
  refine value_of_hex ?_ h.2
  rintro rfl
  exact absurd h.1 (by decide)

lemma Value.head (h : Value s) : s.head?.any isTab = false := by
  cases s with
  | nil => exact absurd rfl h.nonempty
  | cons c s => exact (h.visible c List.mem_cons_self).2.2

lemma token?_value (h : Value s) : token? s = some s := by
  have htake : s.takeWhile (!isBlank ·) = s := by
    rw [List.takeWhile_eq_self_iff]
    intro c hc
    simp [(h.visible c hc).1]
  have hdrop : s.dropWhile (!isBlank ·) = [] := by
    rw [List.dropWhile_eq_nil_iff]
    intro c hc
    simp [(h.visible c hc).1]
  rw [token?, htake, hdrop, if_pos ⟨h.nonempty, rfl⟩]

/-- The indentation of a field. -/
structure Indent (indent : Text) : Prop where
  nonempty : indent ≠ []
  tabs : ∀ c ∈ indent, isTab c = true

/-- The first character behind the indentation. -/
def lead (line : Text) : Option Char := (line.dropWhile isTab).head?

lemma lead_indented (h : Indent indent) (hc : isTab c = false) : lead (indent ++ c :: s) = some c := by
  rw [lead, (span_run h.tabs (by simpa using hc)).2]
  rfl

lemma lead_entry {entry : Text × Text} (h : entryLine? line = some entry) : lead line = some '-' := by
  unfold entryLine? at h
  split at h
  · rename_i hline
    rw [lead, hline]
    rfl
  · cases h

lemma lead_sourceRevision {p : Text × Text} (h : sourceRevision? line = some p) : lead line = some '#' := by
  unfold sourceRevision? at h
  split_ifs at h
  split at h
  · rename_i hline
    rw [lead, hline]
    rfl
  · cases h

lemma key_head (key : Key) : (key.text ++ [':']).head?.any isTab = false := by
  cases key <;> decide

lemma fieldLine?_eq_some {p : Key × Text × Text} (h : fieldLine? line = some p) :
    ∃ value, field? p.1.text line = some (p.2.1, value) ∧ token? value = some p.2.2 := by
  obtain ⟨key, -, hkey⟩ := List.exists_of_findSome?_eq_some h
  obtain ⟨⟨indent, value⟩, hfield, htoken⟩ := Option.bind_eq_some_iff.mp hkey
  obtain ⟨token, hvalue, rfl⟩ := Option.map_eq_some_iff.mp htoken
  exact ⟨value, hfield, hvalue⟩

lemma fieldLine?_indent {p : Key × Text × Text} (h : fieldLine? line = some p) : Indent p.2.1 := by
  obtain ⟨value, hfield, -⟩ := fieldLine?_eq_some h
  obtain ⟨gap, -, hne, hindent, -, -⟩ := (field?_eq_some (key_head p.1)).mp hfield
  exact ⟨hne, hindent⟩

lemma lead_field {p : Key × Text × Text} (h : fieldLine? line = some p) : lead line = p.1.text.head? := by
  obtain ⟨value, hfield, -⟩ := fieldLine?_eq_some h
  obtain ⟨gap, rfl, hne, hindent, -, -⟩ := (field?_eq_some (key_head p.1)).mp hfield
  cases hkey : p.1 <;> exact lead_indented ⟨hne, hindent⟩ (by decide)

lemma lead_field_cases {p : Key × Text × Text} (h : fieldLine? line = some p) : lead line = some 'n' ∨ lead line = some 'd' := by
  rw [lead_field h]
  cases p.1 with
  | newName => exact Or.inl rfl
  | newTag => exact Or.inl rfl
  | digest => exact Or.inr rfl

end Shapes

section Marks

variable {line indent value sha : Text} {k k' : Option Key} {p p' : Text × Text}

/-- The lines that the script looks for in an entry: a field of a key, or the source revision. -/
def mark? : Option Key → Text → Option (Text × Text)
  | some key, line => keyed? key line
  | none, line => revision? line

lemma keyed?_eq_some {key : Key} : keyed? key line = some p ↔ fieldLine? (rstrip line) = some (key, p) := by
  unfold keyed?
  cases hfield : fieldLine? (rstrip line) with
  | none => simp
  | some field =>
    obtain ⟨key', p'⟩ := field
    by_cases hkey : key' = key
    · simp [hkey]
    · simp [hkey]

/-- A line is looked for under one key only. -/
lemma mark?_of_ne (h : mark? k line = some p) (hne : k' ≠ k) : mark? k' line = none := by
  rw [Option.eq_none_iff_forall_ne_some]
  intro p' h'
  cases k with
  | none =>
    have hlead := lead_sourceRevision h
    cases k' with
    | none => exact hne rfl
    | some key' =>
      rcases lead_field_cases (keyed?_eq_some.mp h') with hlead' | hlead' <;> rw [hlead] at hlead' <;> cases hlead'
  | some key =>
    have hfield := keyed?_eq_some.mp h
    cases k' with
    | none =>
      have hlead := lead_sourceRevision h'
      rcases lead_field_cases hfield with hlead' | hlead' <;> rw [hlead] at hlead' <;> cases hlead'
    | some key' =>
      rw [keyed?_eq_some.mp h'] at hfield
      exact hne (congrArg some (Prod.mk.inj (Option.some.inj hfield)).1)

/-- No such line begins an entry. -/
lemma entryLine?_of_mark (h : mark? k line = some p) : entryLine? (rstrip line) = none := by
  rw [Option.eq_none_iff_forall_ne_some]
  intro entry hentry
  have hlead := lead_entry hentry
  cases k with
  | none =>
    rw [lead_sourceRevision h] at hlead
    cases hlead
  | some key =>
    rcases lead_field_cases (keyed?_eq_some.mp h) with hlead' | hlead' <;> rw [hlead] at hlead' <;> cases hlead'

/-- The text that is written for a key. -/
def markText : Option Key → Text → Text → Text
  | some key, indent, value => fieldText key indent value
  | none, indent, value => sourceText indent value

/-- The values that may be written for a key. -/
def Writes : Option Key → Text → Prop
  | some _, value => Value value
  | none, value => isFullSha value = true

lemma fieldText_body (hindent : Indent indent) (hvalue : Value value) (key : Key) :
    ∀ c ∈ indent ++ (key.text ++ ": ".toList) ++ value, isLineEnd c = false := by
  simp only [List.forall_mem_append]
  refine ⟨⟨tabs_unbroken hindent.tabs, ?_⟩, fun c hc => (hvalue.visible c hc).2.1⟩
  cases key <;> exact ⟨forall_of_all (by decide), forall_of_all (by decide)⟩

lemma sourceText_body (hindent : Indent indent) (hsha : isFullSha sha = true) :
    ∀ c ∈ indent ++ "# sourceRevision: ".toList ++ sha, isLineEnd c = false := by
  simp only [List.forall_mem_append]
  exact ⟨⟨tabs_unbroken hindent.tabs, forall_of_all (by decide)⟩, fun c hc => ((value_of_sha hsha).visible c hc).2.1⟩

lemma keyed?_fieldText (hindent : Indent indent) (hvalue : Value value) (key : Key) :
    keyed? key (fieldText key indent value) = some (indent, value) := by
  have hfield : field? key.text (indent ++ (key.text ++ ": ".toList) ++ value) = some (indent, value) := by
    refine (field?_eq_some (key_head key)).mpr ⟨[' '], ?_, hindent.nonempty, hindent.tabs, forall_of_all (by decide),
      hvalue.head⟩
    simp
  have hother (other : Key) (hne : other ≠ key) : field? other.text (indent ++ (key.text ++ ": ".toList) ++ value) = none := by
    rw [Option.eq_none_iff_forall_ne_some]
    rintro ⟨indent', value'⟩ h
    obtain ⟨gap, heq, -, hindent', -, -⟩ := (field?_eq_some (key_head other)).mp h
    have hdrop := congrArg (List.dropWhile isTab) heq
    rw [List.append_assoc, (span_run hindent.tabs (by cases key <;> rfl)).2,
      (span_run hindent' (by cases other <;> rfl)).2] at hdrop
    -- the fourth character tells the keys apart
    have hfourth := congrArg (fun s => s[3]?) hdrop
    cases other <;> cases key <;> first | exact hne rfl | exact absurd (Option.some.inj hfourth) (by decide)
  rw [keyed?_eq_some, fieldText, rstrip_line (fieldText_body hindent hvalue key), fieldLine?]
  generalize indent ++ (key.text ++ ": ".toList) ++ value = line at hfield hother
  cases key with
  | newName => simp [List.findSome?, hfield, token?_value hvalue]
  | newTag => simp [List.findSome?, hfield, hother .newName (by decide), token?_value hvalue]
  | digest => simp [List.findSome?, hfield, hother .newName (by decide), hother .newTag (by decide), token?_value hvalue]

lemma revision?_sourceText (hindent : Indent indent) (hsha : isFullSha sha = true) :
    revision? (sourceText indent sha) = some (indent, sha) := by
  have hvalue := value_of_sha hsha
  simp only [isFullSha, decide_eq_true_eq] at hsha
  obtain ⟨hlength, hhex⟩ := hsha
  have hspan := @span_run _ isTab indent ("# sourceRevision: ".toList ++ sha) hindent.tabs rfl
  rw [revision?, sourceText, rstrip_line (sourceText_body hindent (by simp [isFullSha, hlength, hhex])), sourceRevision?,
    List.append_assoc, hspan.1, hspan.2, if_neg hindent.nonempty]
  have hgap := (@span_run _ isTab [' '] ("sourceRevision: ".toList ++ sha) (forall_of_all (by decide)) rfl).2
  have hname : ("sourceRevision: ".toList ++ sha).dropPrefix? "sourceRevision:".toList = some (' ' :: sha) :=
    List.dropPrefix?_eq_some_iff.mpr ⟨_, by simp, beq_self_eq_true _⟩
  have hsha := (@span_run _ isTab [' '] sha (forall_of_all (by decide)) hvalue.head).2
  have htake : sha.take 40 = sha := by rw [← hlength, List.take_length]
  have hdrop : sha.drop 40 = [] := by rw [← hlength, List.drop_length]
  have hrest : "# sourceRevision: ".toList ++ sha = '#' :: ([' '] ++ ("sourceRevision: ".toList ++ sha)) := by simp
  have hopen : ([' '] ++ ("sourceRevision: ".toList ++ sha)).head?.any isTab = true := rfl
  have hvalues : (' ' :: sha).dropWhile isTab = sha := hsha
  rw [hrest]
  simp only [hgap, hname, Option.bind_some, hvalues, htake, hdrop]
  rw [if_pos hopen, if_pos ⟨hlength, hhex, rfl⟩]

lemma mark?_markText (hindent : Indent indent) (h : Writes k value) : mark? k (markText k indent value) = some (indent, value) := by
  cases k with
  | none => exact revision?_sourceText hindent h
  | some key => exact keyed?_fieldText hindent h key

/-- A line that is written is one line. -/
lemma markText_line (hindent : Indent indent) (h : Writes k value) :
    ∃ body, markText k indent value = body ++ ['\n'] ∧ ∀ c ∈ body, isLineEnd c = false := by
  cases k with
  | none => exact ⟨_, rfl, sourceText_body hindent h⟩
  | some key => exact ⟨_, rfl, fieldText_body hindent h key⟩

end Marks

end PlatformGitops.FrontendOverlay
