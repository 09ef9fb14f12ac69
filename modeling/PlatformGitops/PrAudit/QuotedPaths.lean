import PlatformGitops.Library.Spans
import PlatformGitops.PrAudit.Body

/-! Which risky paths the consultation floor still sees after the list of changed files was printed and read. -/

namespace PlatformGitops.PrAudit

open Library
open Library.Regex (Pattern lastOr)
open Library.Regex.Pattern

section Printing

/-- A character that a name is printed with as it is. -/
def isPlain (c : Char) : Bool := 0x20 ≤ c.toNat ∧ c.toNat < 0x7f ∧ c ≠ '"' ∧ c ≠ '\\'

def octalDigit (n : ℕ) : Char := Char.ofNat (48 + n % 8)

def octalByte (b : UInt8) : Text :=
  ['\\', octalDigit (b.toNat / 64), octalDigit (b.toNat / 8), octalDigit b.toNat]

/-- The letter that stands for a control character behind a backslash. -/
def escapeLetter (c : Char) : Option Char :=
  [('"', '"'), ('\\', '\\'), (Char.ofNat 7, 'a'), (Char.ofNat 8, 'b'), ('\t', 't'), ('\n', 'n'), (Char.ofNat 11, 'v'),
   (Char.ofNat 12, 'f'), ('\r', 'r')].lookup c

def escapeChar (c : Char) : Text :=
  if isPlain c then [c]
  else
    match escapeLetter c with
    | some letter => ['\\', letter]
    | none => (String.utf8EncodeChar c).flatMap octalByte

/-- A name as `core.quotePath` has it printed. -/
def printName (name : Text) : Text :=
  if name.all isPlain then name else '"' :: (name.flatMap escapeChar ++ ['"'])

/-- The list that the workflow writes. -/
def changedFilesText (names : List Text) : Text := names.flatMap fun name => printName name ++ ['\n']

end Printing

section Risk

def isRisky (path : Text) : Bool :=
  matchesAny consultationGovernancePaths path || matchesAny consultationAtLeastSingleHighRiskPaths path

/-- A migration directory between two slashes. -/
def innerMigrationPattern : Pattern := .all [.char '/', migrationDirectories, .char '/']

/-- What the patterns make of the name that is read back. -/
def isSeen (name : Text) : Bool :=
  if name.all isPlain then isRisky (trim name) else innerMigrationPattern.search none name

def promotionBranch (prMeta : PrMeta) : Bool :=
  consultationAtLeastSingleBranchPrefixes.any (·.toList.isPrefixOf prMeta.headRef)

/-- With one risky path among the changed ones, the floor is not `none`. -/
def FloorSeesRisk (prMeta : PrMeta) (names : List Text) : Prop :=
  (∃ name ∈ names, isRisky name) →
    1 ≤ (minimumConsultationMode
      { prMeta with changedFiles := some (readChangedFiles (changedFilesText names)) }).rank

end Risk

section ReadBack

variable {c d : Char} {s rest name : Text} {names : List Text}

lemma trimEnd_of_last (h : ∀ c ∈ s.getLast?, isSpace c = false) : trimEnd s = s := by
  rcases List.eq_nil_or_concat s with rfl | ⟨s, c, rfl⟩
  · rfl
  · have hc : isSpace c = false := h c (by simp)
    simp [trimEnd, hc]

lemma trim_of_ends (hfirst : ∀ c ∈ s.head?, isSpace c = false) (hlast : ∀ c ∈ s.getLast?, isSpace c = false) :
    trim s = s := by
  cases s with
  | nil => rfl
  | cons c s =>
    have hc : isSpace c = false := hfirst c rfl
    rw [trim, List.dropWhile_cons_of_neg (by simp [hc])]
    exact trimEnd_of_last hlast

lemma splitLines_ne_nil (s : Text) : splitLines s ≠ [] := by
  induction s using splitLines.induct <;> simp [splitLines, *]

lemma splitLines_line (hs : ∀ c ∈ s, c ≠ '\n' ∧ c ≠ '\r') (rest : Text) :
    splitLines (s ++ '\n' :: rest) = s :: splitLines rest := by
  induction s with
  | nil => rfl
  | cons c s ih =>
    obtain ⟨⟨hn, hr⟩, hs⟩ := List.forall_mem_cons.mp hs
    rw [List.cons_append, splitLines, ih hs]
    · exact hn
    · exact fun _ h => absurd h hr

lemma escape_plain (h : isPlain c = true) : escapeChar c = [c] := if_pos h

lemma octalDigit_range (n : ℕ) : 48 ≤ (octalDigit n).toNat ∧ (octalDigit n).toNat < 56 := by
  have hall : ∀ m < 8, 48 ≤ (Char.ofNat (48 + m)).toNat ∧ (Char.ofNat (48 + m)).toNat < 56 := by decide
  exact hall (n % 8) (Nat.mod_lt n (by omega))

lemma escapeLetter_mem {letter : Char} (h : escapeLetter c = some letter) :
    letter ∈ ['"', '\\', 'a', 'b', 't', 'n', 'v', 'f', 'r'] := by
  obtain ⟨before, after, hlist, -⟩ := List.lookup_eq_some_iff.mp h
  have hmem := congrArg (List.map Prod.snd) hlist
  simp only [List.map_append, List.map_cons, List.map_nil] at hmem
  rw [hmem]
  simp

/-- An escape is a backslash and characters that are neither slashes nor control characters. -/
lemma escape_special (h : isPlain c = false) :
    ∃ t, escapeChar c = '\\' :: t ∧ ∀ x ∈ t, x ≠ '/' ∧ 0x20 ≤ x.toNat ∧ x.toNat < 0x7f := by
  have hoctal (n : ℕ) : octalDigit n ≠ '/' ∧ 0x20 ≤ (octalDigit n).toNat ∧ (octalDigit n).toNat < 0x7f := by
    obtain ⟨hlow, hhigh⟩ := octalDigit_range n
    refine ⟨fun heq => ?_, by omega, by omega⟩
    rw [heq] at hlow
    exact absurd hlow (by decide)
  have hbyte (b : UInt8) : ∀ x ∈ octalByte b, x ≠ '/' ∧ 0x20 ≤ x.toNat ∧ x.toNat < 0x7f := by
    simp only [octalByte, List.forall_mem_cons]
    exact ⟨by decide, hoctal _, hoctal _, hoctal _, nofun⟩
  rw [escapeChar, if_neg (by simp [h])]
  cases hletter : escapeLetter c with
  | some letter =>
    refine ⟨[letter], rfl, List.forall_mem_singleton.mpr ?_⟩
    have hletters : ∀ x ∈ ['"', '\\', 'a', 'b', 't', 'n', 'v', 'f', 'r'],
        x ≠ '/' ∧ 0x20 ≤ x.toNat ∧ x.toNat < 0x7f := by
      simp only [List.forall_mem_cons]
      exact ⟨by decide, by decide, by decide, by decide, by decide, by decide, by decide, by decide, by decide, nofun⟩
    exact hletters letter (escapeLetter_mem hletter)
  | none =>
    cases hbytes : String.utf8EncodeChar c with
    | nil => exact absurd hbytes String.utf8EncodeChar_ne_nil
    | cons b bytes =>
      refine ⟨_, rfl, fun x hx => ?_⟩
      have hmem : x ∈ (b :: bytes).flatMap octalByte := List.mem_cons_of_mem _ hx
      obtain ⟨b', -, hx⟩ := List.mem_flatMap.mp hmem
      exact hbyte b' x hx

lemma plain_printable (h : isPlain c = true) : 0x20 ≤ c.toNat ∧ c.toNat < 0x7f := by
  simp only [isPlain, decide_eq_true_eq] at h
  exact ⟨h.1, h.2.1⟩

lemma printName_printable : ∀ x ∈ printName name, 0x20 ≤ x.toNat ∧ x.toNat < 0x7f := by
  have hescape : ∀ x ∈ name.flatMap escapeChar, 0x20 ≤ x.toNat ∧ x.toNat < 0x7f := by
    intro x hx
    obtain ⟨c, -, hx⟩ := List.mem_flatMap.mp hx
    cases hc : isPlain c with
    | true =>
      rw [escape_plain hc, List.mem_singleton] at hx
      rw [hx]
      exact plain_printable hc
    | false =>
      obtain ⟨t, ht, hall⟩ := escape_special hc
      rw [ht] at hx
      rcases List.mem_cons.mp hx with rfl | hx
      · decide
      · exact (hall x hx).2
  intro x hx
  unfold printName at hx
  split at hx
  · next hplain => exact plain_printable (List.all_eq_true.mp hplain x hx)
  · rcases List.mem_cons.mp hx with rfl | hx
    · decide
    · rcases List.mem_append.mp hx with hx | hx
      · exact hescape x hx
      · rw [List.mem_singleton.mp hx]
        decide

lemma splitLines_changedFilesText (names : List Text) :
    splitLines (changedFilesText names) = names.map printName ++ [[]] := by
  induction names with
  | nil => rfl
  | cons name names ih =>
    have hline : ∀ c ∈ printName name, c ≠ '\n' ∧ c ≠ '\r' := by
      intro c hc
      have hlow := (printName_printable c hc).1
      constructor <;> rintro rfl <;> exact absurd hlow (by decide)
    have hcons : changedFilesText (name :: names) = printName name ++ '\n' :: changedFilesText names := by
      simp [changedFilesText]
    rw [hcons, splitLines_line hline, ih, List.map_cons, List.cons_append]

/-- A quoted name has no white space at its ends. -/
lemma trim_printName (name : Text) :
    trim (printName name) = if name.all isPlain then trim name else printName name := by
  unfold printName
  split
  · rfl
  · refine trim_of_ends ?_ ?_
    · rintro c ⟨⟩
      decide
    · intro c hc
      rw [← List.cons_append, List.getLast?_concat] at hc
      cases hc
      decide

/-- The names that the audit reads back. -/
lemma readChangedFiles_changedFilesText (names : List Text) : readChangedFiles (changedFilesText names) =
    (names.map fun name => if name.all isPlain then trim name else printName name).filter (· ≠ []) := by
  have hnil : trim [] = [] := rfl
  rw [readChangedFiles, splitLines_changedFilesText, List.map_append, List.filter_append, List.map_map]
  simp [hnil, Function.comp_def, trim_printName]

end ReadBack

section Patterns

variable {before : Option Char} {w after path name : Text} {as bs : List Pattern}

@[simp] lemma matches_startOfText : startOfText.Matches before w after ↔ w = [] ∧ before = none := by
  simp [startOfText]

@[simp] lemma matches_endOfText : endOfText.Matches before w after ↔ w = [] ∧ after = [] := by
  simp [endOfText]

@[simp] lemma matches_foldedWord {cs : Text} :
    (foldedWord cs).Matches before w after ↔ w.map foldChar = cs := by
  induction cs generalizing before w with
  | nil => simp [foldedWord]
  | cons c cs ih =>
    simp only [foldedWord, matches_seq, matches_chars, ih, beq_iff_eq]
    constructor
    · rintro ⟨_, v, rfl, ⟨d, rfl, rfl⟩, rfl⟩
      rfl
    · intro h
      cases w with
      | nil => cases h
      | cons d v =>
        obtain ⟨hd, hv⟩ := List.cons.inj h
        exact ⟨[d], v, rfl, ⟨d, hd, rfl⟩, hv⟩

lemma matches_anyWord {words : List String} :
    (anyWord words).Matches before w after ↔ ∃ word ∈ words, w.map foldChar = word.toList := by
  induction words with
  | nil => simp [anyWord]
  | cons word words ih =>
    have hcons : anyWord (word :: words) = .alt (foldedWord word.toList) (anyWord words) := rfl
    rw [hcons, matches_alt, matches_foldedWord, ih]
    simp

/-- A pattern that ends in a word at the end of the text. -/
lemma matches_all_ending {cs : Text} (h : (all (as ++ [foldedWord cs, endOfText])).Matches before w after) :
    after = [] ∧ ∃ v, w.map foldChar = v ++ cs := by
  induction as generalizing before w with
  | nil =>
    simp only [List.nil_append, matches_all_cons, matches_all_nil, matches_foldedWord, matches_endOfText] at h
    obtain ⟨u, _, rfl, rfl, _, _, rfl, ⟨rfl, hafter⟩, rfl⟩ := h
    exact ⟨by simpa using hafter, [], by simp⟩
  | cons a as ih =>
    rw [List.cons_append, matches_all_cons] at h
    obtain ⟨u, v, rfl, -, hv⟩ := h
    obtain ⟨hafter, x, hx⟩ := ih hv
    exact ⟨hafter, u.map foldChar ++ x, by rw [List.map_append, hx, List.append_assoc]⟩

lemma search_exactPath {s : String} : (exactPath s).search none path = true ↔ path = s.toList := by
  simp only [search_iff, exactPath, matches_all_cons, matches_all_nil, matches_startOfText, matches_endOfText,
    matches_word]
  constructor
  · rintro ⟨u, w, after, rfl, _, _, rfl, ⟨rfl, hnone⟩, _, _, rfl, rfl, _, _, rfl, ⟨rfl, hafter⟩, rfl⟩
    obtain ⟨-, rfl⟩ := Regex.lastOr_eq_none.mp hnone
    obtain rfl : after = [] := by simpa using hafter
    simp
  · rintro rfl
    exact ⟨[], s.toList, [], by simp, [], s.toList, rfl, by simp, s.toList, [], by simp, rfl, [], [], rfl, by simp, rfl⟩

end Patterns

section Quoted

variable {c : Char} {d u v w name after : Text} {before : Option Char}

lemma plain_of_fold (h : isPlain (foldChar c) = true) : isPlain c = true := by
  unfold foldChar at h
  split at h
  · next hupper =>
    obtain ⟨hlow, hhigh⟩ := hupper
    have hlow' : 65 ≤ c.toNat := hlow
    have hhigh' : c.toNat ≤ 90 := hhigh
    simp only [isPlain, decide_eq_true_eq]
    refine ⟨by omega, by omega, ?_, ?_⟩
    · rintro rfl
      exact absurd hlow' (by decide)
    · rintro rfl
      exact absurd hhigh' (by decide)
  · split at h
    · cases h
    · exact h

lemma directory_plain (h : migrationDirectories.Matches before d after) : d ≠ [] ∧ ∀ c ∈ d, isPlain c = true := by
  obtain ⟨word, hword, hd⟩ := matches_anyWord.mp h
  have hplain : word.toList ≠ [] ∧ ∀ c ∈ word.toList, isPlain c = true := by
    simp only [List.mem_cons, List.not_mem_nil, or_false] at hword
    rcases hword with rfl | rfl | rfl <;> exact ⟨by decide, forall_of_all (by decide)⟩
  rw [← hd] at hplain
  exact ⟨fun hnil => hplain.1 (by rw [hnil]; rfl),
    fun c hc => plain_of_fold (hplain.2 _ (List.mem_map_of_mem hc))⟩

lemma directory_anywhere {before' : Option Char} {after' : Text} (h : migrationDirectories.Matches before d after) :
    migrationDirectories.Matches before' d after' := matches_anyWord.mpr (matches_anyWord.mp h)

lemma escape_of_plain (h : ∀ c ∈ w, isPlain c = true) : w.flatMap escapeChar = w := by
  induction w with
  | nil => rfl
  | cons c w ih =>
    obtain ⟨hc, hw⟩ := List.forall_mem_cons.mp h
    rw [List.flatMap_cons, escape_plain hc, ih hw, List.singleton_append]

/-- Plain characters at the start of what is printed are those of the name. -/
lemma plain_start (hw : ∀ c ∈ w, isPlain c = true) (h : name.flatMap escapeChar = w ++ v) :
    ∃ rest, name = w ++ rest := by
  induction w generalizing name with
  | nil => exact ⟨name, rfl⟩
  | cons c w ih =>
    obtain ⟨hc, htail⟩ := List.forall_mem_cons.mp hw
    cases name with
    | nil => cases h
    | cons d name =>
      rw [List.flatMap_cons] at h
      cases hd : isPlain d with
      | true =>
        rw [escape_plain hd] at h
        obtain ⟨rfl, hrest⟩ := List.cons.inj h
        obtain ⟨rest, rfl⟩ := ih htail hrest
        exact ⟨rest, rfl⟩
      | false =>
        obtain ⟨t, ht, -⟩ := escape_special hd
        rw [ht] at h
        obtain ⟨rfl, -⟩ := List.cons.inj h
        cases hc

/-- Plain characters behind a slash, anywhere in what is printed, are those of the name. -/
lemma plain_inside (hw : ∀ c ∈ w, isPlain c = true) (h : name.flatMap escapeChar = u ++ ('/' :: w) ++ v) :
    ∃ start rest, name = start ++ ('/' :: w) ++ rest := by
  have hall : ∀ c ∈ '/' :: w, isPlain c = true := List.forall_mem_cons.mpr ⟨by decide, hw⟩
  induction name generalizing u with
  | nil => simp at h
  | cons d name ih =>
    cases u with
    | nil =>
      obtain ⟨rest, hrest⟩ := plain_start hall h
      exact ⟨[], rest, hrest⟩
    | cons x u =>
      rw [List.flatMap_cons, List.append_assoc] at h
      obtain ⟨middle, hu, hname⟩ | ⟨middle, hescape, hname⟩ := List.append_eq_append_iff.mp h
      · rw [← List.append_assoc] at hname
        obtain ⟨start, rest, rfl⟩ := ih hname
        exact ⟨d :: start, rest, rfl⟩
      · -- the slash would stand inside the escape of one character
        cases middle with
        | nil =>
          obtain ⟨start, rest, rfl⟩ := ih (u := []) (by simpa using hname.symm)
          exact ⟨d :: start, rest, rfl⟩
        | cons y middle =>
          obtain ⟨rfl, -⟩ := List.cons.inj hname
          cases hd : isPlain d with
          | true =>
            rw [escape_plain hd] at hescape
            simp at hescape
          | false =>
            obtain ⟨t, ht, hslash⟩ := escape_special hd
            rw [ht] at hescape
            obtain ⟨-, hescape⟩ := List.cons.inj hescape
            exact absurd rfl (hslash '/' (by rw [hescape]; simp)).1

/-- What is printed in quotes, with its quotes. -/
def quoted (name : Text) : Text := '"' :: (name.flatMap escapeChar ++ ['"'])

lemma getLast_quoted (name : Text) : (quoted name).getLast? = some '"' := by
  rw [quoted, ← List.cons_append, List.getLast?_concat]

lemma governance_quoted (name : Text) : matchesAny consultationGovernancePaths (quoted name) = false := by
  rw [matchesAny, consultationGovernancePaths, List.any_map, List.any_eq_false]
  intro path hpath hmatch
  have hquote := search_exactPath.mp hmatch
  have hhead : ∀ path ∈ consultationGovernanceNames, path.toList.head? ≠ some '"' := by decide
  exact hhead path hpath (by rw [← hquote]; rfl)

/-- A pattern that ends in a letter at the end of the text does not match anything in quotes. -/
lemma ending_quoted (as : List Pattern) (cs : Text) {c : Char} (hc : cs.getLast? = some c) (hquote : c ≠ '"') :
    (all (as ++ [foldedWord cs, endOfText])).search none (quoted name) = false := by
  rw [Bool.eq_false_iff]
  intro h
  obtain ⟨u, w, after, htext, hmatch⟩ := search_iff.mp h
  obtain ⟨rfl, v, hv⟩ := matches_all_ending hmatch
  have hlast := getLast_quoted name
  have hfold := congrArg (List.map foldChar) htext
  rw [List.append_nil, List.map_append, hv, ← List.append_assoc] at hfold
  have hend := congrArg List.getLast? hfold
  rw [List.getLast?_map, hlast, List.getLast?_append, hc] at hend
  obtain rfl : foldChar '"' = c := by simpa using hend
  exact hquote rfl

lemma migration_quoted (name : Text) :
    migrationPattern.search none (quoted name) = innerMigrationPattern.search none name := by
  rw [Bool.eq_iff_iff, search_iff, search_iff]
  simp only [migrationPattern, innerMigrationPattern, matches_all_cons, matches_all_nil, pathStart, pathEnd, matches_alt,
    matches_startOfText, matches_endOfText, matches_char]
  constructor
  · rintro ⟨u, _, after, htext, s, _, rfl, hs, d, _, rfl, hd, e, _, rfl, he, rfl⟩
    obtain ⟨hne, hplain⟩ := directory_plain hd
    have hnot : '"' ∉ d := fun hmem => absurd (hplain _ hmem) (by decide)
    have hlast := getLast_quoted name
    rcases hs with ⟨rfl, hnone⟩ | rfl
    · obtain ⟨-, rfl⟩ := Regex.lastOr_eq_none.mp hnone
      cases d with
      | nil => exact absurd rfl hne
      | cons c d =>
        obtain ⟨rfl, -⟩ := List.cons.inj htext
        simp at hnot
    · rcases he with rfl | ⟨rfl, hafter⟩
      · cases u with
        | nil => exact absurd (List.cons.inj htext).1 (by decide)
        | cons c u =>
          obtain ⟨-, htext⟩ := List.cons.inj htext
          rcases List.eq_nil_or_concat after with rfl | ⟨a, x, rfl⟩
          · have hend : name.flatMap escapeChar ++ ['"'] = (u ++ '/' :: d) ++ ['/'] := by simpa using htext
            exact absurd (List.cons.inj (List.append_inj' hend rfl).2).1 (by decide)
          · have hname : name.flatMap escapeChar = u ++ ('/' :: (d ++ ['/'])) ++ a := by
              have hconcat : name.flatMap escapeChar ++ ['"'] = (u ++ ('/' :: (d ++ ['/'])) ++ a) ++ [x] := by
                simpa using htext
              exact (List.append_inj' hconcat rfl).1
            have hslash : ∀ c ∈ d ++ ['/'], isPlain c = true := by
              intro c hc
              rcases List.mem_append.mp hc with hc | hc
              · exact hplain c hc
              · rw [List.mem_singleton.mp hc]
                decide
            obtain ⟨start, rest, rfl⟩ := plain_inside hslash hname
            exact ⟨start, '/' :: (d ++ ['/']), rest, rfl, ['/'], d ++ ['/'], rfl, rfl, d, ['/'], rfl,
              directory_anywhere hd, ['/'], [], rfl, rfl, rfl⟩
      · obtain rfl : after = [] := by simpa using hafter
        have hend := congrArg List.getLast? htext
        rw [hlast] at hend
        have hmem : '"' ∈ d := by
          refine List.mem_of_getLast? ?_
          rw [hend]
          simp [List.getLast?_append, List.getLast?_cons, List.getLast?_eq_some_getLast hne]
        exact absurd hmem hnot
  · rintro ⟨u, _, after, rfl, _, _, rfl, rfl, d, _, rfl, hd, _, _, rfl, rfl, rfl⟩
    obtain ⟨-, hplain⟩ := directory_plain hd
    have hslash : escapeChar '/' = ['/'] := by decide
    refine ⟨'"' :: u.flatMap escapeChar, ['/'] ++ (d ++ (['/'] ++ [])), after.flatMap escapeChar ++ ['"'], ?_,
      ['/'], _, rfl, .inr rfl, d, _, rfl, directory_anywhere hd, ['/'], [], rfl, .inl rfl, rfl⟩
    simp [quoted, List.flatMap_append, escape_of_plain hplain, hslash]

/-- What the patterns say of the name that is read back. -/
lemma risky_readBack (name : Text) :
    isRisky (if name.all isPlain then trim name else printName name) = isSeen name := by
  unfold isSeen
  split
  · rfl
  · next hplain =>
    have hquoted : printName name = quoted name := if_neg hplain
    have haccess : accessManifestPattern.search none (quoted name) = false :=
      ending_quoted [pathStart, _, _, _, _, _, _] ['m', 'l'] rfl (by decide)
    have hvault : vaultPolicyPattern.search none (quoted name) = false :=
      ending_quoted [pathStart, _, _, _, _, _] ['h', 'c', 'l'] rfl (by decide)
    rw [isRisky, hquoted, governance_quoted, ← migration_quoted]
    simp [matchesAny, consultationAtLeastSingleHighRiskPaths, haccess, hvault]

end Quoted

section Floor

variable {c : Char} {s name : Text} {names : List Text}

lemma isSpace_of_trim_nil (h : trim s = []) : ∀ c ∈ s, isSpace c = true := by
  rw [trim, trimEnd, List.reverse_eq_nil_iff, List.dropWhile_eq_nil_iff] at h
  rw [← List.dropWhile_eq_nil_iff]
  cases hrest : s.dropWhile isSpace with
  | nil => rfl
  | cons c rest =>
    have hc : isSpace c = false := by
      have hhead := List.head?_dropWhile_not isSpace s
      simpa [hrest] using hhead
    exact absurd (h c (by simp [hrest])) (by simp [hc])

/-- A risky name is not blank. -/
lemma readBack_ne_nil (h : isRisky name = true) : (if name.all isPlain then trim name else printName name) ≠ [] := by
  split
  · next hplain =>
    intro hblank
    have hspace : ∀ c ∈ name, c = ' ' := by
      intro c hc
      have hprinted := plain_printable (List.all_eq_true.mp hplain c hc)
      have hc := isSpace_of_trim_nil hblank c hc
      simp only [isSpace, decide_eq_true_eq] at hc
      exact Char.ext (UInt32.toNat_inj.mp (by change c.toNat = 32; omega))
    have hnot (as : List Pattern) (cs : Text) {c : Char} (hlast : cs.getLast? = some c) (hne : c ≠ ' ') :
        (all (as ++ [foldedWord cs, endOfText])).search none name = false := by
      rw [Bool.eq_false_iff]
      intro hsearch
      obtain ⟨u, w, after, rfl, hmatch⟩ := search_iff.mp hsearch
      obtain ⟨-, v, hv⟩ := matches_all_ending hmatch
      have hmem : c ∈ w.map foldChar := by
        rw [hv]
        exact List.mem_append_right _ (List.mem_of_getLast? hlast)
      obtain ⟨x, hx, rfl⟩ := List.mem_map.mp hmem
      rw [hspace x (by simp [hx])] at hne
      exact hne (by decide)
    rw [isRisky, Bool.or_eq_true] at h
    rcases h with h | h
    · obtain ⟨pattern, hpattern, hmatch⟩ := List.any_eq_true.mp h
      obtain ⟨path, hpath, rfl⟩ := List.mem_map.mp hpattern
      have hname := search_exactPath.mp hmatch
      have hletters : (consultationGovernanceNames.all fun path => path.toList.any (· != ' ')) = true := by decide
      obtain ⟨c, hc, hne⟩ := List.any_eq_true.mp (List.all_eq_true.mp hletters path hpath)
      rw [hspace c (hname ▸ hc)] at hne
      exact absurd hne (by decide)
    · simp only [matchesAny, consultationAtLeastSingleHighRiskPaths, List.any_cons, List.any_nil, Bool.or_false,
        Bool.or_eq_true] at h
      rcases h with h | h | h
      · have haccess : accessManifestPattern.search none name = false :=
          hnot [pathStart, _, _, _, _, _, _] ['m', 'l'] rfl (by decide)
        rw [haccess] at h
        cases h
      · have hvault : vaultPolicyPattern.search none name = false :=
          hnot [pathStart, _, _, _, _, _] ['h', 'c', 'l'] rfl (by decide)
        rw [hvault] at h
        cases h
      · obtain ⟨u, w, after, rfl, hmatch⟩ := search_iff.mp h
        obtain ⟨start, _, rfl, -, d, rest, rfl, hd, -⟩ := hmatch
        obtain ⟨word, hword, hletters⟩ := matches_anyWord.mp hd
        have hwords : (["db/migration", "migration", "migrations"].all fun word => word.toList.any (· != ' ')) = true := by
          decide
        obtain ⟨c, hc, hne⟩ := List.any_eq_true.mp (List.all_eq_true.mp hwords word hword)
        rw [← hletters] at hc
        obtain ⟨x, hx, rfl⟩ := List.mem_map.mp hc
        rw [hspace x (by simp [hx])] at hne
        exact absurd hne (by decide)
  · next hplain => simp [printName, hplain]

lemma floor_iff (prMeta : PrMeta) : 1 ≤ (minimumConsultationMode prMeta).rank ↔
    prMeta.changedFiles.getD [] = [] ∨ (prMeta.changedFiles.getD []).any isRisky = true ∨ promotionBranch prMeta = true := by
  have hdual : (prMeta.changedFiles.getD []).any (matchesAny consultationDualGovernancePaths) = false := by
    simp [matchesAny, consultationDualGovernancePaths]
  have hrisky : (prMeta.changedFiles.getD []).any isRisky = true ↔
      (prMeta.changedFiles.getD []).any (matchesAny consultationGovernancePaths) = true ∨
        (prMeta.changedFiles.getD []).any (matchesAny consultationAtLeastSingleHighRiskPaths) = true := by
    simp only [List.any_eq_true, isRisky, Bool.or_eq_true, and_or_left, exists_or]
  have hbranch : consultationAtLeastSingleBranchPrefixes.any (·.toList.isPrefixOf prMeta.headRef) =
      promotionBranch prMeta := rfl
  unfold minimumConsultationMode
  dsimp only
  rw [hrisky, hdual, hbranch]
  generalize (prMeta.changedFiles.getD []).any (matchesAny consultationGovernancePaths) = governance
  generalize (prMeta.changedFiles.getD []).any (matchesAny consultationAtLeastSingleHighRiskPaths) = highRisk
  by_cases hfiles : prMeta.changedFiles.getD [] = []
  · simp [hfiles, Mode.rank]
  · cases governance <;> cases promotionBranch prMeta <;> cases highRisk <;> simp [hfiles, Mode.rank]

theorem floor_sees_risk_iff (prMeta : PrMeta) (names : List Text) : FloorSeesRisk prMeta names ↔
    ((∃ name ∈ names, isRisky name) → promotionBranch prMeta ∨ ∃ name ∈ names, isSeen name) := by
  refine forall_congr' fun ⟨name, hname, hrisky⟩ => ?_
  have hread : (names.map fun name => if name.all isPlain then trim name else printName name).filter (· ≠ []) ≠ [] := by
    refine List.ne_nil_of_mem (a := if name.all isPlain then trim name else printName name) ?_
    exact List.mem_filter.mpr ⟨List.mem_map_of_mem hname, by simpa using readBack_ne_nil hrisky⟩
  have hseen : ((names.map fun name => if name.all isPlain then trim name else printName name).filter (· ≠ [])).any
      isRisky = true ↔ ∃ name ∈ names, isSeen name = true := by
    have hnil : isRisky [] = false := by decide
    simp only [List.any_eq_true, List.mem_filter, List.mem_map, ← risky_readBack]
    constructor
    · rintro ⟨_, ⟨⟨other, hother, rfl⟩, -⟩, hpath⟩
      exact ⟨other, hother, hpath⟩
    · rintro ⟨other, hother, hpath⟩
      refine ⟨_, ⟨⟨other, hother, rfl⟩, ?_⟩, hpath⟩
      simp only [decide_eq_true_eq]
      intro hempty
      rw [hempty, hnil] at hpath
      cases hpath
  rw [floor_iff, readChangedFiles_changedFilesText, Option.getD_some, or_iff_right hread, hseen, or_comm]
  rfl

def rbacName : Text := "kustomize/base/rbac-kullanıcı.yaml".toList

def featureBranch : PrMeta := ⟨"feature/roles".toList, [], [], [], [], [], [], [], [], none⟩

lemma rbacName_risky : isRisky rbacName = true := by decide +kernel

lemma rbacName_floor : minimumConsultationMode
    { featureBranch with changedFiles := some (readChangedFiles (changedFilesText [rbacName])) } = .none := by
  decide +kernel

theorem quoted_rbac_floor_none : ¬ ∀ (prMeta : PrMeta) (names : List Text), FloorSeesRisk prMeta names := by
  intro h
  have hfloor := h featureBranch [rbacName] ⟨rbacName, List.mem_singleton_self _, rbacName_risky⟩
  rw [rbacName_floor] at hfloor
  exact absurd hfloor (by decide)

end Floor

end PlatformGitops.PrAudit
