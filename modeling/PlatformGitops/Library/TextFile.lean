import Mathlib.Tactic.Common

/-! Text files: their bytes in UTF-8, the newlines that a reader translates, and their lines. -/

namespace PlatformGitops.Library.Text

def encode (s : List Char) : List UInt8 := s.flatMap String.utf8EncodeChar

def decode? (bytes : List UInt8) : Option (List Char) := bytes.toByteArray.utf8Decode?.map Array.toList

lemma encode_append (s t : List Char) : encode (s ++ t) = encode s ++ encode t := by
  simp [encode]

lemma decode?_encode (s : List Char) : decode? (encode s) = some s := by
  have hdecode : s.utf8Encode.utf8Decode? = some s.toArray := List.utf8Decode?_utf8Encode
  unfold List.utf8Encode at hdecode
  simp [decode?, encode, hdecode]

lemma encode_injective {s t : List Char} (h : encode s = encode t) : s = t := by
  have hdecode := congrArg decode? h
  rw [decode?_encode, decode?_encode] at hdecode
  exact Option.some.inj hdecode

lemma eq_encode_of_decode? {bytes : List UInt8} {s : List Char} (h : decode? bytes = some s) : bytes = encode s := by
  obtain ⟨a, ha, rfl⟩ := Option.map_eq_some_iff.mp h
  have hsome : bytes.toByteArray.utf8Decode?.isSome = true := by simp [ha]
  have hencode := ByteArray.utf8Encode_get_utf8Decode? (h := hsome)
  simp only [ha, Option.get_some] at hencode
  have hdata := congrArg (fun b : ByteArray => b.data.toList) hencode
  simpa [List.utf8Encode, encode] using hdata.symm

lemma ofNat_continuation_ne (n : Nat) : UInt8.ofNat (n % 64 + 128) ≠ 10 := by
  intro h
  have hten : (10 : UInt8).toNat = 10 := rfl
  have hnat := congrArg UInt8.toNat h
  rw [UInt8.toNat_ofNat_of_lt' (by show _ < 256; omega), hten] at hnat
  omega

/-- The bytes of a character end in a newline byte where the character is a newline. -/
lemma getLast?_utf8EncodeChar (c : Char) : (String.utf8EncodeChar c).getLast? = some 10 ↔ c = '\n' := by
  constructor
  · intro h
    have hten : (10 : UInt8).toNat = 10 := rfl
    simp only [String.utf8EncodeChar] at h
    split_ifs at h with h1 h2 h3
    · have hbyte : UInt8.ofNat c.val.toNat = 10 := Option.some.inj h
      have hnat := congrArg UInt8.toNat hbyte
      rw [UInt8.toNat_ofNat_of_lt' (by show _ < 256; omega), hten] at hnat
      exact Char.toNat_inj.mp hnat
    all_goals exact absurd (Option.some.inj h) (ofNat_continuation_ne _)
  · rintro rfl
    rfl

lemma getLast?_encode (s : List Char) : (encode s).getLast? = some 10 ↔ s.getLast? = some '\n' := by
  rcases s.eq_nil_or_concat with rfl | ⟨s, c, rfl⟩
  · simp [encode]
  · have hsplit : encode (s.concat c) = encode s ++ String.utf8EncodeChar c := by simp [encode]
    obtain ⟨b, hb⟩ : ∃ b, (String.utf8EncodeChar c).getLast? = some b :=
      Option.isSome_iff_exists.mp (by simp [List.getLast?_isSome])
    rw [hsplit, List.getLast?_append, hb, List.concat_eq_append, List.getLast?_concat, Option.some_or, Option.some.injEq, Option.some.injEq,
      ← getLast?_utf8EncodeChar, hb, Option.some.injEq]

lemma encode_eq_nil (s : List Char) : encode s = [] ↔ s = [] := by
  cases s <;> simp [encode]

/-- The text as it is read, with each of the three line ends turned into a newline; `afterCr` when the character
before was a carriage return. -/
def translate (afterCr : Bool) : List Char → List Char
  | [] => []
  | c :: s =>
    if c = '\r' then '\n' :: translate true s
    else if c = '\n' ∧ afterCr then translate false s
    else c :: translate false s

def universalNewlines (s : List Char) : List Char := translate false s

def lines : List Char → List (List Char)
  | [] => []
  | c :: s => if c = '\n' then [] :: lines s else (c :: (lines s).headD []) :: (lines s).tail

def endsWithNewline (s : List Char) : Bool := s.getLast? = some '\n'

lemma lines_cons_of_ne {c : Char} (hc : c ≠ '\n') (s : List Char) :
    lines (c :: s) = (c :: (lines s).headD []) :: (lines s).tail := by
  rw [lines, if_neg hc]

lemma lines_line {line : List Char} (hline : '\n' ∉ line) (t : List Char) :
    lines (line ++ '\n' :: t) = line :: lines t := by
  induction line with
  | nil => rfl
  | cons c line ih =>
    rw [List.mem_cons, not_or] at hline
    rw [List.cons_append, lines_cons_of_ne (Ne.symm hline.1), ih hline.2]
    rfl

lemma lines_of_not_mem {s : List Char} (hs : s ≠ []) (hline : '\n' ∉ s) : lines s = [s] := by
  induction s with
  | nil => exact absurd rfl hs
  | cons c s ih =>
    rw [List.mem_cons, not_or] at hline
    rw [lines_cons_of_ne (Ne.symm hline.1)]
    by_cases hempty : s = []
    · rw [hempty]
      rfl
    · rw [ih hempty hline.2]
      rfl

lemma lines_ne_nil {s : List Char} (hs : s ≠ []) : lines s ≠ [] := by
  cases s with
  | nil => exact absurd rfl hs
  | cons c s => by_cases hc : c = '\n' <;> simp [lines, hc]

lemma endsWithNewline_cons {s : List Char} (hs : s ≠ []) (c : Char) :
    endsWithNewline (c :: s) = endsWithNewline s := by
  obtain ⟨d, s, rfl⟩ := List.exists_cons_of_ne_nil hs
  simp [endsWithNewline]

/-- A newline at the end of a last line without one adds no line. -/
lemma lines_terminated {s : List Char} (hs : s ≠ []) (hend : endsWithNewline s = false) (t : List Char) :
    lines (s ++ '\n' :: t) = lines s ++ lines t := by
  induction s with
  | nil => exact absurd rfl hs
  | cons c s ih =>
    by_cases hempty : s = []
    · subst hempty
      have hc : c ≠ '\n' := by simpa [endsWithNewline] using hend
      simp [lines, hc]
    · rw [endsWithNewline_cons hempty] at hend
      obtain ⟨l, ls, hl⟩ := List.exists_cons_of_ne_nil (lines_ne_nil hempty)
      by_cases hc : c = '\n'
      · simp [lines, hc, ih hempty hend]
      · rw [List.cons_append, lines_cons_of_ne hc, lines_cons_of_ne hc, ih hempty hend, hl]
        rfl

lemma lines_ended {s : List Char} (hs : s ≠ [] → endsWithNewline s = true) (t : List Char) :
    lines (s ++ t) = lines s ++ lines t := by
  induction s with
  | nil => rfl
  | cons c s ih =>
    have hend := hs (by simp)
    by_cases hempty : s = []
    · subst hempty
      have hc : c = '\n' := by simpa [endsWithNewline] using hend
      simp [lines, hc]
    · rw [endsWithNewline_cons hempty] at hend
      obtain ⟨l, ls, hl⟩ := List.exists_cons_of_ne_nil (lines_ne_nil hempty)
      by_cases hc : c = '\n'
      · simp [lines, hc, ih fun _ => hend]
      · rw [List.cons_append, lines_cons_of_ne hc, lines_cons_of_ne hc, ih fun _ => hend, hl]
        rfl

def endsWithCr (afterCr : Bool) (s : List Char) : Bool := (s.getLast?.map fun c => decide (c = '\r')).getD afterCr

lemma endsWithCr_concat (afterCr : Bool) (s : List Char) (c : Char) :
    endsWithCr afterCr (s ++ [c]) = decide (c = '\r') := by
  simp [endsWithCr]

lemma translate_append (afterCr : Bool) (s t : List Char) :
    translate afterCr (s ++ t) = translate afterCr s ++ translate (endsWithCr afterCr s) t := by
  induction s generalizing afterCr with
  | nil => simp [translate, endsWithCr]
  | cons c s ih =>
    have hends : ∀ b, endsWithCr (c = '\r') s = endsWithCr b (c :: s) := by
      intro b
      rcases s.eq_nil_or_concat with rfl | ⟨s, d, rfl⟩
      · rfl
      · rw [List.concat_eq_append, ← List.cons_append, endsWithCr_concat, endsWithCr_concat]
    simp only [List.cons_append, translate]
    split_ifs with hc hn <;> rw [ih, ← hends] <;> simp [hc]

lemma not_mem_translate (afterCr : Bool) (s : List Char) : '\r' ∉ translate afterCr s := by
  induction s generalizing afterCr with
  | nil => simp [translate]
  | cons c s ih =>
    simp only [translate]
    split_ifs with hc hn
    · simpa using ih true
    · exact ih false
    · simpa [Ne.symm hc] using ih false

lemma universalNewlines_eq_self {s : List Char} (hs : '\r' ∉ s) : universalNewlines s = s := by
  unfold universalNewlines
  induction s with
  | nil => rfl
  | cons c s ih =>
    rw [List.mem_cons, not_or] at hs
    simp [translate, Ne.symm hs.1, ih hs.2]

lemma universalNewlines_ne_nil {s : List Char} (hs : s ≠ []) : universalNewlines s ≠ [] := by
  obtain ⟨c, s, rfl⟩ := List.exists_cons_of_ne_nil hs
  simp only [universalNewlines, translate]
  split_ifs <;> simp_all

lemma endsWithNewline_concat (s : List Char) (c : Char) : endsWithNewline (s ++ [c]) = decide (c = '\n') := by
  simp [endsWithNewline]

lemma translate_endsWithCr {s : List Char} (h : endsWithCr false s = true) :
    endsWithNewline (universalNewlines s) = true := by
  rcases s.eq_nil_or_concat with rfl | ⟨s, c, rfl⟩
  · simp [endsWithCr] at h
  · have hc : c = '\r' := by simpa [endsWithCr] using h
    rw [List.concat_eq_append, universalNewlines, translate_append, hc]
    exact endsWithNewline_concat _ _

/-- What is read ends with a newline where the file ends with one of the three line ends. -/
lemma endsWithNewline_universalNewlines (s : List Char) :
    endsWithNewline (universalNewlines s) = (endsWithNewline s || endsWithCr false s) := by
  rcases s.eq_nil_or_concat with rfl | ⟨s, c, rfl⟩
  · rfl
  · rw [List.concat_eq_append, endsWithNewline_concat]
    by_cases hc : c = '\r'
    · have hcr : endsWithCr false (s ++ [c]) = true := by simp [endsWithCr, hc]
      rw [translate_endsWithCr hcr, hcr, Bool.or_true]
    · have hcr : endsWithCr false (s ++ [c]) = false := by simp [endsWithCr, hc]
      rw [hcr, Bool.or_false, universalNewlines, translate_append]
      by_cases hn : c = '\n' ∧ endsWithCr false s = true
      · rw [hn.2, hn.1]
        simpa [translate, universalNewlines] using translate_endsWithCr hn.2
      · have hkeep : translate (endsWithCr false s) [c] = [c] := by simp [translate, hc, hn]
        rw [hkeep, endsWithNewline_concat]

variable {line : List Char}

lemma translate_line (hline : ∀ c ∈ line, c ≠ '\r' ∧ c ≠ '\n') (hne : line ≠ []) (afterCr : Bool) :
    translate afterCr (line ++ ['\n']) = line ++ ['\n'] := by
  obtain ⟨c, s, rfl⟩ := List.exists_cons_of_ne_nil hne
  obtain ⟨hc, hs⟩ := List.forall_mem_cons.mp hline
  have hrest := universalNewlines_eq_self (s := s ++ ['\n']) (by simpa using fun h => (hs _ h).1 rfl)
  simp only [universalNewlines] at hrest
  simp [translate, hc.1, hc.2, hrest]

/-- A line that is written at the end of a file, after a newline where the file does not end with one, is read as
its last line. -/
lemma lines_appended (hline : ∀ c ∈ line, c ≠ '\r' ∧ c ≠ '\n') (hne : line ≠ []) (s : List Char) :
    lines (universalNewlines (s ++ (if s = [] ∨ endsWithNewline s then [] else ['\n']) ++ (line ++ ['\n']))) =
      lines (universalNewlines s) ++ [line] := by
  have hlast : lines (line ++ ['\n']) = [line] := lines_line (fun h => (hline _ h).2 rfl) []
  have hended := endsWithNewline_universalNewlines s
  rw [universalNewlines, translate_append, translate_line hline hne, translate_append, ← universalNewlines]
  split_ifs with hs
  · rw [translate, List.append_nil, lines_ended, hlast]
    intro hread
    have hne : s ≠ [] := by rintro rfl; exact hread rfl
    rw [hended, hs.resolve_left hne, Bool.true_or]
  · obtain ⟨hempty, hend⟩ := not_or.mp hs
    by_cases hcr : endsWithCr false s = true
    · have hskip : translate (endsWithCr false s) ['\n'] = [] := by simp [translate, hcr]
      rw [hskip, List.append_nil, lines_ended, hlast]
      intro _
      rw [hended, hcr, Bool.or_true]
    · have hkeep : translate (endsWithCr false s) ['\n'] = ['\n'] := by simp [translate, hcr]
      rw [hkeep, List.append_assoc, List.singleton_append,
        lines_terminated (universalNewlines_ne_nil hempty) (by simp [hended, hend, hcr]), hlast]

/-- The same for a text that has been read. -/
lemma lines_appended_text (hline : ∀ c ∈ line, c ≠ '\r' ∧ c ≠ '\n') (hne : line ≠ []) (s : List Char) :
    lines (universalNewlines (universalNewlines s ++
      (if universalNewlines s = [] ∨ endsWithNewline (universalNewlines s) then [] else ['\n']) ++
      (line ++ ['\n']))) = lines (universalNewlines s) ++ [line] := by
  have hread : universalNewlines (universalNewlines s) = universalNewlines s :=
    universalNewlines_eq_self (not_mem_translate false s)
  rw [lines_appended hline hne, hread]

/-- The bytes of a file with one more line, after a newline where the file does not end with one. -/
def appendLine (bytes : List UInt8) (line : List Char) : List UInt8 :=
  bytes ++ (if bytes = [] ∨ bytes.getLast? = some 10 then [] else [10]) ++ (encode line ++ [10])

lemma decode?_appendLine {bytes : List UInt8} {s : List Char} (h : decode? bytes = some s) :
    decode? (appendLine bytes line) =
      some (s ++ (if s = [] ∨ endsWithNewline s then [] else ['\n']) ++ (line ++ ['\n'])) := by
  have hbytes := eq_encode_of_decode? h
  subst hbytes
  have hsep : (if encode s = [] ∨ (encode s).getLast? = some 10 then [] else [10] : List UInt8) =
      encode (if s = [] ∨ endsWithNewline s then [] else ['\n']) := by
    simp only [encode_eq_nil, getLast?_encode, endsWithNewline, decide_eq_true_eq]
    split_ifs <;> rfl
  have hwritten : appendLine (encode s) line =
      encode (s ++ (if s = [] ∨ endsWithNewline s then [] else ['\n']) ++ (line ++ ['\n'])) := by
    simp only [appendLine, hsep, encode_append]
    rfl
  rw [hwritten, decode?_encode]

lemma mem_of_mem_lines {s : List Char} {line : List Char} (h : line ∈ lines s) : ∀ c ∈ line, c ∈ s ∧ c ≠ '\n' := by
  induction s generalizing line with
  | nil => cases h
  | cons d s ih =>
    by_cases hd : d = '\n'
    · rw [lines, if_pos hd] at h
      rcases List.mem_cons.mp h with rfl | h
      · simp
      · exact fun c hc => ⟨List.mem_cons_of_mem _ (ih h c hc).1, (ih h c hc).2⟩
    · rw [lines_cons_of_ne hd] at h
      rcases List.mem_cons.mp h with rfl | h
      · intro c hc
        rcases List.mem_cons.mp hc with rfl | hc
        · exact ⟨List.mem_cons_self, hd⟩
        · cases hlines : lines s with
          | nil => simp [hlines] at hc
          | cons first rest =>
            have hfirst : first ∈ lines s := by simp [hlines]
            rw [hlines] at hc
            exact ⟨List.mem_cons_of_mem _ (ih hfirst c hc).1, (ih hfirst c hc).2⟩
      · exact fun c hc => ⟨List.mem_cons_of_mem _ (ih (List.mem_of_mem_tail h) c hc).1,
          (ih (List.mem_of_mem_tail h) c hc).2⟩

/-- A line of a file that was read has no line end in it. -/
lemma noLineEnd_of_mem_lines {s : List Char} (h : line ∈ lines (universalNewlines s)) :
    ∀ c ∈ line, c ≠ '\r' ∧ c ≠ '\n' := by
  intro c hc
  obtain ⟨hmem, hne⟩ := mem_of_mem_lines h c hc
  refine ⟨?_, hne⟩
  rintro rfl
  exact not_mem_translate false s hmem

end PlatformGitops.Library.Text
