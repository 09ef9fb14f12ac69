import PlatformGitops.EnumDrift.Parsers

/-! What the comment stripper takes of a source: its lexemes, without the comments. -/

namespace PlatformGitops.EnumDrift

/-- What a source is made of. A literal and a block comment are given without their delimiters. -/
inductive Lexeme
  | code (c : Char)
  | literal (quote : Char) (raw : Text)
  | block (body : Text)
  | line (body : Text)
deriving DecidableEq, Repr

namespace Lexeme

def text : Lexeme → Text
  | code c => [c]
  | literal quote raw => quote :: raw ++ [quote]
  | block body => '/' :: '*' :: body ++ ['*', '/']
  | line body => '/' :: '/' :: body

def isComment : Lexeme → Bool
  | code _ | literal _ _ => false
  | block _ | line _ => true

def literal? : Lexeme → Option (Char × Text)
  | literal quote raw => some (quote, raw)
  | _ => none

end Lexeme

abbrev sourceOf (lexemes : List Lexeme) : Text := lexemes.flatMap Lexeme.text

abbrev literals (lexemes : List Lexeme) : List (Char × Text) := lexemes.filterMap Lexeme.literal?

/-- The text goes on with one of these characters. -/
def GoesOn (allowed : Char → Prop) (s : Text) : Prop := ∀ c ∈ s.head?, allowed c

/-- A lexeme is as long as it can be: a slash of the code starts no comment, a block comment ends at the first mark of
its end, and a line comment with its line. -/
inductive Lexed : List Lexeme → Prop
  | nil : Lexed []
  | code {c : Char} {rest : List Lexeme} (hquotes : c ∉ quotes)
    (hslash : c = '/' → GoesOn (fun d => d ≠ '/' ∧ d ≠ '*') (sourceOf rest)) (hrest : Lexed rest) : Lexed (.code c :: rest)
  | literal {quote : Char} {units : List LiteralUnit} {rest : List Lexeme} (hquote : quote ∈ quotes)
    (hfits : ∀ u ∈ units, u.Fits quote) (hrest : Lexed rest) : Lexed (.literal quote (unitsText units) :: rest)
  | block {body : Text} {rest : List Lexeme} (hbody : ¬ ['*', '/'] <:+: body ++ ['*']) (hrest : Lexed rest) :
    Lexed (.block body :: rest)
  | line {body : Text} {rest : List Lexeme} (hbody : '\n' ∉ body) (hend : GoesOn (· = '\n') (sourceOf rest))
    (hrest : Lexed rest) : Lexed (.line body :: rest)

/-- A blank in the place of each comment, but for one that ends the source. -/
def kept : List Lexeme → List Lexeme
  | [] => []
  | [.line _] => []
  | lexeme :: rest => (if lexeme.isComment then .code ' ' else lexeme) :: kept rest

section Stripping

variable {c : Char} {src out rest body : Text} {lexemes : List Lexeme}

lemma stripFrom_block : stripFrom .code ('/' :: '*' :: rest) = stripFrom .block rest := by
  simp [stripFrom]

lemma stripFrom_line : stripFrom .code ('/' :: '/' :: rest) = stripFrom .line rest := by
  simp [stripFrom]

lemma stripFrom_plain (hquotes : c ∉ quotes) (hslash : c = '/' → GoesOn (fun d => d ≠ '/' ∧ d ≠ '*') rest) :
    stripFrom .code (c :: rest) = (stripFrom .code rest).map (c :: ·) := by
  have hstar : ∀ s, c = '/' → rest = '*' :: s → False := by
    rintro s hc rfl
    exact (hslash hc '*' rfl).2 rfl
  have hline : ∀ s, c = '/' → rest = '/' :: s → False := by
    rintro s hc rfl
    exact (hslash hc '/' rfl).1 rfl
  rw [stripFrom, if_neg hquotes]
  all_goals first | exact hstar | exact hline | nofun

lemma quote_ne_escape {quote : Char} (h : quote ∈ quotes) : quote ≠ '\\' := by
  rintro rfl
  exact absurd h (by decide)

lemma slash_not_mem_quotes : '/' ∉ quotes := by decide

lemma stripFrom_copy_zero (s : Text) : stripFrom (.copy 0) s = stripFrom .code s := by
  rcases s with _ | ⟨c, _ | ⟨d, s⟩⟩
  · simp [stripFrom]
  · simp [stripFrom]
  · by_cases hc : c = '/'
    · subst hc
      by_cases hstar : d = '*'
      · subst hstar
        simp [stripFrom]
      · by_cases hline : d = '/'
        · subst hline
          simp [stripFrom]
        · simp [stripFrom, hstar, hline]
    · simp [stripFrom, hc]

lemma stripFrom_copy (copied : Text) (n : Nat) (h : copied.length = n) :
    stripFrom (.copy n) (copied ++ rest) = (stripFrom .code rest).map (copied ++ ·) := by
  subst h
  induction copied with
  | nil =>
    rw [List.nil_append, List.length_nil, stripFrom_copy_zero]
    cases stripFrom .code rest <;> rfl
  | cons c copied ih =>
    rw [List.cons_append, List.length_cons, stripFrom, ih]
    cases stripFrom .code rest <;> rfl

lemma stripFrom_literal {quote : Char} {raw : Text} (hquote : quote ∈ quotes) (h : scanQuoted quote src = some (raw, rest)) :
    stripFrom .code (quote :: src) = (stripFrom .code rest).map (quote :: raw ++ quote :: ·) := by
  have hne : quote ≠ '/' := fun heq => slash_not_mem_quotes (heq ▸ hquote)
  have hslash : ∀ (d : Char) s, quote = '/' → src = d :: s → False := fun _ _ heq _ => hne heq
  obtain ⟨rfl, -⟩ := units_of_scanQuoted h
  have hcopy : stripFrom (.copy (raw.length + 1)) (raw ++ [quote] ++ rest) = _ :=
    stripFrom_copy (raw ++ [quote]) _ (by simp)
  rw [List.append_assoc, List.singleton_append] at hcopy
  rw [stripFrom, if_pos hquote, h]
  · simp only
    rw [hcopy]
    cases stripFrom .code rest <;> simp [Except.map]
  all_goals first | exact hslash _ | nofun

lemma stripFrom_unterminated (hquote : c ∈ quotes) (h : scanQuoted c src = none) :
    stripFrom .code (c :: src) = .error (.unterminatedStringLiteral c) := by
  have hne : c ≠ '/' := fun heq => slash_not_mem_quotes (heq ▸ hquote)
  have hslash : ∀ (d : Char) s, c = '/' → src = d :: s → False := fun _ _ heq _ => hne heq
  rw [stripFrom, if_pos hquote, h]
  all_goals first | exact hslash _ | nofun

lemma endMark_cons {s : Text} :
    ¬ ['*', '/'] <:+: c :: s ↔ (c = '*' → GoesOn (· ≠ '/') s) ∧ ¬ ['*', '/'] <:+: s := by
  have hhead : ['/'] <+: s ↔ ¬ GoesOn (· ≠ '/') s := by
    cases s <;> simp [GoesOn, List.cons_prefix_cons, eq_comm]
  rw [List.infix_cons_iff, not_or, List.cons_prefix_cons, hhead, not_and, not_not, eq_comm]

lemma stripFrom_block_step (h : c = '*' → GoesOn (· ≠ '/') rest) :
    stripFrom .block (c :: rest) = stripFrom .block rest := by
  have hend : ∀ s, c = '*' → rest = '/' :: s → False := by
    rintro s hc rfl
    exact h hc '/' rfl rfl
  rw [stripFrom]
  exact hend

lemma stripFrom_block_body (hbody : ¬ ['*', '/'] <:+: body ++ ['*']) :
    stripFrom .block (body ++ '*' :: '/' :: rest) = (stripFrom .code rest).map (' ' :: ·) := by
  induction body with
  | nil => simp [stripFrom]
  | cons c body ih =>
    rw [List.cons_append, endMark_cons] at hbody
    rw [List.cons_append, stripFrom_block_step, ih hbody.2]
    intro hc d hd
    refine hbody.1 hc d ?_
    cases body <;> exact hd

lemma body_of_stripFrom_block (h : stripFrom .block src = .ok out) :
    ∃ body rest out', src = body ++ '*' :: '/' :: rest ∧ ¬ ['*', '/'] <:+: body ++ ['*'] ∧
      stripFrom .code rest = .ok out' := by
  induction src with
  | nil => simp [stripFrom] at h
  | cons c src ih =>
    by_cases hend : c = '*' ∧ ∃ rest, src = '/' :: rest
    · obtain ⟨rfl, rest, rfl⟩ := hend
      simp only [stripFrom] at h
      cases hrest : stripFrom .code rest with
      | error e => simp [hrest, Except.map] at h
      | ok out' => exact ⟨[], rest, out', rfl, by decide, hrest⟩
    · have hgoes : c = '*' → GoesOn (· ≠ '/') src := by
        rintro hc d hd rfl
        obtain ⟨rest, rfl⟩ := List.head?_eq_some_iff.mp hd
        exact hend ⟨hc, rest, rfl⟩
      rw [stripFrom_block_step hgoes] at h
      obtain ⟨body, rest, out', rfl, hbody, hrest⟩ := ih h
      refine ⟨c :: body, rest, out', rfl, ?_, hrest⟩
      rw [List.cons_append, endMark_cons]
      refine ⟨fun hc d hd => hgoes hc d ?_, hbody⟩
      cases body <;> exact hd

lemma stripFrom_newline : stripFrom .code ('\n' :: rest) = (stripFrom .code rest).map ('\n' :: ·) :=
  stripFrom_plain (by decide) nofun

lemma stripFrom_line_body (hbody : '\n' ∉ body) (hend : GoesOn (· = '\n') rest) :
    stripFrom .line (body ++ rest) = if rest = [] then .ok [] else (stripFrom .code rest).map (' ' :: ·) := by
  induction body with
  | nil =>
    cases rest with
    | nil => rfl
    | cons d rest =>
      obtain rfl : d = '\n' := hend d rfl
      rw [List.nil_append, stripFrom, if_pos rfl, if_neg (List.cons_ne_nil _ _), stripFrom_newline]
      cases stripFrom .code rest <;> rfl
  | cons c body ih =>
    rw [List.mem_cons, not_or] at hbody
    rw [List.cons_append, stripFrom, if_neg (Ne.symm hbody.1), ih hbody.2]

lemma body_of_stripFrom_line (h : stripFrom .line src = .ok out) :
    ∃ body rest, src = body ++ rest ∧ '\n' ∉ body ∧ GoesOn (· = '\n') rest ∧
      (rest = [] ∨ ∃ out', stripFrom .code rest = .ok out') := by
  induction src with
  | nil => exact ⟨[], [], rfl, List.not_mem_nil, nofun, .inl rfl⟩
  | cons c src ih =>
    by_cases hc : c = '\n'
    · subst hc
      rw [stripFrom, if_pos rfl] at h
      refine ⟨[], '\n' :: src, rfl, List.not_mem_nil, by simp [GoesOn], .inr ?_⟩
      rw [stripFrom_newline]
      cases hsrc : stripFrom .code src with
      | error e => simp [hsrc, Except.map] at h
      | ok out' => exact ⟨'\n' :: out', rfl⟩
    · rw [stripFrom, if_neg hc] at h
      obtain ⟨body, rest, rfl, hbody, hrest⟩ := ih h
      exact ⟨c :: body, rest, rfl, by simp [Ne.symm hc, hbody], hrest⟩

lemma text_ne_nil (lexeme : Lexeme) : lexeme.text ≠ [] := by
  cases lexeme <;> exact List.cons_ne_nil _ _

lemma sourceOf_eq_nil : sourceOf lexemes = [] ↔ lexemes = [] := by
  cases lexemes with
  | nil => simp
  | cons lexeme lexemes => simp [text_ne_nil]

lemma sourceOf_cons (lexeme : Lexeme) (lexemes : List Lexeme) :
    sourceOf (lexeme :: lexemes) = lexeme.text ++ sourceOf lexemes := List.flatMap_cons

lemma literal_text_append {quote : Char} (raw s : Text) :
    (Lexeme.literal quote raw).text ++ s = quote :: (raw ++ quote :: s) := by
  simp [Lexeme.text]

@[simp] lemma kept_code : kept (.code c :: lexemes) = .code c :: kept lexemes := by
  cases lexemes <;> rfl

@[simp] lemma kept_literal {quote : Char} : kept (.literal quote body :: lexemes) = .literal quote body :: kept lexemes := by
  cases lexemes <;> rfl

@[simp] lemma kept_block : kept (.block body :: lexemes) = .code ' ' :: kept lexemes := by
  cases lexemes <;> rfl

lemma kept_line (h : lexemes ≠ []) : kept (.line body :: lexemes) = .code ' ' :: kept lexemes := by
  cases lexemes with
  | nil => exact absurd rfl h
  | cons next lexemes => rfl

/-- What is stripped of a source is told by its lexemes. -/
lemma Lexed.stripFrom_eq (h : Lexed lexemes) : stripFrom .code (sourceOf lexemes) = .ok (sourceOf (kept lexemes)) := by
  induction h with
  | nil => rfl
  | @code c rest hquotes hslash hrest ih =>
    rw [kept_code, sourceOf_cons, sourceOf_cons, Lexeme.text, List.singleton_append, stripFrom_plain hquotes hslash, ih]
    rfl
  | @literal quote units rest hquote hfits hrest ih =>
    have hscan : scanQuoted quote (unitsText units ++ quote :: sourceOf rest) = some (unitsText units, sourceOf rest) :=
      scanQuoted_units (quote_ne_escape hquote) hfits
    rw [kept_literal, sourceOf_cons, sourceOf_cons, literal_text_append, literal_text_append,
      stripFrom_literal hquote hscan, ih]
    rfl
  | @block body rest hbody hrest ih =>
    have hsource : sourceOf (.block body :: rest) = '/' :: '*' :: (body ++ '*' :: '/' :: sourceOf rest) := by
      simp [Lexeme.text]
    rw [hsource, stripFrom_block, stripFrom_block_body hbody, ih, kept_block, sourceOf_cons]
    rfl
  | @line body rest hbody hend hrest ih =>
    rw [sourceOf_cons, Lexeme.text, List.cons_append, List.cons_append, stripFrom_line, stripFrom_line_body hbody hend]
    split
    · rename_i hnil
      obtain rfl := sourceOf_eq_nil.mp hnil
      rfl
    · rename_i hne
      rw [ih, kept_line (mt sourceOf_eq_nil.mpr hne), sourceOf_cons]
      rfl

lemma exists_of_map_eq_ok {f : Text → Text} {x : Except ParseError Text} (h : x.map f = .ok out) :
    ∃ out', x = .ok out' := by
  cases x with
  | error e => simp [Except.map] at h
  | ok out' => exact ⟨out', rfl⟩

/-- What can be stripped is a source of lexemes. -/
lemma exists_lexed (n : Nat) (hn : src.length ≤ n) (h : stripFrom .code src = .ok out) :
    ∃ lexemes, Lexed lexemes ∧ sourceOf lexemes = src := by
  induction n generalizing src out with
  | zero =>
    obtain rfl := List.length_eq_zero_iff.mp (Nat.le_zero.mp hn)
    exact ⟨[], .nil, rfl⟩
  | succ n ih =>
    rcases src with _ | ⟨c, src⟩
    · exact ⟨[], .nil, rfl⟩
    · rw [List.length_cons] at hn
      by_cases hblock : c = '/' ∧ ∃ tail, src = '*' :: tail
      · obtain ⟨rfl, tail, rfl⟩ := hblock
        rw [stripFrom_block] at h
        obtain ⟨body, rest, out', rfl, hbody, hrest⟩ := body_of_stripFrom_block h
        simp only [List.length_cons, List.length_append] at hn
        obtain ⟨lexemes, hlexed, rfl⟩ := ih (by omega) hrest
        exact ⟨.block body :: lexemes, .block hbody hlexed, by simp [Lexeme.text]⟩
      · by_cases hline : c = '/' ∧ ∃ tail, src = '/' :: tail
        · obtain ⟨rfl, tail, rfl⟩ := hline
          rw [stripFrom_line] at h
          obtain ⟨body, rest, rfl, hbody, hend, hrest⟩ := body_of_stripFrom_line h
          simp only [List.length_cons, List.length_append] at hn
          rcases hrest with rfl | ⟨out', hrest⟩
          · exact ⟨[.line body], .line hbody nofun .nil, by simp [Lexeme.text]⟩
          · obtain ⟨lexemes, hlexed, rfl⟩ := ih (by omega) hrest
            exact ⟨.line body :: lexemes, .line hbody hend hlexed, by simp [Lexeme.text]⟩
        · by_cases hquote : c ∈ quotes
          · cases hscan : scanQuoted c src with
            | none =>
              rw [stripFrom_unterminated hquote hscan] at h
              cases h
            | some p =>
              obtain ⟨raw, rest⟩ := p
              rw [stripFrom_literal hquote hscan] at h
              obtain ⟨out', hrest⟩ := exists_of_map_eq_ok h
              obtain ⟨rfl, units, rfl, hfits⟩ := units_of_scanQuoted hscan
              simp only [List.length_cons, List.length_append] at hn
              obtain ⟨lexemes, hlexed, rfl⟩ := ih (by omega) hrest
              exact ⟨.literal c (unitsText units) :: lexemes, .literal hquote hfits hlexed, by simp [Lexeme.text]⟩
          · have hslash : c = '/' → GoesOn (fun d => d ≠ '/' ∧ d ≠ '*') src := by
              intro hc d hd
              obtain ⟨tail, rfl⟩ := List.head?_eq_some_iff.mp hd
              constructor
              · rintro rfl
                exact hline ⟨hc, tail, rfl⟩
              · rintro rfl
                exact hblock ⟨hc, tail, rfl⟩
            rw [stripFrom_plain hquote hslash] at h
            obtain ⟨out', hrest⟩ := exists_of_map_eq_ok h
            obtain ⟨lexemes, hlexed, rfl⟩ := ih (by omega) hrest
            exact ⟨.code c :: lexemes, .code hquote hslash hlexed, by simp [Lexeme.text]⟩

end Stripping

section Unique

variable {body body' s s' : Text} {lexemes others : List Lexeme}

lemma Lexed.rest {lexeme : Lexeme} (h : Lexed (lexeme :: lexemes)) : Lexed lexemes := by
  cases h <;> assumption

lemma block_unique (hbody : ¬ ['*', '/'] <:+: body ++ ['*']) (hbody' : ¬ ['*', '/'] <:+: body' ++ ['*'])
    (h : body ++ '*' :: '/' :: s = body' ++ '*' :: '/' :: s') : body = body' ∧ s = s' := by
  have hlonger : ∀ {c : Char} {b t t' : Text}, ¬ ['*', '/'] <:+: c :: b ++ ['*'] →
      '*' :: '/' :: t ≠ c :: b ++ '*' :: '/' :: t' := by
    intro c b t t' hb heq
    obtain ⟨rfl, htail⟩ := List.cons.inj heq
    refine (endMark_cons.mp hb).1 rfl '/' ?_ rfl
    cases b with
    | nil => exact absurd (List.cons.inj htail).1 (by decide)
    | cons d b =>
      obtain ⟨rfl, -⟩ := List.cons.inj htail
      rfl
  induction body generalizing body' with
  | nil =>
    cases body' with
    | nil => exact ⟨rfl, by simpa using h⟩
    | cons c body' => exact absurd h (hlonger hbody')
  | cons c body ih =>
    cases body' with
    | nil => exact absurd h.symm (hlonger hbody)
    | cons d body' =>
      obtain ⟨rfl, htail⟩ := List.cons.inj h
      obtain ⟨rfl, rfl⟩ := ih (endMark_cons.mp hbody).2 (endMark_cons.mp hbody').2 htail
      exact ⟨rfl, rfl⟩

lemma line_unique (hbody : '\n' ∉ body) (hbody' : '\n' ∉ body') (hend : GoesOn (· = '\n') s)
    (hend' : GoesOn (· = '\n') s') (h : body ++ s = body' ++ s') : body = body' ∧ s = s' := by
  induction body generalizing body' with
  | nil =>
    cases body' with
    | nil => exact ⟨rfl, h⟩
    | cons c body' =>
      rw [List.nil_append] at h
      obtain rfl := hend c (by rw [h]; rfl)
      exact absurd List.mem_cons_self hbody'
  | cons c body ih =>
    cases body' with
    | nil =>
      rw [List.nil_append] at h
      obtain rfl := hend' c (by rw [← h]; rfl)
      exact absurd List.mem_cons_self hbody
    | cons d body' =>
      obtain ⟨rfl, htail⟩ := List.cons.inj h
      obtain ⟨rfl, rfl⟩ := ih (fun hmem => hbody (List.mem_cons_of_mem _ hmem))
        (fun hmem => hbody' (List.mem_cons_of_mem _ hmem)) htail
      exact ⟨rfl, rfl⟩

lemma not_comment {c d : Char} {t : Text} (hslash : c = '/' → GoesOn (fun d => d ≠ '/' ∧ d ≠ '*') s)
    (hd : d = '/' ∨ d = '*') : c :: s ≠ '/' :: d :: t := by
  rintro heq
  obtain ⟨rfl, rfl⟩ := List.cons.inj heq
  obtain ⟨hline, hblock⟩ := hslash rfl d rfl
  exact hd.elim hline hblock

lemma quote_ne_slash {quote : Char} {t : Text} (hquote : quote ∈ quotes) : quote :: s ≠ '/' :: t := fun heq =>
  slash_not_mem_quotes ((List.cons.inj heq).1 ▸ hquote)

/-- The first lexeme of a source is told by the source. -/
lemma Lexed.head_unique {p q : Lexeme} (h : Lexed (p :: lexemes)) (h' : Lexed (q :: others))
    (heq : p.text ++ sourceOf lexemes = q.text ++ sourceOf others) : p = q ∧ sourceOf lexemes = sourceOf others := by
  cases h with
  | code hquotes hslash _ =>
    cases h' with
    | code =>
      obtain ⟨rfl, htail⟩ := List.cons.inj heq
      exact ⟨rfl, htail⟩
    | literal hquote =>
      obtain ⟨rfl, -⟩ := List.cons.inj heq
      exact absurd hquote hquotes
    | block => exact absurd heq (not_comment hslash (.inr rfl))
    | line => exact absurd heq (not_comment hslash (.inl rfl))
  | literal hquote hfits _ =>
    cases h' with
    | code hquotes =>
      obtain ⟨rfl, -⟩ := List.cons.inj heq
      exact absurd hquote hquotes
    | literal _ hfits' _ =>
      rw [literal_text_append, literal_text_append] at heq
      obtain ⟨rfl, htail⟩ := List.cons.inj heq
      have hscan : scanQuoted _ (unitsText _ ++ _ :: sourceOf lexemes) = some (_, sourceOf lexemes) :=
        scanQuoted_units (quote_ne_escape hquote) hfits
      rw [htail, scanQuoted_units (quote_ne_escape hquote) hfits'] at hscan
      obtain ⟨hraw, hrest⟩ := Prod.mk.inj (Option.some.inj hscan)
      exact ⟨by rw [hraw], hrest.symm⟩
    | block => exact absurd heq (quote_ne_slash hquote)
    | line => exact absurd heq (quote_ne_slash hquote)
  | block hbody _ =>
    cases h' with
    | code _ hslash => exact absurd heq.symm (not_comment hslash (.inr rfl))
    | literal hquote => exact absurd heq.symm (quote_ne_slash hquote)
    | block hbody' =>
      simp only [Lexeme.text, List.cons_append, List.append_assoc, List.nil_append, List.cons.injEq, true_and] at heq
      obtain ⟨rfl, hrest⟩ := block_unique hbody hbody' heq
      exact ⟨rfl, hrest⟩
    | line => simp [Lexeme.text] at heq
  | line hbody hend _ =>
    cases h' with
    | code _ hslash => exact absurd heq.symm (not_comment hslash (.inl rfl))
    | literal hquote => exact absurd heq.symm (quote_ne_slash hquote)
    | block => simp [Lexeme.text] at heq
    | line hbody' hend' _ =>
      obtain ⟨rfl, hrest⟩ := line_unique hbody hbody' hend hend' (List.cons.inj (List.cons.inj heq).2).2
      exact ⟨rfl, hrest⟩

/-- A source has its lexemes in one way only. -/
lemma Lexed.unique (h : Lexed lexemes) (h' : Lexed others) (heq : sourceOf lexemes = sourceOf others) :
    lexemes = others := by
  induction lexemes generalizing others with
  | nil => exact (sourceOf_eq_nil.mp heq.symm).symm
  | cons p lexemes ih =>
    cases others with
    | nil => exact absurd (sourceOf_eq_nil.mp heq) (List.cons_ne_nil _ _)
    | cons q others =>
      obtain ⟨rfl, hrest⟩ := h.head_unique h' (by rwa [sourceOf_cons, sourceOf_cons] at heq)
      rw [ih h.rest h'.rest hrest]

end Unique

section Kept

variable {src out : Text} {lexemes : List Lexeme}

/-- No slash meets another character over a comment that is gone. -/
lemma goesOn_kept (h : GoesOn (fun d => d ≠ '/' ∧ d ≠ '*') (sourceOf lexemes)) :
    GoesOn (fun d => d ≠ '/' ∧ d ≠ '*') (sourceOf (kept lexemes)) := by
  rcases lexemes with _ | ⟨lexeme, rest⟩
  · exact h
  · cases lexeme with
    | code c => rwa [kept_code]
    | literal quote raw => rwa [kept_literal]
    | block body => exact absurd rfl (h '/' rfl).1
    | line body => exact absurd rfl (h '/' rfl).1

lemma Lexed.kept (h : Lexed lexemes) : Lexed (kept lexemes) := by
  have hblank : ∀ {rest}, Lexed rest → Lexed (.code ' ' :: rest) := .code (by decide) nofun
  induction h with
  | nil => exact .nil
  | @code c rest hquotes hslash _ ih =>
    rw [kept_code]
    exact .code hquotes (fun hc => goesOn_kept (hslash hc)) ih
  | @literal quote units rest hquote hfits _ ih =>
    rw [kept_literal]
    exact .literal hquote hfits ih
  | @block body rest _ _ ih =>
    rw [kept_block]
    exact hblank ih
  | @line body rest _ _ _ ih =>
    by_cases hrest : rest = []
    · subst hrest
      exact .nil
    · rw [kept_line hrest]
      exact hblank ih

/-- What is kept is what is no comment, with blanks between. -/
lemma kept_spec (lexemes : List Lexeme) :
    (∀ lexeme ∈ kept lexemes, lexeme.isComment = false) ∧ literals (kept lexemes) = literals lexemes ∧
      (lexemes.filter (!·.isComment)).Sublist (kept lexemes) := by
  induction lexemes with
  | nil => exact ⟨nofun, rfl, .refl _⟩
  | cons lexeme rest ih =>
    obtain ⟨hcomments, hliterals, hsublist⟩ := ih
    cases lexeme with
    | code c =>
      rw [kept_code]
      exact ⟨List.forall_mem_cons.mpr ⟨rfl, hcomments⟩, hliterals, hsublist.cons_cons _⟩
    | literal quote raw =>
      rw [kept_literal]
      exact ⟨List.forall_mem_cons.mpr ⟨rfl, hcomments⟩, congrArg ((quote, raw) :: ·) hliterals, hsublist.cons_cons _⟩
    | block body =>
      rw [kept_block]
      exact ⟨List.forall_mem_cons.mpr ⟨rfl, hcomments⟩, hliterals, hsublist.cons _⟩
    | line body =>
      by_cases hrest : rest = []
      · subst hrest
        exact ⟨nofun, rfl, .refl _⟩
      · rw [kept_line hrest]
        exact ⟨List.forall_mem_cons.mpr ⟨rfl, hcomments⟩, hliterals, hsublist.cons _⟩

lemma kept_of_no_comment (h : ∀ lexeme ∈ lexemes, lexeme.isComment = false) : kept lexemes = lexemes := by
  induction lexemes with
  | nil => rfl
  | cons lexeme rest ih =>
    obtain ⟨hlexeme, hrest⟩ := List.forall_mem_cons.mp h
    cases lexeme with
    | code c => rw [kept_code, ih hrest]
    | literal quote raw => rw [kept_literal, ih hrest]
    | block body => cases hlexeme
    | line body => cases hlexeme

lemma Lexed.goesOn {before after : List Lexeme} (h : Lexed (before ++ .code '/' :: after)) :
    GoesOn (fun d => d ≠ '/' ∧ d ≠ '*') (sourceOf after) := by
  induction before with
  | nil =>
    cases h with
    | code _ hslash _ => exact hslash rfl
  | cons lexeme before ih => exact ih h.rest

theorem strip_comments_lexes (h : stripComments src = .ok out) :
    ∃ lexemes, (Lexed lexemes ∧ sourceOf lexemes = src ∧
        ∀ others, Lexed others → sourceOf others = src → others = lexemes) ∧
      (Lexed (kept lexemes) ∧ sourceOf (kept lexemes) = out ∧
        ∀ others, Lexed others → sourceOf others = out → others = kept lexemes) ∧
      (∀ lexeme ∈ kept lexemes, lexeme.isComment = false) ∧
      (∀ before after, kept lexemes = before ++ .code '/' :: after →
        GoesOn (fun d => d ≠ '/' ∧ d ≠ '*') (sourceOf after)) ∧
      literals (kept lexemes) = literals lexemes ∧ (lexemes.filter (!·.isComment)).Sublist (kept lexemes) ∧
      stripComments out = .ok out := by
  obtain ⟨lexemes, hlexed, rfl⟩ := exists_lexed src.length le_rfl h
  have hout : sourceOf (kept lexemes) = out := Except.ok.inj (hlexed.stripFrom_eq.symm.trans h)
  obtain ⟨hcomments, hliterals, hsublist⟩ := kept_spec lexemes
  refine ⟨lexemes, ⟨hlexed, rfl, fun others hothers heq => hothers.unique hlexed heq⟩,
    ⟨hlexed.kept, hout, fun others hothers heq => hothers.unique hlexed.kept (heq.trans hout.symm)⟩, hcomments,
    fun before after heq => ?_, hliterals, hsublist, ?_⟩
  · exact Lexed.goesOn (heq ▸ hlexed.kept)
  · have hagain := hlexed.kept.stripFrom_eq
    rwa [kept_of_no_comment hcomments, hout] at hagain

theorem strip_comments_lexes_quoted :
    stripComments "a \n\"//\" b".toList = .ok "a \n\"//\" b".toList := by
  have hstrip : stripComments "a// x\n\"//\"/* y */b".toList = .ok "a \n\"//\" b".toList := by decide
  obtain ⟨lexemes, -, -, -, -, -, -, hagain⟩ := strip_comments_lexes hstrip
  exact hagain

end Kept

end PlatformGitops.EnumDrift
