import Mathlib.Data.List.TakeWhile
import Mathlib.Tactic.Common

/-! Quoted literals in a source text: where one ends, what of the text is none, and the value that is read of one. -/

namespace PlatformGitops.EnumDrift

abbrev Text := List Char

section Scanning

/-- The text up to the next quote that is not escaped, and what follows it. -/
def scanQuoted (quote : Char) : Text → Option (Text × Text)
  | [] => none
  | '\\' :: c :: rest => (scanQuoted quote rest).map fun p => ('\\' :: c :: p.1, p.2)
  | c :: rest => if c = quote then some ([], rest)
      else if c = '\\' then none
      else (scanQuoted quote rest).map fun p => (c :: p.1, p.2)

example : scanQuoted '"' ['a', '"', 'b'] = some (['a'], ['b']) := by
  simp [scanQuoted]

/-- A literal, or a character that belongs to none. -/
inductive Piece
  | literal (quote : Char) (raw : Text)
  | residual (c : Char)
deriving DecidableEq, Repr

/-- The literals in a text from left to right; so many of the first characters are behind one already. -/
def pieces (quotes : List Char) : Nat → Text → List Piece
  | _, [] => []
  | skip + 1, _ :: rest => pieces quotes skip rest
  | 0, c :: rest =>
    match if c ∈ quotes then scanQuoted c rest else none with
    | some (raw, _) => .literal c raw :: pieces quotes (raw.length + 1) rest
    | none => .residual c :: pieces quotes 0 rest

example : pieces ['"'] 0 ['a', '"'] = [.residual 'a', .residual '"'] := by
  simp [pieces, scanQuoted]

def Piece.literal? : Piece → Option Text
  | literal _ raw => some raw
  | residual _ => none

def Piece.residual? : Piece → Option Char
  | literal _ _ => none
  | residual c => some c

end Scanning

section Decoding

/-- `s.replace` of a text of two characters. -/
def replacePair (a b : Char) (by' : Text) : Text → Text
  | [] => []
  | [c] => [c]
  | c :: d :: rest => if c = a ∧ d = b then by' ++ replacePair a b by' rest else c :: replacePair a b by' (d :: rest)

example : replacePair 'a' 'b' ['c'] ['a', 'b', 'a'] = ['c', 'a'] := by
  simp [replacePair]

/-- `s.replace` of one character. -/
def replaceChar (a b : Char) (s : Text) : Text := s.map fun c => if c = a then b else c

def nul : Char := Char.ofNat 0

/-- What the escapes of some characters stand for, with a placeholder for the escaped backslash. -/
def decode (escapes : List (Char × Char)) (raw : Text) : Text :=
  replaceChar nul '\\' (escapes.foldl (fun s p => replacePair '\\' p.1 [p.2] s) (replacePair '\\' '\\' [nul] raw))

def javaEscapes : List (Char × Char) := [('n', '\n'), ('t', '\t'), ('r', '\r'), ('"', '"'), ('\'', '\'')]

def backtick : Char := Char.ofNat 0x60

def tsEscapes : List (Char × Char) := javaEscapes ++ [(backtick, backtick)]

end Decoding

section Units

/-- A character of a literal, or an escaped one. -/
inductive LiteralUnit
  | plain (c : Char)
  | escape (c : Char)
deriving DecidableEq, Repr

def LiteralUnit.text : LiteralUnit → Text
  | plain c => [c]
  | escape c => ['\\', c]

/-- The unit may stand between two such quotes. -/
def LiteralUnit.Fits (quote : Char) : LiteralUnit → Prop
  | plain c => c ≠ quote ∧ c ≠ '\\'
  | escape _ => True

abbrev unitsText (units : List LiteralUnit) : Text := units.flatMap LiteralUnit.text

variable {quote : Char} {quotes : List Char} {units : List LiteralUnit} {raw rest : Text}

lemma scanQuoted_plain {c : Char} (hc : c ≠ '\\') :
    scanQuoted quote (c :: rest) =
      if c = quote then some ([], rest) else (scanQuoted quote rest).map fun p => (c :: p.1, p.2) := by
  cases rest <;> simp [scanQuoted, hc]

lemma scanQuoted_escape {c : Char} :
    scanQuoted quote ('\\' :: c :: rest) = (scanQuoted quote rest).map fun p => ('\\' :: c :: p.1, p.2) := by
  rw [scanQuoted]

lemma scanQuoted_units (hquote : quote ≠ '\\') (h : ∀ u ∈ units, u.Fits quote) :
    scanQuoted quote (unitsText units ++ quote :: rest) = some (unitsText units, rest) := by
  induction units with
  | nil => simp [scanQuoted_plain hquote]
  | cons u units ih =>
    obtain ⟨hu, hunits⟩ := List.forall_mem_cons.mp h
    cases u with
    | plain c => simp [LiteralUnit.text, scanQuoted_plain hu.2, hu.1, ih hunits]
    | escape c => simp [LiteralUnit.text, scanQuoted_escape, ih hunits]

/-- What is scanned is made of units. -/
lemma units_of_scanQuoted {s : Text} (h : scanQuoted quote s = some (raw, rest)) :
    s = raw ++ quote :: rest ∧ ∃ units, raw = unitsText units ∧ ∀ u ∈ units, u.Fits quote := by
  fun_induction scanQuoted quote s generalizing raw with
  | case1 => cases h
  | case2 c tail ih =>
    obtain ⟨⟨raw', rest'⟩, hscan, heq⟩ := Option.map_eq_some_iff.mp h
    cases heq
    obtain ⟨rfl, units, rfl, hfits⟩ := ih hscan
    exact ⟨rfl, .escape c :: units, rfl, List.forall_mem_cons.mpr ⟨trivial, hfits⟩⟩
  | case3 tail =>
    cases h
    exact ⟨rfl, [], rfl, by simp⟩
  | case4 => cases h
  | case5 c tail _ hne hslash ih =>
    obtain ⟨⟨raw', rest'⟩, hscan, heq⟩ := Option.map_eq_some_iff.mp h
    cases heq
    obtain ⟨rfl, units, rfl, hfits⟩ := ih hscan
    exact ⟨rfl, .plain c :: units, rfl, List.forall_mem_cons.mpr ⟨⟨hne, hslash⟩, hfits⟩⟩

end Units

section Pieces

variable {quotes : List Char} {quote : Char} {units : List LiteralUnit} {rest s : Text}

lemma pieces_skip (before rest : Text) : pieces quotes before.length (before ++ rest) = pieces quotes 0 rest := by
  induction before with
  | nil => rfl
  | cons c before ih => rw [List.length_cons, List.cons_append, pieces, ih]

lemma pieces_literal (hmem : quote ∈ quotes) (hquote : quote ≠ '\\') (h : ∀ u ∈ units, u.Fits quote) :
    pieces quotes 0 (quote :: (unitsText units ++ quote :: rest)) = .literal quote (unitsText units) :: pieces quotes 0 rest := by
  have hskip : pieces quotes (unitsText units ++ [quote]).length (unitsText units ++ [quote] ++ rest) = pieces quotes 0 rest :=
    pieces_skip _ rest
  rw [List.append_assoc, List.singleton_append, List.length_append, List.length_singleton] at hskip
  rw [pieces, if_pos hmem, scanQuoted_units hquote h]
  exact congrArg _ hskip

lemma pieces_residual {c : Char} (hc : c ∉ quotes) : pieces quotes 0 (c :: rest) = .residual c :: pieces quotes 0 rest := by
  rw [pieces, if_neg hc]

end Pieces

section Values

/-- A part of a literal on its way to its value: a character that stands for itself, or an escape that is not replaced yet. -/
def Cell (s : Text) : Prop := (∃ c, c ≠ '\\' ∧ s = [c]) ∨ ∃ c, s = ['\\', c]

def replaceCell (x y : Char) (s : Text) : Text := if s = ['\\', x] then [y] else s

variable {cells : List Text} {x y c : Char} {rest s : Text} {escapes : List (Char × Char)}

lemma replacePair_plain (hc : c ≠ '\\') : replacePair '\\' x s (c :: rest) = c :: replacePair '\\' x s rest := by
  cases rest <;> simp [replacePair, hc]

lemma replacePair_escape : replacePair '\\' x s ('\\' :: x :: rest) = s ++ replacePair '\\' x s rest := by
  simp [replacePair]

lemma replacePair_other (hc : c ≠ x) (hslash : c ≠ '\\') :
    replacePair '\\' x s ('\\' :: c :: rest) = '\\' :: c :: replacePair '\\' x s rest := by
  rw [replacePair, if_neg fun h => hc h.2, replacePair_plain hslash]

/-- The escapes of one character are replaced cell by cell, if the escaped backslashes are replaced first. -/
lemma replacePair_cells (hcells : ∀ s ∈ cells, Cell s) (hslash : x = '\\' ∨ ['\\', '\\'] ∉ cells) :
    replacePair '\\' x [y] cells.flatten = (cells.map (replaceCell x y)).flatten := by
  induction cells with
  | nil => rfl
  | cons s cells ih =>
    obtain ⟨hs, hcells⟩ := List.forall_mem_cons.mp hcells
    have hrest := ih hcells (hslash.imp_right fun h hmem => h (List.mem_cons_of_mem s hmem))
    rw [List.flatten_cons, List.map_cons, List.flatten_cons, replaceCell]
    rcases hs with ⟨c, hc, rfl⟩ | ⟨c, rfl⟩
    · rw [if_neg (by simp), List.singleton_append, List.singleton_append, replacePair_plain hc, hrest]
    · by_cases hx : c = x
      · subst hx
        rw [if_pos rfl]
        exact replacePair_escape.trans (congrArg _ hrest)
      · have hc : c ≠ '\\' := by
          rintro rfl
          rcases hslash with rfl | hslash
          · exact hx rfl
          · exact hslash List.mem_cons_self
        rw [if_neg (by simpa using hx)]
        exact (replacePair_other hx hc).trans (congrArg (fun t => '\\' :: c :: t) hrest)

lemma cell_replaceCell (hs : Cell s) (hy : y ≠ '\\') : Cell (replaceCell x y s) := by
  unfold replaceCell
  split
  · exact Or.inl ⟨y, hy, rfl⟩
  · exact hs

/-- All escapes one after the other. -/
lemma replace_cells (hescapes : ∀ p ∈ escapes, p.2 ≠ '\\') (hcells : ∀ s ∈ cells, Cell s)
    (hslash : ['\\', '\\'] ∉ cells) :
    escapes.foldl (fun s p => replacePair '\\' p.1 [p.2] s) cells.flatten =
      (cells.map fun s => escapes.foldl (fun s p => replaceCell p.1 p.2 s) s).flatten := by
  induction escapes generalizing cells with
  | nil => simp
  | cons p escapes ih =>
    obtain ⟨hp, hescapes⟩ := List.forall_mem_cons.mp hescapes
    rw [List.foldl_cons, replacePair_cells hcells (Or.inr hslash), ih hescapes]
    · simp [List.map_map, Function.comp_def]
    · intro s hs
      obtain ⟨s', hs', rfl⟩ := List.mem_map.mp hs
      exact cell_replaceCell (hcells s' hs') hp
    · intro hmem
      obtain ⟨s', hs', hreplace⟩ := List.mem_map.mp hmem
      unfold replaceCell at hreplace
      split at hreplace
      · simp at hreplace
      · exact hslash (hreplace ▸ hs')

lemma foldl_replaceCell_single : escapes.foldl (fun s p => replaceCell p.1 p.2 s) [c] = [c] := by
  induction escapes with
  | nil => rfl
  | cons p escapes ih => rw [List.foldl_cons, replaceCell, if_neg (by simp), ih]

lemma foldl_replaceCell_escape :
    escapes.foldl (fun s p => replaceCell p.1 p.2 s) ['\\', c] = (escapes.lookup c).elim ['\\', c] fun d => [d] := by
  induction escapes with
  | nil => rfl
  | cons p escapes ih =>
    rw [List.foldl_cons, replaceCell, List.lookup_cons]
    by_cases hp : c = p.1
    · subst hp
      rw [if_pos rfl, foldl_replaceCell_single, beq_self_eq_true]
      rfl
    · rw [if_neg (by simpa using hp), ih, beq_false_of_ne hp]

/-- What a unit is when the escaped backslashes are replaced. -/
def LiteralUnit.cell : LiteralUnit → Text
  | plain c => [c]
  | escape c => replaceCell '\\' nul ['\\', c]

/-- What is read of a unit. -/
def LiteralUnit.decoded (escapes : List (Char × Char)) : LiteralUnit → Text
  | plain c => [if c = nul then '\\' else c]
  | escape c =>
    if c = '\\' then ['\\'] else (escapes.lookup c).elim ['\\', if c = nul then '\\' else c] fun d => [d]

lemma LiteralUnit.cell_escape (hc : c ≠ '\\') : (LiteralUnit.escape c).cell = ['\\', c] := if_neg (by simpa using hc)

lemma cell_of_fits {u : LiteralUnit} {quote : Char} (hfits : u.Fits quote) : Cell u.cell ∧ u.cell ≠ ['\\', '\\'] := by
  cases u with
  | plain c => exact ⟨Or.inl ⟨c, hfits.2, rfl⟩, by simp [LiteralUnit.cell]⟩
  | escape c =>
    by_cases hc : c = '\\'
    · subst hc
      have hcell : (LiteralUnit.escape '\\').cell = [nul] := rfl
      exact ⟨hcell ▸ Or.inl ⟨nul, by decide, rfl⟩, by simp [hcell]⟩
    · rw [LiteralUnit.cell_escape hc]
      exact ⟨Or.inr ⟨c, rfl⟩, by simpa using hc⟩

lemma replace_cell {u : LiteralUnit} (hescapes : ∀ p ∈ escapes, p.2 ≠ nul) :
    replaceChar nul '\\' (escapes.foldl (fun s p => replaceCell p.1 p.2 s) u.cell) = u.decoded escapes := by
  cases u with
  | plain c =>
    rw [LiteralUnit.cell, foldl_replaceCell_single]
    rfl
  | escape c =>
    by_cases hc : c = '\\'
    · subst hc
      have hcell : (LiteralUnit.escape '\\').cell = [nul] := rfl
      rw [hcell, foldl_replaceCell_single]
      rfl
    · rw [LiteralUnit.cell_escape hc, foldl_replaceCell_escape, LiteralUnit.decoded, if_neg hc]
      cases hlookup : escapes.lookup c with
      | none => rfl
      | some d =>
        obtain ⟨before, after, heq, -⟩ := List.lookup_eq_some_iff.mp hlookup
        have hd : d ≠ nul := hescapes (c, d) (by simp [heq])
        simp [replaceChar, hd]

lemma replacePair_units {units : List LiteralUnit} {quote : Char} (hfits : ∀ u ∈ units, u.Fits quote) :
    replacePair '\\' '\\' [nul] (unitsText units) = (units.map LiteralUnit.cell).flatten := by
  have hcells : ∀ s ∈ units.map LiteralUnit.text, Cell s := by
    intro s hs
    obtain ⟨u, hu, rfl⟩ := List.mem_map.mp hs
    cases u with
    | plain c => exact Or.inl ⟨c, (hfits _ hu).2, rfl⟩
    | escape c => exact Or.inr ⟨c, rfl⟩
  have htext : unitsText units = (units.map LiteralUnit.text).flatten := rfl
  rw [htext, replacePair_cells hcells (Or.inl rfl), List.map_map]
  refine congrArg List.flatten (List.map_congr_left fun u _ => ?_)
  cases u with
  | plain c => exact if_neg (by simp [LiteralUnit.text])
  | escape c => rfl

/-- A literal is read unit by unit. -/
lemma decode_units {units : List LiteralUnit} {quote : Char} (hescapes : ∀ p ∈ escapes, p.2 ≠ '\\' ∧ p.2 ≠ nul)
    (hfits : ∀ u ∈ units, u.Fits quote) : decode escapes (unitsText units) = units.flatMap (LiteralUnit.decoded escapes) := by
  rw [decode, replacePair_units hfits, replace_cells (fun p hp => (hescapes p hp).1)]
  · rw [replaceChar, List.map_flatten, List.map_map, List.map_map, List.flatMap_def]
    exact congrArg List.flatten (List.map_congr_left fun u _ => replace_cell fun p hp => (hescapes p hp).2)
  · simpa only [List.forall_mem_map] using fun u hu => (cell_of_fits (hfits u hu)).1
  · rw [List.mem_map]
    rintro ⟨u, hu, hcell⟩
    exact (cell_of_fits (hfits u hu)).2 hcell

end Values

end PlatformGitops.EnumDrift
