import PlatformGitops.EnumDrift.Literals
import PlatformGitops.Library.Regex

/-! The lexical scanners that read the values of a declaration from a Java or TypeScript source. -/

namespace PlatformGitops.EnumDrift

open Library.Regex

inductive Strategy
  | javaEnum
  | javaSetOf
  | tsConstTuple
  | tsUnionType
deriving DecidableEq, Repr

inductive ParseError
  | unterminatedBlockComment
  | unterminatedStringLiteral (quote : Char)
  | unterminatedString
  | unbalanced (openChar closeChar : Char)
  | declarationNotFound (strategy : Strategy) (symbol : Text)
  | unexpectedToken (symbol token : Text)
  | emptyValueList (symbol : Text)
  | noLiterals (strategy : Strategy) (symbol : Text)
  | nonLiteral (strategy : Strategy) (symbol residual : Text)
  | unterminatedDeclaration (symbol : Text)
deriving DecidableEq, Repr

def quotes : List Char := ['"', '\'', backtick]

section Comments

/-- Where the comment stripper stands: so many characters to copy, inside a comment, or in code. -/
inductive StripMode
  | code
  | copy (remaining : Nat)
  | line
  | block
deriving DecidableEq, Repr

def stripFrom : StripMode → Text → Except ParseError Text
  | .block, [] => .error .unterminatedBlockComment
  | _, [] => .ok []
  | .block, '*' :: '/' :: rest => (stripFrom .code rest).map (' ' :: ·)
  | .block, _ :: rest => stripFrom .block rest
  | .line, c :: rest => if c = '\n' then (stripFrom .code rest).map ([' ', '\n'] ++ ·) else stripFrom .line rest
  | .copy (remaining + 1), c :: rest => (stripFrom (.copy remaining) rest).map (c :: ·)
  | _, '/' :: '*' :: rest => stripFrom .block rest
  | _, '/' :: '/' :: rest => stripFrom .line rest
  | _, c :: rest =>
    if c ∈ quotes then
      match scanQuoted c rest with
      | none => .error (.unterminatedStringLiteral c)
      | some (raw, _) => (stripFrom (.copy (raw.length + 1)) rest).map (c :: ·)
    else (stripFrom .code rest).map (c :: ·)

def stripComments (src : Text) : Except ParseError Text := stripFrom .code src

example : stripComments ['/', '*', 'a', '*', '/'] = .ok [' '] := by
  simp [stripComments, stripFrom, Except.map]

end Comments

section Extents

/-- The text up to the character that closes the open depth; so many of the first characters belong to a literal. -/
def extractBalanced (openChar closeChar : Char) : Nat → Nat → Text → Except ParseError Text
  | _, _, [] => .error (.unbalanced openChar closeChar)
  | depth, skip + 1, c :: rest => (extractBalanced openChar closeChar depth skip rest).map (c :: ·)
  | depth, 0, c :: rest =>
    if c ∈ quotes then
      match scanQuoted c rest with
      | none => .error .unterminatedString
      | some (raw, _) => (extractBalanced openChar closeChar depth (raw.length + 1) rest).map (c :: ·)
    else if c = openChar then (extractBalanced openChar closeChar (depth + 1) 0 rest).map (c :: ·)
    else if c = closeChar then
      if depth = 1 then .ok [] else (extractBalanced openChar closeChar (depth - 1) 0 rest).map (c :: ·)
    else (extractBalanced openChar closeChar depth 0 rest).map (c :: ·)

structure Depths where
  paren : Int := 0
  brace : Int := 0
  bracket : Int := 0
deriving DecidableEq, Repr

def Depths.after (d : Depths) : Char → Depths
  | '(' => { d with paren := d.paren + 1 }
  | ')' => { d with paren := d.paren - 1 }
  | '\x7b' => { d with brace := d.brace + 1 }
  | '\x7d' => { d with brace := d.brace - 1 }
  | '[' => { d with bracket := d.bracket + 1 }
  | ']' => { d with bracket := d.bracket - 1 }
  | _ => d

/-- The text before the first semicolon at depth zero. -/
def findTopLevelSemicolon : Depths → Nat → Text → Option Text
  | _, _, [] => none
  | d, skip + 1, c :: rest => (findTopLevelSemicolon d skip rest).map (c :: ·)
  | d, 0, c :: rest =>
    if c ∈ quotes then
      match scanQuoted c rest with
      | none => none
      | some (raw, _) => (findTopLevelSemicolon d (raw.length + 1) rest).map (c :: ·)
    else if c = ';' ∧ d = {} then some []
    else (findTopLevelSemicolon (d.after c) 0 rest).map (c :: ·)

end Extents

section Headers

def isSpace (c : Char) : Bool :=
  c.toNat ∈ [9, 10, 11, 12, 13, 28, 29, 30, 31, 32, 133, 160, 5760, 8192, 8193, 8194, 8195, 8196, 8197, 8198, 8199, 8200,
    8201, 8202, 8232, 8233, 8239, 8287, 12288]

def isLetter (c : Char) : Bool := ('a' ≤ c ∧ c ≤ 'z') ∨ ('A' ≤ c ∧ c ≤ 'Z')

def isIdentifierStart (c : Char) : Bool := isLetter c ∨ c = '_' ∨ c = '$'

def isIdentifierPart (c : Char) : Bool := isIdentifierStart c ∨ ('0' ≤ c ∧ c ≤ '9')

def spaces : Pattern := .many isSpace

def someSpaces : Pattern := .oneOrMore isSpace

def identifier : Pattern := .seq (.chars isIdentifierStart) (.many isIdentifierPart)

def optionalWord (word : List Char) : Pattern := .optional (.seq (.word word) someSpaces)

def javaAccess : Pattern :=
  .optional (.alt (.word ['p', 'u', 'b', 'l', 'i', 'c'])
    (.alt (.word ['p', 'r', 'i', 'v', 'a', 't', 'e']) (.word ['p', 'r', 'o', 't', 'e', 'c', 't', 'e', 'd'])))

def javaEnumHeader (isWordChar : Char → Bool) : Pattern :=
  .all [.boundary isWordChar, javaAccess, spaces, optionalWord ['s', 't', 'a', 't', 'i', 'c'],
    optionalWord ['s', 't', 'r', 'i', 'c', 't', 'f', 'p'], .word ['e', 'n', 'u', 'm'], someSpaces,
    .capture identifier, spaces,
    .optional (.all [.word ['i', 'm', 'p', 'l', 'e', 'm', 'e', 'n', 't', 's'], someSpaces,
      .oneOrMore fun c => isIdentifierPart c || isSpace c || c ∈ [',', '.', '<', '>']]),
    .char '\x7b']

def setOfHeader (isWordChar : Char → Bool) : Pattern :=
  .all [.boundary isWordChar, javaAccess, spaces, optionalWord ['s', 't', 'a', 't', 'i', 'c'],
    optionalWord ['f', 'i', 'n', 'a', 'l'], .word ['S', 'e', 't'], spaces, .char '<', spaces,
    .word ['S', 't', 'r', 'i', 'n', 'g'], spaces, .char '>', someSpaces, .capture identifier, spaces, .char '=',
    spaces, .word ['S', 'e', 't'], spaces, .char '.', spaces,
    .optional (.all [.char '<', spaces, .word ['S', 't', 'r', 'i', 'n', 'g'], spaces, .char '>', spaces]),
    .word ['o', 'f'], spaces, .char '(']

def tsConstHeader (isWordChar : Char → Bool) : Pattern :=
  .all [.boundary isWordChar, optionalWord ['e', 'x', 'p', 'o', 'r', 't'], .word ['c', 'o', 'n', 's', 't'], someSpaces,
    .capture identifier, spaces, .optional (.seq (.char ':') (.many (· != '='))), spaces, .char '=', spaces, .char '[']

def tsUnionHeader (isWordChar : Char → Bool) : Pattern :=
  .all [.boundary isWordChar, optionalWord ['e', 'x', 'p', 'o', 'r', 't'], .word ['t', 'y', 'p', 'e'], someSpaces,
    .capture identifier, spaces, .char '=', spaces]

/-- What follows the header of the first declaration of the symbol. -/
def declared (header : Pattern) (strategy : Strategy) (stripped symbol : Text) : Except ParseError Text :=
  match (header.findIter 0 none stripped).find? (·.captured = symbol) with
  | some m => .ok m.rest
  | none => .error (.declarationNotFound strategy symbol)

end Headers

section LiteralLists

def blanks : List Char := [' ', '\t', '\r', '\n']

/-- The values of a body that consists of literals, separators and blanks only. -/
def literalValues (strategy : Strategy) (quotes : List Char) (escapes : List (Char × Char)) (separator : Char)
    (symbol body : Text) : Except ParseError (List Text) :=
  let found := pieces quotes 0 body
  let literals := (found.filterMap Piece.literal?).map (decode escapes)
  let residual := found.filterMap Piece.residual?
  if literals = [] then .error (.noLiterals strategy symbol)
  else if residual.any (· ∉ separator :: blanks) then .error (.nonLiteral strategy symbol residual)
  else .ok literals

def parseJavaSetOf (isWordChar : Char → Bool) (src symbol : Text) : Except ParseError (List Text) := do
  let stripped ← stripComments src
  let rest ← declared (setOfHeader isWordChar) .javaSetOf stripped symbol
  let body ← extractBalanced '(' ')' 1 0 rest
  literalValues .javaSetOf ['"', '\''] javaEscapes ',' symbol body

def parseTsConstTuple (isWordChar : Char → Bool) (src symbol : Text) : Except ParseError (List Text) := do
  let stripped ← stripComments src
  let rest ← declared (tsConstHeader isWordChar) .tsConstTuple stripped symbol
  let body ← extractBalanced '[' ']' 1 0 rest
  literalValues .tsConstTuple quotes tsEscapes ',' symbol body

def parseTsUnionType (isWordChar : Char → Bool) (src symbol : Text) : Except ParseError (List Text) := do
  let stripped ← stripComments src
  let rest ← declared (tsUnionHeader isWordChar) .tsUnionType stripped symbol
  match findTopLevelSemicolon {} 0 rest with
  | none => .error (.unterminatedDeclaration symbol)
  | some body => literalValues .tsUnionType quotes tsEscapes '|' symbol body

end LiteralLists

section JavaEnum

def annotation : Pattern :=
  .all [.char '@', .chars isIdentifierStart, .many fun c => isIdentifierPart c || c = '.',
    .optional (.all [spaces, .char '(', .many (· != ')'), .char ')'])]

def strip (s : Text) : Text := ((s.dropWhile isSpace).reverse.dropWhile isSpace).reverse

/-- These two depths are counted in literals too. -/
def Depths.atTop (d : Depths) : Prop := d.paren = 0 ∧ d.brace = 0

instance (d : Depths) : Decidable d.atTop := inferInstanceAs (Decidable (_ ∧ _))

def splitAtTopLevelSemicolon : Depths → Text → Text
  | _, [] => []
  | d, c :: rest => if c = ';' ∧ d.atTop then [] else c :: splitAtTopLevelSemicolon (d.after c) rest

def splitTopLevelCommas : Depths → Text → List Text
  | _, [] => [[]]
  | d, c :: rest =>
    if c = ',' ∧ d.atTop then [] :: splitTopLevelCommas d rest
    else
      match splitTopLevelCommas (d.after c) rest with
      | [] => [[c]]
      | part :: parts => (c :: part) :: parts

/-- The text before the first such character, if there is one. -/
def cutAt (c : Char) (s : Text) : Text := if c ∈ s then strip (s.takeWhile (· ≠ c)) else s

def constantName (part : Text) : Text :=
  cutAt '\x7b' (cutAt '(' (strip (Pattern.replaceAll annotation [' '] 0 none part)))

def isJavaIdentifier : Text → Bool
  | [] => false
  | c :: rest => isIdentifierStart c && rest.all isIdentifierPart

def enumConstants (symbol body : Text) : Except ParseError (List Text) :=
  let names := ((splitTopLevelCommas {} (splitAtTopLevelSemicolon {} body)).map constantName).filter (· ≠ [])
  match names.find? (!isJavaIdentifier ·) with
  | some token => .error (.unexpectedToken symbol token)
  | none => if names = [] then .error (.emptyValueList symbol) else .ok names

def parseJavaEnum (isWordChar : Char → Bool) (src symbol : Text) : Except ParseError (List Text) := do
  let stripped ← stripComments src
  let rest ← declared (javaEnumHeader isWordChar) .javaEnum stripped symbol
  let body ← extractBalanced '\x7b' '\x7d' 1 0 rest
  enumConstants symbol body

end JavaEnum

/-! A body that is accepted is a text of literals, separators and blanks, and its values are read off them. -/

inductive Item
  | blank (c : Char)
  | separator
  | literal (quote : Char) (units : List LiteralUnit)
deriving DecidableEq, Repr

def Item.text (separatorChar : Char) : Item → Text
  | blank c => [c]
  | separator => [separatorChar]
  | literal quote units => quote :: (unitsText units ++ [quote])

def Item.Fits (quotes : List Char) : Item → Prop
  | blank c => c ∈ blanks
  | separator => True
  | literal quote units => quote ∈ quotes ∧ ∀ u ∈ units, u.Fits quote

def Item.piece (separatorChar : Char) : Item → Piece
  | blank c => .residual c
  | separator => .residual separatorChar
  | literal quote units => .literal quote (unitsText units)

def Item.literal? : Item → Option (Char × List LiteralUnit)
  | literal quote units => some (quote, units)
  | _ => none

abbrev itemsText (separatorChar : Char) (items : List Item) : Text := items.flatMap (Item.text separatorChar)

/-- The separators and blanks are no quotes, and no quote is a backslash. -/
structure Separates (quotes : List Char) (separatorChar : Char) : Prop where
  separator : separatorChar ∉ quotes
  blank : ∀ c ∈ blanks, c ∉ quotes
  quote : '\\' ∉ quotes

section Pieces

variable {quotes : List Char} {separatorChar : Char} {items : List Item} {rest body : Text}

lemma pieces_items (hseparates : Separates quotes separatorChar) (h : ∀ i ∈ items, i.Fits quotes) :
    pieces quotes 0 (itemsText separatorChar items ++ rest) =
      items.map (Item.piece separatorChar) ++ pieces quotes 0 rest := by
  induction items with
  | nil => rfl
  | cons i items ih =>
    obtain ⟨hi, hitems⟩ := List.forall_mem_cons.mp h
    rw [itemsText, List.flatMap_cons, List.append_assoc]
    cases i with
    | blank c => exact (pieces_residual (hseparates.blank c hi)).trans (congrArg _ (ih hitems))
    | separator => exact (pieces_residual hseparates.separator).trans (congrArg _ (ih hitems))
    | literal quote units =>
      have hquote : quote ≠ '\\' := fun hslash => hseparates.quote (hslash ▸ hi.1)
      rw [Item.text, List.cons_append, List.append_assoc, List.singleton_append, pieces_literal hi.1 hquote hi.2]
      exact congrArg _ (ih hitems)

/-- A text that leaves no other residue than separators and blanks is made of items. -/
lemma items_of_pieces (h : ∀ c, .residual c ∈ pieces quotes 0 body → c ∈ separatorChar :: blanks) :
    ∃ items : List Item, (∀ i ∈ items, i.Fits quotes) ∧ body = itemsText separatorChar items := by
  induction hlength : body.length using Nat.strong_induction_on generalizing body with
  | _ n ih =>
    cases body with
    | nil => exact ⟨[], by simp, rfl⟩
    | cons c rest =>
      rw [pieces] at h
      split at h
      · rename_i raw after hscan
        split at hscan
        · rename_i hmem
          obtain ⟨rfl, units, rfl, hfits⟩ := units_of_scanQuoted hscan
          have hskip : pieces quotes (unitsText units ++ [c]).length (unitsText units ++ [c] ++ after) =
              pieces quotes 0 after := pieces_skip _ after
          rw [List.append_assoc, List.singleton_append, List.length_append, List.length_singleton] at hskip
          rw [hskip] at h
          obtain ⟨items, hitems, rfl⟩ := ih after.length (by simp at hlength; omega)
            (fun d hd => h d (List.mem_cons_of_mem _ hd)) rfl
          exact ⟨.literal c units :: items, List.forall_mem_cons.mpr ⟨⟨hmem, hfits⟩, hitems⟩, by
            simp [itemsText, Item.text]⟩
        · cases hscan
      · obtain ⟨items, hitems, rfl⟩ := ih rest.length (by simp at hlength; omega)
          (fun d hd => h d (List.mem_cons_of_mem _ hd)) rfl
        obtain rfl | hblank := List.mem_cons.mp (h c List.mem_cons_self)
        · exact ⟨.separator :: items, List.forall_mem_cons.mpr ⟨trivial, hitems⟩, rfl⟩
        · exact ⟨.blank c :: items, List.forall_mem_cons.mpr ⟨hblank, hitems⟩, rfl⟩

lemma pieces_of_items (hseparates : Separates quotes separatorChar) (h : ∀ i ∈ items, i.Fits quotes) :
    pieces quotes 0 (itemsText separatorChar items) = items.map (Item.piece separatorChar) := by
  have hpieces : pieces quotes 0 (itemsText separatorChar items ++ []) =
      items.map (Item.piece separatorChar) ++ pieces quotes 0 [] := pieces_items hseparates h
  simpa [pieces] using hpieces

end Pieces

section Acceptance

variable {quotes : List Char} {separatorChar : Char} {items : List Item} {strategy : Strategy}
  {escapes : List (Char × Char)} {symbol body : Text} {values : List Text}

/-- The values of the literals among the items. -/
def itemValues (escapes : List (Char × Char)) (items : List Item) : List Text :=
  (items.filterMap Item.literal?).map fun p => decode escapes (unitsText p.2)

lemma literal?_piece (i : Item) : (i.piece separatorChar).literal? = i.literal?.map fun p => unitsText p.2 := by
  cases i <;> rfl

lemma residual_fits {i : Item} {c : Char} (hi : i.Fits quotes) (h : (i.piece separatorChar).residual? = some c) :
    c ∈ separatorChar :: blanks := by
  cases i with
  | blank d =>
    cases h
    exact List.mem_cons_of_mem _ hi
  | separator =>
    cases h
    exact List.mem_cons_self
  | literal quote units => cases h

/-- A text of items is accepted with the values of its literals, if it has one. -/
lemma literalValues_items (hseparates : Separates quotes separatorChar) (h : ∀ i ∈ items, i.Fits quotes) :
    literalValues strategy quotes escapes separatorChar symbol (itemsText separatorChar items) =
      if itemValues escapes items = [] then .error (.noLiterals strategy symbol) else .ok (itemValues escapes items) := by
  have hliterals : ((items.map (Item.piece separatorChar)).filterMap Piece.literal?).map (decode escapes) =
      itemValues escapes items := by
    rw [itemValues, List.filterMap_map, List.map_filterMap, List.map_filterMap]
    refine congrArg (fun f => items.filterMap f) (funext fun i => ?_)
    rw [Function.comp_apply, literal?_piece, Option.map_map]
    rfl
  have hresidual : ((items.map (Item.piece separatorChar)).filterMap Piece.residual?).any
      (· ∉ separatorChar :: blanks) = false := by
    rw [List.any_eq_false]
    intro c hc
    obtain ⟨piece, hpiece, hc⟩ := List.mem_filterMap.mp hc
    obtain ⟨i, hi, rfl⟩ := List.mem_map.mp hpiece
    simpa [or_iff_not_imp_left] using residual_fits (h i hi) hc
  rw [literalValues, pieces_of_items hseparates h, hliterals, hresidual]
  simp

lemma residual_of_literalValues (h : literalValues strategy quotes escapes separatorChar symbol body = .ok values) :
    ∀ c, .residual c ∈ pieces quotes 0 body → c ∈ separatorChar :: blanks := by
  intro c hc
  rw [literalValues] at h
  split at h
  · cases h
  · split at h
    · cases h
    · rename_i hresidual
      by_contra hother
      refine hresidual (List.any_eq_true.mpr ⟨c, ?_, by simpa using hother⟩)
      exact List.mem_filterMap.mpr ⟨.residual c, hc, rfl⟩

lemma items_of_literalValues (h : literalValues strategy quotes escapes separatorChar symbol body = .ok values) :
    ∃ items : List Item, (∀ i ∈ items, i.Fits quotes) ∧ body = itemsText separatorChar items :=
  items_of_pieces (residual_of_literalValues h)

end Acceptance

end PlatformGitops.EnumDrift
