import Mathlib.Data.List.TakeWhile
import Mathlib.Tactic.Common

/-! Regular expressions as a backtracking matcher reads them: all ways to match, the preferred one first. -/

namespace PlatformGitops.Library.Regex

inductive Pattern
  | empty
  | chars (p : Char → Bool)
  | many (p : Char → Bool)
  | boundary (word : Char → Bool)
  | look (p : Option Char → Option Char → Bool)
  | seq (a b : Pattern)
  | alt (a b : Pattern)
  | capture (a : Pattern)

/-- Where a matcher stands: the character before, the text after, and what it captured. -/
structure Place where
  before : Option Char
  rest : List Char
  captured : List Char := []
deriving DecidableEq, Repr

/-- A greedy repetition: as many characters as there are, and then ever fewer. -/
def runMany (p : Char → Bool) (before : Option Char) (captured : List Char) : List Char → List Place
  | [] => [⟨before, [], captured⟩]
  | c :: rest =>
    if p c then runMany p (some c) captured rest ++ [⟨before, c :: rest, captured⟩]
    else [⟨before, c :: rest, captured⟩]

def Place.atBoundary (word : Char → Bool) (s : Place) : Bool :=
  (s.before.any word) != (s.rest.head?.any word)

def Pattern.run : Pattern → Place → List Place
  | empty, s => [s]
  | chars p, s =>
    match s.rest with
    | [] => []
    | c :: rest => if p c then [⟨some c, rest, s.captured⟩] else []
  | many p, s => runMany p s.before s.captured s.rest
  | boundary word, s => if s.atBoundary word then [s] else []
  | look p, s => if p s.before s.rest.head? then [s] else []
  | seq a b, s => (a.run s).flatMap b.run
  | alt a b, s => a.run s ++ b.run s
  | capture a, s =>
    (a.run s).map fun t => { t with captured := s.rest.take (s.rest.length - t.rest.length) }

def Pattern.optional (a : Pattern) : Pattern := alt a empty

def Pattern.oneOrMore (p : Char → Bool) : Pattern := seq (chars p) (many p)

def Pattern.exactly (p : Char → Bool) : Nat → Pattern
  | 0 => empty
  | n + 1 => seq (chars p) (exactly p n)

/-- A greedy repetition of so many at most. -/
def Pattern.upTo (p : Char → Bool) : Nat → Pattern
  | 0 => empty
  | n + 1 => alt (seq (chars p) (upTo p n)) empty

/-- The character before is none of these; so for the one after. -/
def Pattern.notBehind (p : Char → Bool) : Pattern := look fun before _ => !before.any p

def Pattern.notAhead (p : Char → Bool) : Pattern := look fun _ after => !after.any p

def Pattern.char (c : Char) : Pattern := chars (· == c)

def Pattern.word : List Char → Pattern
  | [] => empty
  | c :: cs => seq (char c) (word cs)

def Pattern.all : List Pattern → Pattern
  | [] => empty
  | a :: as => seq a (all as)

/-- The matches of a pattern that no empty text matches, from left to right; so many of the first characters belong
to one already. -/
def Pattern.findIter (a : Pattern) : Nat → Option Char → List Char → List Place
  | _, _, [] => []
  | skip + 1, _, c :: rest => a.findIter skip (some c) rest
  | 0, before, c :: rest =>
    match (a.run ⟨before, c :: rest, []⟩).head? with
    | some t => t :: a.findIter (rest.length - t.rest.length) (some c) rest
    | none => a.findIter 0 (some c) rest

/-- The text with every match replaced. -/
def Pattern.replaceAll (a : Pattern) (by' : List Char) : Nat → Option Char → List Char → List Char
  | _, _, [] => []
  | skip + 1, _, c :: rest => a.replaceAll by' skip (some c) rest
  | 0, before, c :: rest =>
    match (a.run ⟨before, c :: rest, []⟩).head? with
    | some t => by' ++ a.replaceAll by' (rest.length - t.rest.length) (some c) rest
    | none => c :: a.replaceAll by' 0 (some c) rest

end PlatformGitops.Library.Regex
