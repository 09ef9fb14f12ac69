import Mathlib.Tactic.Common
import Mathlib.Data.List.Basic

/-! Names and paths with wildcards, as the shell reads them: `*`, `?`, sets in brackets, and `**` for any number of
directories. -/

namespace PlatformGitops.Library.Glob

abbrev Name := List Char

inductive Token
  | star
  | one (p : Char → Bool)

def isMagic (c : Char) : Bool := c == '*' || c == '?' || c == '['

def hasMagic (name : Name) : Bool := name.any isMagic

/-- The set between two brackets: single characters and ranges. -/
def inSet : List Char → Char → Bool
  | a :: '-' :: b :: rest, c => (decide (a ≤ c) && decide (c ≤ b)) || inSet rest c
  | a :: rest, c => a == c || inSet rest c
  | [], _ => false

/-- What stands before the bracket that closes a set, and what follows it; a bracket at once does not close it. -/
def closing (s : List Char) : Option (List Char × List Char) :=
  let (first, s) := match s with
    | ']' :: rest => ([']'], rest)
    | _ => ([], s)
  match s.dropWhile (· != ']') with
  | [] => none
  | _ :: rest => some (first ++ s.takeWhile (· != ']'), rest)

/-- The set behind an opening bracket, and the rest of the pattern. -/
def bracket (s : List Char) : Option ((Char → Bool) × List Char) :=
  match s with
  | '!' :: s => (closing s).map fun found => (fun c => !inSet found.1 c, found.2)
  | _ => (closing s).map fun found => (inSet found.1, found.2)

/-- Each token takes a character of the pattern at least, so its length is fuel enough. -/
def tokens : ℕ → List Char → List Token
  | 0, _ => []
  | _ + 1, [] => []
  | fuel + 1, '*' :: rest => .star :: tokens fuel rest
  | fuel + 1, '?' :: rest => .one (fun _ => true) :: tokens fuel rest
  | fuel + 1, '[' :: rest =>
    match bracket rest with
    | some found => .one found.1 :: tokens fuel found.2
    | none => .one (· == '[') :: tokens fuel rest
  | fuel + 1, c :: rest => .one (· == c) :: tokens fuel rest

def matchTokens : List Token → List Char → Bool
  | [], s => s.isEmpty
  | .star :: ts, s => s.tails.any (matchTokens ts)
  | .one _ :: _, [] => false
  | .one p :: ts, c :: s => p c && matchTokens ts s

def fnmatch (name pattern : Name) : Bool := matchTokens (tokens pattern.length pattern) name

def isHidden (name : Name) : Bool := name.head? == some '.'

/-- A wildcard does not stand for a hidden name, unless the pattern is hidden itself. -/
def nameMatches (pattern name : Name) : Bool :=
  if hasMagic pattern then (!isHidden name || isHidden pattern) && fnmatch name pattern else pattern == name

/-- Name by name; `**` stands for any number of names that are not hidden. -/
def pathMatches : List Name → List Name → Bool
  | [], names => names.isEmpty
  | pattern :: patterns, names =>
    if pattern == ['*', '*'] then
      (List.range (names.length + 1)).any fun n =>
        (names.take n).all (!isHidden ·) && pathMatches patterns (names.drop n)
    else
      match names with
      | [] => false
      | name :: names => nameMatches pattern name && pathMatches patterns names

variable {name : Name} {names : List Name}

lemma isMagic_of_name (h : hasMagic name = false) : name ≠ ['*', '*'] := by
  rintro rfl
  cases h

/-- Names without wildcards stand for themselves. -/
lemma pathMatches_self (h : ∀ name ∈ names, hasMagic name = false) : pathMatches names names = true := by
  induction names with
  | nil => rfl
  | cons name names ih =>
    obtain ⟨hname, hnames⟩ := List.forall_mem_cons.mp h
    have hstars : (name == ['*', '*']) = false := by simpa using isMagic_of_name hname
    simp [pathMatches, hstars, nameMatches, hname, ih hnames]

lemma eq_of_pathMatches {names' : List Name} (h : ∀ name ∈ names, hasMagic name = false)
    (hmatch : pathMatches names names' = true) : names' = names := by
  induction names generalizing names' with
  | nil => simpa [pathMatches] using hmatch
  | cons name names ih =>
    obtain ⟨hname, hnames⟩ := List.forall_mem_cons.mp h
    have hstars : (name == ['*', '*']) = false := by simpa using isMagic_of_name hname
    cases names' with
    | nil => simp [pathMatches, hstars] at hmatch
    | cons name' names' =>
      simp only [pathMatches, hstars, nameMatches, hname, Bool.false_eq_true, if_false, Bool.and_eq_true,
        beq_iff_eq] at hmatch
      rw [hmatch.1, ih hnames hmatch.2]

/-- A name with a set in brackets does not stand for itself. -/
example : pathMatches ["a[1].md".toList] ["a[1].md".toList] = false := by decide

example : pathMatches ["docs".toList, "**".toList] ["docs".toList] = true := by decide

end PlatformGitops.Library.Glob
