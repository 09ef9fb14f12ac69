import Mathlib.Data.List.Infix
import Mathlib.Tactic.Common

/-! Template expressions: the expressions that a text embeds, their tokens and the contexts that they read. -/

namespace PlatformGitops.Library.Expression

def opening : List Char := ['$', '\x7b', '\x7b']

/-- The embedded expressions of a text. Inside one, the state is what of it came so far, newest first, and whether a
quoted string is open. -/
def embeddedFrom : Option (List Char × Bool) → List Char → List (List Char)
  | _, [] => []
  | none, '$' :: '\x7b' :: '\x7b' :: rest => embeddedFrom (some ([], false)) rest
  | none, _ :: rest => embeddedFrom none rest
  | some (body, quoted), '\'' :: rest => embeddedFrom (some ('\'' :: body, !quoted)) rest
  | some (body, false), '\x7d' :: '\x7d' :: rest => body.reverse :: embeddedFrom none rest
  | some (body, quoted), c :: rest => embeddedFrom (some (c :: body, quoted)) rest

def embedded (s : List Char) : List (List Char) := embeddedFrom none s

lemma embedded_cons {c : Char} {s : List Char} (h : ¬ opening <+: c :: s) : embedded (c :: s) = embedded s := by
  unfold embedded
  rw [embeddedFrom.eq_3]
  intro rest hc hs
  exact h ⟨rest, by rw [hc, hs, opening]; rfl⟩

lemma embedded_eq_nil {s : List Char} (h : ¬ opening <:+: s) : embedded s = [] := by
  induction s with
  | nil => rfl
  | cons c s ih =>
    rw [embedded_cons fun hstarts => h hstarts.isInfix,
      ih fun hinside => h (hinside.trans (List.suffix_cons c s).isInfix)]

inductive Token where
  | word (s : List Char)
  | text (s : List Char)
  | symbol (c : Char)
deriving DecidableEq

/-- Where the lexer stands: between tokens, in a word, in a quoted string, or after a quote in one. -/
inductive Mode where
  | between
  | word (s : List Char)
  | quoted (s : List Char)
  | closing (s : List Char)

def isWordChar (c : Char) : Bool := c.isAlphanum ∨ c = '_' ∨ c = '-'

def startToken (c : Char) : Option Token × Mode :=
  if c = '\'' then (none, .quoted [])
  else if isWordChar c then (none, .word [c])
  else if c.isWhitespace then (none, .between)
  else (some (.symbol c), .between)

/-- The tokens of an expression; in a quoted string, two quotes stand for one. -/
def lexFrom : Mode → List Char → List Token
  | .between, [] => []
  | .word s, [] => [.word s.reverse]
  | .quoted s, [] => [.text s.reverse]
  | .closing s, [] => [.text s.reverse]
  | .between, c :: rest => (startToken c).1.toList ++ lexFrom (startToken c).2 rest
  | .word s, c :: rest =>
    if isWordChar c then lexFrom (.word (c :: s)) rest
    else .word s.reverse :: (startToken c).1.toList ++ lexFrom (startToken c).2 rest
  | .quoted s, c :: rest => if c = '\'' then lexFrom (.closing s) rest else lexFrom (.quoted (c :: s)) rest
  | .closing s, c :: rest =>
    if c = '\'' then lexFrom (.quoted (c :: s)) rest
    else .text s.reverse :: (startToken c).1.toList ++ lexFrom (startToken c).2 rest

def lex (s : List Char) : List Token := lexFrom .between s

def lower (s : List Char) : List Char := s.map Char.toLower

/-- The properties that are read from a value, one after the other; `none` is one that only a run tells. -/
def steps : List Token → List (Option (List Char))
  | .symbol '.' :: .word s :: rest => some (lower s) :: steps rest
  | .symbol '.' :: .symbol '*' :: rest => none :: steps rest
  | .symbol '[' :: .text s :: .symbol ']' :: rest => some (lower s) :: steps rest
  | .symbol '[' :: _ => [none]
  | _ => []

/-- The names that an expression reads, each with the properties read from it: words that are neither a property nor
a function. -/
def references : Bool → List Token → List (List Char × List (Option (List Char)))
  | _, [] => []
  | afterDot, .word s :: rest =>
    if afterDot ∨ rest.head? = some (.symbol '(') then references false rest
    else (lower s, steps rest) :: references false rest
  | _, token :: rest => references (token = .symbol '.') rest

/-- Whether reading properties may reach the one at a path, or a value that holds it. -/
def Along : List (List Char) → List (Option (List Char)) → Prop
  | [], _ => True
  | _, [] => True
  | name :: path, step :: rest => (∀ s ∈ step, s = name) ∧ Along path rest

instance decidableAlong : (path : List (List Char)) → (read : List (Option (List Char))) → Decidable (Along path read)
  | [], _ => isTrue trivial
  | _ :: _, [] => isTrue trivial
  | _ :: path, _ :: rest =>
    have := decidableAlong path rest
    inferInstanceAs (Decidable (_ ∧ _))

/-- A text with an expression that reads a context. -/
def Reads (contexts : List (List Char × List (List Char))) (s : List Char) : Prop :=
  ∃ body ∈ embedded s, ∃ reference ∈ references false (lex body), ∃ context ∈ contexts,
    reference.1 = context.1 ∧ Along context.2 reference.2

instance (contexts : List (List Char × List (List Char))) (s : List Char) : Decidable (Reads contexts s) :=
  inferInstanceAs (Decidable (∃ body ∈ embedded s, ∃ reference ∈ references false (lex body), ∃ context ∈ contexts,
    reference.1 = context.1 ∧ Along context.2 reference.2))

example : Reads [("github".toList, ["event".toList, "inputs".toList])]
    "x $\x7b\x7b format('inputs', toJSON(github.event)) \x7d\x7d".toList := by decide

lemma not_reads {contexts : List (List Char × List (List Char))} {s : List Char} (h : embedded s = []) :
    ¬ Reads contexts s := by
  rintro ⟨body, hbody, -⟩
  rw [h] at hbody
  cases hbody

end PlatformGitops.Library.Expression
