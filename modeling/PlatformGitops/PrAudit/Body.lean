import PlatformGitops.Library.Dict
import PlatformGitops.Library.RegexMatches
import Mathlib

/-! The Cross-AI section of a pull request's body, and the fields that the audit reads in it. -/

namespace PlatformGitops.PrAudit

open Library
open Library.Regex (Pattern)

abbrev Text := List Char

section Text

/-- White space, of `\s` and of `trim`. -/
def isSpace (c : Char) : Bool :=
  let n := c.toNat
  (9 ≤ n ∧ n ≤ 13) ∨ n = 0x20 ∨ n = 0xa0 ∨ n = 0x1680 ∨ (0x2000 ≤ n ∧ n ≤ 0x200a) ∨ n = 0x2028 ∨ n = 0x2029 ∨
    n = 0x202f ∨ n = 0x205f ∨ n = 0x3000 ∨ n = 0xfeff

/-- What the dot of a regular expression does not match. -/
def isLineTerminator (c : Char) : Bool := c.toNat = 10 ∨ c.toNat = 13 ∨ c.toNat = 0x2028 ∨ c.toNat = 0x2029

def trimEnd (s : Text) : Text := (s.reverse.dropWhile isSpace).reverse

def trim (s : Text) : Text := trimEnd (s.dropWhile isSpace)

/-- The lines of a text that is split at `\r?\n`. -/
def splitLines : Text → List Text
  | [] => [[]]
  | '\n' :: rest => [] :: splitLines rest
  | '\r' :: '\n' :: rest => [] :: splitLines rest
  | c :: rest =>
    match splitLines rest with
    | [] => [[c]]
    | line :: lines => (c :: line) :: lines

def joinLines (lines : List Text) : Text := ['\n'].intercalate lines

/-- The letter under which the case-insensitive patterns compare; they have no other letter outside ASCII. -/
def foldChar (c : Char) : Char :=
  if 'A' ≤ c ∧ c ≤ 'Z' then Char.ofNat (c.toNat + 32) else if c = 'Ü' then 'ü' else c

/-- The letters whose small letter is in ASCII; the results are compared with words of ASCII. -/
def toLowerCase (s : Text) : Text :=
  s.map fun c =>
    if 'A' ≤ c ∧ c ≤ 'Z' then Char.ofNat (c.toNat + 32) else if c.toNat = 0x212a then 'k' else c

/-- The number of code units. -/
def jsLength (s : Text) : ℕ := (s.map fun c => if c.toNat < 0x10000 then 1 else 2).sum

/-- Whether a pattern matches from the start. -/
def matchesStart (pattern : Pattern) (s : Text) : Bool := (pattern.run ⟨none, s, []⟩) ≠ []

def endOfText : Pattern := .look fun _ after => after.isNone

def startOfText : Pattern := .look fun before _ => before.isNone

/-- A word, without regard to case. -/
def foldedWord : Text → Pattern
  | [] => .empty
  | c :: cs => .seq (.chars (foldChar · == c)) (foldedWord cs)

end Text

section Sections

def headingPattern : Pattern := .all [.char '#', .char '#', .oneOrMore isSpace]

/-- The heading of the section: nothing may follow in a strict one. -/
def crossAiPattern (strictMode : Bool) : Pattern :=
  .all [headingPattern, foldedWord ['c', 'r', 'o', 's', 's', '-', 'a', 'i'],
    if strictMode then .seq (.many isSpace) endOfText else .empty]

structure Scan where
  found : List Text := []
  currentSection : Option (List Text) := none

/-- The section that is open ends. -/
def Scan.flush (scan : Scan) : List Text :=
  match scan.currentSection with
  | some lines => scan.found ++ [joinLines lines]
  | none => scan.found

def Scan.next (strictMode : Bool) (scan : Scan) (line : Text) : Scan :=
  if matchesStart (crossAiPattern strictMode) line then { found := scan.flush, currentSection := some [] }
  else
    match scan.currentSection with
    | none => scan
    | some lines =>
      if matchesStart headingPattern line then { found := scan.flush }
      else { scan with currentSection := some (lines ++ [line]) }

def collectHeadingSections (body : Text) (strictMode : Bool) : List Text :=
  ((splitLines body).foldl (Scan.next strictMode) {}).flush

end Sections

section Fields

/-- The keys that the parser knows, in small letters. -/
def fieldKeys : List String :=
  ["implementer ai", "reviewer ai", "codex thread", "verdict", "verdict reason", "same-provider exception",
   "exception reason", "cross-ai exempt reason", "absorb edilen düzeltmeler", "consultation mode",
   "consultation reason", "risk trigger", "consultation base tip", "consultation base", "consultation commit",
   "consultation scope", "claude receipt", "minimax receipt", "codex receipt", "automation source",
   "automation evidence"]

/-- The text before the first colon, and the text behind it. -/
def splitColon : Text → Option (Text × Text)
  | [] => none
  | ':' :: rest => some ([], rest)
  | c :: rest => (splitColon rest).map fun p => (c :: p.1, p.2)

/-- The key and the value of a line. No key has a colon in it, so the first colon ends the key; a line terminator
inside the value is not matched. -/
def fieldLine (line : Text) : Option (String × Text) :=
  match splitColon line with
  | none => none
  | some (name, value) =>
    let key := String.ofList ((trim name).map foldChar)
    if key ∈ fieldKeys ∧ (trim value).all (!isLineTerminator ·) then some (key, trim value) else none

def backtick : Char := Char.ofNat 0x60

def isQuote (c : Char) : Bool := c = backtick ∨ c = '"' ∨ c = '\''

/-- One quote at each end. -/
def stripQuotes (val : Text) : Text :=
  let behind := match val with
    | c :: rest => if isQuote c then rest else val
    | [] => []
  if behind.getLast?.any isQuote then behind.dropLast else behind

/-- A value without its comment and its quotes. -/
def cleanValue (val : Text) : Text := trim (stripQuotes (val.takeWhile (· ≠ '#')))

def fencePattern : Pattern := .word [backtick, backtick, backtick]

/-- A fence with the name of its language and the end of its line. -/
def openFencePattern : Pattern :=
  .all [fencePattern, .many fun c => 'a' ≤ c ∧ c ≤ 'z', .optional (.char '\n')]

def removeFences (text : Text) : Text :=
  fencePattern.replaceAll [] 0 none (openFencePattern.replaceAll [] 0 none text)

structure Fields where
  values : Dict String Text := []
  duplicateFields : List String := []

def Fields.has (fields : Fields) (key : String) : Bool := (fields.values.get? key).isSome

/-- The value of a field, or an empty one. -/
def Fields.value (fields : Fields) (key : String) : Text := (fields.values.get? key).getD []

def Fields.add (fields : Fields) (line : Text) : Fields :=
  match fieldLine line with
  | none => fields
  | some (key, val) =>
    { values := fields.values.set key (cleanValue val)
      duplicateFields :=
        if fields.has key ∧ key ∉ fields.duplicateFields then fields.duplicateFields ++ [key]
        else fields.duplicateFields }

def extractFields (text : Text) : Fields := (splitLines (removeFences text)).foldl Fields.add {}

def requiredFieldKeys : List String := ["implementer ai", "reviewer ai", "codex thread", "verdict"]

def sectionHasRequiredFields (text : Text) : Bool :=
  let fields := extractFields text
  if fields.has "consultation mode" then fields.value "implementer ai" ≠ [] ∧ fields.value "consultation reason" ≠ []
  else requiredFieldKeys.all fun key => fields.value key ≠ []

/-- The last complete strict section, else the last complete one, else the last strict one, else the last. -/
def extractCrossAiSection (body : Text) : Text :=
  let strictMatches := collectHeadingSections body true
  let permissiveMatches := collectHeadingSections body false
  ((strictMatches.reverse.find? sectionHasRequiredFields <|>
    permissiveMatches.reverse.find? sectionHasRequiredFields) <|>
      (strictMatches.getLast? <|> permissiveMatches.getLast?)).getD []

end Fields

/-! The changed files of a pull request, and what they demand of it. -/

/-- What the event says of the pull request, with the list that the workflow prepared. -/
structure PrMeta where
  headRef : Text
  headSha : Text
  baseSha : Text
  derivedBaseSha : Text
  derivedScopeSha256 : Text
  headRepo : Text
  baseRepo : Text
  actor : Text
  sender : Text
  changedFiles : Option (List Text)

section ChangedFiles

def readChangedFiles (content : Text) : List Text := ((splitLines content).map trim).filter (· ≠ [])

end ChangedFiles

section Patterns

def notSlash (c : Char) : Bool := c ≠ '/'

/-- A pattern for one path. -/
def exactPath (path : String) : Pattern := .all [startOfText, .word path.toList, endOfText]

def anyWord (words : List String) : Pattern :=
  words.foldr (fun word rest => .alt (foldedWord word.toList) rest) (.look fun _ _ => false)

def consultationGovernanceNames : List String :=
  ["AGENTS.md", "CLAUDE.md", "docs/context-priority-rules.md", ".github/pull_request_template.md",
   ".github/workflows/gate-cross-ai-audit.yml", "scripts/ci/pr-cross-ai-audit.mjs",
   "scripts/ai/prepare_cross_ai_scope.py", "scripts/ai/build_cross_ai_evidence.py",
   "scripts/ai/post_cross_ai_evidence.py", "tests/ci/test-cross-ai-automation.mjs",
   "tests/deploy/test_faz25_fullats_gitops_contract.py"]

def consultationGovernancePaths : List Pattern := consultationGovernanceNames.map exactPath

def consultationDualGovernancePaths : List Pattern := []

/-- The start of the path, or a slash. -/
def pathStart : Pattern := .alt startOfText (.char '/')

def pathEnd : Pattern := .alt (.char '/') endOfText

def isJoint (c : Char) : Bool := c = '-' ∨ c = '_' ∨ c = '.'

def accessManifestPattern : Pattern :=
  .all [pathStart, .optional (.seq (.oneOrMore notSlash) (.chars isJoint)),
    anyWord ["rbac", "clusterrole", "clusterrolebinding", "role", "rolebinding", "networkpolicy", "externalsecret",
      "clusterexternalsecret", "secretstore", "clustersecretstore"],
    .optional (.seq (.chars isJoint) (.many notSlash)), .char '.', foldedWord ['y'],
    .optional (foldedWord ['a']), foldedWord ['m', 'l'], endOfText]

def vaultPolicyPattern : Pattern :=
  .all [pathStart, foldedWord "vault/polic".toList, .alt (foldedWord ['y']) (foldedWord ['i', 'e', 's']), .char '/',
    .oneOrMore notSlash, .char '.', foldedWord ['h', 'c', 'l'], endOfText]

def migrationDirectories : Pattern := anyWord ["db/migration", "migration", "migrations"]

def migrationPattern : Pattern := .all [pathStart, migrationDirectories, pathEnd]

def consultationAtLeastSingleHighRiskPaths : List Pattern :=
  [accessManifestPattern, vaultPolicyPattern, migrationPattern]

def docsOnlyExemptAllowlist : List Pattern :=
  [.all [startOfText, .word "docs/session-handoff-".toList, .oneOrMore notSlash, .word ".md".toList, endOfText],
   .all [startOfText, .word "docs/archive/".toList, .oneOrMore notSlash, .word ".md".toList, endOfText]]

def matchesAny (patterns : List Pattern) (path : Text) : Bool := patterns.any (·.search none path)

end Patterns

section Floor

inductive Mode where
  | none
  | single
  | dual
deriving DecidableEq, Repr

def Mode.rank : Mode → ℕ
  | none => 0
  | single => 1
  | dual => 2

def Mode.ofText (text : Text) : Option Mode :=
  if text = ['n', 'o', 'n', 'e'] then some none
  else if text = ['s', 'i', 'n', 'g', 'l', 'e'] then some single
  else if text = ['d', 'u', 'a', 'l'] then some dual
  else Option.none

def consultationAtLeastSingleBranchPrefixes : List String := ["auto-promotion/"]

/-- The least mode that the changed files and the branch allow; without a list of files it is not `none`. -/
def minimumConsultationMode (prMeta : PrMeta) : Mode :=
  let files := prMeta.changedFiles.getD []
  if files = [] then .single
  else if files.any (matchesAny consultationDualGovernancePaths) then .dual
  else if files.any (matchesAny consultationGovernancePaths) then .single
  else if consultationAtLeastSingleBranchPrefixes.any (·.toList.isPrefixOf prMeta.headRef) then .single
  else if files.any (matchesAny consultationAtLeastSingleHighRiskPaths) then .single
  else .none

structure Exemption where
  requested : Bool
  pass : Bool

def docsOnlyExemption (fields : Fields) (prMeta : PrMeta) : Exemption :=
  if toLowerCase (trim (fields.value "codex thread")) ≠ ['n', '/', 'a'] then ⟨false, false⟩
  else
    let files := prMeta.changedFiles.getD []
    ⟨true, 10 ≤ jsLength (fields.value "cross-ai exempt reason") ∧ files ≠ [] ∧
      files.all (matchesAny docsOnlyExemptAllowlist)⟩

end Floor

end PlatformGitops.PrAudit
