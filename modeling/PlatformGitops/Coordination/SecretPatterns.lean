import PlatformGitops.Library.RegexEdges
import PlatformGitops.Coordination.SplitLines
import PlatformGitops.Library.Glob

/-! The patterns of secrets, and what the scanner reports of the lines in which it finds one. -/

namespace PlatformGitops.Coordination.SecretScan

open Library Library.Regex

abbrev Text := List Char

/-- Which characters the engine takes for parts of words. -/
structure WordTable where
  isWord : Char → Bool
  ascii : ∀ c, c.toNat < 128 → isWord c = (c.isAlphanum || c == '_')
  blank : ∀ c, isBlank c = true → isWord c = false

def tokenChar (c : Char) : Bool := c.isAlphanum || ['.', '_', '~', '+', '/', '-'].contains c

variable (W : WordTable)

def githubToken : Pattern :=
  .all [.boundary W.isWord, .word ['g', 'h'], .chars fun c => ['p', 'o', 'u', 's', 'r'].contains c, .char '_',
    .atLeast (fun c => c.isAlphanum || c == '_') 30, .boundary W.isWord]

def githubPat : Pattern :=
  .all [.boundary W.isWord, .word ['g', 'i', 't', 'h', 'u', 'b', '_', 'p', 'a', 't', '_'],
    .atLeast (fun c => c.isAlphanum || c == '_') 40, .boundary W.isWord]

def awsAccessKey : Pattern :=
  .all [.boundary W.isWord, .word ['A', 'K', 'I', 'A'], .exactly (fun c => c.isDigit || c.isUpper) 16,
    .boundary W.isWord]

def googleApiKey : Pattern :=
  .all [.boundary W.isWord, .word ['A', 'I', 'z', 'a'], .exactly (fun c => c.isAlphanum || c == '_' || c == '-') 35,
    .boundary W.isWord]

def slackToken : Pattern :=
  .all [.boundary W.isWord, .word ['x', 'o', 'x'], .chars fun c => ['b', 'a', 'p', 'r', 's'].contains c, .char '-',
    .atLeast (fun c => c.isAlphanum || c == '-') 20, .boundary W.isWord]

def keyKind : Pattern :=
  .alt (.word ['R', 'S', 'A', ' ']) (.alt (.word ['E', 'C', ' '])
    (.alt (.word ['O', 'P', 'E', 'N', 'S', 'S', 'H', ' ']) (.word ['D', 'S', 'A', ' '])))

def privateKey : Pattern :=
  .all [.word ['-', '-', '-', '-', '-', 'B', 'E', 'G', 'I', 'N', ' '], .optional keyKind,
    .word ['P', 'R', 'I', 'V', 'A', 'T', 'E', ' ', 'K', 'E', 'Y', '-', '-', '-', '-', '-']]

def bearerToken : Pattern :=
  .all [.boundary W.isWord, .chars fun c => c == 'B' || c == 'b', .word ['e', 'a', 'r', 'e', 'r'], .oneOrMore isBlank,
    .atLeast tokenChar 40, .upTo (· == '=') 2, .boundary W.isWord]

def PATTERNS : List (String × Pattern) :=
  [("github_token", githubToken W), ("github_pat", githubPat W), ("aws_access_key", awsAccessKey W),
    ("google_api_key", googleApiKey W), ("slack_token", slackToken W), ("private_key", privateKey),
    ("bearer_token", bearerToken W)]

def redacted (line : Text) (start stop : ℕ) : Text :=
  let token := (line.take stop).drop start
  let replacement := if 12 < token.length then token.take 4 ++ "...".toList ++ token.drop (token.length - 4)
    else "***".toList
  line.take start ++ replacement ++ line.drop stop

structure Finding where
  file : Text
  line : ℕ
  column : ℕ
  pattern : String
  snippet : Text

/-- Start and end of a match, of which the engine tells the text and what follows. -/
def span (line : Text) (found : Place) : ℕ × ℕ :=
  (line.length - found.rest.length - found.captured.length, line.length - found.rest.length)

def lineFindings (file : Text) (lineNumber : ℕ) (line : Text) : List Finding :=
  (PATTERNS W).flatMap fun named => ((Pattern.capture named.2).findIter 0 none line).map fun found =>
    let range := span line found
    ⟨file, lineNumber, range.1 + 1, named.1, strip (redacted line range.1 range.2)⟩

/-- The text is none where the file is not UTF-8. -/
def scanFile (file : Text) (text : Option Text) : List Finding :=
  match text with
  | none => []
  | some text => ((splitlines text).zipIdx 1).flatMap fun numbered => lineFindings W file numbered.2 numbered.1

structure Report where
  valid : Bool
  filesScanned : ℕ
  findings : List Finding

def report (files : List (Text × Option Text)) : Report :=
  let findings := files.flatMap fun f => scanFile W f.1 f.2
  ⟨findings.isEmpty, files.length, findings⟩

def exitStatus (r : Report) : ℕ := if r.findings.isEmpty then 0 else 1

/-- The texts of a finding in the printed document, the names of its fields among them. -/
def Finding.strings (f : Finding) : List Text :=
  ["file".toList, "line".toList, "column".toList, "pattern".toList, "snippet".toList, f.file, f.pattern.toList,
    f.snippet]

def Report.strings (r : Report) : List Text :=
  ["valid".toList, "files_scanned".toList, "findings".toList] ++ r.findings.flatMap Finding.strings

/-- One of the patterns matches somewhere in the text. -/
def Leaks (s : Text) : Prop := ∃ named ∈ PATTERNS W, named.2.search none s = true

end PlatformGitops.Coordination.SecretScan

/-! Which files of a tree the secret scanner reads, and what its exit status says of the others. -/

namespace PlatformGitops.Coordination.SecretScan

open Library Library.Glob

abbrev Path := List Name

/-- A regular file: its size, its text in the encoding it is written in, and what a UTF-8 decoder makes of it. -/
structure File where
  size : ℕ
  text : Text
  decoded : Option Text
  deriving DecidableEq

inductive Node
  | dir
  | file (f : File)
  deriving DecidableEq

/-- A tree of directories and regular files, each under a directory of the tree. -/
structure Tree where
  entries : List (Path × Node)
  distinct : (entries.map Prod.fst).Nodup
  closed : ∀ entry ∈ entries, entry.1 = [] ∨ (entry.1.dropLast, Node.dir) ∈ entries

def Tree.lookup (t : Tree) (path : Path) : Option Node := (t.entries.find? fun entry => entry.1 == path).map Prod.snd

def Tree.paths (t : Tree) : List Path := t.entries.map Prod.fst

structure Checkout where
  tree : Tree
  repoRoot : Path
  cwd : Path
  words : WordTable

/-- A path argument, by its parts. -/
structure Raw where
  absolute : Bool
  parts : List Name

def MAX_FILE_BYTES : ℕ := 2000000

def SKIP_PARTS : List Name := [".git".toList, "node_modules".toList, ".venv".toList, "__pycache__".toList]

def DEFAULT_PATHS : List Raw :=
  [⟨false, ["coordination-ledger".toList]⟩, ⟨false, ["docs".toList, "coordination".toList]⟩,
    ⟨false, ["docs".toList, "coordination-ledger-v1-plan.md".toList]⟩,
    ⟨false, ["docs".toList, "board-protocol.md".toList]⟩, ⟨false, ["scripts".toList, "coordination".toList]⟩]

namespace Checkout

variable (K : Checkout)

def resolve (raw : Raw) : Path := if raw.absolute then raw.parts else K.repoRoot ++ raw.parts

/-- What a glob finds, relative to the working directory unless the pattern is absolute. -/
def glob (raw : Raw) : List Raw :=
  if raw.absolute then
    (K.tree.paths.filter (pathMatches raw.parts)).map (⟨true, ·⟩)
  else
    (K.tree.paths.filter fun path => path.take K.cwd.length == K.cwd &&
      pathMatches raw.parts (path.drop K.cwd.length)).map fun path => ⟨false, path.drop K.cwd.length⟩

/-- The paths that an argument stands for: those a glob finds as soon as there is a wildcard in it. -/
def expand (raw : Raw) : List Path :=
  (if raw.parts.any hasMagic then K.glob raw else [raw]).map K.resolve

def isFile (path : Path) : Bool :=
  match K.tree.lookup path with
  | some (.file _) => true
  | _ => false

def isDir (path : Path) : Bool :=
  match K.tree.lookup path with
  | some .dir => true
  | _ => false

/-- The files below a directory, whose paths are read as arguments once more. -/
def children (path : Path) : List Raw :=
  ((K.tree.paths.filter fun child => path.isPrefixOf child && child.length != path.length && K.isFile child)).map
    (⟨true, ·⟩)

def skipped (path : Path) : Bool := path.any SKIP_PARTS.contains

inductive Fault
  | recursionError

/-- The state of one call: the files it has seen, and those it yields. -/
structure Walk where
  seen : List Path
  files : List Path

def visit (again : List Raw → Except Fault (List Path)) (st : Walk) (path : Path) : Except Fault Walk :=
  match K.tree.lookup path with
  | none => .ok st
  | some .dir => do
    let found ← (K.children path).mapM fun child => again [child]
    return { st with files := st.files ++ found.flatten }
  | some (.file f) =>
    if skipped path then .ok st
    else if path ∈ st.seen then .ok st
    else .ok ⟨path :: st.seen, if f.size ≤ MAX_FILE_BYTES then st.files ++ [path] else st.files⟩

/-- A recursion deeper than allowed is an error. -/
def iterCandidateFiles : ℕ → List Raw → Except Fault (List Path)
  | 0, _ => .error .recursionError
  | depth + 1, raws => do
    let st ← (raws.flatMap K.expand).foldlM (K.visit (iterCandidateFiles depth)) ⟨[], []⟩
    return st.files

def shown (path : Path) : Text :=
  if K.repoRoot.isPrefixOf path then ['/'].intercalate (path.drop K.repoRoot.length)
  else '/' :: ['/'].intercalate path

def read (path : Path) : Option Text :=
  match K.tree.lookup path with
  | some (.file f) => f.decoded
  | _ => none

def pathsOf (paths : List Raw) : List Raw := if paths.isEmpty then DEFAULT_PATHS else paths

/-- The exit status; a recursion that goes too deep ends the program with an error. -/
def main (depth : ℕ) (paths : List Raw) : ℕ :=
  match K.iterCandidateFiles depth (pathsOf paths) with
  | .error _ => 1
  | .ok files =>
    exitStatus (report K.words ((files.mergeSort fun a b => decide (a ≤ b)).map fun path => (K.shown path, K.read path)))

end Checkout

end PlatformGitops.Coordination.SecretScan
