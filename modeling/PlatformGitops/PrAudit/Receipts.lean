import PlatformGitops.Library.Fallible
import PlatformGitops.Library.Json
import PlatformGitops.PrAudit.Response
import PlatformGitops.PrAudit.Body

/-! The receipts of a consultation, and the comments that have to bear them out. -/

namespace PlatformGitops.PrAudit

open Library
open Library.Regex (Pattern)

/-- An exception that ends the process. -/
inductive Raised where
  | raised
deriving DecidableEq, Repr

structure Url where
  protocol : Text
  hostname : Text
  pathname : Text
  query : Text
  hash : Text

/-- A comment of an issue, as it was fetched. -/
structure Comment where
  body : Option String
  author : Option String
  authorAssociation : Option String
  createdAt : Option String
  updatedAt : Option String

/-- What the audit takes from its surroundings: readers of the language, the clock, and the comments. -/
structure Surroundings where
  parseUrl : Text → Option Url
  parseDate : String → Option ℤ
  parseJson : String → Option Json
  stringOf : Json → Text
  sha256 : Text → Text
  isLetterOrNumber : Char → Bool
  lowerCase : Text → Text
  fetchComment : Text → Option Comment
  now : ℤ

variable (S : Surroundings)

section Statements

def isHexDigit (c : Char) : Bool := isAsciiDigit c || ('a' ≤ c ∧ c ≤ 'f') || ('A' ≤ c ∧ c ≤ 'F')

def isCommitSha (s : Text) : Bool := s.length = 40 ∧ s.all isHexDigit

def isSha256 (s : Text) : Bool := s.length = 64 ∧ s.all isHexDigit

/-- The words of a text; each starts with a letter or a number. -/
def wordPattern : Pattern := .seq (.chars S.isLetterOrNumber) (.many fun c => S.isLetterOrNumber c || c == '_' || c == '-')

/-- The matches of a pattern, as texts. -/
def matchedTexts (pattern : Pattern) (s : Text) : List Text :=
  ((Pattern.capture pattern).findIter 0 none s).map (·.captured)

def placeholderPattern : Pattern :=
  .all [.boundary jsEngine.isWord, anyWord ["todo", "tbd", "fixme", "placeholder", "dummy", "example", "unknown"],
    .boundary jsEngine.isWord]

def sentinelPattern : Pattern := .all [startOfText, anyWord ["n/a", "none"], endOfText]

def meaningfulStatement (value : Text) : Bool :=
  let clean := trim value
  let words := matchedTexts (wordPattern S) (S.lowerCase clean)
  10 ≤ jsLength clean ∧ clean.all (fun c => c ≠ '<' ∧ c ≠ '>') ∧ ¬placeholderPattern.search none clean ∧
    ¬sentinelPattern.search none clean ∧ 3 ≤ words.length ∧ 3 ≤ words.dedup.length

def dualRiskCategories : List String :=
  ["irreversible-production", "security-authz", "privacy-retention", "data-migration", "concurrency",
   "production-cutover", "human-authority"]

def dualRiskTriggerPattern : Pattern :=
  .all [startOfText, anyWord dualRiskCategories, .char ':', .oneOrMore isSpace,
    .capture (.oneOrMore (!isLineTerminator ·)), endOfText]

def meaningfulRiskTrigger (value : Text) : Bool :=
  match (dualRiskTriggerPattern.run ⟨none, trim value, []⟩).head? with
  | some place => meaningfulStatement S place.captured
  | none => false

end Statements

section Providers

def providerAliases : Dict String String :=
  [("claude", "claude"), ("anthropic", "claude"), ("anthropic claude", "claude"), ("claude opus", "claude"),
   ("claude sonnet", "claude"), ("claude haiku", "claude"), ("codex", "codex"), ("openai", "codex"),
   ("openai codex", "codex"), ("gpt codex", "codex"), ("gpt-5.6-sol", "codex"), ("gemini", "gemini"),
   ("google gemini", "gemini"), ("gemini pro", "gemini"), ("grok", "other"), ("xai grok", "other"), ("other", "other")]

def validProviders : List String := ["claude", "codex", "gemini", "other"]

def canonicalProvider (name : Text) : String :=
  (providerAliases.get? (String.ofList (toLowerCase name))).getD (String.ofList (toLowerCase name))

def parenthesesPattern : Pattern :=
  .all [.char '(', .many fun c => c ≠ ')' ∧ ¬isLineTerminator c, .char ')']

def normalizeProvider (s : Text) : Option String :=
  if s = [] then none else some (canonicalProvider (trim (parenthesesPattern.replaceAll [] 0 none s)))

/-- The receipt fields, and the provider of each. -/
def consultationReceipts : Dict String String := [("claude receipt", "claude"), ("codex receipt", "codex")]

end Providers

section Receipts

def receiptKeys : List String :=
  ["provider", "requested", "actual", "base_tip", "base", "head", "scope", "verdict", "ref", "sha256"]

abbrev Receipt := Dict String Text

def Receipt.value (receipt : Receipt) (key : String) : Text := (receipt.get? key).getD []

/-- The parts of a text between the separators. -/
def splitAt (separator : Char) : Text → List Text
  | [] => [[]]
  | c :: rest =>
    if c = separator then [] :: splitAt separator rest
    else
      match splitAt separator rest with
      | [] => [[c]]
      | part :: parts => (c :: part) :: parts

/-- The key and the value around the first equals sign. -/
def receiptItem (item : Text) : Option (String × Text) :=
  if '=' ∈ item ∧ item.head? ≠ some '=' then
    some (String.ofList (toLowerCase (trim (item.takeWhile (· ≠ '=')))), trim ((item.dropWhile (· ≠ '=')).drop 1))
  else none

def addItem (parsed : Receipt) (item : Text) : Option Receipt := do
  let (key, val) ← receiptItem item
  if key ∉ receiptKeys ∨ val = [] ∨ (parsed.get? key).isSome then none else some (parsed.set key val)

def parseReceipt (value : Text) : Option Receipt :=
  if value = [] then none
  else do
    let parsed ← (splitAt ';' value).foldlM addItem []
    if parsed.length = receiptKeys.length then some parsed else none

def validUrl (url : Url) (baseRepo : Text) : Bool :=
  let start := "/repos/".toList ++ baseRepo ++ "/issues/comments/".toList
  let commentId := if (toLowerCase start).isPrefixOf (toLowerCase url.pathname) then url.pathname.drop start.length else []
  url.protocol = "https:".toList ∧ url.hostname = "api.github.com".toList ∧ url.query = [] ∧ url.hash = [] ∧
    commentId ≠ [] ∧ commentId.all isAsciiDigit

def validEvidenceRef (value baseRepo : Text) : Bool :=
  value ≠ [] ∧ baseRepo ≠ [] ∧ (S.parseUrl value).any (validUrl · baseRepo)

/-- The fetched comment, where the reference is one of the repository. -/
def loadEvidenceComment (ref baseRepo : Text) : Option Comment :=
  if validEvidenceRef S ref baseRepo then S.fetchComment ref else none

end Receipts

section Evidence

def evidenceMaxAgeMs : ℤ := 7 * 24 * 60 * 60 * 1000

def evidenceFutureSkewMs : ℤ := 5 * 60 * 1000

def evidenceKeys : List String :=
  ["actual_model", "base_sha", "base_tip_sha", "head_sha", "provider", "requested_model", "response",
   "response_sha256", "schema", "scope_sha256", "verdict"]

/-- `a?.toLowerCase() === b`: no value is no match, and a value that is no text raises. -/
def lowerCaseIs (a : Json) (b : Text) : Except Raised Bool :=
  match a with
  | .null => .ok false
  | .str s => .ok (toLowerCase s.toList = b)
  | _ => .error .raised

/-- The conditions of a conjunction, up to the first that fails. -/
def allOf : List (Except Raised Bool) → Except Raised Bool
  | [] => .ok true
  | condition :: conditions => do if ← condition then allOf conditions else pure false

/-- `String(v ?? '')`. -/
def jsString : Json → Text
  | .str s => s.toList
  | .null => []
  | v => S.stringOf v

/-- What the comment itself has to be. -/
def commentMatches (comment : Comment) (receipt : Receipt) (expectedOwner : Text) : Bool :=
  match comment.body, comment.author, comment.authorAssociation, comment.createdAt with
  | some body, some author, some association, some createdAt =>
    toLowerCase author.toList = toLowerCase expectedOwner ∧ association = "OWNER" ∧ createdAt ≠ "" ∧
      comment.updatedAt = some createdAt ∧
      (S.parseDate createdAt).any (fun created =>
        -evidenceFutureSkewMs ≤ S.now - created ∧ S.now - created ≤ evidenceMaxAgeMs) ∧
      S.sha256 body.toList = toLowerCase (receipt.value "sha256")
  | _, _, _, _ => false

/-- What the evidence in the comment has to say. -/
def evidenceAgrees (evidence : Json) (provider : String) (baseTip base head scope : Text) : Except Raised Bool :=
  let field (key : String) : Json := evidence.get key
  let response := ((field "response").asStr?.getD "").toList
  allOf [.ok ((field "schema").asStr? = some "cross-ai-provider-evidence/v1"),
    .ok (canonicalProvider (jsString S (field "provider")) = provider),
    .ok ((field "requested_model").asStr?.any (· ≠ "")),
    .ok ((field "requested_model").asStr? = (field "actual_model").asStr?),
    lowerCaseIs (field "base_tip_sha") (toLowerCase baseTip), lowerCaseIs (field "base_sha") (toLowerCase base),
    lowerCaseIs (field "head_sha") (toLowerCase head), lowerCaseIs (field "scope_sha256") (toLowerCase scope),
    .ok ((field "verdict").asStr? = some "AGREE"),
    .ok ((field "response").asStr?.isSome ∧ parseProviderResponseVerdict response = some "AGREE".toList),
    .ok (response ≠ []), .ok (¬containsSensitiveResponse response),
    .ok (isSha256 (jsString S (field "response_sha256"))), lowerCaseIs (field "response_sha256") (S.sha256 response)]

def evidenceMatches (comment : Option Comment) (receipt : Receipt) (provider : String)
    (expectedOwner baseTip base head scope : Text) : Except Raised Bool :=
  match comment with
  | none => .ok false
  | some comment =>
    if ¬commentMatches S comment receipt expectedOwner then .ok false
    else
      match S.parseJson (comment.body.getD "") with
      | some (.obj fields) =>
        if (fields.map (·.1)).isPerm evidenceKeys then evidenceAgrees S (.obj fields) provider baseTip base head scope
        else .ok false
      | _ => .ok false

end Evidence

end PlatformGitops.PrAudit
