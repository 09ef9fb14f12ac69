import PlatformGitops.PrAudit.Body

/-! The response of a provider: what may not be in it, and the verdict that is read from it. The patterns stand in the
audit and in the Python scripts; an engine says how a language reads their classes. -/

namespace PlatformGitops.PrAudit

open Library.Regex (Pattern)

/-- The character classes of a language's patterns, its comparison of letters without regard to case, and the
characters that end a line. -/
structure Engine where
  isDigit : Char → Bool
  isSpace : Char → Bool
  isWord : Char → Bool
  fold : Char → Char
  isBreak : Char → Bool

section Classes

def isAsciiDigit (c : Char) : Bool := '0' ≤ c ∧ c ≤ '9'

def isAsciiUpper (c : Char) : Bool := 'A' ≤ c ∧ c ≤ 'Z'

def isAsciiLower (c : Char) : Bool := 'a' ≤ c ∧ c ≤ 'z'

def isAsciiLetter (c : Char) : Bool := isAsciiUpper c || isAsciiLower c

def isAsciiAlnum (c : Char) : Bool := isAsciiLetter c || isAsciiDigit c

def oneOf (cs : String) (c : Char) : Bool := c ∈ cs.toList

def isTab (c : Char) : Bool := c = ' ' ∨ c = '\t'

/-- JavaScript's classes. -/
def jsEngine : Engine where
  isDigit := isAsciiDigit
  isSpace := isSpace
  isWord := fun c => isAsciiAlnum c || c == '_'
  fold := foldChar
  isBreak := isLineTerminator

end Classes

section Patterns

variable (E : Engine)

/-- A word under the engine's comparison of letters. -/
def Engine.word : Text → Pattern
  | [] => .empty
  | c :: cs => .seq (.chars (E.fold · == c)) (Engine.word cs)

def anyOf : List Pattern → Pattern
  | [] => .look fun _ _ => false
  | [a] => a
  | a :: as => .alt a (anyOf as)

/-- A repetition of so many at least. -/
def atLeast (n : ℕ) (p : Char → Bool) : Pattern := .seq (.exactly p n) (.many p)

def isLocalChar (c : Char) : Bool := isAsciiAlnum c || c == '.' || c == '_' || c == '%' || c == '+' || c == '-'

def isDomainChar (c : Char) : Bool := isAsciiAlnum c || c == '.' || c == '-'

/-- An address, whatever stands around it. -/
def emailParts : List Pattern :=
  [.oneOrMore isLocalChar, .char '@', .oneOrMore isDomainChar, .char '.', atLeast 2 isAsciiLetter]

def emailPattern : Pattern := .all (.notBehind isLocalChar :: (emailParts ++ [.notAhead isDomainChar]))

/-- The digits of a number, with the blanks, dots and hyphens in front of each. -/
def phoneDigits : ℕ → Pattern
  | 0 => .empty
  | n + 1 => .seq (.seq (.many fun c => c = ' ' ∨ c = '.' ∨ c = '-') (.chars E.isDigit)) (phoneDigits n)

/-- A number, whatever stands around it. -/
def phoneParts : List Pattern :=
  [anyOf [.word "+90".toList, .word "0090".toList, .word ['0']], .many E.isSpace, .optional (.char '('), .char '5',
    .exactly E.isDigit 2, .optional (.char ')'), phoneDigits E 7]

def turkishPhonePattern : Pattern := .all (.notBehind E.isDigit :: (phoneParts E ++ [.notAhead E.isDigit]))

def privateKeyPattern : Pattern :=
  .all [.word "-----BEGIN ".toList, .optional (anyOf (["RSA ", "EC ", "OPENSSH "].map fun s => .word s.toList)),
    .word "PRIVATE KEY-----".toList]

/-- The characters of a token, as they stand or under the comparison of letters. -/
def isTokenChar (c : Char) : Bool := isAsciiAlnum c || oneOf "._~+/=-" c

def isFoldedTokenChar (c : Char) : Bool := isTokenChar c || isTokenChar (E.fold c)

def isFoldedAlnum (c : Char) : Bool := isAsciiAlnum c || isAsciiAlnum (E.fold c)

def bearerPattern : Pattern :=
  .all [.notBehind (isFoldedAlnum E), E.word "bearer".toList, .oneOrMore isTab, atLeast 12 (isFoldedTokenChar E)]

def isJwtChar (c : Char) : Bool := isAsciiAlnum c || c == '_' || c == '-'

def jwtPattern : Pattern :=
  .all [.notBehind isJwtChar, .word "eyJ".toList, atLeast 10 isJwtChar, .char '.', atLeast 10 isJwtChar, .char '.',
    atLeast 10 isJwtChar, .notAhead isJwtChar]

def knownTokenPattern : Pattern :=
  .all [.notBehind isAsciiAlnum,
    anyOf [.seq (anyOf [.word "AKIA".toList, .word "ASIA".toList]) (.exactly (fun c => isAsciiDigit c || isAsciiUpper c) 16),
      .all [.word "gh".toList, .chars (oneOf "pousr"), .char '_', atLeast 20 isAsciiAlnum],
      .seq (.word "github_pat_".toList) (atLeast 22 fun c => isAsciiAlnum c || c == '_'),
      .all [.word "sk-".toList, .optional (.word "proj-".toList), atLeast 20 isJwtChar],
      .seq (.word "AIza".toList) (.exactly isJwtChar 35),
      .all [.word "xox".toList, .chars (oneOf "baprs"), .char '-', atLeast 20 fun c => isAsciiAlnum c || c == '-'],
      .seq (.word "sk_live_".toList) (atLeast 16 isAsciiAlnum)],
    .notAhead isAsciiAlnum]

def isQuoteMark (c : Char) : Bool := c = '"' ∨ c = '\''

/-- The parts of a name, with a hyphen, an underscore or nothing between them. -/
def Engine.joined : List String → Pattern
  | [] => .empty
  | [part] => E.word part.toList
  | part :: parts => .seq (E.word part.toList) (.seq (.optional (.chars (oneOf "_-"))) (Engine.joined parts))

def secretNames : List (List String) :=
  [["password"], ["passwd"], ["pwd"], ["api", "key"], ["client", "secret"], ["access", "token"], ["refresh", "token"],
   ["session", "secret"], ["secret", "access", "key"], ["service", "account", "key"], ["signing", "key"],
   ["hmac", "key"], ["private", "key"], ["credential"]]

def secretAssignmentPattern : Pattern :=
  .all [.boundary E.isWord, anyOf (secretNames.map E.joined), .boundary E.isWord, .many E.isSpace,
    .chars (oneOf ":="), .many E.isSpace, .optional (.chars isQuoteMark), atLeast 12 (isFoldedTokenChar E),
    .optional (.chars isQuoteMark)]

def webhookUrlPattern : Pattern :=
  .all [.boundary E.isWord, E.joined ["webhook", "url"], .boundary E.isWord, .many E.isSpace, .chars (oneOf ":="),
    .many E.isSpace, E.word "http".toList, .optional (E.word ['s']), .word "://".toList,
    atLeast 12 fun c => !(E.isSpace c || isQuoteMark c || c == '<' || c == '>')]

/-- The start and the end of a line. -/
def Engine.lineStart : Pattern := .look fun before _ => before.all E.isBreak

def Engine.lineEnd : Pattern := .look fun _ after => after.all E.isBreak

def cookieHeaderPattern : Pattern :=
  .all [E.lineStart, .many isTab, .optional (E.word "set-".toList), E.word "cookie".toList, .many isTab, .char ':',
    .many isTab, atLeast 12 (fun c => c ≠ '\r' ∧ c ≠ '\n'), E.lineEnd]

/-- What a response is searched for. -/
def sensitivePatterns : List Pattern :=
  [emailPattern, turkishPhonePattern E, privateKeyPattern, bearerPattern E, jwtPattern, knownTokenPattern,
   secretAssignmentPattern E, webhookUrlPattern E, cookieHeaderPattern E]

def containsSensitive (response : Text) : Bool := (sensitivePatterns E).any (·.search none response)

/-- The audit's search. -/
def containsSensitiveResponse (response : Text) : Bool := containsSensitive jsEngine response

end Patterns

section Verdict

variable (E : Engine)

/-- The lines of a text, each with its place. -/
def Engine.lineSpans : ℕ → Text → List (ℕ × Text)
  | place, [] => [(place, [])]
  | place, c :: rest =>
    if E.isBreak c then (place, []) :: Engine.lineSpans (place + 1) rest
    else
      match Engine.lineSpans (place + 1) rest with
      | [] => [(place, [c])]
      | (_, line) :: lines => (place, c :: line) :: lines

/-- What a pattern captures when it matches a whole line. -/
def captured? (pattern : Pattern) (line : Text) : Option Text :=
  ((Pattern.seq pattern endOfText).run ⟨none, line, []⟩).head?.map (·.captured)

def verdictPattern : Pattern :=
  .all [.word "VERDICT:".toList, .many isTab, .capture (.alt (.word "AGREE".toList) (.word "REVISE".toList)), .many isTab]

def headingIdPattern : Pattern := .capture (.seq (.chars (E.fold · == 'p')) (.chars (oneOf "012")))

def priorityHeadingPattern : Pattern :=
  .all [.many isTab, .optional (.all [.char '#', .upTo (· == '#') 5, .many isTab]), .optional (.word "**".toList),
    headingIdPattern E, .optional (.word "**".toList),
    .optional (.all [.many isTab, .chars (oneOf "—:-"), .many (!E.isBreak ·)]), .many isTab]

structure Heading where
  start : ℕ
  stop : ℕ
  name : Text

/-- The priority headings, in order. -/
def Engine.headings (response : Text) : List Heading :=
  (E.lineSpans 0 response).filterMap fun p =>
    (captured? (priorityHeadingPattern E) p.2).map fun name => ⟨p.1, p.1 + p.2.length, name.map E.fold⟩

def Engine.verdicts (response : Text) : List (ℕ × Text) :=
  (E.lineSpans 0 response).filterMap fun p => (captured? verdictPattern p.2).map fun verdict => (p.1, verdict)

def slice (text : Text) (start stop : ℕ) : Text := (text.take stop).drop start

def noFindings : Text := "None".toList

/-- The sections of the three headings, each up to the next one and the last up to the verdict. -/
def sections (trimText : Text → Text) (response : Text) (verdictPlace : ℕ) : List Heading → Option (List Text)
  | [p0, p1, p2] =>
    if [p0.name, p1.name, p2.name] = [['p', '0'], ['p', '1'], ['p', '2']] then
      let contents := [trimText (slice response p0.stop p1.start), trimText (slice response p1.stop p2.start),
        trimText (slice response p2.stop verdictPlace)]
      if contents.any (· = []) then none else some contents
    else none
  | _ => none

/-- The verdict of a response: one verdict line, the last one, behind three filled sections. -/
def responseVerdict (trimText : Text → Text) (lastLine : Option Text) (response : Text) : Option Text :=
  match E.verdicts response, lastLine with
  | [(place, verdict)], some last =>
    if (captured? verdictPattern last).isNone then none
    else
      match sections trimText response place (E.headings response) with
      | some [p0, p1, _] =>
        if verdict = "AGREE".toList ∧ ¬(p0 = noFindings ∧ p1 = noFindings) then none else some verdict
      | _ => none
  | _, _ => none

/-- The audit's reading. -/
def parseProviderResponseVerdict (response : Text) : Option Text :=
  responseVerdict jsEngine trim (((splitLines response).map trim).filter (· ≠ [])).getLast? response

end Verdict

end PlatformGitops.PrAudit
