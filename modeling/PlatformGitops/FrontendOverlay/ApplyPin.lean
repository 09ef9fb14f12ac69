import PlatformGitops.Library.Places
import PlatformGitops.OverlayDigests.Attribution

/-! The script that pins the frontend image of the test overlay: it edits the lines of one entry and nothing else. -/

namespace PlatformGitops.FrontendOverlay

open Library
open Coordination (isBlank isLineEnd)
open OverlayDigests (Text isTab field? isHexDigit isDigest keptLines)

def canonicalImage : Text := "ghcr.io/halildeu/platform-web-frontend-testai".toList

section Lines

/-- `line.rstrip("\r\n")` -/
def rstrip (line : Text) : Text := line.rdropWhile fun c => c = '\r' ∨ c = '\n'

/-- `(\S+)[ \t]*$` -/
def token? (s : Text) : Option Text :=
  if s.takeWhile (!isBlank ·) ≠ [] ∧ (s.dropWhile (!isBlank ·)).all isTab then some (s.takeWhile (!isBlank ·)) else none

/-- The indentation and the name of an entry's first line. -/
def entryLine? (line : Text) : Option (Text × Text) :=
  match line.dropWhile isTab with
  | '-' :: rest =>
    if rest.head?.any isTab then
      ((rest.dropWhile isTab).dropPrefix? "name:".toList).bind fun name =>
        (token? (name.dropWhile isTab)).map (line.takeWhile isTab, ·)
    else none
  | _ => none

inductive Key where
  | newName | newTag | digest
deriving DecidableEq, Repr

def Key.text : Key → Text
  | .newName => "newName".toList
  | .newTag => "newTag".toList
  | .digest => "digest".toList

/-- The key, the indentation and the value of a field's line. -/
def fieldLine? (line : Text) : Option (Key × Text × Text) :=
  [Key.newName, .newTag, .digest].findSome? fun key =>
    (field? key.text line).bind fun p => (token? p.2).map fun value => (key, p.1, value)

/-- The indentation and the commit of a line `# sourceRevision:`. -/
def sourceRevision? (line : Text) : Option (Text × Text) :=
  if line.takeWhile isTab = [] then none
  else
    match line.dropWhile isTab with
    | '#' :: rest =>
      if rest.head?.any isTab then
        ((rest.dropWhile isTab).dropPrefix? "sourceRevision:".toList).bind fun text =>
          let value := text.dropWhile isTab
          if (value.take 40).length = 40 ∧ (value.take 40).all isHexDigit ∧ (value.drop 40).all isTab then
            some (line.takeWhile isTab, value.take 40)
          else none
      else none
    | _ => none

def isFullSha (s : Text) : Bool := s.length = 40 ∧ s.all isHexDigit

def isShortSha (s : Text) : Bool := s.length = 7 ∧ s.all isHexDigit

def isTag (s : Text) : Bool := s.length = 11 ∧ s.take 4 = "sha-".toList ∧ (s.drop 4).all isHexDigit

end Lines

inductive ContractError where
  | duplicate (key : Text)
  | entries (count : ℕ)
  | newName (actual : Option Text)
  | digest (actual : Option Text)
  | newTag (actual : Text)
  | request (message : String)
deriving DecidableEq, Repr

structure FrontendPin where
  image : Text
  sourceSha : Option Text
  tag : Option Text
  digest : Text
  entryStart : ℕ
  entryEnd : ℕ
  fieldIndent : Text
  tagLine : Option ℕ
  sourceLine : Option ℕ
  digestLine : ℕ

section Inspect

def frontend? (line : Text) : Option Text :=
  (entryLine? (rstrip line)).bind fun entry => if entry.2 = "frontend".toList then some entry.1 else none

/-- The end of the entry: the next entry that is as far to the right. -/
def entryEnd (lines : List Text) (start width : ℕ) : ℕ :=
  (((found (fun line => entryLine? (rstrip line)) (lines.drop (start + 1)) (start + 1)).find? fun p =>
    p.2.1.length = width).map (·.1)).getD lines.length

def keyed? (key : Key) (line : Text) : Option (Text × Text) :=
  (fieldLine? (rstrip line)).bind fun field => if field.1 = key then some field.2 else none

def revision? (line : Text) : Option (Text × Text) := sourceRevision? (rstrip line)

def single (values : List (ℕ × Text × Text)) (key : String) : Except ContractError (Option (ℕ × Text × Text)) :=
  if 1 < values.length then .error (.duplicate key.toList) else .ok values.head?

/-- The pin that the fields of an entry give. -/
def pinOf (start stop : ℕ) (image tag digest source : Option (ℕ × Text × Text)) : Except ContractError FrontendPin :=
  match image with
  | none => .error (.newName none)
  | some (_, _, image) =>
    if image ≠ canonicalImage then .error (.newName (some image))
    else
      match digest with
      | none => .error (.digest none)
      | some (digestLine, indent, digest) =>
        if ¬isDigest digest then .error (.digest (some digest))
        else
          match tag.filter fun tag => !isTag tag.2.2 with
          | some (_, _, tag) => .error (.newTag tag)
          | none => .ok ⟨image, source.map (·.2.2), tag.map (·.2.2), digest, start, stop, indent, tag.map (·.1),
              source.map (·.1), digestLine⟩

def inspectFields (inside : List Text) (start stop : ℕ) : Except ContractError FrontendPin := do
  let image ← single (found (keyed? .newName) inside (start + 1)) "newName"
  let tag ← single (found (keyed? .newTag) inside (start + 1)) "newTag"
  let digest ← single (found (keyed? .digest) inside (start + 1)) "digest"
  let source ← single (found revision? inside (start + 1)) "sourceRevision"
  pinOf start stop image tag digest source

def inspectLines (lines : List Text) : Except ContractError FrontendPin :=
  match found frontend? lines 0 with
  | [(start, indent)] =>
    let stop := entryEnd lines start indent.length
    inspectFields ((lines.take stop).drop (start + 1)) start stop
  | entries => .error (.entries entries.length)

/-- The lines that are read from a file. -/
def linesOf (file : Text) : List Text := keptLines (Text.universalNewlines file)

def inspectFile (file : Text) : Except ContractError FrontendPin := inspectLines (linesOf file)

end Inspect

structure PinRequest where
  sha : Text
  shortSha : Text
  image : Text
  tag : Text
  digest : Text

def validateRequest (request : PinRequest) : Except ContractError Unit := do
  Fallible.rejectIf (¬isFullSha request.sha) (.request "sha must be a 40-character lowercase hexadecimal commit id")
  Fallible.rejectIf (¬isShortSha request.shortSha ∨ request.shortSha ≠ request.sha.take 7)
    (.request "short-sha must equal the first seven characters of sha")
  Fallible.rejectIf (request.image ≠ canonicalImage)
    (.request "image must be exactly ghcr.io/halildeu/platform-web-frontend-testai")
  Fallible.rejectIf (¬isTag request.tag ∨ request.tag ≠ "sha-".toList ++ request.shortSha)
    (.request "image-tag must equal sha-<short-sha>")
  Fallible.rejectIf (¬isDigest request.digest) (.request "image-digest must match sha256:<64 lowercase hex>")

inductive Change where
  | sourceRevision (actual : Option Text) (sha : Text)
  | tag (actual : Option Text) (tag : Text)
  | digest (actual digest : Text)
deriving DecidableEq, Repr

section Apply

variable (request : PinRequest)

def sourceText (indent sha : Text) : Text := indent ++ "# sourceRevision: ".toList ++ sha ++ ['\n']

def fieldText (key : Key) (indent value : Text) : Text := indent ++ (key.text ++ ": ".toList) ++ value ++ ['\n']

def editSource (pin : FrontendPin) (lines : List Text) : List Change × List Text :=
  if pin.sourceSha = some request.sha then ([], lines)
  else
    ([.sourceRevision pin.sourceSha request.sha],
      match pin.sourceLine with
      | none => lines.insertIdx (pin.tagLine.getD pin.digestLine) (sourceText pin.fieldIndent request.sha)
      | some place => lines.set place (sourceText pin.fieldIndent request.sha))

def editTag (pin : FrontendPin) (lines : List Text) : List Change × List Text :=
  if pin.tag = some request.tag then ([], lines)
  else
    ([.tag pin.tag request.tag],
      match pin.tagLine with
      | none => lines.insertIdx pin.digestLine (fieldText .newTag pin.fieldIndent request.tag)
      | some place => lines.set place (fieldText .newTag pin.fieldIndent request.tag))

def editDigest (pin : FrontendPin) (lines : List Text) : List Change × List Text :=
  if pin.digest = request.digest then ([], lines)
  else ([.digest pin.digest request.digest], lines.set pin.digestLine (fieldText .digest pin.fieldIndent request.digest))

def editLines (lines : List Text) : Except ContractError (List Change × List Text) := do
  let pin ← inspectLines lines
  let source := editSource request pin lines
  let pin ← inspectLines source.2
  let tag := editTag request pin source.2
  let current ← inspectLines tag.2
  let digest := editDigest request current tag.2
  pure (source.1 ++ tag.1 ++ digest.1, digest.2)

/-- The changes that are reported, and the file afterwards. -/
def applyPin (check : Bool) (file : Text) : Except ContractError (List Change) × Text :=
  match validateRequest request >>= fun _ => editLines request (linesOf file) with
  | .error error => (.error error, file)
  | .ok (changes, lines) => (.ok changes, if changes = [] ∨ check = true then file else lines.flatten)

end Apply

end PlatformGitops.FrontendOverlay
