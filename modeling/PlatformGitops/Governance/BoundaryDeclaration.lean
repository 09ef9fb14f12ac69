import PlatformGitops.EnumDrift.Parsers
import PlatformGitops.Library.RegexMatches
import PlatformGitops.Library.Spans

/-! The gate on the boundary declaration of a pull request. -/

namespace PlatformGitops.Governance

open Library Library.Regex
open EnumDrift (isSpace isLetter strip)

abbrev Text := List Char

section Source

def boundaryHeading : Text := "## Boundary declaration (ADR-0011 §2.3)".toList

def noneOfTheAbove : String := "none of the above"

def expectedClasses : List String :=
  ["credential-read", "credential-write", "state-mutation (test cluster)", "state-mutation (production)", "boundary-cross",
    "user-communication", noneOfTheAbove]

def userApprovalClasses : List String :=
  ["credential-read", "credential-write", "state-mutation (production)", "boundary-cross", "user-communication"]

def userApprovalLabel : String := "user-approval-required"

-- How characters are compared where case is ignored.
variable (fold : Char → Char)

def foldedWord : Text → Pattern
  | [] => .empty
  | c :: cs => .seq (.chars (fold · == fold c)) (foldedWord cs)

/-- A box in front of the name of a class. -/
def boxPattern (mark : Char → Bool) (cls : String) : Pattern :=
  .all [.char '-', .many isSpace, .char '[', .capture (.chars mark), .char ']', .oneOrMore isSpace,
    foldedWord fold cls.toList, .notAhead fun c => isLetter c || isLetter (fold c)]

def anyMark (c : Char) : Bool := isSpace c || fold c == 'x'

def evidenceMarker : Text := "User-approval evidence:".toList

/-- The value is taken lazily, but the first place where it may end is the end of its line. -/
def evidencePattern : Pattern :=
  .all [foldedWord fold evidenceMarker, .many isSpace, .capture (.oneOrMore (· ≠ '\n')),
    .alt (.char '\n') (.look fun _ after => after = none)]

/-- What follows the first occurrence. -/
def afterFirst (word : Text) : Text → Option Text
  | [] => none
  | c :: s => if word.isPrefixOf (c :: s) then some ((c :: s).drop word.length) else afterFirst word s

/-- The text before the first match. -/
def untilMatch (a : Pattern) : Option Char → Text → Text
  | _, [] => []
  | before, c :: s => if (a.run ⟨before, c :: s, []⟩).isEmpty then c :: untilMatch a (some c) s else []

def nextSection : Pattern := .all [.word ['\n', '#', '#'], .oneOrMore isSpace]

def extractBoundaryBlock (body : Text) : Option Text :=
  (afterFirst boundaryHeading body).map fun rest => strip (untilMatch nextSection none rest)

def isX (captured : Text) : Bool := (strip captured).map Char.toLower = ['x']

/-- Whether the first box of the class is marked, if there is one. -/
def checkboxState (block : Text) (cls : String) : Option Bool :=
  ((boxPattern fold (anyMark fold) cls).findIter 0 none block).head?.map fun t => isX t.captured

/-- The marked classes among these. -/
def triggered (block : Text) (classes : List String) : List String :=
  classes.filter fun cls => checkboxState fold block cls = some true

def withBlock (body : Text) (check : Text → Bool) : Bool := (extractBoundaryBlock body).any check

def checkBlockPresent (body : Text) : Bool := (extractBoundaryBlock body).isSome

def checkSevenClassesPresent (body : Text) : Bool :=
  withBlock body fun block => expectedClasses.all fun cls => (checkboxState fold block cls).isSome

def checkAtLeastOneMarked (body : Text) : Bool :=
  withBlock body fun block => triggered fold block expectedClasses ≠ []

def checkNoneExclusivity (body : Text) : Bool :=
  withBlock body fun block => checkboxState fold block noneOfTheAbove ≠ some true ||
    (triggered fold block expectedClasses).filter (· ≠ noneOfTheAbove) = []

/-- The values that do not count. -/
def isNotAvailable (value : Text) : Bool :=
  (strip value).map Char.toUpper ∈ ["N/A".toList, "NA".toList, []]

def checkUserApprovalEvidence (body : Text) : Bool :=
  withBlock body fun block => triggered fold block userApprovalClasses = [] ||
    (let values := ((evidencePattern fold).findIter 0 none body).map (·.captured)
     values ≠ [] && !values.all isNotAvailable)

def checkUserApprovalLabel (body : Text) (labels : List String) : Bool :=
  withBlock body fun block => triggered fold block userApprovalClasses = [] || userApprovalLabel ∈ labels

def runAllChecks (body : Text) (labels : List String) : Bool :=
  checkBlockPresent body && checkSevenClassesPresent fold body && checkAtLeastOneMarked fold body &&
    checkNoneExclusivity fold body && checkUserApprovalEvidence fold body && checkUserApprovalLabel fold body labels

end Source

section Declared

variable (fold : Char → Char)

def IsLine (text line : Text) : Prop := ∃ u v, text = u ++ line ++ v ∧ '\n' ∉ line ∧
  (u = [] ∨ u.getLast? = some '\n') ∧ (v = [] ∨ v.head? = some '\n')

/-- A line of the block with a marked box for the class. -/
def MarkedLine (block : Text) (cls : String) : Prop :=
  ∃ line, IsLine block line ∧ (boxPattern fold (· ∈ ['x', 'X']) cls).search none line = true

def IsMarker (m : Text) : Prop := '\n' ∉ m ∧ m.map fold = evidenceMarker.map fold

/-- A line of the body with the marker and, behind it, a value that counts. -/
def EvidenceLine (body : Text) : Prop :=
  ∃ line, IsLine body line ∧ ∃ u m value, line = u ++ m ++ value ∧ IsMarker fold m ∧ isNotAvailable value = false

/-- Each marked line of a class that needs an approval has one, and a marked "none of the above" stands alone. -/
def Approved (body : Text) (labels : List String) : Prop :=
  ∀ block, extractBoundaryBlock body = some block →
    (∀ cls ∈ userApprovalClasses, MarkedLine fold block cls → userApprovalLabel ∈ labels ∧ EvidenceLine fold body) ∧
      (MarkedLine fold block noneOfTheAbove → ∀ cls ∈ expectedClasses, cls ≠ noneOfTheAbove → ¬ MarkedLine fold block cls)

/-- The value behind a marker, which may be on a later line. -/
def valueBehind (rest : Text) : Text := (rest.dropWhile isSpace).takeWhile (· ≠ '\n')

/-- Each value that counts is on a later line than its marker. -/
def Borrowed (body : Text) : Prop :=
  ∀ u m rest, body = u ++ m ++ rest → IsMarker fold m → isNotAvailable (valueBehind rest) = false →
    '\n' ∈ rest.takeWhile isSpace

end Declared

section Evidence

variable {fold : Char → Char} {body value rest after : Text} {c : Char}

/-- A value that counts has a character that is no white space. -/
lemma exists_not_space (h : isNotAvailable value = false) : value.dropWhile isSpace ≠ [] := by
  intro hnil
  have hstrip : strip value = [] := by
    rw [strip, hnil]
    rfl
  simp [isNotAvailable, hstrip] at h

lemma isNotAvailable_dropWhile : isNotAvailable (value.dropWhile isSpace) = isNotAvailable value := by
  rw [isNotAvailable, strip, List.dropWhile_idempotent, isNotAvailable, strip]

lemma newline_stops (h : '\n' ∉ value) (hafter : after = [] ∨ after.head? = some '\n') :
    (value ++ after).takeWhile (· ≠ '\n') = value := by
  have hne (c : Char) (hc : c ∈ value) : decide (c ≠ '\n') = true := by
    refine decide_eq_true ?_
    rintro rfl
    exact h hc
  refine (span_run hne ?_).1
  rcases hafter with rfl | hafter
  · rfl
  · rw [hafter]
    rfl

/-- A value on the line of its marker is read as it is. -/
lemma valueBehind_of_line (hvalue : '\n' ∉ value) (hcounts : isNotAvailable value = false)
    (hafter : after = [] ∨ after.head? = some '\n') :
    valueBehind (value ++ after) = value.dropWhile isSpace ∧ (value ++ after).takeWhile isSpace = value.takeWhile isSpace := by
  obtain ⟨c, tail, hdrop⟩ := List.exists_cons_of_ne_nil (exists_not_space hcounts)
  have hsplit : value ++ after = value.takeWhile isSpace ++ (value.dropWhile isSpace ++ after) := by
    rw [← List.append_assoc, List.takeWhile_append_dropWhile]
  have hhead : (value.dropWhile isSpace ++ after).head?.any isSpace = false := by
    have hstop := head_dropWhile isSpace value
    rw [hdrop] at hstop ⊢
    exact hstop
  have hspaces (c : Char) (hc : c ∈ value.takeWhile isSpace) : isSpace c = true := List.mem_takeWhile_imp hc
  obtain ⟨hgap, hrest⟩ := span_run hspaces hhead
  rw [valueBehind, hsplit, hgap, hrest]
  exact ⟨newline_stops (fun h => hvalue ((List.dropWhile_suffix _).subset h)) hafter, rfl⟩

/-- The rest of a line, when the white space at its start does not go beyond it. -/
lemma rest_of_line (hgap : '\n' ∉ rest.takeWhile isSpace) :
    (rest.takeWhile (· ≠ '\n')).dropWhile isSpace = valueBehind rest := by
  induction rest with
  | nil => rfl
  | cons c rest ih =>
    by_cases hspace : isSpace c = true
    · rw [List.takeWhile_cons_of_pos hspace, List.mem_cons, not_or] at hgap
      have hne : c ≠ '\n' := fun h => hgap.1 h.symm
      rw [List.takeWhile_cons_of_pos (by simpa using hne), List.dropWhile_cons_of_pos hspace, ih hgap.2,
        valueBehind, valueBehind, List.dropWhile_cons_of_pos hspace]
    · have hne : c ≠ '\n' := by
        rintro rfl
        exact hspace (by decide)
      rw [valueBehind, List.dropWhile_cons_of_neg hspace, List.takeWhile_cons_of_pos (by simpa using hne),
        List.dropWhile_cons_of_neg hspace]

lemma evidenceLine_iff : EvidenceLine fold body ↔ ¬ Borrowed fold body := by
  rw [Borrowed]
  push Not
  constructor
  · rintro ⟨line, ⟨u₀, v₀, rfl, hline, -, hend⟩, u, m, value, rfl, hmarker, hcounts⟩
    have hvalue : '\n' ∉ value := fun h => hline (by simp [h])
    obtain ⟨hbehind, hgap⟩ := valueBehind_of_line hvalue hcounts hend
    refine ⟨u₀ ++ u, m, value ++ v₀, by simp, hmarker, ?_, ?_⟩
    · rw [hbehind, isNotAvailable_dropWhile, hcounts]
    · rw [hgap]
      exact fun h => hvalue ((List.takeWhile_prefix _).subset h)
  · rintro ⟨u, m, rest, rfl, hmarker, hcounts, hgap⟩
    obtain ⟨u₁, u₂, rfl, hline, hstart⟩ := exists_last_run (· == '\n') u
    refine ⟨u₂ ++ m ++ rest.takeWhile (· ≠ '\n'), ⟨u₁, rest.dropWhile (· ≠ '\n'), ?_, ?_, ?_, ?_⟩, u₂, m, _, rfl,
      hmarker, ?_⟩
    · simp only [List.append_assoc, List.takeWhile_append_dropWhile]
    · simp only [List.mem_append, not_or]
      refine ⟨⟨fun h => by simpa using hline _ h, hmarker.1⟩, fun h => by simpa using List.mem_takeWhile_imp h⟩
    · refine hstart.imp id ?_
      rintro ⟨c, hlast, hc⟩
      rw [hlast, beq_iff_eq.mp hc]
    · have hstop := head_dropWhile (· ≠ '\n') rest
      cases hdrop : rest.dropWhile (· ≠ '\n') with
      | nil => exact .inl rfl
      | cons c tail =>
        rw [hdrop] at hstop
        exact .inr (by simpa using hstop)
    · rw [← isNotAvailable_dropWhile, rest_of_line hgap, hcounts]

end Evidence

section Passing

variable {fold : Char → Char} {body block : Text} {labels : List String} {cls : String} {classes : List String}

lemma mem_triggered : cls ∈ triggered fold block classes ↔ cls ∈ classes ∧ checkboxState fold block cls = some true := by
  simp [triggered]

/-- What a passing body gives for the boxes that are read. -/
lemma runAllChecks_reads (h : runAllChecks fold body labels = true) (hblock : extractBoundaryBlock body = some block) :
    ((∃ cls ∈ userApprovalClasses, checkboxState fold block cls = some true) → userApprovalLabel ∈ labels) ∧
      (checkboxState fold block noneOfTheAbove = some true →
        ∀ cls ∈ expectedClasses, cls ≠ noneOfTheAbove → checkboxState fold block cls ≠ some true) := by
  simp only [runAllChecks, Bool.and_eq_true] at h
  obtain ⟨⟨⟨-, hnone⟩, -⟩, hlabel⟩ := h
  simp only [checkNoneExclusivity, checkUserApprovalLabel, withBlock, hblock, Option.any_some, Bool.or_eq_true,
    decide_eq_true_eq] at hnone hlabel
  constructor
  · rintro ⟨cls, hcls, hstate⟩
    refine hlabel.resolve_left fun hnil => ?_
    have hmem := mem_triggered.mpr ⟨hcls, hstate⟩
    simp [hnil] at hmem
  · intro hstate cls hcls hne hmarked
    have hnil := hnone.resolve_left fun hno => hno hstate
    have hother := List.filter_eq_nil_iff.mp hnil cls (mem_triggered.mpr ⟨hcls, hmarked⟩)
    exact hother (decide_eq_true hne)

end Passing

namespace Sample

/-- Seven boxes, of which the last is marked, and then a second, marked one. -/
def body : Text :=
  "## Boundary declaration (ADR-0011 §2.3)
- [ ] credential-read
- [ ] credential-write
- [ ] state-mutation (test cluster)
- [ ] state-mutation (production)
- [ ] boundary-cross
- [ ] user-communication
- [x] none of the above
- [x] credential-write
".toList

def block : Text :=
  "- [ ] credential-read
- [ ] credential-write
- [ ] state-mutation (test cluster)
- [ ] state-mutation (production)
- [ ] boundary-cross
- [ ] user-communication
- [x] none of the above
- [x] credential-write".toList

lemma marked : MarkedLine Char.toLower block "credential-write" := by
  refine ⟨"- [x] credential-write".toList, ⟨block.take (block.length - 22), [], ?_, ?_, .inr ?_, .inl rfl⟩, ?_⟩
  -- where the block stands in the goal, the kernel gets its characters as a list
  all_goals first | (unfold block; rewrite [String.toList_ofList]; decide +kernel) | decide +kernel

end Sample

end PlatformGitops.Governance
