import PlatformGitops.PrAudit.Accepted

/-! A declared mode that another section hides, and retired receipts that the field parser does not read. -/

namespace PlatformGitops.PrAudit

open Library

/-- A line of the form `key: ...`. -/
def IsLineOf (key : String) (line : Text) : Prop :=
  ∃ name value, splitColon line = some (name, value) ∧ (trim name).map foldChar = key.toList

def HasLine (key : String) (text : Text) : Prop := ∃ line ∈ splitLines text, IsLineOf key line

/-- The parser reads the field, once the fences are removed. -/
def ReadsField (key : String) (text : Text) : Prop :=
  ∃ line ∈ splitLines (removeFences text), ∃ value, fieldLine line = some (key, value)

variable (S : Surroundings) (prMeta : PrMeta) (body : Text)

/-- A section with a mode line keeps the body out of the lane without a mode. -/
def ModeNotShadowed : Prop :=
  (∃ text ∈ collectHeadingSections body true, HasLine "consultation mode" text) →
    ¬(Passes S prMeta body ∧ (extractFields (extractCrossAiSection body)).has "consultation mode" = false)

/-- A retired receipt in the section makes the audit fail. -/
def RetiredReceiptsFail : Prop :=
  (∃ key ∈ forbiddenConsultationFields, HasLine key (extractCrossAiSection body)) → ¬Passes S prMeta body

/-- No key is doubled, and the lane that the fields lead to accepts them. -/
def LaneAccepts (text : Text) : Prop :=
  (extractFields text).duplicateFields = [] ∧
    ((ReadsField "consultation mode" text ∧ ExplicitAccepted S (extractFields text) prMeta) ∨
      (¬ReadsField "consultation mode" text ∧ LegacyAccepted (extractFields text) prMeta))

variable {S prMeta body} {fields : Fields} {key : String} {line : Text} {lines : List Text} {text : Text}

lemma has_add : (fields.add line).has key = true ↔ fields.has key = true ∨ ∃ value, fieldLine line = some (key, value) := by
  unfold Fields.add
  cases hline : fieldLine line with
  | none => simp
  | some p =>
    obtain ⟨name, value⟩ := p
    simp only [Fields.has, Dict.get?, Dict.lookup_set]
    by_cases hkey : key = name
    · simp [hkey]
    · simp [hkey, Ne.symm hkey]

lemma has_foldl : (lines.foldl Fields.add fields).has key = true ↔
    fields.has key = true ∨ ∃ line ∈ lines, ∃ value, fieldLine line = some (key, value) := by
  induction lines generalizing fields with
  | nil => simp
  | cons line lines ih =>
    rw [List.foldl_cons, ih, has_add, or_assoc]
    simp only [List.mem_cons, exists_eq_or_imp]

lemma has_extractFields : (extractFields text).has key = true ↔ ReadsField key text := by
  rw [extractFields, has_foldl, or_iff_right]
  · rfl
  · exact Bool.false_ne_true

/-- The parser knows one of the retired receipts only. -/
lemma glm_not_read : (extractFields text).has "glm receipt" = false := by
  rw [Bool.eq_false_iff]
  intro h
  obtain ⟨line, -, value, hline⟩ := has_extractFields.mp h
  unfold fieldLine at hline
  split at hline
  · cases hline
  · dsimp only at hline
    split at hline
    · next hkey =>
      obtain ⟨hname, -⟩ := Prod.mk.inj (Option.some.inj hline)
      rw [hname] at hkey
      exact absurd hkey.1 (by decide)
    · cases hline

lemma forbidden_iff : (∀ key ∈ forbiddenConsultationFields, (extractFields text).has key = false) ↔
    ¬ReadsField "minimax receipt" text := by
  rw [← has_extractFields, Bool.not_eq_true, forbiddenConsultationFields]
  simp [glm_not_read]

lemma passes_iff_lane : Passes S prMeta body ↔ ¬ReadsField "minimax receipt" (extractCrossAiSection body) ∧
    LaneAccepts S prMeta (extractCrossAiSection body) := by
  rw [passes_iff, forbidden_iff]
  generalize extractCrossAiSection body = text
  have hlane : (if (extractFields text).has "consultation mode" = true then ExplicitAccepted S (extractFields text) prMeta
      else LegacyAccepted (extractFields text) prMeta) ↔
        (ReadsField "consultation mode" text ∧ ExplicitAccepted S (extractFields text) prMeta) ∨
          (¬ReadsField "consultation mode" text ∧ LegacyAccepted (extractFields text) prMeta) := by
    rw [← has_extractFields]
    by_cases h : (extractFields text).has "consultation mode" = true <;> simp [h]
  rw [hlane]
  constructor
  · rintro ⟨-, hdouble, hminimax, hlane⟩
    exact ⟨hminimax, hdouble, hlane⟩
  · rintro ⟨hminimax, hdouble, hlane⟩
    refine ⟨?_, hdouble, hminimax, hlane⟩
    -- an empty text has no field, so neither lane accepts it
    rintro rfl
    rcases hlane with ⟨hmode, -⟩ | ⟨-, hlegacy⟩
    · exact absurd (has_extractFields.mpr hmode) (by decide)
    · exact hlegacy.required "verdict" (by decide) (by decide)

theorem mode_and_retired_receipts_iff (S : Surroundings) (prMeta : PrMeta) (body : Text) :
    (ModeNotShadowed S prMeta body ∧ RetiredReceiptsFail S prMeta body) ↔
      ((∃ text ∈ collectHeadingSections body true, HasLine "consultation mode" text) →
        ReadsField "consultation mode" (extractCrossAiSection body) ∨
          ReadsField "minimax receipt" (extractCrossAiSection body) ∨
            ¬LaneAccepts S prMeta (extractCrossAiSection body)) ∧
      ((∃ key ∈ forbiddenConsultationFields, HasLine key (extractCrossAiSection body)) →
        ReadsField "minimax receipt" (extractCrossAiSection body) ∨
          ¬LaneAccepts S prMeta (extractCrossAiSection body)) := by
  unfold ModeNotShadowed RetiredReceiptsFail
  rw [passes_iff_lane, ← Bool.not_eq_true, has_extractFields]
  refine and_congr (forall_congr' fun _ => ?_) (forall_congr' fun _ => ?_)
  · rw [not_and_or, not_and_or, not_not, not_not, or_comm]
  · rw [not_and_or, not_not]

/-- A mode section in front of a section of the old shape. -/
def shadowedBody : Text :=
  ("## Cross-AI\nConsultation mode: single\n## Cross-AI\nImplementer AI: Claude\nReviewer AI: Codex\n" ++
    "Codex thread: N/A\nVerdict: AGREE\nCross-AI exempt reason: archive move only").toList

/-- A retired receipt that the parser does not know. -/
def glmBody : Text :=
  ("## Cross-AI\nImplementer AI: Codex\nConsultation mode: none\n" ++
    "Consultation reason: label update in one overlay\nGLM receipt: provider=glm").toList

def quietSurroundings : Surroundings where
  parseUrl := fun _ => none
  parseDate := fun _ => none
  parseJson := fun _ => none
  stringOf := fun _ => []
  sha256 := id
  isLetterOrNumber := isAsciiAlnum
  lowerCase := toLowerCase
  fetchComment := fun _ => none
  now := 0

def changing (path : String) : PrMeta := ⟨[], [], [], [], [], [], [], [], [], some [path.toList]⟩

def verdictOf (result : Except Raised (List Finding)) : Bool := result.toOption.any allPass

lemma passes_of_verdict (h : verdictOf (audit S body prMeta) = true) : Passes S prMeta body := by
  unfold verdictOf at h
  cases hresult : audit S body prMeta with
  | error e => simp [hresult, Except.toOption] at h
  | ok findings => exact ⟨findings, hresult, by simpa [hresult, Except.toOption] using h⟩

example : verdictOf (.ok []) = true := by decide +kernel

lemma shadowedBody_facts : Passes quietSurroundings (changing "docs/archive/notes.md") shadowedBody ∧
    (extractFields (extractCrossAiSection shadowedBody)).has "consultation mode" = false ∧
      "Consultation mode: single".toList ∈ collectHeadingSections shadowedBody true := by
  unfold shadowedBody
  simp only [String.toList_append]
  -- the kernel gets the characters of the pieces as lists
  iterate 3 rewrite [String.toList_ofList]
  exact ⟨passes_of_verdict (by decide +kernel), by decide +kernel⟩

example : verdictOf (.error .raised) = false := by decide +kernel

lemma glmBody_facts : Passes quietSurroundings (changing "kustomize/base/labels.yaml") glmBody ∧
    "GLM receipt: provider=glm".toList ∈ splitLines (extractCrossAiSection glmBody) := by
  unfold glmBody
  simp only [String.toList_append]
  iterate 3 rewrite [String.toList_ofList]
  exact ⟨passes_of_verdict (by decide +kernel), by decide +kernel⟩

theorem shadowed_mode_and_glm_receipt_pass :
    (¬ ∀ (S : Surroundings) (prMeta : PrMeta) (body : Text), ModeNotShadowed S prMeta body) ∧
      ¬ ∀ (S : Surroundings) (prMeta : PrMeta) (body : Text), RetiredReceiptsFail S prMeta body := by
  constructor
  · intro h
    obtain ⟨hpasses, hmode, hsection⟩ := shadowedBody_facts
    refine h quietSurroundings (changing "docs/archive/notes.md") shadowedBody ?_ ⟨hpasses, hmode⟩
    refine ⟨"Consultation mode: single".toList, hsection, "Consultation mode: single".toList, by decide +kernel, ?_⟩
    exact ⟨"Consultation mode".toList, " single".toList, by decide +kernel, by decide +kernel⟩
  · intro h
    refine h quietSurroundings (changing "kustomize/base/labels.yaml") glmBody ?_ glmBody_facts.1
    refine ⟨"glm receipt", by decide, "GLM receipt: provider=glm".toList, glmBody_facts.2, ?_⟩
    exact ⟨"GLM receipt".toList, " provider=glm".toList, by decide +kernel, by decide +kernel⟩

end PlatformGitops.PrAudit
