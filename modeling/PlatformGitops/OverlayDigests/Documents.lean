import PlatformGitops.OverlayDigests.Rewriting

/-! Overlays as their image entries among other lines, and what has to hold of one for its digests to be written into it
and for nothing else to change. -/

namespace PlatformGitops.OverlayDigests

open Library
open Coordination (isLineEnd)

section Documents

/-- How a line ends; only the last line of a text may end bare. -/
inductive Ending where
  | lf | crlf | bare
deriving DecidableEq, Repr

def Ending.text : Ending → Text
  | lf => ['\n']
  | crlf => ['\r', '\n']
  | bare => []

/-- The ending as it is read. -/
def Ending.read : Ending → Text
  | lf => ['\n']
  | crlf => ['\n']
  | bare => []

/-- A line without its ending; for the line that holds the digest of an entry, what stands around the digest. -/
inductive Content where
  | plain (raw : Text)
  | digest (lead value trail : Text)

def Content.raw : Content → Text
  | plain raw => raw
  | digest lead value trail => lead ++ value ++ trail

def Content.IsDigest : Content → Prop
  | plain _ => False
  | digest _ _ _ => True

/-- An entry of the images, with the name that its new name is read as. -/
structure Entry where
  newName : Option Text
  lines : List (Content × Ending)

def Entry.service (entry : Entry) : Option Text := entry.newName.bind imageService?

inductive Part where
  | other (raw : Text) (ending : Ending)
  | entry (entry : Entry)

abbrev Overlay := List Part

/-- A line, with the service of its entry. -/
structure Row where
  service : Option Text
  content : Content
  ending : Ending

def Row.raw (row : Row) : Text := row.content.raw

def Row.text (row : Row) : Text := row.raw ++ row.ending.text

def Row.line (row : Row) : Text := row.raw ++ row.ending.read

def Part.rows : Part → List Row
  | other raw ending => [⟨none, .plain raw, ending⟩]
  | entry e => e.lines.map fun p => ⟨e.service, p.1, p.2⟩

def Overlay.rows (overlay : Overlay) : List Row := overlay.flatMap Part.rows

def textOf (rows : List Row) : Text := (rows.map Row.text).flatten

/-- The row with the mapped digest in the place of the old one. -/
def Row.update (digestMap : Dict Text Text) (row : Row) : Row :=
  match row.service.bind digestMap.get?, row.content with
  | some newDigest, .digest lead _ trail => { row with content := .digest lead newDigest trail }
  | _, _ => row

/-- The rows are the lines of a text. -/
structure Lined (rows : List Row) : Prop where
  unbroken : ∀ row ∈ rows, ∀ c ∈ row.raw, isLineEnd c = false
  ended : ∀ before row after, rows = before ++ row :: after → row.ending = .bare → after = [] ∧ row.raw ≠ []

/-- In an entry a line that reads `digest: <digest>` holds that digest. -/
def Placed (rows : List Row) : Prop :=
  ∀ row ∈ rows, ∀ lead value trail, row.content = .digest lead value trail →
    ∀ indent gap digest tail, row.raw = digestField indent gap digest tail → (∀ c ∈ indent, isTab c = true) →
      (∀ c ∈ gap, isTab c = true) → (∀ c ∈ tail, isTab c = true) → isDigest digest = true →
        lead = indent ++ ("digest:".toList ++ gap) ∧ value = digest ∧ trail = tail

variable (digestMap : Dict Text Text) (overlay : Overlay) (written : Text)

/-- Every entry of a service of the map has a digest. -/
def Complete : Prop :=
  ∀ entry, Part.entry entry ∈ overlay → ∀ svc, entry.service = some svc → (digestMap.get? svc).isSome = true →
    ∃ p ∈ entry.lines, p.1.IsDigest

/-- What was written is the overlay with the mapped digests, line for line. -/
structure Surgical : Prop where
  complete : Complete digestMap overlay
  unbroken : ∀ row ∈ overlay.rows.map (Row.update digestMap), ∀ c ∈ row.raw, isLineEnd c = false
  exact : written = textOf (overlay.rows.map (Row.update digestMap))

def Full : Prop := ∀ svc ∈ requiredServices, (digestMap.get? svc).isSome = true

/-- The lines that name a backend image name it under the canonical registry. -/
def CanonicalRegistry : Prop :=
  ∀ row ∈ overlay.rows, localService? row.raw = none ∧
    ∀ svc, newNameService? row.raw = some svc → canonicalService? row.raw = some svc

/-- The contract reads a full map back. -/
def ReadsBack : Prop :=
  Full digestMap → CanonicalRegistry overlay →
    ∀ isWord, ∃ answers, inspectOverlay isWord (some written) = some answers ∧ ∀ svc, answers.get? svc = digestMap.get? svc

/-- The lines that are rewritten hold the digests of their entries in the one spelling that is written, no other digest
has to change, and then no line ends in a carriage return. -/
structure Editable : Prop where
  complete : Complete digestMap overlay
  exact : ∀ svc newDigest, digestMap.get? svc = some newDigest → isDigest newDigest = true
  rewritten : ∀ place svc newDigest row, Rewrites digestMap (overlay.rows.map Row.raw) place svc →
    digestMap.get? svc = some newDigest → overlay.rows[place]? = some row →
      ∃ owner lead value trail indent digest, row.service = some owner ∧ digestMap.get? owner = some newDigest ∧
        row.content = .digest lead value trail ∧ digestLine? row.raw = some (indent, digest) ∧
          row.raw = digestText indent digest ∧ row.ending = .lf
  kept : ∀ (place : ℕ) row owner newDigest lead value trail, overlay.rows[place]? = some row → row.service = some owner →
    digestMap.get? owner = some newDigest → row.content = .digest lead value trail → value ≠ newDigest →
      ∃ svc, Rewrites digestMap (overlay.rows.map Row.raw) place svc
  ends : ∀ place svc, Rewrites digestMap (overlay.rows.map Row.raw) place svc → ∀ row ∈ overlay.rows, row.ending ≠ .crlf

/-- No rolled out service has two digest lines. -/
def Unrepeated (lines : List Text) : Prop :=
  ∀ svc ∈ requiredServices, ∀ place other, Attributed lines svc place → Attributed lines svc other → place = other

end Documents

section Reading

variable {rows before after : List Row} {row : Row} {digestMap : Dict Text Text} {raw : Text}

lemma Lined.tail (h : Lined (row :: rows)) : Lined rows :=
  ⟨fun r hr => h.unbroken r (List.mem_cons_of_mem _ hr), fun before r after hrows =>
    h.ended (row :: before) r after (by rw [hrows, List.cons_append])⟩

lemma isLineEnd_newline : isLineEnd '\n' = true := by decide

lemma not_break (h : ∀ c ∈ raw, isLineEnd c = false) : ∀ c ∈ raw, c ≠ '\r' ∧ c ≠ '\n' := by
  intro c hc
  constructor <;> rintro rfl <;> exact absurd (h _ hc) (by decide)

/-- What is read of the text of some rows. -/
lemma read_textOf (h : Lined rows) : Text.universalNewlines (textOf rows) = (rows.map Row.line).flatten := by
  rw [Text.universalNewlines]
  induction rows with
  | nil => rfl
  | cons row rows ih =>
    have hraw := not_break (h.unbroken row List.mem_cons_self)
    rw [textOf, List.map_cons, List.flatten_cons, List.map_cons, List.flatten_cons, ← textOf, Row.text, List.append_assoc,
      Text.translate_body hraw, Row.line, List.append_assoc]
    cases hending : row.ending with
    | lf => rw [Ending.text, Ending.read, List.singleton_append, Text.translate, if_neg (by decide), if_neg (by simp), ih h.tail,
        List.singleton_append]
    | crlf =>
      rw [Ending.text, Ending.read, List.cons_append, List.singleton_append, Text.translate, if_pos rfl, Text.translate,
        if_neg (by decide), if_pos (by simp), ih h.tail, List.singleton_append]
    | bare =>
      obtain ⟨rfl, -⟩ := h.ended [] row rows rfl hending
      rfl

lemma lines_kept (h : Lined rows) : Text.Kept isLineEnd (rows.map Row.line) := by
  induction rows with
  | nil => exact .nil
  | cons row rows ih =>
    have hraw := h.unbroken row List.mem_cons_self
    rw [List.map_cons, Row.line]
    cases hending : row.ending with
    | lf => exact .ended hraw isLineEnd_newline (ih h.tail)
    | crlf => exact .ended hraw isLineEnd_newline (ih h.tail)
    | bare =>
      obtain ⟨rfl, hne⟩ := h.ended [] row rows rfl hending
      rw [Ending.read, List.append_nil]
      exact .last hne hraw

lemma keptLines_textOf (h : Lined rows) : keptLines (Text.universalNewlines (textOf rows)) = rows.map Row.line := by
  rw [keptLines, read_textOf h, Text.keepEnds_flatten (lines_kept h)]

lemma chomp_newline (raw : Text) : chomp (raw ++ ['\n']) = raw := by
  rw [chomp, if_pos (by simp), List.dropLast_concat]

lemma chomp_of_unbroken (h : ∀ c ∈ raw, isLineEnd c = false) : chomp raw = raw := by
  rw [chomp, if_neg]
  intro hlast
  exact absurd (h _ (List.mem_of_getLast? hlast)) (by decide)

lemma chomp_line (h : ∀ c ∈ row.raw, isLineEnd c = false) : chomp row.line = row.raw := by
  rw [Row.line]
  cases row.ending with
  | lf => exact chomp_newline _
  | crlf => exact chomp_newline _
  | bare =>
    rw [Ending.read, List.append_nil]
    exact chomp_of_unbroken h

lemma map_chomp (h : Lined rows) : (rows.map Row.line).map chomp = rows.map Row.raw := by
  rw [List.map_map]
  exact List.map_congr_left fun row hrow => chomp_line (h.unbroken row hrow)

/-- The texts of rows are lines that end in newlines. -/
lemma texts_kept (h : Lined rows) : Text.Kept (· == '\n') (rows.map Row.text) := by
  induction rows with
  | nil => exact .nil
  | cons row rows ih =>
    have hraw : ∀ c ∈ row.raw, (c == '\n') = false := by
      intro c hc
      simpa using (not_break (h.unbroken row List.mem_cons_self) c hc).2
    rw [List.map_cons, Row.text]
    cases hending : row.ending with
    | lf => exact .ended hraw rfl (ih h.tail)
    | crlf =>
      have hsplit : row.raw ++ Ending.crlf.text = (row.raw ++ ['\r']) ++ ['\n'] := by simp [Ending.text]
      rw [hsplit]
      refine .ended (fun c hc => ?_) rfl (ih h.tail)
      rcases List.mem_append.mp hc with hc | hc
      · exact hraw c hc
      · obtain rfl := List.mem_singleton.mp hc
        rfl
    | bare =>
      obtain ⟨rfl, hne⟩ := h.ended [] row rows rfl hending
      rw [Ending.text, List.append_nil]
      exact .last hne hraw

end Reading

end PlatformGitops.OverlayDigests
