import PlatformGitops.PrAudit.Redaction

/-! When both substitutions leave nothing behind: what may stand next to what was replaced. -/

namespace PlatformGitops.PrAudit

open Library
open Library.Regex (Pattern Piece Scanned lastOr source result replaceAll_eq_result scanned_scan)
open Library.Regex.Pattern

section Junctions

/-- The last, or the first, of the pieces was replaced. -/
def EndsReplaced (ps : List Piece) : Prop := ∃ qs w, ps = qs ++ [.replaced w]

def StartsReplaced (ps : List Piece) : Prop := ∃ w qs, ps = .replaced w :: qs

/-- No character of the class stands before, or one that was replaced. -/
def OpenLeft (p : Char → Bool) (ps : List Piece) : Prop := EndsReplaced ps ∨ (lastOr none (source ps)).any p = false

def OpenRight (p : Char → Bool) (ps : List Piece) : Prop := StartsReplaced ps ∨ (source ps).head?.any p = false

variable (T : PyTables) (scopeText : Text)

/-- What the search for addresses makes of the text, and the search for numbers of what that leaves. -/
def addressPieces : List Piece := emailPattern.scan 0 none scopeText

def numberPieces : List Piece := (turkishPhonePattern (pyEngine T)).scan 0 none (redactEmails scopeText)

/-- An address that is kept, touches something that is replaced, and is free at both ends but for that. -/
def ExposedAddress : Prop :=
  ∃ s₁ s₂ t₁ z t₂, addressPieces scopeText = s₁ ++ z.map .kept ++ s₂ ∧ numberPieces T scopeText = t₁ ++ z.map .kept ++ t₂ ∧
    result emailMark s₁ = source t₁ ∧ (EndsReplaced s₁ ∨ EndsReplaced t₁ ∨ StartsReplaced t₂) ∧ IsAddress z ∧
    OpenLeft isLocalChar t₁ ∧ OpenRight isDomainChar t₂

/-- A number that is kept directly behind a number that is replaced. -/
def ExposedNumber : Prop :=
  ∃ t₁ z t₂, numberPieces T scopeText = t₁ ++ z.map .kept ++ t₂ ∧ EndsReplaced t₁ ∧ IsNumber (pyEngine T) z ∧
    OpenRight (pyEngine T).isDigit t₂

/-- No pattern matches anywhere in what is written, and the substitutions change nothing in it. -/
def NothingLeft : Prop :=
  emailPattern.search none (frameRedactedScope (redact T scopeText)) = false ∧
    (turkishPhonePattern (pyEngine T)).search none (frameRedactedScope (redact T scopeText)) = false ∧
      redact T (frameRedactedScope (redact T scopeText)) = frameRedactedScope (redact T scopeText)

end Junctions

section Framing

variable {T : PyTables} {o u v w z : Text} {c : Char} {ps : List Piece} {p q : Char → Bool}

lemma lastOr_any (hc : p c = false) : (lastOr (some c) u).any p = (lastOr none u).any p := by
  cases u with
  | nil => simp [hc]
  | cons d u => rw [Regex.lastOr_cons, Regex.lastOr_cons]

/-- What is matched behind a text that ends a line is matched at the start of a text. -/
lemma search_behind {a : Pattern} {Core : Text → Prop} {start : Text}
    (hmatch : ∀ {before w after}, a.Matches before w after ↔ before.any p = false ∧ Core w ∧ after.head?.any q = false)
    (hp : p '\n' = false) (hlast : lastOr none start = some '\n')
    (hnot : ∀ {u y z v}, start = u ++ y → y ≠ [] → Core z → y ++ o ≠ z ++ v) :
    a.search none (start ++ o) = true ↔
      ∃ u z v, o = u ++ z ++ v ∧ Core z ∧ (lastOr none u).any p = false ∧ v.head?.any q = false := by
  have hbefore (u : Text) : (lastOr none (start ++ u)).any p = (lastOr none u).any p := by
    rw [Regex.lastOr_append, hlast, lastOr_any hp]
  rw [search_iff]
  constructor
  · rintro ⟨u, w, after, htext, hm⟩
    obtain ⟨hleft, hcore, hright⟩ := hmatch.mp hm
    rw [List.append_assoc] at htext
    obtain ⟨y, rfl, rfl⟩ | ⟨y, hy, hrest⟩ := List.append_eq_append_iff.mp htext
    · rw [hbefore] at hleft
      exact ⟨y, w, after, by rw [List.append_assoc], hcore, hleft, hright⟩
    · cases y with
      | nil =>
        rw [List.append_nil] at hy
        rw [← hy, ← List.append_nil start, hbefore] at hleft
        exact ⟨[], w, after, by simpa using hrest.symm, hcore, hleft, hright⟩
      | cons c y => exact absurd hrest.symm (hnot hy nofun hcore)
  · rintro ⟨u, z, v, rfl, hcore, hleft, hright⟩
    exact ⟨start ++ u, z, v, by simp, hmatch.mpr ⟨by rwa [hbefore], hcore, hright⟩⟩

/-- The preamble ends a line, and no address or number reaches into it. -/
lemma preamble_facts : scopePreamble.getLast? = some '\n' ∧ '@' ∉ scopePreamble ∧ '+' ∉ scopePreamble ∧ '0' ∉ scopePreamble := by
  unfold scopePreamble
  simp only [String.toList_append]
  -- the kernel gets the characters of the lines as lists
  iterate 5 rewrite [String.toList_ofList]
  decide +kernel

lemma preamble_last : scopePreamble.getLast? = some '\n' := preamble_facts.1

lemma lastOr_preamble : lastOr none scopePreamble = some '\n' := by rw [lastOr, preamble_last]; rfl

lemma search_frame_email : emailPattern.search none (frameRedactedScope o) = true ↔
    ∃ u z v, o = u ++ z ++ v ∧ IsAddress z ∧ (lastOr none u).any isLocalChar = false ∧ v.head?.any isDomainChar = false := by
  refine search_behind email_matches (by decide) lastOr_preamble fun {u y z v} hu hne hz htext => ?_
  obtain ⟨t, rfl, -⟩ | ⟨t, rfl, -⟩ := List.append_eq_append_iff.mp htext
  · have hbreak : '\n' ∈ y := by
      have hlast := preamble_last
      rw [hu, List.getLast?_append_of_ne_nil _ hne] at hlast
      exact List.mem_of_getLast? hlast
    exact absurd (mentions_of_mem hz (List.mem_append_left t hbreak)) (by decide)
  · refine preamble_facts.2.1 ?_
    rw [hu]
    exact List.mem_append_right u (List.mem_append_left t hz.at_mem)

lemma search_frame_phone : (turkishPhonePattern (pyEngine T)).search none (frameRedactedScope o) = true ↔
    ∃ u z v, o = u ++ z ++ v ∧ IsNumber (pyEngine T) z ∧ (lastOr none u).any (pyEngine T).isDigit = false ∧
      v.head?.any (pyEngine T).isDigit = false := by
  refine search_behind phone_matches rfl lastOr_preamble fun {u y z v} hu hne hz htext => ?_
  obtain ⟨c, r, rfl, hc⟩ := hz.head
  cases y with
  | nil => exact hne rfl
  | cons d y =>
    obtain ⟨rfl, -⟩ := List.cons.inj htext
    have hmem : d ∈ scopePreamble := by
      rw [hu]
      simp
    rcases hc with rfl | rfl
    · exact preamble_facts.2.2.1 hmem
    · exact preamble_facts.2.2.2 hmem

end Framing

section Ends

variable {ps : List Piece} {m : Text} {p : Char → Bool}

/-- Between marks, an end is free if it is free in the text or touches a mark. -/
lemma openLeft_iff (hp : p '>' = false) :
    (lastOr none (result (bracketed m) ps)).any p = false ↔ OpenLeft p ps := by
  rcases List.eq_nil_or_concat ps with rfl | ⟨ps, last, rfl⟩
  · refine ⟨fun _ => .inr rfl, fun _ => rfl⟩
  · rw [List.concat_eq_append]
    cases last with
    | replaced w =>
      have hends : EndsReplaced (ps ++ [.replaced w]) := ⟨ps, w, rfl⟩
      have hlast : lastOr none (result (bracketed m) (ps ++ [.replaced w])) = some '>' := by
        simp [Piece.result, bracketed]
      rw [hlast]
      exact iff_of_true hp (.inl hends)
    | kept c =>
      have hends : ¬EndsReplaced (ps ++ [.kept c]) := by
        rintro ⟨qs, w, h⟩
        cases (List.append_inj' h rfl).2
      simp [OpenLeft, hends, Piece.result, Piece.source]

lemma openRight_iff (hp : p '<' = false) : (result (bracketed m) ps).head?.any p = false ↔ OpenRight p ps := by
  cases ps with
  | nil => exact ⟨fun _ => .inr rfl, fun _ => rfl⟩
  | cons first ps =>
    cases first with
    | replaced w =>
      have hstarts : StartsReplaced (.replaced w :: ps) := ⟨w, ps, rfl⟩
      simp [OpenRight, hstarts, Piece.result, bracketed, hp]
    | kept c =>
      have hstarts : ¬StartsReplaced (.kept c :: ps) := by
        rintro ⟨w, qs, h⟩
        cases h
      simp [OpenRight, hstarts, Piece.result, Piece.source]

end Ends

section Kept

variable {T : PyTables} {s scopeText z : Text} {ps t₁ t₂ : List Piece} {a : Pattern} {p q : Char → Bool}
  {Core : Text → Prop}

/-- A stretch that is kept and touches no match is no match itself. -/
lemma touches_of_kept
    (hmatch : ∀ {before w after}, a.Matches before w after ↔ before.any p = false ∧ Core w ∧ after.head?.any q = false)
    (hscan : Scanned a none s (t₁ ++ z.map .kept ++ t₂)) (hcore : Core z) (hne : z ≠ [])
    (hlast : ∀ before, (lastOr before z).any p = true) (hleft : OpenLeft p t₁) (hright : OpenRight q t₂) :
    EndsReplaced t₁ := by
  by_contra hends
  have hbefore := hleft.resolve_left hends
  have hafter : (source t₂).head?.any q = false := by
    refine hright.resolve_left ?_
    rintro ⟨w, qs, rfl⟩
    obtain ⟨rest, -, hrest⟩ := hscan.drop
    cases hrest with
    | replaced hmatch' _ _ =>
      have hfree := (hmatch.mp hmatch').1
      rw [Regex.source_append, Regex.source_kept, Regex.lastOr_append, hlast] at hfree
      cases hfree
  rw [List.append_assoc] at hscan
  obtain ⟨rest, -, hrest⟩ := hscan.drop
  cases z with
  | nil => exact hne rfl
  | cons c z =>
    refine hrest.no_match ?_ (hmatch.mpr ⟨hbefore, hcore, hafter⟩)
    have hsource := hrest.source_eq
    rw [Regex.source_append, Regex.source_kept] at hsource
    exact hsource.symm

lemma scanned_addresses (scopeText : Text) : Scanned emailPattern none scopeText (addressPieces scopeText) := by
  refine scanned_scan (fun before after h => ?_) none scopeText
  have hmem := (email_matches.mp h).2.1.at_mem
  cases hmem

lemma scanned_numbers (T : PyTables) (scopeText : Text) :
    Scanned (turkishPhonePattern (pyEngine T)) none (redactEmails scopeText) (numberPieces T scopeText) := by
  refine scanned_scan (fun before after h => ?_) none _
  obtain ⟨c, r, hnil, -⟩ := (phone_matches.mp h).2.1.head
  cases hnil

lemma emailMark_eq : emailMark = bracketed "redacted-email".toList := by decide

lemma phoneMark_eq : phoneMark = bracketed "redacted-phone".toList := by decide

lemma redactEmails_eq (scopeText : Text) :
    redactEmails scopeText = result (bracketed "redacted-email".toList) (addressPieces scopeText) := by
  rw [← emailMark_eq]
  exact replaceAll_eq_result emailMark 0

lemma redact_eq (T : PyTables) (scopeText : Text) :
    redact T scopeText = result (bracketed "redacted-phone".toList) (numberPieces T scopeText) := by
  rw [← phoneMark_eq]
  exact replaceAll_eq_result phoneMark 0

lemma IsAddress.last_local (h : IsAddress z) (before : Option Char) : (lastOr before z).any isLocalChar = true := by
  obtain ⟨c, hlast, hc⟩ := h.getLast
  simp [lastOr, hlast, domain_local (letter_domain hc)]

lemma IsNumber.last_digit {E : Engine} (h : IsNumber E z) (before : Option Char) :
    (lastOr before z).any E.isDigit = true := by
  obtain ⟨c, hlast, hc⟩ := h.getLast
  simp [lastOr, hlast, hc]

/-- An address is found in what is written just if it is kept and its ends are free but for marks. -/
lemma email_left_iff : emailPattern.search none (frameRedactedScope (redact T scopeText)) = true ↔
    ∃ t₁ z t₂, numberPieces T scopeText = t₁ ++ z.map .kept ++ t₂ ∧ IsAddress z ∧ OpenLeft isLocalChar t₁ ∧
      OpenRight isDomainChar t₂ := by
  rw [search_frame_email, redact_eq]
  constructor
  · rintro ⟨u, z, v, htext, hz, hleft, hright⟩
    obtain ⟨t₁, t₂, hpieces, rfl, rfl⟩ := kept_stretch hz.no_bracket ⟨'@', hz.at_mem, by decide⟩ htext
    exact ⟨t₁, z, t₂, hpieces, hz, (openLeft_iff (by decide)).mp hleft, (openRight_iff (by decide)).mp hright⟩
  · rintro ⟨t₁, z, t₂, hpieces, hz, hleft, hright⟩
    rw [hpieces, Regex.result_append, Regex.result_append, Regex.result_kept]
    exact ⟨_, z, _, rfl, hz, (openLeft_iff (by decide)).mpr hleft, (openRight_iff (by decide)).mpr hright⟩

lemma phone_left_iff : (turkishPhonePattern (pyEngine T)).search none (frameRedactedScope (redact T scopeText)) = true ↔
    ∃ t₁ z t₂, numberPieces T scopeText = t₁ ++ z.map .kept ++ t₂ ∧ IsNumber (pyEngine T) z ∧
      OpenLeft (pyEngine T).isDigit t₁ ∧ OpenRight (pyEngine T).isDigit t₂ := by
  rw [search_frame_phone, redact_eq]
  constructor
  · rintro ⟨u, z, v, htext, hz, hleft, hright⟩
    have hhead : ∃ c ∈ z, c ∉ "redacted-phone".toList := by
      obtain ⟨c, r, rfl, hc⟩ := hz.head
      refine ⟨c, List.mem_cons_self, ?_⟩
      rcases hc with rfl | rfl <;> decide
    obtain ⟨t₁, t₂, hpieces, rfl, rfl⟩ := kept_stretch hz.no_bracket hhead htext
    exact ⟨t₁, z, t₂, hpieces, hz, (openLeft_iff rfl).mp hleft, (openRight_iff rfl).mp hright⟩
  · rintro ⟨t₁, z, t₂, hpieces, hz, hleft, hright⟩
    rw [hpieces, Regex.result_append, Regex.result_append, Regex.result_kept]
    exact ⟨_, z, _, rfl, hz, (openLeft_iff rfl).mpr hleft, (openRight_iff rfl).mpr hright⟩

lemma exposedAddress_iff : ExposedAddress T scopeText ↔
    emailPattern.search none (frameRedactedScope (redact T scopeText)) = true := by
  rw [email_left_iff]
  constructor
  · rintro ⟨-, -, t₁, z, t₂, -, hpieces, -, -, hz, hleft, hright⟩
    exact ⟨t₁, z, t₂, hpieces, hz, hleft, hright⟩
  · rintro ⟨t₁, z, t₂, hpieces, hz, hleft, hright⟩
    have htext := (scanned_numbers T scopeText).source_eq
    rw [hpieces, Regex.source_append, Regex.source_append, Regex.source_kept, redactEmails_eq] at htext
    obtain ⟨s₁, s₂, hfirst, hs₁, hs₂⟩ := kept_stretch hz.no_bracket ⟨'@', hz.at_mem, by decide⟩ htext.symm
    refine ⟨s₁, s₂, t₁, z, t₂, hfirst, hpieces, by rw [emailMark_eq, hs₁], ?_, hz, hleft, hright⟩
    by_contra htouch
    obtain ⟨hends, htouch⟩ := not_or.mp htouch
    obtain ⟨hends', hstarts⟩ := not_or.mp htouch
    have hscan := scanned_addresses scopeText
    rw [hfirst] at hscan
    have hne : z ≠ [] := by
      rintro rfl
      cases hz.at_mem
    refine hends (touches_of_kept email_matches hscan hz hne hz.last_local ?_ ?_)
    · rw [← openLeft_iff (by decide), hs₁]
      exact hleft.resolve_left hends'
    · rw [← openRight_iff (by decide), hs₂]
      exact hright.resolve_left hstarts

lemma exposedNumber_iff : ExposedNumber T scopeText ↔
    (turkishPhonePattern (pyEngine T)).search none (frameRedactedScope (redact T scopeText)) = true := by
  rw [phone_left_iff]
  constructor
  · rintro ⟨t₁, z, t₂, hpieces, hends, hz, hright⟩
    exact ⟨t₁, z, t₂, hpieces, hz, .inl hends, hright⟩
  · rintro ⟨t₁, z, t₂, hpieces, hz, hleft, hright⟩
    have hscan := scanned_numbers T scopeText
    rw [hpieces] at hscan
    have hne : z ≠ [] := by
      obtain ⟨c, r, rfl, -⟩ := hz.head
      nofun
    exact ⟨t₁, z, t₂, hpieces, touches_of_kept phone_matches hscan hz hne hz.last_digit hleft hright, hz, hright⟩

end Kept

theorem nothing_left_iff (T : PyTables) (scopeText : Text) :
    NothingLeft T scopeText ↔ ¬ExposedAddress T scopeText ∧ ¬ExposedNumber T scopeText := by
  rw [exposedAddress_iff, exposedNumber_iff, Bool.not_eq_true, Bool.not_eq_true, NothingLeft]
  constructor
  · rintro ⟨haddress, hnumber, -⟩
    exact ⟨haddress, hnumber⟩
  · rintro ⟨haddress, hnumber⟩
    refine ⟨haddress, hnumber, ?_⟩
    have hemails : redactEmails (frameRedactedScope (redact T scopeText)) = frameRedactedScope (redact T scopeText) :=
      Regex.replaceAll_of_no_match emailMark haddress
    rw [redact, hemails]
    exact Regex.replaceAll_of_no_match phoneMark hnumber

/-- An address behind another one, and a number behind another one. -/
def joinedAddresses : Text := "+Owner: ali@a.com_veli@b.com".toList

def joinedNumbers : Text := "+Tel: 05321234567+905327654321".toList

def asciiTables : PyTables := ⟨fun _ => false, fun _ => false, id⟩

theorem joined_addresses_and_numbers_left :
    (¬ ∀ (T : PyTables) (scopeText : Text),
      emailPattern.search none (frameRedactedScope (redact T scopeText)) = false) ∧
    (¬ ∀ (T : PyTables) (scopeText : Text),
      (turkishPhonePattern (pyEngine T)).search none (frameRedactedScope (redact T scopeText)) = false) ∧
    ¬ ∀ (T : PyTables) (scopeText : Text), NothingLeft T scopeText := by
  have haddress : emailPattern.search none (frameRedactedScope (redact asciiTables joinedAddresses)) = true := by
    unfold frameRedactedScope scopePreamble joinedAddresses
    simp only [String.toList_append]
    iterate 6 rewrite [String.toList_ofList]
    decide +kernel
  have hnumber : (turkishPhonePattern (pyEngine asciiTables)).search none
      (frameRedactedScope (redact asciiTables joinedNumbers)) = true := by
    unfold frameRedactedScope scopePreamble joinedNumbers
    simp only [String.toList_append]
    iterate 6 rewrite [String.toList_ofList]
    decide +kernel
  refine ⟨fun h => ?_, fun h => ?_, fun h => ?_⟩
  · exact absurd (h asciiTables joinedAddresses) (by rw [haddress]; decide)
  · exact absurd (h asciiTables joinedNumbers) (by rw [hnumber]; decide)
  · exact absurd (h asciiTables joinedAddresses).1 (by rw [haddress]; decide)

end PlatformGitops.PrAudit
