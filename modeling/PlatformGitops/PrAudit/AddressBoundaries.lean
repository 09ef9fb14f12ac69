import PlatformGitops.Coordination.KeyBlock
import PlatformGitops.Library.Spans
import PlatformGitops.PrAudit.EvidenceText
import PlatformGitops.PrAudit.Junctions
import Mathlib

/-! Addresses among other characters: which of them the search for addresses takes whole. -/

namespace PlatformGitops.PrAudit

open Library
open Library.Regex (Pattern Piece Scanned lastOr source cut_outside)
open Library.Regex.Pattern
open Coordination (strip isBlank)

section Addresses

def IsName (name : Text) : Prop := name ≠ [] ∧ ∀ c ∈ name, isLocalChar c = true

def IsLabel (label : Text) : Prop := label ≠ [] ∧ ∀ c ∈ label, isAsciiAlnum c = true ∨ c = '-'

/-- Labels, and a top level of two letters at least. -/
inductive IsHost : Text → Prop
  | top {label top} : IsLabel label → 2 ≤ top.length → (∀ c ∈ top, isAsciiLetter c = true) → IsHost (label ++ '.' :: top)
  | label {label host} : IsLabel label → IsHost host → IsHost (label ++ '.' :: host)

/-- An address in a text, between characters that are no part of it. -/
structure Standing (before name host after : Text) : Prop where
  name : IsName name
  host : IsHost host
  left : (lastOr none before).any isLocalChar = false
  right : after.head?.any isAsciiAlnum = false

/-- The characters that the search takes for a domain end in a top level. -/
def IsDomain (domain : Text) : Prop :=
  ∃ x top, domain = x ++ '.' :: top ∧ (x ≠ [] ∧ ∀ c ∈ x, isDomainChar c = true) ∧ 2 ≤ top.length ∧
    ∀ c ∈ top, isAsciiLetter c = true

/-- The start of the name is taken for the domain of an address that ends in it, which is not itself taken so. -/
def Taken (before name : Text) : Prop :=
  ∃ earlier name', ∃ _ : before = earlier ++ name' ++ ['@'], IsName name' ∧
    (lastOr none earlier).any isLocalChar = false ∧ IsDomain (name.takeWhile isDomainChar) ∧ ¬Taken earlier name'
termination_by before.length

/-- The search takes the address as a whole. -/
def RedactedIn (before address after : Text) : Prop :=
  ∃ ps x y qs, addressPieces (before ++ address ++ after) = ps ++ .replaced (x ++ address ++ y) :: qs ∧ source ps ++ x = before

/-- The scope is redacted, and no response with the address is posted or accepted. -/
def Caught (before address after : Text) : Prop :=
  RedactedIn before address after ∧
    (∀ X args, ∃ code, buildCrossAiEvidence X args (before ++ address ++ after) = .error code) ∧
    (∀ X text fields, X.loads text = some (.obj fields) →
      (Json.obj fields).get "response" = textJson (before ++ address ++ after) →
        ∃ code, validateEvidenceText X text = .error code) ∧
    containsSensitiveResponse (before ++ address ++ after) = true

end Addresses

section Places

variable {before : Option Char} {s w after name name' host pre rest rest' x y : Text} {ps qs rs : List Piece} {c : Char}

lemma isDomain_of_isHost (h : IsHost host) : IsDomain host := by
  have hlabel {label : Text} (h : IsLabel label) : ∀ c ∈ label, isDomainChar c = true := by
    intro c hc
    rcases h.2 c hc with halnum | rfl
    · simp [isDomainChar, halnum]
    · rfl
  induction h with
  | @top label top h hlen htop => exact ⟨label, top, rfl, ⟨h.1, hlabel h⟩, hlen, htop⟩
  | @label label host h _ ih =>
    obtain ⟨x, top, rfl, ⟨-, hx⟩, hlen, htop⟩ := ih
    refine ⟨label ++ '.' :: x, top, by simp, ⟨by simp, fun c hc => ?_⟩, hlen, htop⟩
    rcases List.mem_append.mp hc with hc | hc
    · exact hlabel h c hc
    · obtain rfl | hc := List.mem_cons.mp hc
      · rfl
      · exact hx c hc

lemma IsDomain.all (h : IsDomain host) : ∀ c ∈ host, isDomainChar c = true := by
  obtain ⟨x, top, rfl, ⟨-, hx⟩, -, htop⟩ := h
  intro c hc
  rcases List.mem_append.mp hc with hc | hc
  · exact hx c hc
  · obtain rfl | hc := List.mem_cons.mp hc
    · rfl
    · exact letter_domain (htop c hc)

lemma IsDomain.ne_nil (h : IsDomain host) : host ≠ [] := by
  obtain ⟨x, top, rfl, -⟩ := h
  simp

lemma at_not_mem (h : ∀ c ∈ w, isLocalChar c = true) : '@' ∉ w := fun hat => absurd (h '@' hat) (by decide)

/-- Two names in front of the first at sign are one. -/
lemma name_unique (hname : '@' ∉ name) (hname' : '@' ∉ name') (h : name ++ '@' :: rest = name' ++ '@' :: rest') :
    name = name' ∧ rest = rest' := by
  obtain ⟨t, rfl, ht⟩ | ⟨t, rfl, ht⟩ := List.append_eq_append_iff.mp h
  · cases t with
    | nil => exact ⟨by simp, (List.cons.inj ht).2⟩
    | cons d t => simp [← (List.cons.inj ht).1] at hname'
  · cases t with
    | nil => exact ⟨by simp, (List.cons.inj ht).2.symm⟩
    | cons d t => simp [← (List.cons.inj ht).1] at hname

lemma takeWhile_stop {p : Char → Bool} (hc : p c = false) : (w ++ c :: rest).takeWhile p = w.takeWhile p := by
  induction w with
  | nil => rw [List.nil_append, List.takeWhile_cons_of_neg (by simpa using hc), List.takeWhile_nil]
  | cons d w ih => rw [List.cons_append, List.takeWhile_cons, List.takeWhile_cons, ih]

lemma isAddress_split : IsAddress w ↔ ∃ name host, w = name ++ '@' :: host ∧ IsName name ∧ IsDomain host := by
  rw [isAddress_iff]
  constructor
  · rintro ⟨name, x, top, rfl, hname, hx, hlen, htop⟩
    exact ⟨name, _, rfl, hname, x, top, rfl, hx, hlen, htop⟩
  · rintro ⟨name, _, rfl, hname, x, top, rfl, hx, hlen, htop⟩
    exact ⟨name, x, top, rfl, hname, hx, hlen, htop⟩

/-- What matches at a name goes up to the end of the run of domain characters. -/
lemma match_at (h : emailPattern.Matches before w after) (hs : w ++ after = name ++ '@' :: rest) (hname : IsName name) :
    w = name ++ '@' :: rest.takeWhile isDomainChar ∧ IsDomain (rest.takeWhile isDomainChar) := by
  obtain ⟨-, haddress, hafter⟩ := email_matches.mp h
  obtain ⟨name', host, rfl, hname', hhost⟩ := isAddress_split.mp haddress
  rw [List.append_assoc, List.cons_append] at hs
  obtain ⟨rfl, rfl⟩ := name_unique (at_not_mem hname'.2) (at_not_mem hname.2) hs
  rw [(span_run hhost.all hafter).1]
  exact ⟨rfl, hhost⟩

lemma matches_at (hname : IsName name) (hbefore : before.any isLocalChar = false)
    (hdomain : IsDomain (rest.takeWhile isDomainChar)) :
    emailPattern.Matches before (name ++ '@' :: rest.takeWhile isDomainChar) (rest.dropWhile isDomainChar) :=
  email_matches.mpr ⟨hbefore, isAddress_split.mpr ⟨name, _, rfl, hname, hdomain⟩, head_dropWhile _ _⟩

/-- An address that is cut behind a character that is in no name is cut at its sign. -/
lemma address_cut (h : IsAddress (x ++ y)) (hx : x ≠ []) (hleft : (lastOr before x).any isLocalChar = false) :
    ∃ name, x = name ++ ['@'] ∧ IsName name ∧ IsDomain y := by
  obtain ⟨name, host, hw, hname, hhost⟩ := isAddress_split.mp h
  obtain rfl | ⟨x, c, rfl⟩ := List.eq_nil_or_concat x
  · exact absurd rfl hx
  · rw [List.concat_eq_append] at hw hleft ⊢
    have hc : isLocalChar c = false := by simpa using hleft
    have hmem : c ∈ name ++ '@' :: host := by
      rw [← hw]
      simp
    obtain hmem | hmem := List.mem_append.mp hmem
    · rw [hname.2 c hmem] at hc
      cases hc
    · obtain rfl | hmem := List.mem_cons.mp hmem
      · rw [List.append_assoc, List.singleton_append] at hw
        have hhost' : '@' ∉ host := at_not_mem fun c hc => domain_local (hhost.all c hc)
        obtain ⟨rfl, -, rfl⟩ := (List.append_cons_inj_of_notMem (at_not_mem hname.2) hhost').mp hw.symm
        exact ⟨name, rfl, hname, hhost⟩
      · rw [domain_local (hhost.all c hmem)] at hc
        cases hc

/-- Where a name starts that no match goes on into, the search takes it with its domain. -/
lemma replaced_at (h : Scanned emailPattern none s (qs ++ rs)) (hrest : source rs = name ++ '@' :: rest)
    (hname : IsName name) (hleft : (lastOr none (source qs)).any isLocalChar = false)
    (hdomain : IsDomain (rest.takeWhile isDomainChar)) :
    ∃ rs', rs = .replaced (name ++ '@' :: rest.takeWhile isDomainChar) :: rs' := by
  obtain ⟨text, -, hscan⟩ := h.drop
  have hmatch := matches_at hname hleft hdomain
  have htext : text = (name ++ '@' :: rest.takeWhile isDomainChar) ++ rest.dropWhile isDomainChar := by
    rw [← hscan.source_eq, hrest, List.append_assoc, List.cons_append, List.takeWhile_append_dropWhile]
  cases hscan with
  | nil => simp at hrest
  | kept hrun hps => exact absurd hmatch ((Scanned.kept hrun hps).no_match htext)
  | @replaced _ w after rs' hw hne hps =>
    have hsplit : w ++ after = name ++ '@' :: rest := by
      rw [htext, List.append_assoc, List.cons_append, List.takeWhile_append_dropWhile]
    exact ⟨rs', by rw [(match_at hw hsplit hname).1]⟩

/-- The matches that go on into a name are those that take its start for a domain. -/
lemma taken_iff (h : Scanned emailPattern none s ps) (hs : s = pre ++ (name ++ '@' :: rest)) (hname : IsName name)
    (hleft : (lastOr none pre).any isLocalChar = false) :
    Taken pre name ↔
      ∃ qs x y rs, ps = qs ++ .replaced (x ++ y) :: rs ∧ x ≠ [] ∧ y ≠ [] ∧ source qs ++ x = pre := by
  induction hlen : pre.length using Nat.strong_induction_on generalizing pre name rest with
  | _ n ih =>
    rw [Taken]
    constructor
    · rintro ⟨earlier, name', rfl, hname', hearlier, hdomain, hfree⟩
      have hrun : (name ++ '@' :: rest).takeWhile isDomainChar = name.takeWhile isDomainChar := takeWhile_stop rfl
      have hs' : s = earlier ++ (name' ++ '@' :: (name ++ '@' :: rest)) := by simpa using hs
      have hnot := mt (ih earlier.length (by simp [← hlen]) hs' hname' hearlier rfl).mpr hfree
      rw [hs'] at h
      obtain ⟨qs, rs, rfl, rfl, hrs⟩ | hinside := h.cut
      · obtain ⟨rs', rfl⟩ := replaced_at h hrs hname' hearlier (by rwa [hrun])
        refine ⟨qs, name' ++ ['@'], name.takeWhile isDomainChar, rs', ?_, by simp, hdomain.ne_nil, by simp⟩
        rw [hrun, List.append_assoc, List.singleton_append]
      · obtain ⟨qs, x, y, rs, hps, hx, hy, hsource, -⟩ := hinside
        exact absurd ⟨qs, x, y, rs, hps, hx, hy, hsource⟩ hnot
    · rintro ⟨qs, x, y, rs, rfl, hx, hy, rfl⟩
      obtain ⟨text, htext, hscan⟩ := h.drop
      rw [List.append_assoc] at hs
      have hrest : text = x ++ (name ++ '@' :: rest) := List.append_cancel_left (htext.symm.trans hs)
      cases hscan with
      | replaced hmatch hne hps =>
        obtain ⟨hearlier, haddress, hafter⟩ := email_matches.mp hmatch
        rw [Regex.lastOr_append] at hleft
        obtain ⟨name', rfl, hname', hhost⟩ := address_cut haddress hx hleft
        rename_i after
        have hy' : y ++ after = name ++ '@' :: rest := by simpa using hrest
        have hrun : name.takeWhile isDomainChar = y := by
          rw [← (span_run hhost.all hafter).1, hy', takeWhile_stop rfl]
        refine ⟨source qs, name', by simp, hname', hearlier, hrun.symm ▸ hhost, fun htaken => ?_⟩
        have hs' : s = source qs ++ (name' ++ '@' :: (y ++ after)) := by rw [hs, ← hy']; simp
        obtain ⟨qs', x', y', rs', hps', hx', hy', hsource⟩ := (ih _ (by simp [← hlen]) hs' hname' hearlier rfl).mp htaken
        exact (cut_outside hps' hsource.symm).elim hx' hy'

variable {address text : Text}

lemma redactedIn_iff (h : Standing pre name host text) :
    RedactedIn pre (name ++ '@' :: host) text ↔
      IsDomain (host ++ text.takeWhile isDomainChar) ∧ ¬Taken pre name := by
  have hscan := scanned_addresses (pre ++ (name ++ '@' :: host) ++ text)
  have hs : pre ++ (name ++ '@' :: host) ++ text = pre ++ (name ++ '@' :: (host ++ text)) := by simp
  have htaken := taken_iff hscan hs h.name h.left
  have hrun : (host ++ text).takeWhile isDomainChar = host ++ text.takeWhile isDomainChar :=
    List.takeWhile_append_of_pos (isDomain_of_isHost h.host).all
  constructor
  · rintro ⟨ps, x, y, qs, hps, rfl⟩
    rw [hps] at hscan
    obtain ⟨rest, hrest, hscan'⟩ := hscan.drop
    rw [hs, List.append_assoc] at hrest
    generalize hw : x ++ (name ++ '@' :: host) ++ y = w at hscan'
    cases hscan' with
    | @replaced _ _ after _ hmatch _ _ =>
      obtain ⟨hleft, haddress, -⟩ := email_matches.mp hmatch
      subst hw
      have hx : x = [] := by
        by_contra hx
        rw [List.append_assoc] at haddress
        have hlast := h.left
        rw [Regex.lastOr_append] at hlast
        obtain ⟨name', -, -, hdomain⟩ := address_cut haddress hx hlast
        exact absurd (hdomain.all '@' (by simp)) (by decide)
      subst hx
      have hsplit : ([] ++ (name ++ '@' :: host) ++ y) ++ after = name ++ '@' :: (host ++ text) := by
        simpa using (List.append_cancel_left hrest).symm
      obtain ⟨-, hdomain⟩ := match_at hmatch hsplit h.name
      rw [hrun] at hdomain
      refine ⟨hdomain, fun hinside => ?_⟩
      obtain ⟨qs', x', y', rs', hps', hx', hy', hsource⟩ := htaken.mp hinside
      rw [hps] at hps'
      exact (cut_outside hps' (by simpa using hsource.symm)).elim hx' hy'
  · rintro ⟨hdomain, hfree⟩
    rw [hs] at hscan
    obtain ⟨qs, rs, hps, hsource, hrs⟩ | ⟨qs, x, y, rs, hps, hx, hy, hsource, -⟩ := hscan.cut
    · rw [hps] at hscan
      obtain ⟨rs', rfl⟩ := replaced_at hscan hrs h.name (by rw [hsource]; exact h.left) (by rwa [hrun])
      refine ⟨qs, [], text.takeWhile isDomainChar, rs', ?_, by rw [hsource, List.append_nil]⟩
      rw [addressPieces, hs, ← addressPieces, hps, hrun]
      simp
    · rw [← hs] at hps
      exact absurd (htaken.mpr ⟨qs, x, y, rs, hps, hx, hy, hsource⟩) hfree

lemma search_of_redactedIn (h : RedactedIn pre address text) :
    emailPattern.search none (pre ++ address ++ text) = true := by
  obtain ⟨ps, x, y, qs, hps, rfl⟩ := h
  have hscan := scanned_addresses (source ps ++ x ++ address ++ text)
  rw [hps] at hscan
  obtain ⟨rest, hrest, hscan'⟩ := hscan.drop
  cases hscan' with
  | @replaced _ w after _ hmatch _ _ => exact search_iff.mpr ⟨source ps, _, after, by rw [hrest]; simp, hmatch⟩

lemma containsSensitive_of_email {E : Engine} (h : emailPattern.search none s = true) : containsSensitive E s = true := by
  rw [containsSensitive, sensitivePatterns, List.any_cons, h, Bool.true_or]

end Places

section Stripping

variable {p q : Char → Bool} {u v w s : Text} {b b' : Option Char} {c : Char}

lemma lastOr_translate (hp : p '\n' = false) (afterCr : Bool) (hb : b.any p = false → b'.any p = false)
    (hcr : afterCr = true → b'.any p = false) (h : (lastOr b u).any p = false) :
    (lastOr b' (Text.translate afterCr u)).any p = false := by
  induction u generalizing b b' afterCr with
  | nil => exact hb h
  | cons c u ih =>
    rw [Regex.lastOr_cons] at h
    unfold Text.translate
    split_ifs with hc hn
    · rw [Regex.lastOr_cons]
      exact ih true (fun _ => hp) (fun _ => hp) h
    · exact ih false (fun _ => hcr hn.2) (fun hfalse => absurd hfalse Bool.false_ne_true) h
    · rw [Regex.lastOr_cons]
      exact ih false id (fun hfalse => absurd hfalse Bool.false_ne_true) h

lemma head_translate (hq : q '\n' = false) (h : v.head?.any q = false) :
    (Text.translate false v).head?.any q = false := by
  cases v with
  | nil => rfl
  | cons c v =>
    unfold Text.translate
    split_ifs with hc hn
    · exact hq
    · exact hn.2.elim
    · exact h

/-- A word without line ends stays as it is. -/
lemma translate_word (afterCr : Bool) (hw : ∀ c ∈ w, c ≠ '\r' ∧ c ≠ '\n') (hne : w ≠ []) (v : Text) :
    Text.translate afterCr (w ++ v) = w ++ Text.translate false v := by
  induction w generalizing afterCr with
  | nil => exact absurd rfl hne
  | cons c w ih =>
    obtain ⟨⟨hcr, hnl⟩, hrest⟩ := List.forall_mem_cons.mp hw
    rw [List.cons_append, Text.translate, if_neg hcr, if_neg (fun h => hnl h.1)]
    cases w with
    | nil => rfl
    | cons d w => rw [ih false hrest (List.cons_ne_nil d w)]; rfl

/-- A text is stripped of what stands around a word without blanks. -/
lemma strip_around (hw : ∀ c ∈ w, isBlank c = false) (hne : w ≠ []) (u v : Text) :
    strip (u ++ w ++ v) = u.dropWhile isBlank ++ w ++ v.rdropWhile isBlank := by
  obtain rfl | ⟨w, d, rfl⟩ := List.eq_nil_or_concat w
  · exact absurd rfl hne
  · rw [List.concat_eq_append] at hw ⊢
    have hdrop : (u ++ w).dropWhile isBlank = u.dropWhile isBlank ++ w := by
      rw [List.dropWhile_append]
      split
      · rename_i hempty
        rw [List.isEmpty_iff.mp hempty, List.nil_append, List.dropWhile_eq_self_iff]
        exact fun hlen => by simpa using hw w[0] (by simp)
      · rfl
    have hsplit : u ++ (w ++ [d]) ++ v = (u ++ w) ++ d :: v := by simp
    rw [hsplit, Coordination.strip_append_cons _ _ (hw d (by simp)), hdrop]
    simp

lemma lastOr_dropWhile (h : (lastOr none u).any p = false) : (lastOr none (u.dropWhile isBlank)).any p = false := by
  rw [← List.takeWhile_append_dropWhile (p := isBlank) (l := u), Regex.lastOr_append] at h
  cases hrest : u.dropWhile isBlank with
  | nil => rfl
  | cons c rest =>
    rw [hrest, Regex.lastOr_cons] at h
    rwa [Regex.lastOr_cons]

lemma head_rdropWhile (h : v.head?.any q = false) : (v.rdropWhile isBlank).head?.any q = false := by
  obtain ⟨rest, hrest⟩ := List.rdropWhile_prefix isBlank v
  cases hkept : v.rdropWhile isBlank with
  | nil => rfl
  | cons c kept =>
    rw [← hrest, hkept] at h
    exact h

lemma local_bounds (h : isLocalChar c = true) : 33 ≤ c.toNat ∧ c.toNat ≤ 126 := by
  simp only [isLocalChar, isAsciiAlnum, isAsciiLetter, isAsciiUpper, isAsciiLower, isAsciiDigit, Bool.or_eq_true,
    decide_eq_true_eq, beq_iff_eq, Char.le_def, UInt32.le_iff_toNat_le] at h
  have hval : c.val.toNat = c.toNat := rfl
  have hupper : ('A' : Char).val.toNat = 65 ∧ ('Z' : Char).val.toNat = 90 := ⟨rfl, rfl⟩
  have hlower : ('a' : Char).val.toNat = 97 ∧ ('z' : Char).val.toNat = 122 := ⟨rfl, rfl⟩
  have hdigit : ('0' : Char).val.toNat = 48 ∧ ('9' : Char).val.toNat = 57 := ⟨rfl, rfl⟩
  obtain ((((h | rfl) | rfl) | rfl) | rfl) | rfl := h
  · omega
  all_goals decide

lemma local_not_blank (h : isLocalChar c = true) : isBlank c = false := by
  have hbounds := local_bounds h
  simp only [isBlank, decide_eq_false_iff_not, List.mem_cons, List.not_mem_nil, or_false]
  omega

/-- An address is found in what the builder reads if it is found in what it is given. -/
lemma search_stripped (h : emailPattern.search none s = true) :
    emailPattern.search none (strip (Text.universalNewlines s)) = true := by
  obtain ⟨u, w, v, rfl, hmatch⟩ := search_iff.mp h
  obtain ⟨hleft, haddress, hright⟩ := email_matches.mp hmatch
  obtain ⟨name, host, rfl, hname, hhost⟩ := isAddress_split.mp haddress
  have hchar {c : Char} (hc : c ∈ name ++ '@' :: host) : isLocalChar c = true ∨ c = '@' := by
    obtain hc | hc := List.mem_append.mp hc
    · exact .inl (hname.2 c hc)
    · obtain rfl | hc := List.mem_cons.mp hc
      · exact .inr rfl
      · exact .inl (domain_local (hhost.all c hc))
  have hblank : ∀ c ∈ name ++ '@' :: host, isBlank c = false := by
    intro c hc
    obtain hc | rfl := hchar hc
    · exact local_not_blank hc
    · rfl
  have hends : ∀ c ∈ name ++ '@' :: host, c ≠ '\r' ∧ c ≠ '\n' := by
    intro c hc
    constructor <;> rintro rfl <;> exact absurd (hblank _ hc) (by decide)
  rw [Text.universalNewlines, List.append_assoc, Text.translate_append, translate_word _ hends (by simp), ← List.append_assoc,
    strip_around hblank (by simp)]
  refine search_iff.mpr ⟨_, _, _, rfl, email_matches.mpr ⟨?_, haddress, ?_⟩⟩
  · exact lastOr_dropWhile (lastOr_translate rfl false id (fun hfalse => absurd hfalse Bool.false_ne_true) hleft)
  · exact head_rdropWhile (head_translate rfl hright)

end Stripping

theorem address_caught_iff {before name host after : Text} (h : Standing before name host after) :
    Caught before (name ++ '@' :: host) after ↔
      IsDomain (host ++ after.takeWhile isDomainChar) ∧ ¬Taken before name := by
  rw [← redactedIn_iff h]
  refine ⟨fun hcaught => hcaught.1, fun hredacted => ⟨hredacted, fun X args => ?_, fun X text fields hloads hresponse => ?_, ?_⟩⟩
  · exact buildCrossAiEvidence_refuses args (containsSensitive_of_email (search_stripped (search_of_redactedIn hredacted)))
  · exact validateEvidenceText_refuses hloads hresponse (containsSensitive_of_email (search_of_redactedIn hredacted))
  · exact containsSensitive_of_email (search_of_redactedIn hredacted)

lemma standing_sahibi {after : Text} (h : after.head?.any isAsciiAlnum = false) :
    Standing "Sahibi: ".toList "ali".toList "a.com".toList after where
  name := ⟨by decide, forall_of_all (by decide)⟩
  host := by
    have hlabel : IsLabel ['a'] := ⟨by decide, fun c hc => .inl (forall_of_all (s := ['a']) (by decide) c hc)⟩
    exact @IsHost.top ['a'] "com".toList hlabel (by decide) (forall_of_all (by decide))
  left := by decide
  right := h

theorem address_caught_iff_comma : Caught "Sahibi: ".toList "ali@a.com".toList ", tel".toList ↔
    IsDomain ("a.com".toList ++ ", tel".toList.takeWhile isDomainChar) ∧ ¬Taken "Sahibi: ".toList "ali".toList :=
  @address_caught_iff "Sahibi: ".toList "ali".toList "a.com".toList _
    (standing_sahibi (by decide))

/-- The end of a sentence behind an address. -/
theorem address_before_period_passes :
    (¬ ∀ before name host after, Standing before name host after → Caught before (name ++ '@' :: host) after) ∧
    redactEmails "Sahibi: ali@a.com.".toList = "Sahibi: ali@a.com.".toList ∧
    containsSensitivePy ⟨asciiTables, id, fun _ => [], fun _ => none⟩ "Sahibi: ali@a.com.".toList = false ∧
    containsSensitiveResponse "Sahibi: ali@a.com.".toList = false := by
  have hreport : containsSensitiveResponse "Sahibi: ali@a.com.".toList = false := by decide +kernel
  refine ⟨fun h => ?_, by decide +kernel, by decide +kernel, hreport⟩
  have hcaught := (h _ _ _ _ (@standing_sahibi ".".toList (by decide))).2.2.2
  exact absurd (hcaught.symm.trans hreport) nofun

end PlatformGitops.PrAudit
