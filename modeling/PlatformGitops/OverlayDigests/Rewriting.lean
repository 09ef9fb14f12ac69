import PlatformGitops.OverlayDigests.Attribution

/-! What the digests of a map make of the lines of an overlay. -/

namespace PlatformGitops.OverlayDigests

open Library
open Coordination (isLineEnd)

section Services

variable (digestLines : Dict Text (ℕ × Text × Text)) (digestMap : Dict Text Text)

/-- The place and the new line of a service whose digest changes. -/
def change? (svc : Text) : Option (ℕ × Text) := do
  let newDigest ← digestMap.get? svc
  let (place, indent, oldDigest) ← digestLines.get? svc
  if ¬isDigestValue newDigest ∨ oldDigest = newDigest then none else some (place, digestText indent newDigest ++ ['\n'])

/-- Nothing is wrong with the service's digest. -/
def Settled (svc : Text) : Prop :=
  ∀ newDigest, digestMap.get? svc = some newDigest → isDigestValue newDigest = true ∧ (digestLines.get? svc).isSome = true

variable {digestLines digestMap} {edit : Edit} {svc : Text} {svcs lines : List Text} {place : ℕ} {line : Text}

lemma service_lines : (edit.service digestLines digestMap svc).lines =
    ((change? digestLines digestMap svc).map fun p => edit.lines.set p.1 p.2).getD edit.lines := by
  unfold Edit.service change?
  cases digestMap.get? svc with
  | none => rfl
  | some newDigest =>
    cases hfound : digestLines.get? svc with
    | none =>
      dsimp only
      split_ifs <;> rfl
    | some p =>
      by_cases hvalue : isDigestValue newDigest = true
      · by_cases hsame : p.2.2 = newDigest <;> simp [hvalue, hsame]
      · simp [hvalue]

lemma service_changes : (edit.service digestLines digestMap svc).changes = [] ↔
    edit.changes = [] ∧ change? digestLines digestMap svc = none := by
  unfold Edit.service change?
  cases digestMap.get? svc with
  | none => simp
  | some newDigest =>
    cases hfound : digestLines.get? svc with
    | none =>
      dsimp only
      split_ifs <;> simp
    | some p =>
      by_cases hvalue : isDigestValue newDigest = true
      · by_cases hsame : p.2.2 = newDigest <;> simp [hvalue, hsame]
      · simp [hvalue]

lemma service_errors : (edit.service digestLines digestMap svc).errors = [] ↔
    edit.errors = [] ∧ Settled digestLines digestMap svc := by
  unfold Edit.service Settled
  cases digestMap.get? svc with
  | none => simp
  | some newDigest =>
    cases hfound : digestLines.get? svc with
    | none =>
      dsimp only
      split_ifs <;> simp
    | some p =>
      by_cases hvalue : isDigestValue newDigest = true
      · by_cases hsame : p.2.2 = newDigest <;> simp [hvalue, hsame]
      · simp [hvalue]

lemma fold_errors : (svcs.foldl (Edit.service digestLines digestMap) edit).errors = [] ↔
    edit.errors = [] ∧ ∀ svc ∈ svcs, Settled digestLines digestMap svc := by
  induction svcs generalizing edit with
  | nil => simp
  | cons svc svcs ih => rw [List.foldl_cons, ih, service_errors, List.forall_mem_cons, and_assoc]

lemma fold_changes : (svcs.foldl (Edit.service digestLines digestMap) edit).changes = [] ↔
    edit.changes = [] ∧ ∀ svc ∈ svcs, change? digestLines digestMap svc = none := by
  induction svcs generalizing edit with
  | nil => simp
  | cons svc svcs ih => rw [List.foldl_cons, ih, service_changes, List.forall_mem_cons, and_assoc]

lemma fold_length : (svcs.foldl (Edit.service digestLines digestMap) edit).lines.length = edit.lines.length := by
  induction svcs generalizing edit with
  | nil => rfl
  | cons svc svcs ih =>
    rw [List.foldl_cons, ih, service_lines]
    cases change? digestLines digestMap svc <;> simp

/-- A line that no service changes stays. -/
lemma fold_kept (h : ∀ svc ∈ svcs, ∀ line, change? digestLines digestMap svc ≠ some (place, line)) :
    (svcs.foldl (Edit.service digestLines digestMap) edit).lines[place]? = edit.lines[place]? := by
  induction svcs generalizing edit with
  | nil => rfl
  | cons svc svcs ih =>
    obtain ⟨hsvc, hrest⟩ := List.forall_mem_cons.mp h
    rw [List.foldl_cons, ih hrest, service_lines]
    cases hchange : change? digestLines digestMap svc with
    | none => rfl
    | some p =>
      have hne : p.1 ≠ place := by
        rintro rfl
        exact hsvc p.2 hchange
      simp [List.getElem?_set_ne hne]

/-- A line that one service alone changes becomes the service's new line. -/
lemma fold_changed (hmem : svc ∈ svcs) (hchange : change? digestLines digestMap svc = some (place, line))
    (honly : ∀ other, ∀ line', change? digestLines digestMap other = some (place, line') → line' = line)
    (hplace : place < edit.lines.length) :
    (svcs.foldl (Edit.service digestLines digestMap) edit).lines[place]? = some line := by
  induction svcs using List.reverseRecOn with
  | nil => cases hmem
  | append_singleton svcs last ih =>
    rw [List.foldl_append, List.foldl_cons, List.foldl_nil, service_lines]
    cases hlast : change? digestLines digestMap last with
    | none =>
      rcases List.mem_append.mp hmem with hmem | hmem
      · exact ih hmem
      · obtain rfl := List.mem_singleton.mp hmem
        rw [hlast] at hchange
        cases hchange
    | some p =>
      by_cases hp : p.1 = place
      · have hline := honly last p.2 (by rw [hlast, ← hp])
        rw [Option.map_some, Option.getD_some, hp, hline, List.getElem?_set_self (by rwa [fold_length])]
      · have hmem' : svc ∈ svcs := by
          rcases List.mem_append.mp hmem with hmem | hmem
          · exact hmem
          · obtain rfl := List.mem_singleton.mp hmem
            rw [hlast] at hchange
            exact absurd (congrArg (·.1) (Option.some.inj hchange)) hp
        rw [Option.map_some, Option.getD_some, List.getElem?_set_ne hp]
        exact ih hmem'

end Services

section Overlays

variable {digestMap : Dict Text Text} {lines raws : List Text} {text svc svc' indent digest newDigest line : Text}
  {place : ℕ} {options : Options}

/-- The digest line at the place is rewritten for the service. -/
def Rewrites (digestMap : Dict Text Text) (raws : List Text) (place : ℕ) (svc : Text) : Prop :=
  LastAttributed raws svc place ∧
    ∃ line indent digest newDigest, raws[place]? = some line ∧ digestLine? line = some (indent, digest) ∧
      digestMap.get? svc = some newDigest ∧ isDigestValue newDigest = true ∧ digest ≠ newDigest

lemma change?_eq_some : change? (indexDigestLines lines) digestMap svc = some (place, line) ↔
    ∃ raw indent digest newDigest, LastAttributed (lines.map chomp) svc place ∧ (lines.map chomp)[place]? = some raw ∧
      digestLine? raw = some (indent, digest) ∧ digestMap.get? svc = some newDigest ∧ isDigestValue newDigest = true ∧
        digest ≠ newDigest ∧ line = digestText indent newDigest ++ ['\n'] := by
  unfold change?
  constructor
  · intro h
    obtain ⟨newDigest, hnew, h⟩ := Option.bind_eq_some_iff.mp h
    obtain ⟨⟨place', indent, digest⟩, hfound, h⟩ := Option.bind_eq_some_iff.mp h
    obtain ⟨hlast, raw, hraw, hline⟩ := indexDigestLines_get?.mp hfound
    dsimp only at h
    split_ifs at h with hbad
    obtain ⟨hvalue, hne⟩ := not_or.mp hbad
    obtain ⟨rfl, rfl⟩ := Prod.mk.inj (Option.some.inj h)
    exact ⟨raw, indent, digest, newDigest, hlast, hraw, hline, hnew, not_not.mp hvalue, hne, rfl⟩
  · rintro ⟨raw, indent, digest, newDigest, hlast, hraw, hline, hnew, hvalue, hne, rfl⟩
    refine Option.bind_eq_some_iff.mpr ⟨newDigest, hnew, Option.bind_eq_some_iff.mpr ?_⟩
    exact ⟨(place, indent, digest), indexDigestLines_get?.mpr ⟨hlast, raw, hraw, hline⟩, by simp [hvalue, hne]⟩

lemma exists_change? : (∃ line, change? (indexDigestLines lines) digestMap svc = some (place, line)) ↔
    Rewrites digestMap (lines.map chomp) place svc := by
  simp only [change?_eq_some, Rewrites]
  constructor
  · rintro ⟨line, raw, indent, digest, newDigest, hlast, hraw, hline, hnew, hvalue, hne, rfl⟩
    exact ⟨hlast, raw, indent, digest, newDigest, hraw, hline, hnew, hvalue, hne⟩
  · rintro ⟨hlast, raw, indent, digest, newDigest, hraw, hline, hnew, hvalue, hne⟩
    exact ⟨_, raw, indent, digest, newDigest, hlast, hraw, hline, hnew, hvalue, hne, rfl⟩

lemma mem_sortedKeys : svc ∈ (digestMap.map (·.1)).mergeSort (fun a b => decide (a ≤ b)) ↔ (digestMap.get? svc).isSome = true := by
  rw [List.mem_mergeSort, Dict.isSome_get?]

lemma editLines_changes : (editLines digestMap lines).changes = [] ↔ ∀ place svc, ¬Rewrites digestMap (lines.map chomp) place svc := by
  rw [editLines, fold_changes]
  simp only [← exists_change?]
  constructor
  · rintro ⟨-, h⟩ place svc ⟨line, hline⟩
    obtain ⟨_, _, _, newDigest, -, -, -, hnew, -⟩ := change?_eq_some.mp hline
    rw [h svc (mem_sortedKeys.mpr (by simp [hnew]))] at hline
    cases hline
  · intro h
    refine ⟨trivial, fun svc _ => ?_⟩
    by_contra hsome
    obtain ⟨p, hp⟩ := Option.ne_none_iff_exists'.mp hsome
    exact h p.1 svc ⟨p.2, hp⟩

/-- The lines after the edit, place by place. -/
lemma editLines_kept (h : ∀ svc, ¬Rewrites digestMap (lines.map chomp) place svc) :
    (editLines digestMap lines).lines[place]? = lines[place]? :=
  fold_kept fun svc _ line hline => h svc (exists_change?.mp ⟨line, hline⟩)

lemma editLines_rewritten (hlast : LastAttributed (lines.map chomp) svc place) (hraw : (lines.map chomp)[place]? = some line)
    (hline : digestLine? line = some (indent, digest)) (hnew : digestMap.get? svc = some newDigest)
    (hvalue : isDigestValue newDigest = true) (hne : digest ≠ newDigest) :
    (editLines digestMap lines).lines[place]? = some (digestText indent newDigest ++ ['\n']) := by
  have hchange := change?_eq_some.mpr ⟨line, indent, digest, newDigest, hlast, hraw, hline, hnew, hvalue, hne, rfl⟩
  refine fold_changed (mem_sortedKeys.mpr (by simp [hnew])) hchange (fun other line' hother => ?_) ?_
  · obtain ⟨raw', indent', digest', newDigest', hlast', hraw', hline', hnew', -, -, rfl⟩ := change?_eq_some.mp hother
    obtain rfl := hlast.1.unique hlast'.1
    rw [hraw] at hraw'
    obtain rfl := Option.some.inj hraw'
    rw [hline] at hline'
    rw [hnew] at hnew'
    obtain ⟨rfl, rfl⟩ := Prod.mk.inj (Option.some.inj hline')
    rw [Option.some.inj hnew']
  · simpa using hlast.1.lt

lemma editLines_length : (editLines digestMap lines).lines.length = lines.length := fold_length

/-- What is known of a run that ends with zero: every service of the map is one that is rolled out, its digest has the
form of one, and some digest line counts for it. -/
structure Applied (digestMap : Dict Text Text) (raws : List Text) : Prop where
  known : ∀ svc newDigest, digestMap.get? svc = some newDigest → svc ∈ syncServices
  settled : ∀ svc newDigest, digestMap.get? svc = some newDigest →
    isDigestValue newDigest = true ∧ ∃ place, LastAttributed raws svc place

lemma applyDigests_zero (hmode : options.check = false) (h : (applyDigests options digestMap (some text)).exit = 0) :
    Applied digestMap ((keptLines (Text.universalNewlines text)).map chomp) ∧
      (applyDigests options digestMap (some text)).written =
        if (editLines digestMap (keptLines (Text.universalNewlines text))).changes = [] then none
        else some (editLines digestMap (keptLines (Text.universalNewlines text))).lines.flatten := by
  unfold applyDigests at h ⊢
  dsimp only at h ⊢
  have hkeys (svc newDigest : Text) (h : digestMap.get? svc = some newDigest) : svc ∈ digestMap.map (·.1) :=
    Dict.isSome_get?.mp (by simp [h])
  by_cases hknown : digestMap.any (·.1 ∉ syncServices) = true
  · rw [if_pos hknown] at h
    cases h
  · rw [if_neg hknown] at h ⊢
    have hall (svc newDigest : Text) (h : digestMap.get? svc = some newDigest) : svc ∈ syncServices := by
      obtain ⟨p, hp, rfl⟩ := List.mem_map.mp (hkeys svc newDigest h)
      simp only [List.any_eq_true, not_exists, not_and, decide_eq_true_eq, not_not] at hknown
      exact hknown p hp
    by_cases hempty : digestMap = []
    · subst hempty
      have hnone : ∀ svc newDigest, Dict.get? ([] : Dict Text Text) svc ≠ some newDigest := by
        rintro svc newDigest ⟨⟩
      refine ⟨⟨fun svc newDigest h => absurd h (hnone svc newDigest), fun svc newDigest h => absurd h (hnone svc newDigest)⟩, ?_⟩
      rw [if_pos rfl, if_pos (editLines_changes.mpr ?_)]
      rintro place svc ⟨-, _, _, _, _, -, -, hnew, -⟩
      cases hnew
    · rw [if_neg hempty] at h ⊢
      by_cases herrors : (editLines digestMap (keptLines (Text.universalNewlines text))).errors = []
      · rw [if_neg (not_not.mpr herrors)] at h ⊢
        refine ⟨⟨hall, fun svc newDigest hnew => ?_⟩, ?_⟩
        · obtain ⟨hvalue, hsome⟩ := (fold_errors.mp herrors).2 svc (mem_sortedKeys.mpr (by simp [hnew])) newDigest hnew
          obtain ⟨⟨place, indent, digest⟩, hfound⟩ := Option.isSome_iff_exists.mp hsome
          exact ⟨hvalue, place, (indexDigestLines_get?.mp hfound).1⟩
        · split
          · rfl
          · rw [hmode]
            rfl
      · rw [if_pos herrors] at h
        cases h

end Overlays

end PlatformGitops.OverlayDigests
