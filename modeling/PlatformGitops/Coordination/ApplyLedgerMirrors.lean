import PlatformGitops.Coordination.Written
import PlatformGitops.Coordination.KeyBlock

/-! The mirror blocks of issues and pull requests: what an update writes, and what is read back from it. -/

namespace PlatformGitops.Coordination.ApplyLedgerMirrors

open Library Fallible

inductive MirrorFailure where
  | mirrorError (message : String)
  | raised (error : PyError)
deriving DecidableEq, Repr

def mirrorError {α : Type} (message : String) : Except MirrorFailure α := .error (.mirrorError message)

def agentMarkerStart : String := "<!-- agent-state:v1"
def prMarkerStart : String := "<!-- coordination-ledger-pr-mirror:v1"
def markerEnd : String := "-->"

variable (X : Externals)

/-- The value as a format string shows it. -/
def text : Json → String
  | .str s => s
  | value => X.str value

def normalizeHash (value : Json) (field : String) : Except MirrorFailure String :=
  match value with
  | .str s =>
    if (matchHash? s).isSome then
      .ok (if "sha256:".toList.isPrefixOf s.toList then s else prefixed s)
    else mirrorError (field ++ " must be sha256:<64-hex> or bare 64-hex")
  | _ => mirrorError (field ++ " must be sha256:<64-hex> or bare 64-hex")

def parseKeyBlock (body : List Char) (markerStart : String) : Except MirrorFailure (Option KeyBlock) :=
  parseBlock (fun line => .mirrorError ("marker line missing ':' separator: " ++ X.repr (.str (String.ofList line))))
    markerStart.toList markerEnd.toList
    (.mirrorError ("marker " ++ X.repr (.str markerStart) ++ " is not closed")) body

section Rendering

/-- The keys of a block with the texts of their values. -/
def renderKeys (keys : List String) (field : String) (spell : String → Json → Except MirrorFailure String) (values : Json) :
    Except MirrorFailure (List (String × List Char)) :=
  keys.mapM fun key =>
    match values.get key with
    | .null => mirrorError (field ++ key ++ " is required")
    | value => (fun s => (key, s.toList)) <$> spell key value

def agentKeys : List String :=
  ["status", "claim_session", "claim_worktree", "claim_branch", "claim_updated_at", "expires_at"]

def agentEntries (values : Json) : Except MirrorFailure (List (String × List Char)) :=
  renderKeys agentKeys "issue_body.set." (fun _ value => .ok (text X value)) values

def renderAgentState (values : Json) : Except MirrorFailure (List Char) :=
  renderBlock agentMarkerStart.toList markerEnd.toList <$> agentEntries X values

def prKeys : List String := ["coordination_state", "event_uuid", "event_hash", "session"]

def prSpelling (key : String) (value : Json) : Except MirrorFailure String :=
  if key = "event_hash" then normalizeHash value "pr_body.set.event_hash" else .ok (text X value)

def prEntries (values : Json) : Except MirrorFailure (List (String × List Char)) :=
  renderKeys prKeys "pr_body.set." (prSpelling X) values

def renderPrMarker (values : Json) : Except MirrorFailure (List Char) :=
  renderBlock prMarkerStart.toList markerEnd.toList <$> prEntries X values

end Rendering

section Updates

def actual (parsed : KeyValues) (key : String) : String := (parsed.lookup key).getD ""

def checkIssue (parsed : KeyValues) (expected : String × Json) : Except MirrorFailure Unit :=
  rejectIf (actual parsed expected.1 ≠ text X expected.2)
    (.mirrorError ("issue agent-state stale " ++ expected.1 ++ ": expected=" ++ X.repr expected.2 ++ " actual=" ++
      X.repr (.str (actual parsed expected.1))))

/-- `issue_body` with its `expected` and `set`. -/
def updateIssueBody (current : List Char) (spec : List (String × Json)) :
    Except MirrorFailure (List Char × List String) := do
  match ← parseKeyBlock X current agentMarkerStart with
  | none => mirrorError "issue body missing agent-state:v1 block"
  | some block =>
    match (spec.lookup "expected").getD (.obj []) with
    | .obj expected => do
      expected.forM (checkIssue X block.parsed)
      match (Json.obj spec).get "set" with
      | .obj set => do
        let newBlock ← renderAgentState X (.obj set)
        pure (block.before ++ (newBlock ++ block.after), ["issue_body"])
      | _ => mirrorError "issue_body.set must be an object"
    | _ => mirrorError "issue_body.expected must be an object"

/-- What a mirror shows under a key and what is expected there; hashes are compared in one form. -/
def compared (parsed : KeyValues) (expected : String × Json) : Except MirrorFailure (String × Json) :=
  if expected.1 = "event_hash" ∧ actual parsed expected.1 ≠ "" then do
    let shown ← normalizeHash (.str (actual parsed expected.1)) "pr marker event_hash"
    let wanted ← normalizeHash expected.2 "pr_body.expected.event_hash"
    pure (shown, .str wanted)
  else pure (actual parsed expected.1, expected.2)

def checkPr (parsed : KeyValues) (expected : String × Json) : Except MirrorFailure Unit := do
  let (shown, wanted) ← compared parsed expected
  rejectIf (shown ≠ text X wanted)
    (.mirrorError ("PR mirror stale " ++ expected.1 ++ ": expected=" ++ X.repr wanted ++ " actual=" ++
      X.repr (.str shown)))

def rstrip (s : List Char) : List Char := s.rdropWhile isBlank

def prExpected : Json → Except MirrorFailure (Option (List (String × Json)))
  | .null => .ok none
  | .obj expected => .ok (some expected)
  | _ => mirrorError "pr_body.expected must be an object"

/-- `pr_body` with its `expected` and `set`. -/
def updatePrBody (current : List Char) (spec : List (String × Json)) :
    Except MirrorFailure (List Char × List String) := do
  let block ← parseKeyBlock X current prMarkerStart
  let expected ← prExpected ((spec.lookup "expected").getD (.obj []))
  match (Json.obj spec).get "set" with
  | .obj set => do
    let newBlock ← renderPrMarker X (.obj set)
    match block with
    | none =>
      if expected.getD [] ≠ [] then
        mirrorError "PR body missing coordination marker while expected fields were declared"
      else pure (rstrip current ++ '\n' :: '\n' :: (newBlock ++ ['\n']), ["pr_body"])
    | some block => do
      let expected ← expect expected (.raised .attributeError)
      expected.forM (checkPr X block.parsed)
      pure (block.before ++ (newBlock ++ block.after), ["pr_body"])
  | _ => mirrorError "pr_body.set must be an object"

end Updates

inductive Surface where
  | issueBody | prBody
deriving DecidableEq, Repr

namespace Surface

def markerStart : Surface → String
  | issueBody => agentMarkerStart
  | prBody => prMarkerStart

def keys : Surface → List String
  | issueBody => agentKeys
  | prBody => prKeys

def entries : Surface → Json → Except MirrorFailure (List (String × List Char))
  | issueBody => agentEntries X
  | prBody => prEntries X

def update : Surface → List Char → List (String × Json) → Except MirrorFailure (List Char × List String)
  | issueBody => updateIssueBody X
  | prBody => updatePrBody X

def check : Surface → KeyValues → String × Json → Except MirrorFailure Unit
  | issueBody => checkIssue X
  | prBody => checkPr X

end Surface

/-- The new text is the old one with its first block replaced, or one without a block with the new block after it. -/
def Replaces (opening current new result : List Char) : Prop :=
  (∃ before marked after, cutAt opening current = some (before, opening ++ (marked ++ (markerEnd.toList ++ after))) ∧
    cutAt markerEnd.toList (opening ++ (marked ++ (markerEnd.toList ++ after))) =
      some (opening ++ marked, markerEnd.toList ++ after) ∧ result = before ++ (new ++ after)) ∨
  cutAt opening current = none ∧ result = rstrip current ++ '\n' :: '\n' :: (new ++ ['\n'])

def setOf (spec : List (String × Json)) : Json := (Json.obj spec).get "set"

/-- The next update, which expects the values that were set and sets others. -/
def nextSpec (surface : Surface) (set : Json) (fields : List (String × Json)) : List (String × Json) :=
  [("expected", .obj (surface.keys.map fun key => (key, set.get key))), ("set", .obj fields)]

structure RoundTrip (surface : Surface) (current : List Char) (spec : List (String × Json)) (result : List Char)
    (entries : List (String × List Char)) : Prop where
  written : surface.entries X (setOf spec) = .ok entries
  outside : Replaces surface.markerStart.toList current
    (renderBlock surface.markerStart.toList markerEnd.toList entries) result
  reads : ∃ block, parseKeyBlock X result surface.markerStart = .ok (some block) ∧ block.parsed = values entries
  again : ∀ fields written, surface.entries X (.obj fields) = .ok written →
    ∃ next, surface.update X result (nextSpec surface (setOf spec) fields) = .ok next

/-- A text that a block keeps as it is: no blanks around it, on one line, without the closing marker. -/
def Verbatim (text : List Char) : Prop :=
  strip text = text ∧ (∀ c ∈ text, isLineEnd c = false) ∧ ¬ markerEnd.toList <:+: text

instance (text : List Char) : Decidable (Verbatim text) :=
  decidable_of_iff (strip text = text ∧ text.all (isLineEnd · == false) = true ∧ cutAt markerEnd.toList text = none)
    (by simp [cutAt_eq_none, Verbatim])

variable {X} {surface : Surface} {spec : List (String × Json)} {current result : List Char}
variable {entries : List (String × List Char)}

section Texts

lemma rdropWhile_of_stripped {s : List Char} (h : strip s = s) : s.rdropWhile isBlank = s := by
  rw [strip_eq_rdropWhile, dropWhile_of_stripped h] at h
  exact h

lemma verbatim_iff {s : List Char} : Verbatim s ↔ Fits markerEnd.toList s ∧ strip s = s := by
  constructor
  · rintro ⟨hstrip, hline, hclose⟩
    refine ⟨⟨?_, hclose⟩, hstrip⟩
    rwa [Tame, rdropWhile_of_stripped hstrip]
  · rintro ⟨⟨htame, hclose⟩, hstrip⟩
    refine ⟨hstrip, ?_, hclose⟩
    rwa [Tame, rdropWhile_of_stripped hstrip] at htame

lemma strip_of_visible {s : List Char} (h : ∀ c ∈ s, isBlank c = false) : strip s = s := by
  have hdrop : s.dropWhile isBlank = s := by
    cases s with
    | nil => rfl
    | cons c s => exact List.dropWhile_cons_of_neg (by simp [h c (List.mem_cons_self ..)])
  rw [strip_eq_rdropWhile, hdrop]
  exact List.rdropWhile_eq_self_iff.mpr fun hne => by simp [h _ (List.getLast_mem hne)]

lemma not_blank_of_isHashDigit {c : Char} (h : isHashDigit c = true) : isBlank c = false := by
  simp only [isHashDigit, decide_eq_true_eq, Char.le_def, UInt32.le_iff_toNat_le] at h
  simp only [isBlank, decide_eq_false_iff_not, List.mem_cons, List.not_mem_nil, or_false]
  have ha : ('a' : Char).val.toNat = 97 := rfl
  have hf : ('f' : Char).val.toNat = 102 := rfl
  have h0 : ('0' : Char).val.toNat = 48 := rfl
  have h9 : ('9' : Char).val.toNat = 57 := rfl
  have hc : c.val.toNat = c.toNat := rfl
  omega

lemma digits_of_matchHash? {value hash : String} (h : matchHash? value = some hash) :
    ∃ tail, (if "sha256:".toList.isPrefixOf value.toList then value.toList.drop 7 else value.toList) =
      hash.toList ++ tail ∧ (tail = [] ∨ tail = ['\n']) := by
  simp only [matchHash?] at h
  generalize (if "sha256:".toList.isPrefixOf value.toList then value.toList.drop 7 else value.toList) = digits at h
  split_ifs at h with hdigits hnewline
  · cases h
    exact ⟨[], by simp, .inl rfl⟩
  · cases h
    obtain ⟨hlen, -, hlast⟩ := hnewline
    refine ⟨['\n'], ?_, .inr rfl⟩
    have hdrop : digits.dropLast = digits.take 64 := by rw [List.dropLast_eq_take, hlen]
    rw [String.toList_ofList, ← hdrop, List.dropLast_append_getLast? _ hlast]

/-- A hash in its written form: with the prefix, and with a newline where the value had one. -/
lemma normalizeHash_eq_ok {value : Json} {field s : String} (h : normalizeHash value field = .ok s) :
    ∃ hash, IsHash hash ∧ (s = prefixed hash ∨ s = prefixed hash ++ "\n") := by
  cases value with
  | str v =>
    simp only [normalizeHash] at h
    split at h
    · rename_i hsome
      obtain ⟨hash, hhash⟩ := Option.isSome_iff_exists.mp hsome
      obtain ⟨tail, hdigits, htail⟩ := digits_of_matchHash? hhash
      have hs : s.toList = "sha256:".toList ++ (hash.toList ++ tail) := by
        cases h
        split_ifs at hdigits ⊢ with hstart
        · obtain ⟨rest, hrest⟩ := List.isPrefixOf_iff_prefix.mp hstart
          rw [← hdigits, ← hrest]
          rfl
        · rw [prefixed, String.toList_append, hdigits]
      refine ⟨hash, isHash_of_matchHash? hhash, htail.imp ?_ ?_⟩
      · rintro rfl
        apply String.toList_injective
        rw [hs, List.append_nil, prefixed, String.toList_append]
      · rintro rfl
        apply String.toList_injective
        rw [hs, String.toList_append, prefixed, String.toList_append, List.append_assoc]
        rfl
    · cases h
  | _ => cases h

lemma strip_prefixed {hash : String} (h : IsHash hash) :
    strip (prefixed hash).toList = (prefixed hash).toList ∧
      strip (prefixed hash ++ "\n").toList = (prefixed hash).toList := by
  have hvisible : strip (prefixed hash).toList = (prefixed hash).toList := by
    refine strip_of_visible ?_
    rw [prefixed, String.toList_append, List.forall_mem_append]
    exact ⟨forall_of_all (by decide), fun c hc => not_blank_of_isHashDigit (List.all_eq_true.mp h.2 c hc)⟩
  refine ⟨hvisible, ?_⟩
  rw [String.toList_append, strip_append_right _ (forall_of_all (by decide)), hvisible]

lemma normalizeHash_prefixed {hash : String} (h : IsHash hash) (field : String) :
    normalizeHash (.str (prefixed hash)) field = .ok (prefixed hash) := by
  have hstart : "sha256:".toList.isPrefixOf (prefixed hash).toList = true := by
    rw [prefixed, String.toList_append, List.isPrefixOf_iff_prefix]
    exact List.prefix_append _ _
  rw [normalizeHash, h.prefixed, Option.isSome_some, if_pos rfl, if_pos hstart]

end Texts

section Rendering

variable {keys : List String} {field : String} {spell : String → Json → Except MirrorFailure String} {set : Json}

/-- An entry of a block comes from the value under its key. -/
lemma renderKeys_cons {key : String} :
    renderKeys (key :: keys) field spell set = .ok entries ↔
      ∃ s rest, set.get key ≠ .null ∧ spell key (set.get key) = .ok s ∧ renderKeys keys field spell set = .ok rest ∧
        entries = (key, s.toList) :: rest := by
  simp only [renderKeys, List.mapM_cons, bind_eq_ok, pure_eq_ok]
  cases hvalue : set.get key with
  | null => simp [mirrorError]
  | _ =>
    simp only [map_eq_ok, ne_eq, reduceCtorEq, not_false_eq_true, true_and]
    constructor
    · rintro ⟨_, ⟨s, hs, rfl⟩, rest, hrest, rfl⟩
      exact ⟨s, rest, hs, hrest, rfl⟩
    · rintro ⟨s, rest, hs, hrest, rfl⟩
      exact ⟨_, ⟨s, hs, rfl⟩, rest, hrest, rfl⟩

lemma keys_renderKeys (h : renderKeys keys field spell set = .ok entries) :
    entries.map (·.1) = keys ∧ ∀ e ∈ entries, spell e.1 (set.get e.1) = .ok (String.ofList e.2) := by
  induction keys generalizing entries with
  | nil =>
    cases h
    exact ⟨rfl, by simp⟩
  | cons key keys ih =>
    obtain ⟨s, rest, -, hs, hrest, rfl⟩ := renderKeys_cons.mp h
    obtain ⟨hkeys, hspell⟩ := ih hrest
    refine ⟨by rw [List.map_cons, hkeys], List.forall_mem_cons.mpr ⟨?_, hspell⟩⟩
    rwa [String.ofList_toList]

end Rendering

section Checks

variable {set : Json} {parsed : KeyValues} {e : String × List Char}

lemma entries_spec (h : surface.entries X set = .ok entries) :
    entries.map (·.1) = surface.keys ∧
      (surface = .prBody → ∀ e ∈ entries, prSpelling X e.1 (set.get e.1) = .ok (String.ofList e.2)) ∧
      (surface = .issueBody → ∀ e ∈ entries, text X (set.get e.1) = String.ofList e.2) := by
  cases surface with
  | issueBody =>
    obtain ⟨hkeys, hspell⟩ := keys_renderKeys h
    exact ⟨hkeys, nofun, fun _ e he => Except.ok.inj (hspell e he)⟩
  | prBody =>
    obtain ⟨hkeys, hspell⟩ := keys_renderKeys h
    exact ⟨hkeys, fun _ => hspell, nofun⟩

lemma actual_eq_iff {s : String} {v : List Char} (hs : s = String.ofList v) : trimmed v = s ↔ strip v = v := by
  rw [hs, trimmed]
  exact ⟨fun h => String.ofList_injective h, congrArg _⟩

lemma actual_of_lookup (h : parsed.lookup e.1 = some (trimmed e.2)) : actual parsed e.1 = trimmed e.2 := by
  rw [actual, h, Option.getD_some]

lemma normalizeHash_field {value : Json} {field s : String} (h : normalizeHash value field = .ok s) (other : String) :
    normalizeHash value other = .ok s := by
  cases value with
  | str v =>
    simp only [normalizeHash] at h ⊢
    split at h
    · rename_i hsome
      rwa [if_pos hsome]
    · cases h
  | _ => cases h

/-- The hash that was set is expected again. -/
lemma compared_hash {value : Json} {s : String} (hkey : e.1 = "event_hash")
    (hs : normalizeHash value "pr_body.set.event_hash" = .ok s) (hv : s = String.ofList e.2)
    (hshow : parsed.lookup e.1 = some (trimmed e.2)) :
    compared parsed (e.1, value) = .ok (trimmed e.2, .str s) := by
  obtain ⟨hash, hhash, hform⟩ := normalizeHash_eq_ok hs
  have htext : trimmed e.2 = prefixed hash := by
    have hlist : e.2 = s.toList := by rw [hv, String.toList_ofList]
    rw [trimmed, hlist]
    rcases hform with rfl | rfl
    · rw [(strip_prefixed hhash).1, String.ofList_toList]
    · rw [(strip_prefixed hhash).2, String.ofList_toList]
  have hne : prefixed hash ≠ "" := by
    intro hempty
    have hlength := congrArg (fun s => s.toList.length) hempty
    simp [prefixed] at hlength
  simp only [compared, actual_of_lookup hshow, htext]
  rw [if_pos ⟨hkey, hne⟩, normalizeHash_prefixed hhash, normalizeHash_field hs]
  rfl

lemma checkPr_iff {expected : String × Json} {shown : String} {wanted : Json}
    (h : compared parsed expected = .ok (shown, wanted)) :
    checkPr X parsed expected = .ok () ↔ shown = text X wanted := by
  rw [checkPr, h]
  change rejectIf _ _ = _ ↔ _
  rw [rejectIf_eq_ok, not_not]

/-- What was set is accepted as expected when it is read as it was written. -/
lemma check_iff (h : surface.entries X set = .ok entries) (he : e ∈ entries)
    (hshow : parsed.lookup e.1 = some (trimmed e.2)) :
    surface.check X parsed (e.1, set.get e.1) = .ok () ↔ strip e.2 = e.2 := by
  obtain ⟨-, hpr, hissue⟩ := entries_spec h
  cases surface with
  | issueBody =>
    have htext := hissue rfl e he
    simp only [Surface.check, checkIssue, rejectIf_eq_ok, actual_of_lookup hshow, ne_eq, not_not]
    exact actual_eq_iff htext
  | prBody =>
    have hspell := hpr rfl e he
    unfold prSpelling at hspell
    split at hspell
    · rename_i hkey
      rw [Surface.check, checkPr_iff (compared_hash hkey hspell rfl hshow)]
      exact actual_eq_iff rfl
    · rename_i hkey
      have htext := Except.ok.inj hspell
      have hcompared : compared parsed (e.1, set.get e.1) = .ok (trimmed e.2, set.get e.1) := by
        rw [compared, if_neg fun hboth => hkey hboth.1, actual_of_lookup hshow]
        rfl
      rw [Surface.check, checkPr_iff hcompared]
      exact actual_eq_iff htext

end Checks

section Updates

lemma parseBlock_eq_some {ε : Type} {missing : List Char → ε} {unclosed : ε} {opening closing body front : List Char}
    {c : Char} {block : KeyBlock} (hopening : opening = front ++ [c]) (hfront : ¬ closing <:+: front) (hc : c ∉ closing)
    (h : parseBlock missing opening closing unclosed body = .ok (some block)) :
    ∃ marked, cutAt opening body = some (block.before, opening ++ (marked ++ (closing ++ block.after))) ∧
      cutAt closing (opening ++ (marked ++ (closing ++ block.after))) = some (opening ++ marked, closing ++ block.after) := by
  simp only [parseBlock] at h
  split at h
  · cases h
  · rename_i before found hopen
    split at h
    · cases h
    · rename_i marked rest hclose
      rw [bind_eq_ok] at h
      obtain ⟨parsed, -, h⟩ := h
      cases h
      obtain ⟨-, inner, rfl⟩ := cutAt_eq_some hopen
      obtain ⟨hsplit, after, rfl⟩ := cutAt_eq_some hclose
      have hcut := hclose
      rw [hopening, List.append_assoc, List.singleton_append, cutAt_append_cons hfront hc, Option.map_eq_some_iff] at hcut
      obtain ⟨⟨inside, rest⟩, -, heq⟩ := hcut
      cases heq
      have hmarked : front ++ c :: inside = opening ++ inside := by simp [hopening]
      rw [hmarked, List.append_assoc, List.append_cancel_left_eq] at hsplit
      rw [List.drop_left]
      refine ⟨inside, ?_, ?_⟩
      · rw [← hsplit, hopen]
      · rw [← hsplit, hclose, hmarked]

lemma parseBlock_eq_none {ε : Type} {missing : List Char → ε} {unclosed : ε} {opening closing body : List Char}
    (h : parseBlock missing opening closing unclosed body = .ok none) : cutAt opening body = none := by
  simp only [parseBlock] at h
  split at h
  · assumption
  · split at h
    · cases h
    · obtain ⟨parsed, -, h⟩ := bind_eq_ok.mp h
      cases h

lemma openings (surface : Surface) : ∃ front c, surface.markerStart.toList = front ++ [c] ∧
    ¬ markerEnd.toList <:+: front ∧ c ∉ markerEnd.toList ∧ '\n' ∉ surface.markerStart.toList := by
  cases surface with
  | issueBody =>
    exact ⟨"<!-- agent-state:v".toList, '1', by decide, cutAt_eq_none.mp (by decide), by decide, by decide⟩
  | prBody =>
    exact ⟨"<!-- coordination-ledger-pr-mirror:v".toList, '1', by decide, cutAt_eq_none.mp (by decide), by decide,
      by decide⟩

/-- What an accepted update writes, and where. -/
structure Written (X : Externals) (surface : Surface) (current : List Char) (spec : List (String × Json))
    (result before after : List Char) (entries : List (String × List Char)) : Prop where
  set : surface.entries X (setOf spec) = .ok entries
  opens : cutAt surface.markerStart.toList (before ++ surface.markerStart.toList) =
    some (before, surface.markerStart.toList)
  text : result = before ++ (renderBlock surface.markerStart.toList markerEnd.toList entries ++ after)
  outside : Replaces surface.markerStart.toList current
    (renderBlock surface.markerStart.toList markerEnd.toList entries) result

lemma written_replaced {block : KeyBlock} (hblock : parseKeyBlock X current surface.markerStart = .ok (some block))
    (hentries : surface.entries X (setOf spec) = .ok entries) :
    Written X surface current spec
      (block.before ++ (renderBlock surface.markerStart.toList markerEnd.toList entries ++ block.after))
      block.before block.after entries := by
  obtain ⟨front, c, hopening, hfront, hc, -⟩ := openings surface
  obtain ⟨marked, hopen, hclose⟩ := parseBlock_eq_some hopening hfront hc hblock
  exact ⟨hentries, cutAt_self hopen, rfl, .inl ⟨_, marked, _, hopen, hclose, rfl⟩⟩

lemma written_added (hblock : parseKeyBlock X current surface.markerStart = .ok none)
    (hentries : surface.entries X (setOf spec) = .ok entries) :
    Written X surface current spec
      (rstrip current ++ '\n' :: '\n' :: (renderBlock surface.markerStart.toList markerEnd.toList entries ++ ['\n']))
      (rstrip current ++ ['\n', '\n']) ['\n'] entries := by
  obtain ⟨-, -, -, -, -, hline⟩ := openings surface
  have hnone := parseBlock_eq_none hblock
  have hnot : ¬ surface.markerStart.toList <:+: rstrip current := fun hinside =>
    cutAt_eq_none.mp hnone (hinside.trans (List.rdropWhile_prefix _ _).isInfix)
  have hempty : ¬ surface.markerStart.toList <:+: [] := by
    rw [List.infix_nil]
    cases surface <;> decide
  refine ⟨hentries, ?_, by simp, .inr ⟨hnone, rfl⟩⟩
  have hself := cutAt_of_starts (List.prefix_refl surface.markerStart.toList)
  have hsecond : cutAt surface.markerStart.toList ('\n' :: surface.markerStart.toList) =
      some (['\n'], surface.markerStart.toList) := by
    rw [← List.nil_append ('\n' :: _), cutAt_append_cons hempty hline, hself]
    rfl
  rw [List.append_assoc, List.cons_append, List.singleton_append, cutAt_append_cons hnot hline, hsecond]
  rfl

lemma written_of_issue {out : List Char × List String} (h : updateIssueBody X current spec = .ok out) :
    ∃ before after entries, Written X .issueBody current spec out.1 before after entries := by
  rw [updateIssueBody, bind_eq_ok] at h
  obtain ⟨block, hblock, h⟩ := h
  cases block with
  | none => cases h
  | some block =>
    simp only at h
    split at h
    · rw [bind_eq_ok] at h
      obtain ⟨-, -, h⟩ := h
      split at h
      · rename_i fields hset
        rw [bind_eq_ok] at h
        obtain ⟨newBlock, hnew, h⟩ := h
        cases h
        obtain ⟨entries, hentries, rfl⟩ := map_eq_ok.mp hnew
        rw [← hset] at hentries
        exact ⟨_, _, entries, @written_replaced X .issueBody _ _ _ _ hblock hentries⟩
      · cases h
    · cases h

lemma written_of_pr {out : List Char × List String} (h : updatePrBody X current spec = .ok out) :
    ∃ before after entries, Written X .prBody current spec out.1 before after entries := by
  rw [updatePrBody, bind_eq_ok] at h
  obtain ⟨block, hblock, h⟩ := h
  rw [bind_eq_ok] at h
  obtain ⟨expected, -, h⟩ := h
  split at h
  · rename_i fields hset
    rw [bind_eq_ok] at h
    obtain ⟨newBlock, hnew, h⟩ := h
    obtain ⟨entries, hentries, rfl⟩ := map_eq_ok.mp hnew
    rw [← hset] at hentries
    cases block with
    | none =>
      simp only at h
      split at h
      · cases h
      · cases h
        exact ⟨_, _, entries, @written_added X .prBody _ _ _ hblock hentries⟩
    | some block =>
      simp only [bind_eq_ok] at h
      obtain ⟨_, -, _, -, h⟩ := h
      cases h
      exact ⟨_, _, entries, @written_replaced X .prBody _ _ _ _ hblock hentries⟩
  · cases h

lemma written_of_update {out : List Char × List String} (h : surface.update X current spec = .ok out) :
    ∃ before after entries, Written X surface current spec out.1 before after entries := by
  cases surface with
  | issueBody => exact written_of_issue h
  | prBody => exact written_of_pr h

/-- The next update is accepted when each value that was set is. -/
lemma update_next {set : Json} {fields : List (String × Json)} {block : KeyBlock}
    (hblock : parseKeyBlock X current surface.markerStart = .ok (some block))
    (hentries : surface.entries X (.obj fields) = .ok entries) :
    (∃ next, surface.update X current (nextSpec surface set fields) = .ok next) ↔
      ∀ key ∈ surface.keys, surface.check X block.parsed (key, set.get key) = .ok () := by
  have hexpected : (nextSpec surface set fields).lookup "expected" =
      some (.obj (surface.keys.map fun key => (key, set.get key))) := rfl
  have hset : (Json.obj (nextSpec surface set fields)).get "set" = .obj fields := rfl
  rw [← List.forall_mem_map (P := fun p => surface.check X block.parsed p = .ok ()), ← forM_eq_ok]
  cases surface with
  | issueBody =>
    have hrender : renderAgentState X (.obj fields) = .ok (renderBlock agentMarkerStart.toList markerEnd.toList entries) :=
      map_eq_ok.mpr ⟨entries, hentries, rfl⟩
    constructor
    · rintro ⟨next, h⟩
      simp only [Surface.update, updateIssueBody, bind_eq_ok] at h
      obtain ⟨found, hfound, h⟩ := h
      cases hblock.symm.trans hfound
      simp only [hexpected, Option.getD_some, bind_eq_ok] at h
      obtain ⟨_, hcheck, -⟩ := h
      exact hcheck
    · intro hcheck
      refine ⟨(block.before ++ (renderBlock agentMarkerStart.toList markerEnd.toList entries ++ block.after),
        ["issue_body"]), bind_eq_ok.mpr ⟨_, hblock, ?_⟩⟩
      simp only [hexpected, Option.getD_some, hset, hrender]
      exact bind_eq_ok.mpr ⟨(), hcheck, rfl⟩
  | prBody =>
    have hrender : renderPrMarker X (.obj fields) = .ok (renderBlock prMarkerStart.toList markerEnd.toList entries) :=
      map_eq_ok.mpr ⟨entries, hentries, rfl⟩
    constructor
    · rintro ⟨next, h⟩
      simp only [Surface.update, updatePrBody, bind_eq_ok] at h
      obtain ⟨found, hfound, expected, hexpecting, h⟩ := h
      cases hblock.symm.trans hfound
      rw [hexpected] at hexpecting
      cases hexpecting
      simp only [hset, bind_eq_ok] at h
      obtain ⟨_, -, _, hsome, _, hcheck, -⟩ := h
      cases hsome
      exact hcheck
    · intro hcheck
      refine ⟨(block.before ++ (renderBlock prMarkerStart.toList markerEnd.toList entries ++ block.after),
        ["pr_body"]), bind_eq_ok.mpr ⟨_, hblock,
          bind_eq_ok.mpr ⟨some (prKeys.map fun key => (key, set.get key)), ?_, ?_⟩⟩⟩
      · rw [hexpected]
        rfl
      · simp only [hset, hrender]
        exact bind_eq_ok.mpr ⟨_, rfl, bind_eq_ok.mpr ⟨_, rfl, bind_eq_ok.mpr ⟨(), hcheck, rfl⟩⟩⟩

end Updates

section RoundTrips

variable {before after : List Char}

lemma plainKeys (h : surface.entries X (setOf spec) = .ok entries) : PlainKeys entries := by
  have hplain : ∀ key ∈ surface.keys, strip key.toList = key.toList ∧ ':' ∉ key.toList ∧
      key.toList.all (isLineEnd · == false) = true := by
    cases surface <;> decide
  have hkeys := (entries_spec h).1
  refine ⟨fun e he => ?_, ?_⟩
  · have hmem : e.1 ∈ surface.keys := hkeys ▸ List.mem_map_of_mem he
    obtain ⟨hstrip, hcolon, hline⟩ := hplain e.1 hmem
    exact ⟨hstrip, hcolon, forall_of_all hline⟩
  · rw [hkeys]
    cases surface <;> decide

lemma markers (h : surface.entries X (setOf spec) = .ok entries) :
    Markers surface.markerStart.toList markerEnd.toList (entries.map (·.1)) := by
  rw [(entries_spec h).1]
  have hapart : cutAt markerEnd.toList surface.markerStart.toList = none := by
    cases surface <;> decide
  have hkeys : ∀ key ∈ surface.keys, cutAt markerEnd.toList (key.toList ++ [':']) = none := by
    cases surface <;> decide
  exact ⟨⟨'-', "->".toList, rfl, by decide⟩, cutAt_eq_none.mp hapart, by decide, by decide,
    fun key hkey => cutAt_eq_none.mp (hkeys key hkey)⟩

lemma Written.unique (h : Written X surface current spec result before after entries)
    {others : List (String × List Char)} (hothers : surface.entries X (setOf spec) = .ok others) : others = entries :=
  Except.ok.inj (hothers.symm.trans h.set)

lemma lookup_values (hkeys : PlainKeys entries) {e : String × List Char} (he : e ∈ entries) :
    (values entries).lookup e.1 = some (trimmed e.2) := by
  have hunique : Dict.Unique (values entries) := by
    rw [Dict.Unique, values, List.map_map]
    exact hkeys.nodup
  rw [← hunique.mem_iff]
  exact List.mem_map_of_mem (f := fun e => (e.1, trimmed e.2)) he

/-- The values that were set are accepted in the next update when they are read as they were written. -/
lemma next_iff (hset : surface.entries X (setOf spec) = .ok entries) {block : KeyBlock}
    (hblock : parseKeyBlock X result surface.markerStart = .ok (some block)) (hvalues : block.parsed = values entries)
    {fields : List (String × Json)} {written : List (String × List Char)}
    (hfields : surface.entries X (.obj fields) = .ok written) :
    (∃ next, surface.update X result (nextSpec surface (setOf spec) fields) = .ok next) ↔
      ∀ e ∈ entries, strip e.2 = e.2 := by
  rw [update_next hblock hfields, ← (entries_spec hset).1, List.forall_mem_map]
  refine forall₂_congr fun e he => check_iff hset he ?_
  rw [hvalues, lookup_values (plainKeys hset) he]

lemma Written.roundTrip (h : Written X surface current spec result before after entries)
    (hfits : ∀ e ∈ entries, Verbatim e.2) : RoundTrip X surface current spec result entries := by
  have hshows : parseKeyBlock X result surface.markerStart = .ok (some ⟨before, after, values entries⟩) := by
    rw [h.text]
    exact shows_of_fits (plainKeys h.set) (markers h.set) h.opens fun e he => (verbatim_iff.mp (hfits e he)).1
  exact ⟨h.set, h.outside, ⟨_, hshows, rfl⟩, fun fields written hfields =>
    (next_iff h.set hshows rfl hfields).mpr fun e he => (hfits e he).1⟩

lemma Written.verbatim (h : Written X surface current spec result before after entries)
    (hround : RoundTrip X surface current spec result entries) {fields : List (String × Json)}
    (hfields : setOf spec = .obj fields) : ∀ e ∈ entries, Verbatim e.2 := by
  obtain ⟨-, -, ⟨block, hblock, hvalues⟩, hagain⟩ := hround
  have hfits : ∀ e ∈ entries, Fits markerEnd.toList e.2 := by
    refine fits_of_parseBlock (plainKeys h.set) (markers h.set) h.opens (h.text ▸ hblock) fun e he => ?_
    rw [hvalues, lookup_values (plainKeys h.set) he]
  have hset : surface.entries X (.obj fields) = .ok entries := hfields ▸ h.set
  have hstrip := (next_iff h.set hblock hvalues hset).mp (hagain fields entries hset)
  exact fun e he => verbatim_iff.mpr ⟨hfits e he, hstrip e he⟩

lemma obj_of_entries {set : Json} (h : surface.entries X set = .ok entries) : ∃ fields, set = .obj fields := by
  have hvalue : ∃ key, set.get key ≠ .null := by
    cases surface with
    | issueBody =>
      have h : renderKeys agentKeys "issue_body.set." (fun _ value => .ok (text X value)) set = .ok entries := h
      obtain ⟨-, -, hne, -⟩ := renderKeys_cons.mp h
      exact ⟨_, hne⟩
    | prBody =>
      have h : renderKeys prKeys "pr_body.set." (prSpelling X) set = .ok entries := h
      obtain ⟨-, -, hne, -⟩ := renderKeys_cons.mp h
      exact ⟨_, hne⟩
  obtain ⟨key, hne⟩ := hvalue
  cases set with
  | obj fields => exact ⟨fields, rfl⟩
  | _ => exact absurd rfl hne

/-- An update is a round trip when each text it writes is kept as it is. -/
theorem update_roundTrip_iff {out : List Char × List String} (h : surface.update X current spec = .ok out) :
    (∃ entries, RoundTrip X surface current spec out.1 entries) ↔
      ∀ entries, surface.entries X (setOf spec) = .ok entries → ∀ e ∈ entries, Verbatim e.2 := by
  obtain ⟨before, after, entries, hwritten⟩ := written_of_update h
  constructor
  · rintro ⟨others, hround⟩ entries' hentries'
    obtain rfl := hwritten.unique hentries'
    obtain rfl := hwritten.unique hround.written
    obtain ⟨fields, hfields⟩ := obj_of_entries hwritten.set
    exact hwritten.verbatim hround hfields
  · intro hfits
    exact ⟨entries, hwritten.roundTrip (hfits entries hwritten.set)⟩

end RoundTrips

section Sample

open Sample

def issueText : List Char := "Work\n\n<!-- agent-state:v1\nstatus: Todo\n-->\n\nNotes".toList

def issueSpec (branch : String) : List (String × Json) :=
  [("expected", .obj [("status", .str "Todo")]),
    ("set", .obj [("status", .str "In Progress"), ("claim_session", .str "a"), ("claim_worktree", .str "/work/a"),
      ("claim_branch", .str branch), ("claim_updated_at", .str "2026-07-16T20:00:00Z"),
      ("expires_at", .str "2026-07-16T22:00:00Z")])]

lemma exists_update (branch : String)
    (h : ((Surface.issueBody.update (externals []) issueText (issueSpec branch)).toOption).isSome = true) :
    ∃ out, Surface.issueBody.update (externals []) issueText (issueSpec branch) = .ok out := by
  obtain ⟨out, hout⟩ := Option.isSome_iff_exists.mp h
  exact ⟨out, toOption_eq_some hout⟩

def issueTexts (branch : String) : List (String × List Char) :=
  [("status", "In Progress".toList), ("claim_session", "a".toList), ("claim_worktree", "/work/a".toList),
    ("claim_branch", branch.toList), ("claim_updated_at", "2026-07-16T20:00:00Z".toList),
    ("expires_at", "2026-07-16T22:00:00Z".toList)]

lemma entries_issueSpec (branch : String) :
    Surface.issueBody.entries (externals []) (setOf (issueSpec branch)) = .ok (issueTexts branch) := by
  rfl

/-- A branch on one line. -/
theorem update_roundTrip_branch :
    ∃ out, Surface.issueBody.update (externals []) issueText (issueSpec "main") = .ok out ∧
      ∃ entries, RoundTrip (externals []) .issueBody issueText (issueSpec "main") out.1 entries := by
  obtain ⟨out, hout⟩ := exists_update "main" (by decide +kernel)
  refine ⟨out, hout, (update_roundTrip_iff hout).mpr fun entries hentries => ?_⟩
  cases (entries_issueSpec "main").symm.trans hentries
  decide

/-- A branch with a line of its own under a key that the block has. -/
theorem update_not_roundTrip_branch :
    ∃ out, Surface.issueBody.update (externals []) issueText (issueSpec "main\nstatus: Done") = .ok out ∧
      ¬ ∃ entries, RoundTrip (externals []) .issueBody issueText (issueSpec "main\nstatus: Done") out.1 entries := by
  obtain ⟨out, hout⟩ := exists_update "main\nstatus: Done" (by decide +kernel)
  refine ⟨out, hout, ?_⟩
  rintro ⟨entries, hround⟩
  obtain ⟨before, after, written, hwritten⟩ := written_of_update hout
  obtain rfl := hwritten.unique hround.written
  have hfits := hwritten.verbatim hround rfl
  cases (entries_issueSpec _).symm.trans hround.written
  have hbranch := hfits ("claim_branch", "main\nstatus: Done".toList) (by simp [issueTexts])
  exact absurd hbranch (by decide)

end Sample

end PlatformGitops.Coordination.ApplyLedgerMirrors
