import Mathlib.Logic.Function.Basic
import PlatformGitops.EnumDrift.Guard

/-! Merges under the guard keep the mains of both repositories together. -/

namespace PlatformGitops.EnumDrift

open Library Fallible

section World

/-- The texts of the files of a commit. -/
abbrev Files := String → Option String

structure Pull where
  state : PullState
  mergedAt : Option String
  body : String
  head : String
  baseRef : String
  changedPaths : List String
deriving DecidableEq, Repr

def Pull.result (pull : Pull) : PullResult := ⟨pull.state, pull.mergedAt, pull.body, pull.head, pull.baseRef⟩

structure World where
  main : String → Files
  pulls : String → Nat → Option Pull

def canonicalRepo : String := "Halildeu/platform-backend"

def mirrorRepo : String := "Halildeu/platform-web"

variable (commits : String → String → Files)

namespace World

variable (w : World)

def files (repo : String) : Ref → Files
  | .main => w.main repo
  | .commit sha => commits repo sha

def setPull (repo : String) (number : Nat) (pull : Pull) : World :=
  { w with pulls := Function.update w.pulls repo (Function.update (w.pulls repo) number (some pull)) }

def setMain (repo : String) (files : Files) : World := { w with main := Function.update w.main repo files }

end World

/-- What the process of a run is told of the world, where it is not told of an error. -/
structure Fetcher.Current (fetcher : Fetcher) (w : World) : Prop where
  contents : ∀ key result, fetcher.getContents key = .ok result → w.files commits key.repo key.ref key.path = some result.text
  pull : ∀ key result, fetcher.getPull key = .ok result → ∃ pull, w.pulls key.repo key.number = some pull ∧ result = pull.result
  changedPaths : ∀ key paths, fetcher.fetchChangedPaths key = .ok paths →
    ∃ pull, w.pulls key.repo key.number = some pull ∧ paths = pull.changedPaths

/-- The run for a pull request of one of the sides: its head against the main of the other side. -/
def runArgs (repo : String) (pull : Pull) (ownPrUrl : String) (ownChangedPaths : Option (List String)) : Args where
  ownRepo := repo
  ownRole := if repo = canonicalRepo then .canonical else .mirror
  canonicalRef := if repo = canonicalRepo then .commit pull.head else .main
  mirrorRef := if repo = canonicalRepo then .main else .commit pull.head
  ownPrUrl := ownPrUrl
  prBody := pull.body
  ownChangedPaths := ownChangedPaths

/-- A merge, with the world before and after it. -/
structure Merge where
  repo : String
  number : Nat
  pull : Pull
  before : World
  after : World

/-- A step of the two repositories. Only a merge, which the guard allows on what it is told then, moves a main. -/
inductive Step (X : Externals) (spec : Except String Spec) : Option Merge → World → World → Prop
  | opened {w : World} {repo : String} {number : Nat} {pull : Pull} : w.pulls repo number = none →
      pull.state = .opened → pull.mergedAt = none → Step X spec none w (w.setPull repo number pull)
  | pushed {w : World} {repo : String} {number : Nat} {pull : Pull} {head : String} {paths : List String} :
      w.pulls repo number = some pull →
      Step X spec none w (w.setPull repo number { pull with head := head, changedPaths := paths })
  | edited {w : World} {repo : String} {number : Nat} {pull : Pull} {body baseRef : String} :
      w.pulls repo number = some pull →
      Step X spec none w (w.setPull repo number { pull with body := body, baseRef := baseRef })
  | closed {w : World} {repo : String} {number : Nat} {pull : Pull} : w.pulls repo number = some pull →
      Step X spec none w (w.setPull repo number { pull with state := .closed })
  | reopened {w : World} {repo : String} {number : Nat} {pull : Pull} : w.pulls repo number = some pull →
      pull.mergedAt = none → Step X spec none w (w.setPull repo number { pull with state := .opened })
  | merged {w : World} {repo : String} {number : Nat} {pull : Pull} {fetcher : Fetcher} {ownPrUrl at_ : String}
      {ownChangedPaths : Option (List String)} : repo = canonicalRepo ∨ repo = mirrorRepo →
      w.pulls repo number = some pull → pull.state = .opened → fetcher.Current commits w →
      (main X fetcher (runArgs repo pull ownPrUrl ownChangedPaths) spec).1 = 0 →
      Step X spec
        (some ⟨repo, number, pull, w, (w.setMain repo (commits repo pull.head)).setPull repo number
          { pull with state := .closed, mergedAt := some at_ }⟩)
        w ((w.setMain repo (commits repo pull.head)).setPull repo number
          { pull with state := .closed, mergedAt := some at_ })

/-- Any interleaving, with its merges in their order. -/
inductive Run (X : Externals) (spec : Except String Spec) (w : World) : List Merge → World → Prop
  | start : Run X spec w [] w
  | other {log : List Merge} {w' w'' : World} : Run X spec w log w' → Step commits X spec none w' w'' →
      Run X spec w log w''
  | merge {log : List Merge} {w' w'' : World} {m : Merge} : Run X spec w log w' →
      Step commits X spec (some m) w' w'' → Run X spec w (log ++ [m]) w''

end World

section Values

variable (X : Externals)

/-- The values that a side has in the files of its repository. -/
def valuesIn (files : Files) (side : MappingSide) : Option (List String) :=
  (files side.path).bind fun text => (X.parse side text).toOption

/-- Each mirror has exactly the values of the canonical side. -/
def Holds (mapping : Mapping) (canonical mirrors : Files) : Prop :=
  ∃ values, valuesIn X canonical mapping.canonical = some values ∧
    ∀ side ∈ mapping.mirrors, ∃ values', valuesIn X mirrors side = some values' ∧ ∀ v, v ∈ values' ↔ v ∈ values

def Agree (mapping : Mapping) (w : World) : Prop := Holds X mapping (w.main canonicalRepo) (w.main mirrorRepo)

/-- The pull request names an open one of the mirror side that has the values of its own head. -/
def PairedOpen (commits : String → String → Files) (mapping : Mapping) (m : Merge) : Prop :=
  ∃ url number paired, extractPairedPrUrl X m.pull.body = .ok (some url) ∧
    parsePrUrl X url = .ok ⟨mirrorRepo, number⟩ ∧ m.before.pulls mirrorRepo number = some paired ∧
    paired.state = .opened ∧
    Holds X mapping (commits canonicalRepo m.pull.head) (commits mirrorRepo paired.head)

end Values

variable {commits : String → String → Files} {X : Externals} {fetcher : Fetcher} {spec : Spec} {mapping : Mapping} {w w' : World}

section Reports

lemma missing_eq_nil {values others : List String} : missing values others = [] ↔ ∀ v ∈ values, v ∈ others := by
  have hlen : (missing values others).length = (values.dedup.filter fun v => v ∉ others).length :=
    List.length_insertionSort ..
  rw [← List.length_eq_zero_iff, hlen, List.length_eq_zero_iff, List.filter_eq_nil_iff]
  simp

lemma fetchAndParse_eq_ok (hcurrent : fetcher.Current commits w) {side : MappingSide} {ref : Ref}
    {fetched : List String × String} (h : fetchAndParse X fetcher side ref = .ok fetched) :
    valuesIn X (w.files commits side.repo ref) side = some fetched.1 := by
  unfold fetchAndParse at h
  split at h
  · cases h
  · rename_i contents hcontents
    split at h
    · cases h
    · rename_i extracted hextracted
      cases h
      have htext := hcurrent.contents _ _ hcontents
      simp only at htext
      simp only [valuesIn, htext, Option.bind_some, hextracted, Except.toOption]

lemma mirrorReports_eq_ok (hcurrent : fetcher.Current commits w) {canonical : List String} {ref : Ref}
    {sides : List MappingSide} {reports : List MirrorReport}
    (h : mirrorReports X fetcher canonical ref sides = .ok reports) (hclean : reports.all (·.clean) = true) :
    ∀ side ∈ sides, ∃ values, valuesIn X (w.files commits side.repo ref) side = some values ∧
      ∀ v, v ∈ values ↔ v ∈ canonical := by
  induction sides generalizing reports with
  | nil => simp
  | cons side sides ih =>
    unfold mirrorReports at h
    split at h
    · cases h
    · rename_i fetched hfetched
      simp only [bind_eq_ok, pure_eq_ok] at h
      obtain ⟨rest, hrest, rfl⟩ := h
      rw [List.all_cons, Bool.and_eq_true] at hclean
      obtain ⟨hmirror, hcanonical, -⟩ := of_decide_eq_true hclean.1
      rw [mirrorReport, missing_eq_nil] at hmirror hcanonical
      refine List.forall_mem_cons.mpr ⟨⟨fetched.1, fetchAndParse_eq_ok hcurrent hfetched, fun v => ?_⟩, ih hrest hclean.2⟩
      exact ⟨hcanonical v, hmirror v⟩

/-- A mapping that passes holds between the files that were compared. -/
lemma runMapping_pass (hcurrent : fetcher.Current commits w) {canonicalRef mirrorRef : Ref}
    (h : (runMapping X fetcher mapping canonicalRef mirrorRef).verdict = .pass)
    (hcanonical : mapping.canonical.repo = canonicalRepo) (hmirrors : ∀ side ∈ mapping.mirrors, side.repo = mirrorRepo) :
    Holds X mapping (w.files commits canonicalRepo canonicalRef) (w.files commits mirrorRepo mirrorRef) := by
  unfold runMapping at h
  split at h
  · cases h
  · rename_i extracted sha hextracted
    split at h
    · cases h
    · rename_i mirrors hreports
      simp only at h
      split_ifs at h with hpass
      refine ⟨extracted, hcanonical ▸ fetchAndParse_eq_ok hcurrent hextracted, fun side hside => ?_⟩
      rw [← hmirrors side hside]
      exact mirrorReports_eq_ok hcurrent hreports hpass.1 side hside

end Reports

section Exits

variable {ε α β : Type}

/-- Every error of the computation ends the run with another exit code than 0. -/
def ExitsNonzero (exit : ε → Nat) (x : Except ε α) : Prop := ∀ e, x = .error e → exit e ≠ 0

lemma ExitsNonzero.ok {exit : ε → Nat} {a : α} : ExitsNonzero exit (.ok a : Except ε α) := nofun

lemma ExitsNonzero.bind {exit : ε → Nat} {x : Except ε α} {f : α → Except ε β} (hx : ExitsNonzero exit x)
    (hf : ∀ a, ExitsNonzero exit (f a)) : ExitsNonzero exit (x >>= f) := by
  cases x with
  | error e => exact fun e' h => hx e' (by simpa [Bind.bind, Except.bind] using h)
  | ok a => exact hf a

lemma ExitsNonzero.rejectIf {exit : ε → Nat} {bad : Prop} [Decidable bad] {e : ε} (h : exit e ≠ 0) :
    ExitsNonzero exit (Fallible.rejectIf bad e) := by
  unfold Fallible.rejectIf
  split
  · rintro _ ⟨⟩
    exact h
  · exact ExitsNonzero.ok

lemma exits_pairingError {message : String} :
    ExitsNonzero PairingError.exitCode (pairingError message : Except PairingError α) := by
  rintro _ ⟨⟩
  exact Nat.succ_ne_zero 1

lemma exits_extractPairedPrUrl (body : String) : ExitsNonzero PairingError.exitCode (extractPairedPrUrl X body) := by
  unfold extractPairedPrUrl
  dsimp only
  split
  · exact ExitsNonzero.ok
  · split
    · exact exits_pairingError
    · exact ExitsNonzero.ok
    · exact exits_pairingError

lemma exits_checkOwnPaths {ownRepo : String} {changed : Option (List String)} {guarded : String → List String} :
    ExitsNonzero PairingError.exitCode (checkOwnPaths X ownRepo changed guarded) := by
  unfold checkOwnPaths
  split
  · exact ExitsNonzero.ok
  · exact ExitsNonzero.rejectIf (Nat.succ_ne_zero 1)

lemma exits_parsePrUrl {url : String} : ExitsNonzero PairingError.exitCode (parsePrUrl X url) := by
  unfold parsePrUrl
  split
  · exact ExitsNonzero.ok
  · exact exits_pairingError

lemma exits_liftFetch {x : Except FetchError α} : ExitsNonzero PairingError.exitCode (liftFetch x) := by
  cases x with
  | ok a => exact ExitsNonzero.ok
  | error e =>
    rintro _ ⟨⟩
    exact Nat.succ_ne_zero 1

lemma exits_liftPairing {x : Except String α} : ExitsNonzero PairingError.exitCode (liftPairing x) := by
  cases x with
  | ok a => exact ExitsNonzero.ok
  | error message => exact exits_pairingError

lemma exits_validatePairedPr {url ownRepo other ownPrUrl : String} {changed : Option (List String)}
    {guarded : String → List String} : ExitsNonzero PairingError.exitCode
      (validatePairedPr X url ownRepo other ownPrUrl changed guarded fetcher) := by
  refine exits_parsePrUrl.bind fun key => ?_
  refine ExitsNonzero.bind (ExitsNonzero.rejectIf (Nat.succ_ne_zero 1)) fun _ => ?_
  refine ExitsNonzero.bind (ExitsNonzero.rejectIf (Nat.succ_ne_zero 1)) fun _ => ?_
  refine exits_liftFetch.bind fun paired => ?_
  refine ExitsNonzero.bind (ExitsNonzero.rejectIf (Nat.succ_ne_zero 1)) fun _ => ?_
  refine exits_liftPairing.bind fun changed => ?_
  refine ExitsNonzero.bind (ExitsNonzero.rejectIf (Nat.succ_ne_zero 1)) fun _ => ?_
  exact exits_checkOwnPaths.bind fun _ => ExitsNonzero.ok

lemma exits_checkCanonicalFirst {role : OwnRole} {result : PairingResult} :
    ExitsNonzero PairingError.exitCode (checkCanonicalFirst role result) := by
  unfold checkCanonicalFirst
  split
  · exact ExitsNonzero.ok
  · rintro _ ⟨⟩
    exact Nat.one_ne_zero
  · rintro _ ⟨⟩
    exact Nat.one_ne_zero
  · exact ExitsNonzero.ok
  · rintro _ ⟨⟩
    exact Nat.one_ne_zero
  · rintro _ ⟨⟩
    exact Nat.one_ne_zero
  · exact ExitsNonzero.ok

lemma exits_failed {mode : Mode} {url : Option String} {x : Except PairingError α}
    (h : ExitsNonzero PairingError.exitCode x) : ExitsNonzero PairingFailure.exitCode (failed mode url x) := by
  cases x with
  | ok a => exact ExitsNonzero.ok
  | error e =>
    rintro _ ⟨⟩
    exact h e rfl

lemma exits_resolvePairing {args : Args} {guarded : String → List String} :
    ExitsNonzero PairingFailure.exitCode (resolvePairing X fetcher args guarded) := by
  refine (exits_failed (exits_extractPairedPrUrl _)).bind fun url => ?_
  cases url with
  | none => exact ExitsNonzero.ok
  | some url =>
    dsimp only
    split
    · exact ExitsNonzero.ok
    · unfold resolvePaired
      split
      · rintro _ ⟨⟩
        exact Nat.succ_ne_zero 1
      · refine (exits_failed exits_validatePairedPr).bind fun result => ?_
        exact (exits_failed exits_checkCanonicalFirst).bind fun _ => ExitsNonzero.ok

/-- A run that ends with 0 has resolved the pairing, and every mapping passes between its refs. -/
lemma main_eq_zero {args : Args} {loaded : Except String Spec} (h : (main X fetcher args loaded).1 = 0) :
    ∃ spec pairing, loaded = .ok spec ∧
      resolvePairing X fetcher args (guardedPathsFromSpec spec.mappings) = .ok pairing ∧
      ∀ mapping ∈ spec.mappings,
        (runMapping X fetcher mapping pairing.canonicalRef pairing.mirrorRef).verdict = .pass := by
  unfold main at h
  split at h
  · cases h
  · rename_i spec
    split at h
    · rename_i failure hfailure
      exact absurd h (exits_resolvePairing _ hfailure)
    · rename_i pairing hpairing
      refine ⟨spec, pairing, rfl, hpairing, fun mapping hmapping => ?_⟩
      simp only [exitCode] at h
      split_ifs at h with herror hpass
      have hverdict := List.all_eq_true.mp hpass _ (List.mem_map_of_mem hmapping)
      exact of_decide_eq_true hverdict

end Exits

section Pairing

lemma failed_eq_ok {α : Type} {mode : Mode} {url : Option String} {x : Except PairingError α} {a : α} :
    failed mode url x = .ok a ↔ x = .ok a := by
  cases x <;> simp [failed]

lemma liftFetch_eq_ok {α : Type} {x : Except FetchError α} {a : α} : liftFetch x = .ok a ↔ x = .ok a := by
  cases x <;> simp [liftFetch]

lemma validatePairedPr_eq_ok {url ownRepo other ownPrUrl : String} {changed : Option (List String)}
    {guarded : String → List String} {result : PairingResult}
    (h : validatePairedPr X url ownRepo other ownPrUrl changed guarded fetcher = .ok result) :
    ∃ key, parsePrUrl X url = .ok key ∧ key.repo = other ∧ fetcher.getPull key = .ok result.pairedPull := by
  simp only [validatePairedPr, bind_eq_ok, pure_eq_ok, rejectIf_eq_ok, not_not, liftFetch_eq_ok] at h
  obtain ⟨key, hkey, _, -, _, hother, paired, hpaired, _, -, _, -, _, -, _, -, rfl⟩ := h
  exact ⟨key, hkey, hother, hpaired⟩

/-- The refs of a run of the canonical side: the other side's main, or the head of the open pull request that it names. -/
lemma resolvePairing_canonical {args : Args} {guarded : String → List String} {pairing : PairingResolved}
    (hrole : args.ownRole = .canonical) (h : resolvePairing X fetcher args guarded = .ok pairing) :
    pairing.canonicalRef = args.canonicalRef ∧ (pairing.mirrorRef = args.mirrorRef ∨
      ∃ url other key paired, extractPairedPrUrl X args.prBody = .ok (some url) ∧ repoPair args.ownRepo = some other ∧
        parsePrUrl X url = .ok key ∧ key.repo = other ∧ fetcher.getPull key = .ok paired ∧ paired.state = .opened ∧
        pairing.mirrorRef = .commit paired.headSha) := by
  simp only [resolvePairing, bind_eq_ok, failed_eq_ok] at h
  obtain ⟨named, hnamed, h⟩ := h
  cases named with
  | none =>
    cases h
    exact ⟨rfl, .inl rfl⟩
  | some url =>
    dsimp only at h
    split at h
    · cases h
      exact ⟨rfl, .inl rfl⟩
    · unfold resolvePaired at h
      split at h
      · cases h
      · rename_i other hother
        simp only [bind_eq_ok, failed_eq_ok, pure_eq_ok, hrole] at h
        obtain ⟨result, hresult, _, hfirst, rfl⟩ := h
        obtain ⟨key, hkey, hrepo, hpull⟩ := validatePairedPr_eq_ok hresult
        have hopened : result.pairedPull.state = .opened := by
          cases hstate : result.pairedPull.state with
          | opened => rfl
          | closed => cases hmerged : result.pairedPull.mergedAt <;> simp [checkCanonicalFirst, hstate, hmerged, mergeOrderViolation] at hfirst
        simp only [pairedRefs, hrole]
        exact ⟨trivial, .inr ⟨url, other, key, result.pairedPull, hnamed, hother, hkey, hrepo, hpull, hopened, rfl⟩⟩

/-- A run of the mirror side compares its refs, paired or not. -/
lemma resolvePairing_mirror {args : Args} {guarded : String → List String} {pairing : PairingResolved}
    (hrole : args.ownRole = .mirror) (h : resolvePairing X fetcher args guarded = .ok pairing) :
    pairing.canonicalRef = args.canonicalRef ∧ pairing.mirrorRef = args.mirrorRef := by
  simp only [resolvePairing, bind_eq_ok] at h
  obtain ⟨named, -, h⟩ := h
  cases named with
  | none =>
    cases h
    exact ⟨rfl, rfl⟩
  | some url =>
    dsimp only at h
    split at h
    · cases h
      exact ⟨rfl, rfl⟩
    · unfold resolvePaired at h
      split at h
      · cases h
      · simp only [bind_eq_ok, pure_eq_ok] at h
        obtain ⟨result, -, _, -, rfl⟩ := h
        simp only [pairedRefs, hrole, and_self]

end Pairing

section Protocol

/-- The mappings compare the two repositories. -/
def BetweenSides (spec : Spec) : Prop :=
  ∀ mapping ∈ spec.mappings, mapping.canonical.repo = canonicalRepo ∧ ∀ side ∈ mapping.mirrors, side.repo = mirrorRepo

/-- What a merge that the guard allows leaves, for each side. -/
structure Guarded (X : Externals) (commits : String → String → Files) (spec : Spec) (m : Merge) : Prop where
  mirror : m.repo = mirrorRepo → ∀ mapping ∈ spec.mappings, Agree X mapping m.after
  canonical : m.repo = canonicalRepo → ∀ mapping ∈ spec.mappings, Agree X mapping m.after ∨ PairedOpen X commits mapping m
  side : m.repo = canonicalRepo ∨ m.repo = mirrorRepo

lemma merged_main {repo : String} {number : Nat} {pull : Pull} {files : Files} :
    ((w.setMain repo files).setPull repo number pull).main = Function.update w.main repo files := rfl

lemma step_none (h : Step commits X (.ok spec) none w w') : w'.main = w.main := by
  cases h <;> rfl

lemma step_some {m : Merge} (hspec : BetweenSides spec) (h : Step commits X (.ok spec) (some m) w w') :
    m.before = w ∧ m.after = w' ∧ Guarded X commits spec m := by
  cases h with
  | @merged _ repo number pull fetcher ownPrUrl at_ ownChangedPaths hrepo hpull hopened hcurrent hmain =>
    obtain ⟨spec', pairing, hloaded, hpairing, hpass⟩ := main_eq_zero hmain
    cases hloaded
    have hholds : ∀ mapping ∈ spec.mappings, Holds X mapping (w.files commits canonicalRepo pairing.canonicalRef)
        (w.files commits mirrorRepo pairing.mirrorRef) := fun mapping hmapping =>
      runMapping_pass hcurrent (hpass mapping hmapping) (hspec mapping hmapping).1 (hspec mapping hmapping).2
    have hne : mirrorRepo ≠ canonicalRepo := by decide
    refine ⟨rfl, rfl, ?_, ?_, hrepo⟩
    · rintro rfl mapping hmapping
      have hrole : (runArgs mirrorRepo pull ownPrUrl ownChangedPaths).ownRole = .mirror := by
        simp [runArgs, hne]
      obtain ⟨hcanonical, hmirror⟩ := resolvePairing_mirror hrole hpairing
      have hcompared := hholds mapping hmapping
      rw [hcanonical, hmirror] at hcompared
      simp only [runArgs, if_neg hne, World.files] at hcompared
      rw [Agree, merged_main, Function.update_of_ne hne.symm, Function.update_self]
      exact hcompared
    · rintro rfl mapping hmapping
      have hrole : (runArgs canonicalRepo pull ownPrUrl ownChangedPaths).ownRole = .canonical := by
        simp [runArgs]
      obtain ⟨hcanonical, hmirror⟩ := resolvePairing_canonical hrole hpairing
      have hcompared := hholds mapping hmapping
      rw [hcanonical] at hcompared
      rcases hmirror with hmirror | ⟨url, other, key, paired, hnamed, hother, hkey, hrepo', hfetched, hstate, hmirror⟩
      · left
        rw [hmirror] at hcompared
        simp only [runArgs, if_true, World.files] at hcompared
        rw [Agree, merged_main, Function.update_self, Function.update_of_ne hne]
        exact hcompared
      · right
        obtain ⟨found, hfound, rfl⟩ := hcurrent.pull key paired hfetched
        rw [hmirror] at hcompared
        simp only [runArgs, if_true, World.files] at hcompared
        obtain rfl : other = mirrorRepo := Option.some.inj (hother.symm.trans rfl)
        refine ⟨url, key.number, found, hnamed, ?_, hrepo' ▸ hfound, hstate, hcompared⟩
        rw [hkey, ← hrepo']

/-- A merge after which a mapping no longer holds on the mains, and does not until the last merge. -/
structure LastParting (X : Externals) (mapping : Mapping) (log : List Merge) (m : Merge) : Prop where
  split : ∃ earlier later, log = earlier ++ m :: later ∧ ∀ m' ∈ later, ¬ Agree X mapping m'.before ∧ ¬ Agree X mapping m'.after
  before : Agree X mapping m.before
  after : ¬ Agree X mapping m.after

lemma run_guarded {log : List Merge} (hspec : BetweenSides spec) (hrun : Run commits X (.ok spec) w log w') :
    ∀ m ∈ log, Guarded X commits spec m := by
  induction hrun with
  | start => simp
  | other _ _ ih => exact ih
  | merge _ hstep ih =>
    obtain ⟨-, -, hguarded⟩ := step_some hspec hstep
    intro m hm
    rcases List.mem_append.mp hm with hm | hm
    · exact ih m hm
    · obtain rfl := List.mem_singleton.mp hm
      exact hguarded

lemma agree_of_main {mapping : Mapping} (h : w'.main = w.main) : Agree X mapping w' ↔ Agree X mapping w := by
  rw [Agree, h, Agree]

lemma run_parting {log : List Merge} (hspec : BetweenSides spec) (hrun : Run commits X (.ok spec) w log w')
    (hstart : Agree X mapping w) (hdiffer : ¬ Agree X mapping w') : ∃ m, LastParting X mapping log m := by
  induction hrun with
  | start => exact absurd hstart hdiffer
  | other _ hstep ih => exact ih fun hagree => hdiffer ((agree_of_main (step_none hstep)).mpr hagree)
  | @merge log _ _ m _ hstep ih =>
    obtain ⟨rfl, rfl, -⟩ := step_some hspec hstep
    by_cases hbefore : Agree X mapping m.before
    · exact ⟨m, ⟨log, [], rfl, by simp⟩, hbefore, hdiffer⟩
    · obtain ⟨m', ⟨earlier, later, rfl, hlater⟩, hbefore', hafter'⟩ := ih hbefore
      refine ⟨m', ⟨earlier, later ++ [m], by simp, ?_⟩, hbefore', hafter'⟩
      simpa [or_imp, forall_and, hbefore, hdiffer] using fun m' hm' => hlater m' hm'

end Protocol

/-- Whatever the order of the events on both sides: after a merge of the mirror side every mapping holds between the mains,
after one of the canonical side it holds or the pull request that it names is open with the merged values, and while a
mapping does not hold, the last merge that ended it is of the second kind. -/
theorem mains_kept_together (commits : String → String → Files) (X : Externals) (spec : Spec) (w w' : World)
    (log : List Merge) (hspec : BetweenSides spec) (hrun : Run commits X (.ok spec) w log w') :
    (∀ m ∈ log, m.repo = mirrorRepo → ∀ mapping ∈ spec.mappings, Agree X mapping m.after) ∧
      (∀ m ∈ log, m.repo = canonicalRepo → ∀ mapping ∈ spec.mappings,
        Agree X mapping m.after ∨ PairedOpen X commits mapping m) ∧
      ∀ mapping ∈ spec.mappings, Agree X mapping w → ¬ Agree X mapping w' →
        ∃ m, LastParting X mapping log m ∧ m.repo = canonicalRepo ∧ PairedOpen X commits mapping m := by
  have hguarded := run_guarded hspec hrun
  refine ⟨fun m hm => (hguarded m hm).mirror, fun m hm => (hguarded m hm).canonical, fun mapping hmapping hstart hdiffer => ?_⟩
  obtain ⟨m, hparting⟩ := run_parting hspec hrun hstart hdiffer
  obtain ⟨earlier, later, rfl, -⟩ := hparting.split
  have hm := hguarded m (by simp)
  rcases hm.side with hcanonical | hmirror
  · exact ⟨m, hparting, hcanonical, (hm.canonical hcanonical mapping hmapping).resolve_left hparting.after⟩
  · exact absurd (hm.mirror hmirror mapping hmapping) hparting.after

namespace Sample

/-- A process that is told everything. -/
def answers (commits : String → String → Files) (w : World) : Fetcher where
  getContents key := match w.files commits key.repo key.ref key.path with
    | some text => .ok ⟨text, "blob"⟩
    | none => .error ⟨"not found"⟩
  getPull key := match w.pulls key.repo key.number with
    | some pull => .ok pull.result
    | none => .error ⟨"not found"⟩
  fetchChangedPaths key := match w.pulls key.repo key.number with
    | some pull => .ok pull.changedPaths
    | none => .error "not found"

lemma answers_current (commits : String → String → Files) (w : World) : (answers commits w).Current commits w where
  contents key result h := by
    simp only [answers] at h
    split at h
    · rename_i text htext
      cases h
      exact htext
    · cases h
  pull key result h := by
    simp only [answers] at h
    split at h
    · rename_i pull hpull
      cases h
      exact ⟨pull, hpull, rfl⟩
    · cases h
  changedPaths key paths h := by
    simp only [answers] at h
    split at h
    · rename_i pull hpull
      cases h
      exact ⟨pull, hpull, rfl⟩
    · cases h

/-- Bodies that are empty or name the mirror's pull request 7, and files that hold one value. -/
def externals : Externals where
  pairedPrBlocks body := if body = "" then [] else [body]
  pairedPrUrls block := [block]
  prUrl url := if url = "https://github.com/Halildeu/platform-web/pull/7" then some ⟨"Halildeu/platform-web", 7⟩ else none
  strip s := s
  repr s := s
  parse _ text := .ok [text]

def roleMapping : Mapping where
  id := "role"
  canonical := ⟨"Halildeu/platform-backend", "Role.java", "java_enum", "Role", none⟩
  mirrors := [⟨"Halildeu/platform-web", "role.ts", "ts_union_type", "Role", none⟩]

def roleSpec : Spec := ⟨1, [roleMapping]⟩

def roleCommits : String → String → Files := fun _ _ _ => some "ADMIN"

def pull (body path : String) : Pull := ⟨.opened, none, body, "head", "main", [path]⟩

def paired : World where
  main _ _ := some "USER"
  pulls repo number :=
    if repo = "Halildeu/platform-backend" ∧ number = 1 then
      some (pull "https://github.com/Halildeu/platform-web/pull/7" "Role.java")
    else if repo = "Halildeu/platform-web" ∧ number = 7 then some (pull "" "role.ts")
    else none

def named : Pull := pull "https://github.com/Halildeu/platform-web/pull/7" "Role.java"

/-- The pair after the merge of its canonical side. -/
def parted : World :=
  (paired.setMain canonicalRepo (roleCommits canonicalRepo "head")).setPull canonicalRepo 1
    { named with state := .closed, mergedAt := some "2026-07-16T20:00:00Z" }

lemma merges : (main externals (answers roleCommits paired) (runArgs canonicalRepo named "" none) (.ok roleSpec)).1 = 0 := by
  decide

end Sample

open Sample in
/-- The canonical pull request of a pair is merged, and the mapping does not hold until the other is. -/
theorem mains_kept_together_parted : ¬ Agree externals roleMapping parted ∧ ∃ m : Merge,
    LastParting externals roleMapping [⟨canonicalRepo, 1, named, paired, parted⟩] m ∧ m.repo = canonicalRepo ∧
      PairedOpen externals roleCommits roleMapping m := by
  have hspec : BetweenSides roleSpec := by
    simp [BetweenSides, roleSpec, roleMapping, canonicalRepo, mirrorRepo]
  have hstep : Step roleCommits externals (.ok roleSpec) (some ⟨canonicalRepo, 1, named, paired, parted⟩) paired parted :=
    .merged (.inl rfl) rfl rfl (answers_current roleCommits paired) merges
  have hrun := Run.merge .start hstep
  have hagree : Agree externals roleMapping paired :=
    ⟨["USER"], rfl, by simp [roleMapping, valuesIn, paired, externals, Except.toOption]⟩
  have hdiffer : ¬ Agree externals roleMapping parted := by
    rintro ⟨values, hvalues, hmirrors⟩
    obtain ⟨values', hvalues', hsame⟩ := hmirrors _ (List.mem_singleton_self _)
    obtain rfl : ["ADMIN"] = values := Option.some.inj hvalues
    obtain rfl : ["USER"] = values' := Option.some.inj hvalues'
    exact absurd ((hsame "USER").mp (by simp)) (by decide)
  exact ⟨hdiffer, (mains_kept_together roleCommits externals roleSpec paired parted _ hspec hrun).2.2 roleMapping
    (List.mem_singleton_self _) hagree hdiffer⟩

end PlatformGitops.EnumDrift
