import PlatformGitops.EnumDrift.CanonicalFirst

/-! Which pairs of pull requests are accepted although they change different mappings. -/

namespace PlatformGitops.EnumDrift

open Library Fallible

def Mapping.sides (m : Mapping) : List MappingSide := m.canonical :: m.mirrors

/-- The mapping guards the file on its canonical side or on that of a mirror. -/
def Mapping.Guards (m : Mapping) (repo path : String) : Prop := ∃ side ∈ m.sides, side.repo = repo ∧ side.path = path

def Mapping.Touched (m : Mapping) (repo : String) (changed : List String) : Prop := ∃ path ∈ changed, m.Guards repo path

/-- Every file of the one repository that some mapping guards has a mapping in common with every one of the other. -/
def Linked (mappings : List Mapping) (repo other : String) : Prop :=
  ∀ m ∈ mappings, ∀ m' ∈ mappings, ∀ path path', m.Guards repo path → m'.Guards other path' → path' ≠ "" →
    ∃ common ∈ mappings, common.Guards repo path ∧ common.Guards other path'

/-- The list of changed files has a name for each. -/
def Fetcher.NamesFiles (fetcher : Fetcher) : Prop := ∀ key paths, fetcher.fetchChangedPaths key = .ok paths → "" ∉ paths

variable {X : Externals} {mappings : List Mapping} {fetcher : Fetcher} {url repo other ownPrUrl path : String} {key : PullKey}
  {own changed guarded : List String} {result : PairingResult}

lemma mem_guardedPaths : path ∈ guardedPathsFromSpec mappings repo ↔ ∃ m ∈ mappings, m.Guards repo path := by
  simp only [guardedPathsFromSpec, List.mem_filterMap, List.mem_flatMap, Option.ite_none_right_eq_some, Option.some.injEq]
  constructor
  · rintro ⟨side, ⟨m, hm, hside⟩, hrepo, hpath⟩
    exact ⟨m, hm, side, hside, hrepo, hpath⟩
  · rintro ⟨m, hm, side, hside, hrepo, hpath⟩
    exact ⟨side, ⟨m, hm, hside⟩, hrepo, hpath⟩

lemma not_disjoint : ¬ disjoint changed guarded = true ↔ ∃ path ∈ changed, path ∈ guarded := by
  simp [disjoint]

/-- The paths of both sides are looked up apart: each may be of another mapping. -/
lemma validatePairedPr_eq_ok_iff : validatePairedPr X url repo other ownPrUrl (some own) (guardedPathsFromSpec mappings)
      fetcher = .ok result ↔
    ∃ key paired changed, parsePrUrl X url = .ok key ∧ key.repo ≠ repo ∧ key.repo = other ∧
      fetcher.getPull key = .ok paired ∧ paired.baseRef = "main" ∧ fetcher.fetchChangedPaths key = .ok changed ∧
      (∃ m ∈ mappings, m.Touched other changed) ∧ (∃ m ∈ mappings, m.Touched repo own) ∧
      result = ⟨url, paired, reciprocal X paired.body ownPrUrl⟩ := by
  have htouched {repo : String} {changed : List String} :
      (∃ path ∈ changed, path ∈ guardedPathsFromSpec mappings repo) ↔ ∃ m ∈ mappings, m.Touched repo changed := by
    simp only [mem_guardedPaths]
    constructor
    · rintro ⟨path, hpath, m, hm, hguards⟩
      exact ⟨m, hm, path, hpath, hguards⟩
    · rintro ⟨m, hm, path, hpath, hguards⟩
      exact ⟨path, hpath, m, hm, hguards⟩
  have hchanged {key : PullKey} {changed : List String} :
      liftPairing (fetcher.fetchChangedPaths key) = .ok changed ↔ fetcher.fetchChangedPaths key = .ok changed := by
    cases fetcher.fetchChangedPaths key <;> simp [liftPairing, pairingError]
  simp only [validatePairedPr, checkOwnPaths, bind_eq_ok, pure_eq_ok, rejectIf_eq_ok, not_not, liftFetch_eq_ok, hchanged,
    not_disjoint, htouched]
  constructor
  · rintro ⟨key, hkey, _, hrepo, _, rfl, paired, hpaired, _, hbase, changed, hfound, _, htheirs, _, hours, rfl⟩
    exact ⟨key, paired, changed, hkey, hrepo, rfl, hpaired, hbase, hfound, htheirs, hours, rfl⟩
  · rintro ⟨key, paired, changed, hkey, hrepo, rfl, hpaired, hbase, hfound, htheirs, hours, rfl⟩
    exact ⟨key, hkey, (), hrepo, (), rfl, paired, hpaired, (), hbase, changed, hfound, (), htheirs, (), hours, rfl⟩

/-- An accepted pair touches one mapping from both sides. -/
def SameMapping (mappings : List Mapping) (repo other : String) (own changed : List String) : Prop :=
  ∃ m ∈ mappings, m.Touched repo own ∧ m.Touched other changed

/-- What the check answers about pairs of the two repositories, whatever they change. -/
def AcceptsSameMapping (X : Externals) (url repo other ownPrUrl : String) (mappings : List Mapping) : Prop :=
  ∀ fetcher own result, Fetcher.NamesFiles fetcher →
    validatePairedPr X url repo other ownPrUrl (some own) (guardedPathsFromSpec mappings) fetcher = .ok result →
    ∃ key changed, parsePrUrl X url = .ok key ∧ fetcher.fetchChangedPaths key = .ok changed ∧
      SameMapping mappings repo other own changed

lemma Linked.sameMapping (h : Linked mappings repo other) (hnames : "" ∉ changed)
    (hours : ∃ m ∈ mappings, m.Touched repo own) (htheirs : ∃ m ∈ mappings, m.Touched other changed) :
    SameMapping mappings repo other own changed := by
  obtain ⟨m, hm, path, hpath, hguards⟩ := hours
  obtain ⟨m', hm', path', hpath', hguards'⟩ := htheirs
  have hne : path' ≠ "" := fun hempty => hnames (hempty ▸ hpath')
  obtain ⟨common, hcommon, hleft, hright⟩ := h m hm m' hm' path path' hguards hguards' hne
  exact ⟨common, hcommon, ⟨path, hpath, hleft⟩, ⟨path', hpath', hright⟩⟩

/-- The answers about a paired pull request that is open for main and changes one file. -/
def oneFile (path : String) : Fetcher where
  getContents _ := .error ⟨"not found"⟩
  getPull _ := .ok ⟨.opened, none, "", "head", "main"⟩
  fetchChangedPaths _ := .ok [path]

lemma touched_singleton {m : Mapping} : m.Touched repo [path] ↔ m.Guards repo path := by
  simp [Mapping.Touched]

lemma linked_of_accepts (hkey : parsePrUrl X url = .ok key) (hother : key.repo = other) (hrepo : key.repo ≠ repo)
    (h : AcceptsSameMapping X url repo other ownPrUrl mappings) : Linked mappings repo other := by
  intro m hm m' hm' path path' hguards hguards' hne
  have hnames : (oneFile path').NamesFiles := by
    intro key paths hpaths
    obtain rfl : [path'] = paths := Except.ok.inj hpaths
    simpa using hne.symm
  have haccept : validatePairedPr X url repo other ownPrUrl (some [path]) (guardedPathsFromSpec mappings)
      (oneFile path') = .ok _ :=
    validatePairedPr_eq_ok_iff.mpr ⟨key, _, [path'], hkey, hrepo, hother, rfl, rfl, rfl,
      ⟨m', hm', touched_singleton.mpr hguards'⟩, ⟨m, hm, touched_singleton.mpr hguards⟩, rfl⟩
  obtain ⟨key', changed, -, hchanged, common, hcommon, hleft, hright⟩ := h _ _ _ hnames haccept
  obtain rfl : [path'] = changed := Except.ok.inj hchanged
  exact ⟨common, hcommon, touched_singleton.mp hleft, touched_singleton.mp hright⟩

theorem accepts_same_mapping_iff (X : Externals) (url repo other ownPrUrl : String) (mappings : List Mapping) :
    AcceptsSameMapping X url repo other ownPrUrl mappings ↔
      ∀ key, parsePrUrl X url = .ok key → key.repo = other → key.repo ≠ repo → Linked mappings repo other := by
  constructor
  · intro h key hkey hother hrepo
    exact linked_of_accepts hkey hother hrepo h
  · intro hlinked fetcher own result hnames haccept
    obtain ⟨key, paired, changed, hkey, hrepo, hother, -, -, hchanged, htheirs, hours, -⟩ := validatePairedPr_eq_ok_iff.mp haccept
    exact ⟨key, changed, hkey, hchanged,
      (hlinked key hkey hother hrepo).sameMapping (hnames key changed hchanged) hours htheirs⟩

namespace Sample

def statusMapping : Mapping where
  id := "status"
  canonical := ⟨"Halildeu/platform-backend", "Status.java", "java_enum", "Status", none⟩
  mirrors := [⟨"Halildeu/platform-web", "status.ts", "ts_union_type", "Status", none⟩]

end Sample

open Sample in
/-- A pull request that changes the roles is paired with one that changes the states. -/
theorem paired_with_another_mapping : ¬ AcceptsSameMapping externals "https://github.com/Halildeu/platform-web/pull/7"
    "Halildeu/platform-backend" "Halildeu/platform-web" "https://github.com/Halildeu/platform-backend/pull/1"
    [roleMapping, statusMapping] := by
  intro hsame
  have haccept : (validatePairedPr externals "https://github.com/Halildeu/platform-web/pull/7" "Halildeu/platform-backend"
      "Halildeu/platform-web" "https://github.com/Halildeu/platform-backend/pull/1" (some ["Role.java"])
      (guardedPathsFromSpec [roleMapping, statusMapping]) (oneFile "status.ts")).toOption.isSome = true := by
    decide
  obtain ⟨result, hresult⟩ := Option.isSome_iff_exists.mp haccept
  obtain ⟨key, changed, -, hchanged, m, hm, ⟨path, hpath, hours⟩, path', hpath', htheirs⟩ :=
    hsame (oneFile "status.ts") _ result (by rintro _ _ ⟨⟩; simp) (toOption_eq_some hresult)
  obtain rfl : ["status.ts"] = changed := Except.ok.inj hchanged
  obtain rfl := List.mem_singleton.mp hpath
  obtain rfl := List.mem_singleton.mp hpath'
  simp only [List.mem_cons, List.not_mem_nil, or_false] at hm
  rcases hm with rfl | rfl
  · simp [Mapping.Guards, Mapping.sides, roleMapping] at htheirs
  · simp [Mapping.Guards, Mapping.sides, statusMapping] at hours

end PlatformGitops.EnumDrift
