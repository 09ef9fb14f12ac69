import PlatformGitops.EtlWorker.Runs
import PlatformGitops.Library.GuardedPut

/-! What a call of the loader leaves, for every batch and all outcomes of its statements. -/

namespace PlatformGitops.EtlWorker

open Library

variable {tableMeta : TableMeta} {includeRawPayload : Bool} {rows : List Row} {target : Target}

section Upserts

variable (tableMeta)

/-- The guarded upsert of one row. -/
def upsert (target : Target) (row : Row) : Target := (executeMany tableMeta [row] target).1

/-- How many upserts of these rows, one after the other, change the target. -/
def changes (rows : List Row) (target : Target) : Nat := (executeMany tableMeta rows target).2.length

/-- Rows with one key and one digest have the same values. -/
def SameUnderDigest (rows : List Row) : Prop :=
  ∀ row ∈ rows, ∀ other ∈ rows, targetKey tableMeta row = targetKey tableMeta other →
    row.get "content_hash" = other.get "content_hash" → ∀ column ∈ allColumns tableMeta, row.get column = other.get column

/-- A row as it is stored, in place of an old one or as a new one. -/
def stores (old : Option StoredRow) (row : Row) : Option StoredRow :=
  some (match old with
    | none => written (allColumns tableMeta) row fun _ => .none
    | some old => written (updateColumns tableMeta) row old)

end Upserts

/-- The digest with which the target holds a row. -/
def digest (stored : Option StoredRow) : Option Value := stored.map (· "content_hash")

abbrev rowDigest (row : Row) : Option Value := some (row.get "content_hash")

lemma executeMany_eq_foldl : (executeMany tableMeta rows target).1 = rows.foldl (upsert tableMeta) target := by
  induction rows generalizing target with
  | nil => rfl
  | cons row rows ih => rw [executeMany_cons, ih, List.foldl_cons, upsert, executeMany_cons, executeMany]

lemma changes_cons (row : Row) (rows : List Row) :
    changes tableMeta (row :: rows) target =
      changes tableMeta [row] target + changes tableMeta rows (upsert tableMeta target row) := by
  unfold changes upsert
  rw [executeMany, executeMany]
  cases upsertedRow tableMeta row (target (targetKey tableMeta row)) with
  | none => simp [executeMany]
  | some stored =>
    simp only [executeMany, List.length_cons, List.length_nil]
    omega

section Again

lemma written_update (row other : Row) (old : StoredRow) {columns : List String} :
    written columns row (written columns other old) = written columns row old := by
  funext column
  unfold written
  cases columns.find? (lower · = column) <;> rfl

lemma written_congr {columns : List String} {row other : Row} {old : StoredRow}
    (h : ∀ column ∈ columns, row.get column = other.get column) : written columns row old = written columns other old := by
  funext column
  unfold written
  cases hfind : columns.find? (lower · = column) with
  | none => rfl
  | some name => exact h name (List.mem_of_find?_eq_some hfind)

lemma mem_update_or_conflict {column : String} (h : column ∈ allColumns tableMeta) :
    column ∈ updateColumns tableMeta ∨ column ∈ conflictColumns tableMeta := by
  by_cases hconflict : column ∈ conflictColumns tableMeta
  · exact Or.inr hconflict
  · exact Or.inl (List.mem_filter.mpr ⟨h, by simpa using hconflict⟩)

lemma get_of_targetKey (h : upsertRefused tableMeta = none) {row other : Row} {column : String}
    (hkey : targetKey tableMeta row = targetKey tableMeta other) (hconflict : column ∈ conflictColumns tableMeta) :
    row.get column = other.get column := by
  have hyear := sourceYear_of_accepted h
  obtain ⟨-, hschema, htable, hpk⟩ := TargetKey.mk.inj hkey
  simp only [conflictColumns, hyear, Option.map_none, Option.toList_none, List.cons_append, List.nil_append,
    List.mem_cons, List.not_mem_nil, or_false] at hconflict
  rcases hconflict with rfl | rfl | rfl
  · exact hschema
  · exact htable
  · exact hpk

/-- A row stored over another one of its key is stored as if the other one had never been. -/
lemma written_over (h : upsertRefused tableMeta = none) {row other : Row}
    (hkey : targetKey tableMeta row = targetKey tableMeta other) (blank : StoredRow) :
    written (updateColumns tableMeta) row (written (allColumns tableMeta) other blank) =
      written (allColumns tableMeta) row blank := by
  have hall := nodup_of_accepted h
  funext column
  unfold written
  cases hupdate : (updateColumns tableMeta).find? (lower · = column) with
  | some name =>
    have hname : lower name = column := by simpa using List.find?_some hupdate
    have hmem : name ∈ allColumns tableMeta := List.mem_of_mem_filter (List.mem_of_find?_eq_some hupdate)
    cases hfind : (allColumns tableMeta).find? (lower · = column) with
    | none => exact absurd hname (by simpa using List.find?_eq_none.mp hfind name hmem)
    | some found =>
      have hfound : lower found = column := by simpa using List.find?_some hfind
      rw [List.inj_on_of_nodup_map hall (List.mem_of_find?_eq_some hfind) hmem (hfound.trans hname.symm)]
  | none =>
    cases hfind : (allColumns tableMeta).find? (lower · = column) with
    | none => rfl
    | some found =>
      have hfound : lower found = column := by simpa using List.find?_some hfind
      rcases mem_update_or_conflict (List.mem_of_find?_eq_some hfind) with hmem | hconflict
      · exact absurd hfound (by simpa using List.find?_eq_none.mp hupdate found hmem)
      · exact (get_of_targetKey h hkey hconflict).symm

lemma digest_stores (h : upsertRefused tableMeta = none) (old : Option StoredRow) (row : Row) :
    digest (stores tableMeta old row) = rowDigest row := by
  have hlower : lower "content_hash" = "content_hash" := by decide
  have hall := nodup_of_accepted h
  have hupdate : ((updateColumns tableMeta).map lower).Nodup := hall.sublist (List.filter_sublist.map _)
  cases old with
  | none => exact congrArg some (written_column hall contentHash_mem.1 hlower)
  | some old => exact congrArg some (written_column hupdate contentHash_mem.2 hlower)

lemma upsert_eq_putAt :
    upsert tableMeta = putAt (targetKey tableMeta) (guardedPut digest rowDigest (stores tableMeta)) := by
  funext target row
  rw [upsert, executeMany_cons, executeMany, putAt]
  cases target (targetKey tableMeta row) with
  | none => simp [upsertedRow, guardedPut, digest, stores]
  | some old =>
    by_cases hsame : old "content_hash" = row.get "content_hash" <;>
      simp [upsertedRow, guardedPut, digest, hsame, stores]

lemma overwrites_stores (h : upsertRefused tableMeta = none) (k : TargetKey) :
    Overwrites digest rowDigest (stores tableMeta) (rows.filter (targetKey tableMeta · = k)) where
  mark_put row _ old := digest_stores h old row
  put_put row hrow other hother old := by
    have hkey : targetKey tableMeta row = targetKey tableMeta other := by
      rw [of_decide_eq_true (List.mem_filter.mp hrow).2, of_decide_eq_true (List.mem_filter.mp hother).2]
    cases old with
    | none => exact congrArg some (written_over h hkey _)
    | some old => exact congrArg some (written_update row other old)

/-- Upserts of some rows of a batch, and then of all of them, leave what those of all of them leave alone. -/
lemma upserts_again (h : upsertRefused tableMeta = none) {committed : List Row} (hsub : committed ⊆ rows)
    (hsame : SameUnderDigest tableMeta rows) :
    rows.foldl (upsert tableMeta) (committed.foldl (upsert tableMeta) target) = rows.foldl (upsert tableMeta) target := by
  funext k
  rw [upsert_eq_putAt, foldl_putAt, foldl_putAt, foldl_putAt]
  refine foldl_again (overwrites_stores h k) (List.filter_subset _ hsub) fun row hrow other hother hdigest old => ?_
  obtain ⟨hrow, hkey⟩ := List.mem_filter.mp hrow
  obtain ⟨hother, hkey'⟩ := List.mem_filter.mp hother
  have hvalues := hsame row hrow other hother ((of_decide_eq_true hkey).trans (of_decide_eq_true hkey').symm)
    (Option.some.inj hdigest)
  cases old with
  | none => exact congrArg some (written_congr hvalues)
  | some old => exact congrArg some (written_congr fun column hcolumn => hvalues column (List.mem_of_mem_filter hcolumn))

/-- The digests that the upserts leave do not depend on which of the rows were there before. -/
lemma digests_again (h : upsertRefused tableMeta = none) {committed : List Row} (hsub : committed ⊆ rows) (k : TargetKey) :
    digest (rows.foldl (upsert tableMeta) (committed.foldl (upsert tableMeta) target) k) =
      digest (rows.foldl (upsert tableMeta) target k) := by
  have hover : Overwrites digest rowDigest (stores tableMeta) (rows.filter (targetKey tableMeta · = k)) :=
    overwrites_stores h k
  have hsub := List.filter_subset (fun row => decide (targetKey tableMeta row = k)) hsub
  rw [upsert_eq_putAt, foldl_putAt, foldl_putAt, foldl_putAt]
  rcases List.eq_nil_or_concat' (rows.filter (targetKey tableMeta · = k)) with hnil | ⟨init, last, hlast⟩
  · rw [hnil] at hsub ⊢
    rw [List.subset_nil.mp hsub, List.foldl_nil]
  · rw [hlast] at hover ⊢
    rw [mark_foldl hover, mark_foldl hover]

end Again

section Outcomes

/-- What becomes of the statement over a whole batch, and of those over each of its rows. The whole one fails if one of
its rows does, and it may fail although none does. -/
structure Outcomes (rows : List Row) where
  bulk : Option PgError
  single : List (Option PgError)
  each : single.length = rows.length
  whole : bulk = none → ∀ outcome ∈ single, outcome = none

abbrev Outcomes.pairs (A : Outcomes rows) : List (Row × Option PgError) := rows.zip A.single

abbrev Outcomes.statements (A : Outcomes rows) : List (Option PgError) := A.bulk :: A.single

def succeeded (pairs : List (Row × Option PgError)) : List Row := (pairs.filter (·.2 = none)).map (·.1)

def failed (pairs : List (Row × Option PgError)) : List (Row × PgError) := pairs.filterMap fun p => p.2.map (p.1, ·)

/-- Every statement of the batch succeeds. -/
def undisturbed (rows : List Row) : Outcomes rows where
  bulk := none
  single := rows.map fun _ => none
  each := List.length_map ..
  whole _ := by simp

/-- The database with the outcomes of the statements to come. Each call takes the next one. -/
def attempts : Machine PyError Effect (World × List (Option PgError)) Unit where
  answer _ e s s' r := outside.answer () e s.1 s'.1 r ∧ ∃ outcome, s.2 = outcome :: s'.2 ∧
    outcome.elim (∃ a, r = .ok a) fun error => r = .error (.pg error)

end Outcomes

section Loading

variable {w w' : World} {outcome : Option PgError} {left left' : List (Option PgError)} {stats : LoadStats} {row : Row}

lemma load_attempted {r : Except PyError Nat}
    (h : attempts.answer () (.load tableMeta rows) (w, outcome :: left) (w', left') r) :
    left' = left ∧ outcome.elim
      (upsertRefused tableMeta = none ∧ r = .ok (changes tableMeta rows w.target) ∧
        w'.target = rows.foldl (upsert tableMeta) w.target)
      fun error => r = .error (.pg error) ∧ w' = w := by
  obtain ⟨hans, next, hnext, hout⟩ := h
  obtain ⟨rfl, rfl⟩ := List.cons.inj hnext
  refine ⟨rfl, ?_⟩
  cases outcome with
  | none =>
    obtain ⟨n, rfl⟩ := hout
    obtain ⟨haccepted, hn, hw⟩ := hans
    exact ⟨haccepted, congrArg _ hn, (congrArg World.target hw).trans executeMany_eq_foldl⟩
  | some error =>
    obtain rfl := hout
    exact ⟨rfl, hans.2⟩

/-- A row of its own: its upsert is committed, or it is rejected, or its error ends the batch. -/
lemma loadRow_attempted {r : Except PyError LoadStats}
    (h : Exec attempts () (loadRow tableMeta includeRawPayload stats row) (w, outcome :: left) (w', left') r) :
    left' = left ∧ outcome.elim
      (r = .ok { stats with inserted := stats.inserted + changes tableMeta [row] w.target } ∧
        w'.target = upsert tableMeta w.target row)
      fun error => w' = w ∧
        if classifyError error = .noRetry then
          r = .ok { stats with
            rejects := stats.rejects ++ [loadReject tableMeta includeRawPayload row error]
            rejected := stats.rejected + 1 }
        else r = .error (.pg error) := by
  unfold loadRow at h
  simp only [exec_bind, exec_attempt, exec_perform] at h
  rcases h with ⟨⟨w₁, left₁⟩, _, ⟨result, hload, heq⟩, hrest⟩ | ⟨e, ⟨result, -, heq⟩, -⟩
  · cases heq
    obtain ⟨rfl, hout⟩ := load_attempted hload
    cases outcome with
    | none =>
      obtain ⟨-, rfl, htarget⟩ := hout
      obtain ⟨hend, rfl⟩ := exec_pure.mp hrest
      cases hend
      exact ⟨rfl, rfl, htarget⟩
    | some error =>
      obtain ⟨rfl, rfl⟩ := hout
      simp only at hrest
      split at hrest
      · rename_i hclass
        obtain ⟨hend, rfl⟩ := exec_pure.mp hrest
        cases hend
        exact ⟨rfl, rfl, by rw [if_pos hclass]⟩
      · rename_i hclass
        obtain ⟨hend, rfl⟩ := exec_fail.mp hrest
        cases hend
        exact ⟨rfl, rfl, by rw [if_neg hclass]⟩
  · cases heq

lemma succeeded_ok {pairs : List (Row × Option PgError)} :
    succeeded ((row, none) :: pairs) = row :: succeeded pairs := by
  simp [succeeded]

/-- What the rows of a batch, each on its own, come to. -/
lemma loadRows_attempted {pairs : List (Row × Option PgError)} {r : Except PyError LoadStats}
    (h : Exec attempts () ((pairs.map (·.1)).foldlM (loadRow tableMeta includeRawPayload) stats)
      (w, pairs.map (·.2)) (w', left') r) :
    Post (fun out w' => w'.target = (succeeded pairs).foldl (upsert tableMeta) w.target ∧
        out.rejects = stats.rejects ++ (failed pairs).map (fun p => loadReject tableMeta includeRawPayload p.1 p.2) ∧
        out.rejected = stats.rejected + (failed pairs).length ∧
        out.inserted = stats.inserted + changes tableMeta (succeeded pairs) w.target)
      (fun err w' => ∃ before row e after, pairs = before ++ (row, some e) :: after ∧ err = .pg e ∧
        classifyError e ≠ .noRetry ∧ w'.target = (succeeded before).foldl (upsert tableMeta) w.target) r w' := by
  induction pairs generalizing w stats with
  | nil =>
    obtain ⟨hend, rfl⟩ := exec_pure.mp h
    cases hend
    simp [succeeded, failed, changes, executeMany]
  | cons pair pairs ih =>
    obtain ⟨row, outcome⟩ := pair
    rw [List.map_cons, List.map_cons, List.foldlM_cons, exec_bind] at h
    rcases h with ⟨⟨w₁, left₁⟩, stats₁, hrow, hrest⟩ | ⟨e, hrow, rfl⟩
    · obtain ⟨rfl, hout⟩ := loadRow_attempted hrow
      have hrest := ih hrest
      cases outcome with
      | none =>
        obtain ⟨hstats, htarget⟩ := hout
        obtain rfl := Except.ok.inj hstats
        rw [htarget] at hrest
        cases r with
        | ok out =>
          obtain ⟨hfold, hrejects, hrejected, hinserted⟩ := hrest
          rw [post_ok, succeeded_ok, changes_cons, ← Nat.add_assoc]
          exact ⟨hfold, hrejects, hrejected, hinserted⟩
        | error err =>
          obtain ⟨before, row', e, after, rfl, rfl, hclass, hfold⟩ := hrest
          exact ⟨(row, none) :: before, row', e, after, rfl, rfl, hclass, hfold⟩
      | some error =>
        obtain ⟨rfl, hout⟩ := hout
        split at hout
        · obtain rfl := Except.ok.inj hout
          cases r with
          | ok out =>
            obtain ⟨hfold, hrejects, hrejected, hinserted⟩ := hrest
            refine ⟨hfold, ?_, ?_, hinserted⟩
            · simpa [failed] using hrejects
            · rw [hrejected]
              simp only [failed, List.filterMap_cons, Option.map_some, List.length_cons]
              omega
          | error err =>
            obtain ⟨before, row', e, after, rfl, rfl, hclass, hfold⟩ := hrest
            exact ⟨(row, some error) :: before, row', e, after, rfl, rfl, hclass, hfold⟩
        · cases hout
    · obtain ⟨-, hout⟩ := loadRow_attempted hrow
      cases outcome with
      | none => cases hout.1
      | some error =>
        obtain ⟨rfl, hout⟩ := hout
        split at hout
        · cases hout
        · rename_i hclass
          obtain rfl := Except.error.inj hout
          exact ⟨[], row, error, pairs, rfl, rfl, hclass, rfl⟩

/-- A call that returns: what it leaves and what it reports. -/
structure Returned (tableMeta : TableMeta) (includeRawPayload : Bool) (A : Outcomes rows) (before : Target)
    (stats : LoadStats) (after : Target) : Prop where
  folded : after = (succeeded A.pairs).foldl (upsert tableMeta) before
  rejects : stats.rejects = (failed A.pairs).map fun p => loadReject tableMeta includeRawPayload p.1 p.2
  rejected : stats.rejected = stats.rejects.length
  inserted : stats.inserted = changes tableMeta (succeeded A.pairs) before

/-- The error that ends a call, and the rows that are committed before it. -/
inductive Outcomes.RaisesAt (A : Outcomes rows) : PgError → List Row → Prop
  | bulk {e : PgError} : A.bulk = some e → A.RaisesAt e []
  | single {e e' : PgError} {before after : List (Row × Option PgError)} {row : Row} : A.bulk = some e' →
      A.pairs = before ++ (row, some e) :: after → A.RaisesAt e (succeeded before)

/-- The batch is loaded once more without any error, and the target is the one of a single undisturbed call: in the digests
of all rows, and in the rows themselves where rows of one key and digest have the same values. -/
def Recovers (tableMeta : TableMeta) (includeRawPayload : Bool) (rows : List Row) (w w' : World) : Prop :=
  ∀ again once left left' r r',
    Exec attempts () (loadBatch tableMeta includeRawPayload rows) (w', (undisturbed rows).statements) (again, left) r →
    Exec attempts () (loadBatch tableMeta includeRawPayload rows) (w, (undisturbed rows).statements) (once, left') r' →
    (∀ k, digest (again.target k) = digest (once.target k)) ∧
      (SameUnderDigest tableMeta rows → again.target = once.target)

structure Raised (tableMeta : TableMeta) (includeRawPayload : Bool) (A : Outcomes rows) (w : World) (err : PyError)
    (w' : World) : Prop where
  stopped : ∃ e committed, err = .pg e ∧ classifyError e ≠ .noRetry ∧ A.RaisesAt e committed ∧
    w'.target = committed.foldl (upsert tableMeta) w.target
  recovers : Recovers tableMeta includeRawPayload rows w w'

lemma Outcomes.RaisesAt.subset {A : Outcomes rows} {e : PgError} {committed : List Row} (h : A.RaisesAt e committed) :
    committed ⊆ rows := by
  cases h with
  | bulk => exact List.nil_subset _
  | @single _ before after row _ hpairs =>
    intro other hother
    obtain ⟨p, hp, rfl⟩ := List.mem_map.mp hother
    have hmem : p ∈ A.pairs := hpairs ▸ List.mem_append_left _ (List.mem_of_mem_filter hp)
    exact (List.of_mem_zip hmem).1

lemma Outcomes.map_fst (A : Outcomes rows) : A.pairs.map (·.1) = rows := List.map_fst_zip A.each.ge

lemma Outcomes.map_snd (A : Outcomes rows) : A.pairs.map (·.2) = A.single := List.map_snd_zip A.each.le

lemma Outcomes.succeeded_whole {A : Outcomes rows} (h : A.bulk = none) : succeeded A.pairs = rows ∧ failed A.pairs = [] := by
  have hnone : ∀ p ∈ A.pairs, p.2 = none := fun p hp => A.whole h p.2 (List.of_mem_zip hp).2
  constructor
  · rw [succeeded, List.filter_eq_self.mpr fun p hp => by simp [hnone p hp], A.map_fst]
  · exact List.filterMap_eq_nil_iff.mpr fun p hp => by simp [hnone p hp]

/-- A call whose statement over the whole batch succeeds. -/
lemma loadBatch_whole {A : Outcomes rows} {r : Except PyError LoadStats} (hrows : rows ≠ []) (hbulk : A.bulk = none)
    (h : Exec attempts () (loadBatch tableMeta includeRawPayload rows) (w, A.statements) (w', left) r) :
    upsertRefused tableMeta = none ∧ w'.target = rows.foldl (upsert tableMeta) w.target ∧
      r = .ok { inserted := changes tableMeta rows w.target } := by
  rw [loadBatch, if_neg hrows, Outcomes.statements, hbulk] at h
  simp only [exec_bind, exec_attempt, exec_perform] at h
  rcases h with ⟨⟨w₁, left₁⟩, _, ⟨result, hload, heq⟩, hrest⟩ | ⟨e, ⟨result, -, heq⟩, -⟩
  · cases heq
    obtain ⟨rfl, haccepted, rfl, htarget⟩ := load_attempted hload
    obtain ⟨hend, rfl⟩ := exec_pure.mp hrest
    cases hend
    exact ⟨haccepted, htarget, rfl⟩
  · cases heq

lemma recovers_of_committed {committed : List Row} (hsub : committed ⊆ rows)
    (h : w'.target = committed.foldl (upsert tableMeta) w.target) : Recovers tableMeta includeRawPayload rows w w' := by
  intro again once left left' r r' hagain honce
  by_cases hrows : rows = []
  · subst hrows
    obtain ⟨hend, -⟩ := exec_pure.mp hagain
    obtain ⟨hend', -⟩ := exec_pure.mp honce
    cases hend
    cases hend'
    rw [h, List.subset_nil.mp hsub]
    exact ⟨fun _ => rfl, fun _ => rfl⟩
  · obtain ⟨haccepted, htarget, -⟩ := loadBatch_whole hrows rfl hagain
    obtain ⟨-, htarget', -⟩ := loadBatch_whole hrows rfl honce
    rw [htarget, htarget', h]
    exact ⟨digests_again haccepted hsub, upserts_again haccepted hsub⟩

end Loading

/-- A call of the loader is a fold of upserts over the rows whose statements succeeded, up to the error that ends it. -/
theorem load_batch_folds (A : Outcomes rows) {w w' : World} {left : List (Option PgError)} {r : Except PyError LoadStats}
    (h : Exec attempts () (loadBatch tableMeta includeRawPayload rows) (w, A.statements) (w', left) r) :
    Post (fun stats w' => Returned tableMeta includeRawPayload A w.target stats w'.target)
      (fun err w' => Raised tableMeta includeRawPayload A w err w') r w' := by
  by_cases hrows : rows = []
  · subst hrows
    obtain ⟨hend, rfl⟩ := exec_pure.mp h
    cases hend
    exact ⟨rfl, rfl, rfl, rfl⟩
  cases hbulk : A.bulk with
  | none =>
    obtain ⟨-, htarget, rfl⟩ := loadBatch_whole hrows hbulk h
    obtain ⟨hsucceeded, hfailed⟩ := Outcomes.succeeded_whole hbulk
    refine ⟨?_, ?_, rfl, ?_⟩
    · rw [hsucceeded, htarget]
    · rw [hfailed, List.map_nil]
    · rw [hsucceeded]
  | some error =>
    rw [loadBatch, if_neg hrows, Outcomes.statements, hbulk] at h
    simp only [exec_bind, exec_attempt, exec_perform] at h
    rcases h with ⟨⟨w₁, left₁⟩, _, ⟨result, hload, heq⟩, hrest⟩ | ⟨e, ⟨result, -, heq⟩, -⟩
    · cases heq
      obtain ⟨rfl, rfl, rfl⟩ := load_attempted hload
      simp only at hrest
      split at hrest
      · rename_i hclass
        obtain ⟨hend, rfl⟩ := exec_fail.mp hrest
        cases hend
        exact ⟨⟨error, [], rfl, by simp [hclass], .bulk hbulk, rfl⟩, recovers_of_committed (List.nil_subset _) rfl⟩
      · have hloop : Exec attempts () ((A.pairs.map (·.1)).foldlM (loadRow tableMeta includeRawPayload)
            { bulkFallback := true }) (w₁, A.pairs.map (·.2)) (w', left) r := by
          rw [A.map_fst, A.map_snd]
          exact hrest
        have hout := loadRows_attempted hloop
        cases r with
        | ok stats =>
          obtain ⟨htarget, hrejects, hrejected, hinserted⟩ := hout
          refine ⟨htarget, by simpa using hrejects, ?_, by simpa using hinserted⟩
          rw [hrejected, hrejects]
          simp
        | error err =>
          obtain ⟨before, row, e, after, hpairs, rfl, hclass, htarget⟩ := hout
          have hraises : A.RaisesAt e (succeeded before) := .single hbulk hpairs
          exact ⟨⟨e, succeeded before, rfl, hclass, hraises, htarget⟩, recovers_of_committed hraises.subset htarget⟩
    · cases heq

namespace Sample

/-- The database that gives these outcomes. -/
def answering : {γ : Type} → Effect γ → World × List (Option PgError) →
    Option ((World × List (Option PgError)) × Except PyError γ)
  | _, .load _ _, (w, some error :: left) => some ((w, left), .error (.pg error))
  | _, .load tableMeta rows, (w, none :: left) =>
    let (target, changed) := executeMany tableMeta rows w.target
    if upsertRefused tableMeta = none then
      some (({ w with target := target, statements := w.statements ++ [⟨tableMeta, rows, changed⟩] }, left), .ok changed.length)
    else none
  | _, _, _ => none

lemma answering_answers : Answers attempts () answering := by
  rintro γ e ⟨w, outcomes⟩ ⟨w', left⟩ r h
  cases e with
  | load tableMeta rows =>
    rcases outcomes with _ | ⟨_ | error, outcomes⟩
    · cases h
    · simp only [answering] at h
      split at h
      · rename_i haccepted
        cases h
        exact ⟨⟨haccepted, rfl, rfl⟩, none, rfl, _, rfl⟩
      · cases h
    · cases h
      exact ⟨⟨trivial, rfl⟩, some error, rfl, rfl⟩
  | _ => cases h

def balances : TableMeta where
  name := "COMPANY"
  sourceSchema := "workcube_mikrolink"
  sourceYear := none
  columns := [{ name := "company_id", pgType := "BIGINT", nullable := false }, { name := "balance", pgType := "NUMERIC" }]
  idempotencyKey := ["company_id"]

/-- Two rows of one key whose balances have one digest, the one of the 28 digits that they share. -/
def balance (text : String) : Row :=
  [("company_id", .int 1), ("balance", .object "Decimal" text), ("source_schema", .str "workcube_mikrolink"),
    ("source_table", .str "COMPANY"), ("source_pk", .str "[\"1\"]"),
    ("content_hash", .str "b6ec01de4240ad5b6d822b2d246b2a5f7f3955680671b245a26c58b7235f465b")]

def older : Row := balance "1234567890.12345678901234567891"

def newer : Row := balance "1234567890.12345678901234567892"

def another : Row :=
  [("company_id", .int 2), ("balance", .none), ("source_schema", .str "workcube_mikrolink"), ("source_table", .str "COMPANY"),
    ("source_pk", .str "[\"2\"]"),
    ("content_hash", .str "64b7d113ec9918686362d9b49c8c12f07bbb50cd856adfd09ed6a4d3afbb9f64")]

def deadlock : PgError := ⟨"DeadlockDetected", .operational, some "40P01", none, "deadlock detected"⟩

def foreignKey : PgError := ⟨"ForeignKeyViolation", .integrity, some "23503", none, "violates foreign key constraint"⟩

/-- The first row is rejected, the second one committed, and the third one meets a deadlock. -/
def disturbed : Outcomes [older, newer, another] where
  bulk := some deadlock
  single := [some foreignKey, none, some deadlock]
  each := rfl
  whole := nofun

def balanceOf (w : World) : Option Value := (w.target (targetKey balances older)).map (· "balance")

abbrev loading : Action LoadStats := loadBatch balances false [older, newer, another]

lemma runs_disturbed : ∃ w again once left left' left'' r r',
    Exec attempts () loading (fresh, disturbed.statements) (w, left) (.error (.pg deadlock)) ∧
      Exec attempts () loading (w, (undisturbed [older, newer, another]).statements) (again, left') r ∧
      Exec attempts () loading (fresh, (undisturbed [older, newer, another]).statements) (once, left'') r' ∧
      balanceOf again = some (.object "Decimal" "1234567890.12345678901234567892") ∧
      balanceOf once = some (.object "Decimal" "1234567890.12345678901234567891") := by
  have hrun : ((loading.interp answering (fresh, disturbed.statements)).any fun p =>
      decide (p.2 = .error (.pg deadlock)) &&
        (loading.interp answering (p.1.1, (undisturbed [older, newer, another]).statements)).any fun q =>
          decide (balanceOf q.1.1 = some (.object "Decimal" "1234567890.12345678901234567892"))) = true := by
    decide +kernel
  have honce : ((loading.interp answering (fresh, (undisturbed [older, newer, another]).statements)).any fun p =>
      decide (balanceOf p.1.1 = some (.object "Decimal" "1234567890.12345678901234567891"))) = true := by
    decide +kernel
  obtain ⟨⟨⟨w, left⟩, r⟩, hinterp, hend⟩ := result_of_any hrun
  obtain ⟨hr, hagain⟩ := Bool.and_eq_true_iff.mp hend
  obtain ⟨⟨⟨again, left'⟩, r'⟩, hinterp', hbalance⟩ := result_of_any hagain
  obtain ⟨⟨⟨once, left''⟩, r''⟩, hinterp'', hbalance'⟩ := result_of_any honce
  obtain rfl := of_decide_eq_true hr
  exact ⟨w, again, once, left, left', left'', r', r'', exec_interp answering_answers hinterp,
    exec_interp answering_answers hinterp', exec_interp answering_answers hinterp'', of_decide_eq_true hbalance,
    of_decide_eq_true hbalance'⟩

end Sample

open Sample in
/-- A row that is rejected before the error and taken after it finds the digest of a later row of its key. -/
theorem load_batch_folds_rejected :
    ∃ w again once left left' left'' r r',
      Exec attempts () loading (fresh, disturbed.statements) (w, left) (.error (.pg deadlock)) ∧
        Exec attempts () loading (w, (undisturbed [older, newer, another]).statements) (again, left') r ∧
        Exec attempts () loading (fresh, (undisturbed [older, newer, another]).statements) (once, left'') r' ∧
        again.target ≠ once.target := by
  obtain ⟨w, again, once, left, left', left'', r, r', hrun, hagain, honce, hbalance, hbalance'⟩ := runs_disturbed
  refine ⟨w, again, once, left, left', left'', r, r', hrun, hagain, honce, fun hsame => ?_⟩
  have hbalances : balanceOf again = balanceOf once := by rw [balanceOf, hsame, balanceOf]
  rw [hbalance, hbalance'] at hbalances
  exact absurd hbalances (by decide)

open Sample in
theorem load_batch_folds_disturbed : ∃ w, Raised balances false disturbed fresh (.pg deadlock) w := by
  obtain ⟨w, _, _, left, _, _, _, _, hrun, -⟩ := runs_disturbed
  exact ⟨w, load_batch_folds disturbed hrun⟩

end PlatformGitops.EtlWorker
