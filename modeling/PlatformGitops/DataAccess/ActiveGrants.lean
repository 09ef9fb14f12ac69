import Mathlib.Data.List.Induction
import PlatformGitops.DataAccess.Scope

/-! When the index on the texts of the references keeps one active grant for each entity. -/

namespace PlatformGitops.DataAccess

open Library Fallible

section

variable (jsonbFirst : String → Option String) (content : Content)

def ValidatesAgainst (row : Scope) (key : LineageKey) : Prop :=
  ∃ chain, Matches jsonbFirst content row.scopeKind row.scopeSourceTable row.scopeRef row.orgId chain ∧ chain.named = key

/-- Both rows are active and grant one user of one organization the same entity. -/
structure Overlap (row row' : Scope) : Prop where
  active : row.active = true ∧ row'.active = true
  grantee : row.userId = row'.userId ∧ row.orgId = row'.orgId ∧ row.scopeKind = row'.scopeKind
  entity : ∃ key, ValidatesAgainst jsonbFirst content row key ∧ ValidatesAgainst jsonbFirst content row' key

def OneGrant (rows : List Scope) : Prop :=
  (rows.map (·.id)).Nodup ∧ ∀ row ∈ rows, ∀ row' ∈ rows, Overlap jsonbFirst content row row' → row = row'

/-- The write activates a row whose reference spells the entity of another active row in another way. -/
def Respells (rows : List Scope) (w : Write) : Prop :=
  ∃ row ∈ w.row rows, ∃ other ∈ rows, some other.id ≠ w.replaces ∧ other.scopeRef ≠ row.scopeRef ∧
    Overlap jsonbFirst content other row

end

variable {jsonbFirst : String → Option String} {content : Content} {rows rows' : List Scope} {w : Write} {row : Scope}

lemma Overlap.symm {row' : Scope} (h : Overlap jsonbFirst content row row') : Overlap jsonbFirst content row' row := by
  obtain ⟨⟨hactive, hactive'⟩, ⟨huser, horg, hkind⟩, key, hkey, hkey'⟩ := h
  exact ⟨⟨hactive', hactive⟩, ⟨huser.symm, horg.symm, hkind.symm⟩, key, hkey', hkey⟩

lemma Written.eq_of_ref {other : Scope} (h : Written rows rows' w row) (hother : other ∈ rows')
    (hoverlap : Overlap jsonbFirst content other row) (href : other.scopeRef = row.scopeRef) : other = row := by
  have hassignment : other.assignment = row.assignment := by
    obtain ⟨huser, horg, hkind⟩ := hoverlap.grantee
    simp only [Scope.assignment, huser, horg, hkind, href]
  exact List.inj_on_of_nodup_map h.assignments (List.mem_filter.mpr ⟨hother, hoverlap.active.1⟩)
    (List.mem_filter.mpr ⟨h.mem, hoverlap.active.2⟩) hassignment

/-- A write keeps one grant for each entity exactly when it respells none. -/
lemma Written.oneGrant_iff (h : Written rows rows' w row) (hrow : w.row rows = some row)
    (hone : OneGrant jsonbFirst content rows) :
    OneGrant jsonbFirst content rows' ↔ ¬ Respells jsonbFirst content rows w := by
  constructor
  · rintro ⟨-, hone'⟩ ⟨_, hrow', other, hother, hne, href, hoverlap⟩
    obtain rfl := Option.some.inj (hrow.symm.trans hrow')
    exact href (congrArg Scope.scopeRef (hone' other (h.kept other hother hne) row h.mem hoverlap))
  · intro hnone
    have hnew : ∀ other ∈ rows, some other.id ≠ w.replaces → Overlap jsonbFirst content other row → other = row := by
      intro other hother hne hoverlap
      by_contra hdistinct
      have href := fun heq => hdistinct (h.eq_of_ref (h.kept other hother hne) hoverlap heq)
      exact hnone ⟨row, hrow, other, hother, hne, href, hoverlap⟩
    refine ⟨h.ids, fun r hr r' hr' hoverlap => ?_⟩
    rcases h.only r hr with rfl | ⟨hr, hne⟩
    · rcases h.only r' hr' with rfl | ⟨hr', hne'⟩
      · rfl
      · exact (hnew r' hr' hne' hoverlap.symm).symm
    · rcases h.only r' hr' with rfl | ⟨hr', -⟩
      · exact hnew r hr hne hoverlap
      · exact hone.2 r hr r' hr' hoverlap

lemma writes_concat {ws : List Write} : writes jsonbFirst content (ws ++ [w]) = .ok rows' ↔
    ∃ rows, writes jsonbFirst content ws = .ok rows ∧ write jsonbFirst content rows w = .ok rows' := by
  simp [writes, List.foldlM_append]

lemma writes_of_prefix {done ws : List Write} (hinit : done <+: ws) (h : writes jsonbFirst content ws = .ok rows) :
    ∃ reached, writes jsonbFirst content done = .ok reached := by
  obtain ⟨rest, rfl⟩ := hinit
  rw [writes, List.foldlM_append, bind_eq_ok] at h
  obtain ⟨reached, hreached, -⟩ := h
  exact ⟨reached, hreached⟩

lemma respells_of_row (h : w.row rows = none) : ¬ Respells jsonbFirst content rows w := by
  rintro ⟨row, hrow, -⟩
  rw [h] at hrow
  cases hrow

/-- Over a run of accepted writes no entity is granted twice exactly when no write respells one. -/
theorem one_active_grant_iff (ws : List Write) (rows : List Scope) (hrun : writes jsonbFirst content ws = .ok rows) :
    (∀ done reached, done <+: ws → writes jsonbFirst content done = .ok reached → OneGrant jsonbFirst content reached) ↔
      ∀ done w reached, done ++ [w] <+: ws → writes jsonbFirst content done = .ok reached →
        ¬ Respells jsonbFirst content reached w := by
  constructor
  · intro hone done w reached hstart hreached
    obtain ⟨next, hnext⟩ := writes_of_prefix hstart hrun
    obtain ⟨_, hreached', hwrite⟩ := writes_concat.mp hnext
    cases hreached.symm.trans hreached'
    rcases write_eq_ok hwrite with ⟨hnone, -⟩ | ⟨row, hrow, hwritten⟩
    · exact respells_of_row hnone
    · have hbefore := hone done reached ((List.prefix_append done [w]).trans hstart) hreached
      exact (hwritten.oneGrant_iff hrow hbefore).mp (hone _ next hstart hnext)
  · intro hnone done
    induction done using List.reverseRecOn with
    | nil =>
      rintro _ - ⟨⟩
      exact ⟨.nil, by simp⟩
    | append_singleton done w ih =>
      intro next hstart hnext
      obtain ⟨reached, hreached, hwrite⟩ := writes_concat.mp hnext
      have hbefore := ih reached ((List.prefix_append done [w]).trans hstart) hreached
      rcases write_eq_ok hwrite with ⟨-, rfl⟩ | ⟨row, hrow, hwritten⟩
      · exact hbefore
      · exact (hwritten.oneGrant_iff hrow hbefore).mpr (hnone done w reached hstart hreached)

namespace Sample

def granted : Scope where
  id := 1
  userId := "bbbbbbbb-bbbb-bbbb-bbbb-bbbbbbbbbbbb"
  orgId := 1
  scopeKind := "company"
  scopeSourceSchema := "workcube_mikrolink"
  scopeSourceTable := "OUR_COMPANY"
  scopeRef := "[\"1\"]"
  revokedAt := none

def revoked : Scope := { granted with revokedAt := some 0 }

def respelled : Scope := { granted with id := 2, scopeRef := "[[\"1\"]]" }

def ownKey : LineageKey := ⟨"workcube_mikrolink", "OUR_COMPANY", "[\"1\"]"⟩

lemma validates_granted : ValidatesAgainst firstElement moved granted ownKey := by
  have hmem : ownKey ∈ (chains moved "1" "[\"1\"]" 1 "company" "OUR_COMPANY").map (·.named) := by decide
  obtain ⟨chain, hchain, hnamed⟩ := List.mem_map.mp hmem
  exact ⟨chain, ⟨"1", by decide, hchain⟩, hnamed⟩

lemma validates_respelled : ValidatesAgainst firstElement moved respelled ownKey := by
  have hmem : ownKey ∈ (chains moved "[\"1\"]" "[[\"1\"]]" 1 "company" "OUR_COMPANY").map (·.named) := by decide
  obtain ⟨chain, hchain, hnamed⟩ := List.mem_map.mp hmem
  exact ⟨chain, ⟨"[\"1\"]", by decide, hchain⟩, hnamed⟩

end Sample

open Sample in
/-- A second grant of one own company, under a reference that nests the first. -/
theorem one_active_grant_respelled :
    ¬ ∀ (content : Content) (ws : List Write) (rows : List Scope),
      writes firstElement content ws = .ok rows → OneGrant firstElement content rows := by
  intro h
  have hone := h moved [.insert granted, .insert respelled] [granted, respelled] rfl
  have hoverlap : Overlap firstElement moved granted respelled :=
    ⟨by decide, by decide, ownKey, validates_granted, validates_respelled⟩
  exact absurd (hone.2 granted (by simp) respelled (by simp) hoverlap) (by decide)

open Sample in
/-- A grant, its end and a second grant under the same text. -/
theorem one_active_grant_iff_regranted :
    (∀ done reached, done <+: [.insert granted, .update 1 [.revokedAt] revoked, .insert { granted with id := 2 }] →
        writes firstElement moved done = .ok reached → OneGrant firstElement moved reached) ↔
      ∀ done w reached,
        done ++ [w] <+: [.insert granted, .update 1 [.revokedAt] revoked, .insert { granted with id := 2 }] →
          writes firstElement moved done = .ok reached → ¬ Respells firstElement moved reached w :=
  one_active_grant_iff [.insert granted, .update 1 [.revokedAt] revoked, .insert { granted with id := 2 }]
    [revoked, { granted with id := 2 }] rfl

end PlatformGitops.DataAccess
