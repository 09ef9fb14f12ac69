import PlatformGitops.CrossAi.IntentStore.StageInvariants
import PlatformGitops.Library.Logs

/-! The event log leads to the present tables. -/

namespace PlatformGitops.CrossAi.IntentStore

open Library

/-- What the events of a log follow: an intent, a stage of it, or the dispatch of a stage. -/
inductive Track where
  | intent (requestId : String)
  | stage (k : StageKey)
  | dispatch (k : StageKey)
deriving DecidableEq

def EventState.isDispatch (s : EventState) : Bool := "Dispatch".toList.isPrefixOf s.text.toList

@[simp] lemma EventState.isDispatch_dispatch (s : DispatchState) : (dispatch s).isDispatch = true := by
  cases s <;> decide

@[simp] lemma EventState.isDispatch_stage (s : StageState) : (stage s).isDispatch = false := by
  cases s <;> decide

def Track.of (requestId : String) (stage : Option Stage) (s : EventState) : Track :=
  match stage with
  | none => .intent requestId
  | some stage => if s.isDispatch then .dispatch (requestId, stage) else .stage (requestId, stage)

def IntentEvent.track (e : IntentEvent) : Track := Track.of e.requestId e.stage e.toState

def IntentEvent.move (e : IntentEvent) : Option EventState × EventState := (e.fromState, e.toState)

def Track.start : Track → Option EventState
  | .stage _ => some (.stage .available)
  | _ => none

namespace Db

def log (db : Db) (t : Track) : List (Option EventState × EventState) :=
  (db.events.rows.filter (fun e => e.track = t)).map IntentEvent.move

/-- Where the tables have a track. A stage that has no row yet is where its row will start. -/
def at_ (db : Db) : Track → Option EventState
  | .intent rid => (db.intents.find? rid).map (fun r => .intent r.state)
  | .stage k => some (.stage ((db.stages.find? k).elim .available (·.state)))
  | .dispatch k => (db.dispatches.find? k).map (fun j => .dispatch j.state)

def links (db : Db) : List (Option String × String) :=
  db.events.rows.map fun e => (e.previousHash, e.eventHash)

end Db

section

variable {X : Externals} {db db' : Db}

/-- One event is appended, and the one track it follows goes where it says. -/
structure Advances (db db' : Db) (t : Track) (s : EventState) : Prop where
  row : ∃ e : IntentEvent, db'.events.rows = db.events.rows ++ [e] ∧ e.track = t ∧ e.move = (db.at_ t, s) ∧
    e.previousHash = db.events.rows.getLast?.map (·.eventHash)
  moved : db'.at_ t = some s
  left : some s ≠ t.start
  others : ∀ u, u ≠ t → db'.at_ u = db.at_ u

lemma Records.row {t : Track} {rid : String} {stage : Option Stage} {s : EventState}
    (h : Records db.events db'.events rid stage (db.at_ t) s) (ht : Track.of rid stage s = t) :
    ∃ e : IntentEvent, db'.events.rows = db.events.rows ++ [e] ∧ e.track = t ∧ e.move = (db.at_ t, s) ∧
      e.previousHash = db.events.rows.getLast?.map (·.eventHash) := by
  obtain ⟨e, hrows, hprev, hrid, hstage, hfrom, hto⟩ := h
  refine ⟨e, hrows, ?_, ?_, hprev⟩
  · rw [IntentEvent.track, hrid, hstage, hto, ht]
  · rw [IntentEvent.move, hfrom, hto]

lemma advances_stage (row row' : StageRow) (hi : db'.intents = db.intents)
    (hd : db'.dispatches = db.dispatches) (hrow : db.stages.find? row.key = some row)
    (hk : ∀ k, db'.stages.find? k = if k = row.key then some row' else db.stages.find? k)
    (hne : row'.state ≠ .available)
    (hr : Records db.events db'.events row.requestId (some row.stage) (some (.stage row.state))
      (.stage row'.state)) : Advances db db' (.stage row.key) (.stage row'.state) := by
  have hat : db.at_ (.stage row.key) = some (.stage row.state) := by simp [Db.at_, hrow]
  refine ⟨Records.row (hat ▸ hr) (by simp [Track.of, StageRow.key]), ?_, by simpa [Track.start] using hne, fun u hu => ?_⟩
  · simp [Db.at_, hk]
  · cases u with
    | intent rid => simp only [Db.at_, hi]
    | dispatch k => simp only [Db.at_, hd]
    | stage k =>
      have hkey : k ≠ row.key := fun he => hu (by rw [he])
      simp only [Db.at_, hk, if_neg hkey]

lemma advances_dispatch {key : StageKey} {job : DispatchJob} (hi : db'.intents = db.intents)
    (hs : db'.stages = db.stages)
    (hk : ∀ k, db'.dispatches.find? k = if k = key then some job else db.dispatches.find? k)
    (hr : Records db.events db'.events key.1 (some key.2) (db.at_ (.dispatch key)) (.dispatch job.state)) :
    Advances db db' (.dispatch key) (.dispatch job.state) := by
  refine ⟨Records.row hr (by simp [Track.of]), by simp [Db.at_, hk], by simp [Track.start], fun u hu => ?_⟩
  cases u with
  | intent rid => simp only [Db.at_, hi]
  | stage k => simp only [Db.at_, hs]
  | dispatch k =>
    have hkey : k ≠ key := fun he => hu (by rw [he])
    simp only [Db.at_, hk, if_neg hkey]

lemma advances_intent {rid : String} {row : IntentRecord} (hd : db'.dispatches = db.dispatches)
    (hs : ∀ k, db'.at_ (.stage k) = db.at_ (.stage k))
    (hk : ∀ r, db'.intents.find? r = if r = rid then some row else db.intents.find? r)
    (hr : Records db.events db'.events rid none (db.at_ (.intent rid)) (.intent row.state)) :
    Advances db db' (.intent rid) (.intent row.state) := by
  refine ⟨Records.row hr rfl, by simp [Db.at_, hk], by simp [Track.start], fun u hu => ?_⟩
  cases u with
  | stage k => exact hs k
  | dispatch k => simp only [Db.at_, hd]
  | intent r =>
    have hkey : r ≠ rid := fun he => hu (by rw [he])
    simp only [Db.at_, hk, if_neg hkey]

lemma Change.advances (h : Change db db') :
    (db'.events = db.events ∧ ∀ t, db'.at_ t = db.at_ t) ∨ ∃ t s, Advances db db' t s := by
  cases h with
  | @registered row intents stages events hs hi hk hr =>
    have hnone : db.at_ (.intent row.requestId) = none := by simp [Db.at_, Table.insert?_fresh hi]
    refine Or.inr ⟨_, _, advances_intent rfl (fun k => ?_) (Table.find?_insert? hi) (hnone ▸ hs ▸ hr)⟩
    rcases hk k with he | ⟨-, hn, r, hrow, hu⟩
    · simp only [Db.at_, he]
    · simp only [Db.at_, hn, show stages.find? k = some r from hrow, Option.elim, hu.state]
  | @finalized row refObjectId at_ intents events hrow hs hm hr =>
    have hat : db.at_ (.intent row.requestId) = some (.intent .registered) := by simp [Db.at_, hrow, hs]
    have hk := Table.find?_modify? hm
    rw [hrow] at hk
    exact Or.inr ⟨_, _, advances_intent rfl (fun _ => rfl) hk (hat ▸ hr)⟩
  | @dispatchQueued job row dispatches events hi _ hs _ _ hr =>
    have hnone : db.at_ (.dispatch job.key) = none := by simp [Db.at_, Table.insert?_fresh hi]
    exact Or.inr ⟨_, _, advances_dispatch rfl rfl (Table.find?_insert? hi) (hnone ▸ hs ▸ hr)⟩
  | @dispatchMoved j j' dispatches events hj _ hk hr =>
    have hat : db.at_ (.dispatch j.key) = some (.dispatch j.state) := by simp [Db.at_, hj]
    rcases hr with ⟨hs, rfl⟩ | ⟨-, hr⟩
    · refine Or.inl ⟨rfl, fun t => ?_⟩
      cases t with
      | dispatch k =>
        by_cases he : k = j.key
        · simp [Db.at_, hk, he, hj, hs]
        · simp [Db.at_, hk, he]
      | _ => rfl
    · exact Or.inr ⟨_, _, advances_dispatch rfl rfl hk (hat ▸ hr)⟩
  | @stageReserved row row' _ _ _ stages events hrow hs _ hs' _ _ _ hk hr =>
    exact Or.inr ⟨_, _, advances_stage row _ rfl rfl hrow hk (by simp [hs']) (by rw [hs, hs']; exact hr)⟩
  | @stageMoved row toState stages events hrow hmove hm hr =>
    exact Or.inr ⟨_, _, advances_stage row _ rfl rfl hrow (find?_moved hrow hm) hmove.ne_available.2 hr⟩
  | @outcomeSealed row o stages outcomes events hrow hs ho _ _ _ _ hi hm hr =>
    have hsealed : o.targetState.Sealed :=
      outcomes.valid.2 o (Table.find?_mem ((Table.find?_insert? hi o.key).trans (if_pos rfl)))
    exact Or.inr ⟨_, _, advances_stage row _ rfl rfl hrow (find?_moved hrow hm) hsealed.ne_available (hs ▸ hr)⟩
  | @bootstrapConsumed row _ _ events hrow hs _ _ hr =>
    refine Or.inr ⟨_, _, advances_stage row row rfl rfl hrow (fun k => ?_) (by simp [hs]) (hs ▸ hr)⟩
    split
    · next he => exact he ▸ hrow
    · rfl

/-- The log of every track leads to the tables, and every event is linked to the one before it. -/
structure Logged (db : Db) : Prop where
  tracks : Replays Track.start db.log db.at_
  chain : Trail none db.links (db.events.rows.getLast?.map (·.eventHash))

lemma logged_empty : Logged Db.empty := by
  refine ⟨fun t => ?_, .nil⟩
  cases t <;> exact ⟨.nil, Iff.intro (fun _ => rfl) fun _ => rfl⟩

lemma Advances.logged {t : Track} {s : EventState} (h : Advances db db' t s) (hi : Logged db) :
    Logged db' := by
  obtain ⟨e, hrows, htrack, hmove, hprev⟩ := h.row
  have hlog : ∀ u, db'.log u = db.log u ++ if e.track = u then [e.move] else [] := by
    intro u
    by_cases he : e.track = u <;> simp [Db.log, hrows, he]
  constructor
  · refine hi.tracks.advance h.left ?_ h.moved fun u hu => ⟨?_, h.others u hu⟩
    · rw [hlog, if_pos htrack, hmove]
    · rw [hlog, if_neg fun he => hu (he.symm.trans htrack), List.append_nil]
  · have hlinks : db'.links = db.links ++ [(db.events.rows.getLast?.map (·.eventHash), e.eventHash)] := by
      simp [Db.links, hrows, hprev]
    rw [hlinks, hrows]
    simpa using hi.chain.append e.eventHash

lemma logged_change (h : Change db db') (hi : Logged db) : Logged db' := by
  rcases h.advances with ⟨he, hat⟩ | ⟨t, s, ha⟩
  · have hnow : db'.at_ = db.at_ := funext hat
    have hlog : db'.log = db.log := by unfold Db.log; rw [he]
    refine ⟨by rw [hnow, hlog]; exact hi.tracks, ?_⟩
    unfold Db.links
    rw [he]
    exact hi.chain
  · exact ha.logged hi

lemma logged_changes (h : Changes db db') (hi : Logged db) : Logged db' := by
  induction h with
  | refl => exact hi
  | tail _ hstep ih => exact logged_change hstep ih

theorem event_log_replays {reg : Registry} (h : Reachable X reg) :
    (∀ k row, reg.db.stages.find? k = some row →
      Trail (some (.stage .available)) (reg.db.log (.stage k)) (some (.stage row.state)) ∧
        (reg.db.log (.stage k) = [] ↔ row.state = .available)) ∧
    (∀ k, reg.db.stages.find? k = none → reg.db.log (.stage k) = []) ∧
    (∀ k, Trail none (reg.db.log (.dispatch k))
        ((reg.db.dispatches.find? k).map fun j => .dispatch j.state) ∧
      (reg.db.log (.dispatch k) = [] ↔ reg.db.dispatches.find? k = none)) ∧
    (∀ rid, Trail none (reg.db.log (.intent rid)) ((reg.db.intents.find? rid).map fun r => .intent r.state) ∧
      (reg.db.log (.intent rid) = [] ↔ reg.db.intents.find? rid = none)) ∧
    Trail none reg.db.links (reg.db.events.rows.getLast?.map (·.eventHash)) := by
  obtain ⟨hi, hchain⟩ := logged_changes h.changes logged_empty
  refine ⟨fun k row hrow => ?_, fun k hnone => ?_, fun k => ?_, fun rid => ?_, hchain⟩
  · have hat : reg.db.at_ (.stage k) = some (.stage row.state) := by simp [Db.at_, hrow]
    simpa [hat, Track.start] using hi (.stage k)
  · exact (hi (.stage k)).2.mpr (by simp [Db.at_, hnone, Track.start])
  · simpa [Db.at_, Track.start] using hi (.dispatch k)
  · simpa [Db.at_, Track.start] using hi (.intent rid)

theorem event_log_replays_browsing : ∃ row, Sample.browsing.db.stages.find? ("req", .apply) = some row ∧
    Trail (some (.stage .available)) (Sample.browsing.db.log (.stage ("req", .apply)))
      (some (.stage .succeeded)) := by
  obtain ⟨row, hrow, hs⟩ := Option.map_eq_some_iff.mp Sample.browsing_states.1
  refine ⟨row, hrow, ?_⟩
  have ht := ((event_log_replays Sample.reachable_browsing).1 ("req", .apply) row hrow).1
  rwa [hs] at ht

end

end PlatformGitops.CrossAi.IntentStore
