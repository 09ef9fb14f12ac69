import PlatformGitops.CrossAi.DeliveryPoller
import PlatformGitops.CrossAi.DispatchWindow
import PlatformGitops.CrossAi.Ledger

/-! The high-water mark of the poller never passes a failed delivery that it still has to recover. -/

namespace PlatformGitops.CrossAi.Polling

open Library Ledger DispatchWindow

/-- A delivery as the API lists it, and its detail. Its timestamp is one that the parser reads back from its text. -/
structure HookDelivery (X : Externals) (F : Parsing) where
  summary : Json
  detail : Json
  stamped : ∀ item, deliveryItem X F summary = .ok item → ReadsBack X (utcSeconds item.deliveredAt)

section

variable {X : Externals} {F : Parsing}

def HookDelivery.Lists (d : HookDelivery X F) (item : DeliveryItem) : Prop := deliveryItem X F d.summary = .ok item

variable (X F) in
/-- The deliveries of the hook, oldest first: they are in the order of their timestamps, and each has its own id. -/
structure Feed where
  entries : List (HookDelivery X F)
  ordered : entries.Pairwise fun a b => ∀ x y, a.Lists x → b.Lists y → x.deliveredAt ≤ y.deliveredAt
  distinct : entries.Pairwise fun a b => ∀ x y, a.Lists x → b.Lists y → x.apiDeliveryId ≠ y.apiDeliveryId

variable (X F) in
/-- The feed, the ledger with the state of the poller, and the times at which cycles have started. -/
structure World where
  feed : Feed X F
  ledger : ObserveLedger
  poller : PollerState
  cycles : List Datetime

/-- A call of the ledger. -/
def LedgerStep (X : Externals) (ledger ledger' : ObserveLedger) : Prop :=
  ∃ (α : Type) (c : Ledger.Call α) (amb : IntentStore.Ambient), ledger' = (c.exec X amb ledger).1

/-- What happens beside the poller: a delivery is made, or another part of the service calls the ledger. -/
inductive Beside : World X F → World X F → Prop
  | delivered {w : World X F} {d : HookDelivery X F} {feed : Feed X F} :
      feed.entries = w.feed.entries ++ [d] → Beside w { w with feed }
  | called {w : World X F} {ledger : ObserveLedger} : LedgerStep X w.ledger ledger → Beside w { w with ledger }

/-- A page of the list, newest first. A cursor stands for the number of deliveries that are older. -/
def Lists (position : String → Nat) (cursor : Option String) (entries : List (HookDelivery X F))
    (page : HookDeliveryPage) : Prop :=
  ∃ n, page.items = (((entries.take (cursor.elim entries.length position)).reverse.take n).map (·.summary)) ∧
    match page.nextCursor with
    | none => cursor.elim entries.length position ≤ n
    | some next => position next = cursor.elim entries.length position - n

/-- What a call does to the world and gives when it comes through. -/
def Gives (position : String → Nat) : {β : Type} → Effect β → World X F → World X F → Except Failure β → Prop
  | _, .now, w, w', r => ∃ t, w' = { w with cycles := t :: w.cycles } ∧ r = .ok t
  | _, .cycle, w, w', r => w' = w ∧ r = .ok ()
  | _, .pollerState, w, w', r => w' = w ∧ r = .ok w.poller
  | _, .listDeliveries cursor, w, w', r => w' = w ∧ ∃ page, r = .ok page ∧ Lists position cursor w.feed.entries page
  | _, .delivery id, w, w', r => w' = w ∧ ∃ d ∈ w.feed.entries, r = .ok d.detail ∧
    ∃ item, d.Lists item ∧ item.apiDeliveryId = id
  | _, .processPolled _, w, w', _ =>
    ∃ ledger, w' = { w with ledger } ∧ Relation.ReflTransGen (LedgerStep X) w.ledger ledger
  | _, .advancePollerAfterCallback request id deliveredAt recordedAt, w, w', r =>
    ∃ poller, w' = { w with poller } ∧ r = .ok () ∧
      advancePollerAfterCallback request id deliveredAt recordedAt w.ledger w.poller = .ok poller
  | _, .markPollerSuccess recordedAt, w, w', r =>
    w' = { w with poller := markPollerSuccess recordedAt w.poller } ∧ r = .ok ()
  | _, .outside, w, w', r => Beside w w' ∧ r = .ok ()

/-- Any call may fail. -/
def Answer (position : String → Nat) {β : Type} (e : Effect β) (w w' : World X F) (r : Except Failure β) : Prop :=
  (w' = w ∧ ∃ failure, r = .error failure) ∨ Gives position e w w' r

inductive Thread where
  | poller | beside
deriving DecidableEq

variable (X F) in
/-- The poller, one cycle after the other, and what happens beside it. A restart loses nothing that is stored. -/
def system (P : DeliveryPoller) (position : String → Nat) : System Failure Effect (World X F) Thread where
  answer _ e w w' r := Answer position e w w' r
  start t p := match t with
    | .poller => p = (do let _ ← pollOnce X F P; pure ())
    | .beside => p = Prog.perform .outside
  restart w w' := w' = w

/-- The ledger has a successful callback for the request that the delivery carries. -/
def Succeeded (P : DeliveryPoller) (w : World X F) (d : HookDelivery X F) (item : DeliveryItem) : Prop :=
  ∃ request, requestOf X F P item d.detail = .ok request ∧ callbackSucceeded request w.ledger = true

/-- The delivery was not older than the age limit at any cycle. -/
def Young (P : DeliveryPoller) (w : World X F) (item : DeliveryItem) : Prop :=
  ∀ now ∈ w.cycles, now - P.maxDeliveryAge ≤ item.deliveredAt

/-- A failed delivery that is still to be recovered. -/
structure Open (P : DeliveryPoller) (w : World X F) (d : HookDelivery X F) (item : DeliveryItem) : Prop where
  lists : d.Lists item
  candidate : isCandidate P item = true
  failed : ¬ Succeeded P w d item
  young : Young P w item

/-- The high-water mark is the time of a delivery, and no delivery that is to be recovered is older. -/
structure Inv (P : DeliveryPoller) (w : World X F) : Prop where
  origin : ∀ s, w.poller.highWaterDeliveredAt = some s →
    ∃ d ∈ w.feed.entries, ∃ item, d.Lists item ∧ utcSeconds item.deliveredAt = s
  below : ∀ s, w.poller.highWaterDeliveredAt = some s → ∀ d ∈ w.feed.entries, ∀ item, Open P w d item →
    s.seconds ≤ (utcSeconds item.deliveredAt).seconds

structure Later (w w' : World X F) : Prop where
  feed : w.feed.entries <+: w'.feed.entries
  ledger : ∀ request, callbackSucceeded request w.ledger = true → callbackSucceeded request w'.ledger = true
  cycles : ∀ t ∈ w.cycles, t ∈ w'.cycles

lemma utcSeconds_mono {a b : Datetime} (h : a ≤ b) : (utcSeconds a).seconds ≤ (utcSeconds b).seconds :=
  Int.ediv_le_ediv (by decide) h

lemma instant_le (a : Datetime) : (utcSeconds a).instant ≤ a := Int.ediv_mul_le a (by decide)

lemma markLe_refl (a : Option Stamp × Int) : markLe a a := by
  obtain ⟨s, n⟩ := a
  cases s with
  | none => exact le_refl n
  | some s => exact .inr ⟨rfl, le_refl n⟩

lemma markLe_trans {a b c : Option Stamp × Int} (hab : markLe a b) (hbc : markLe b c) : markLe a c := by
  obtain ⟨s, l⟩ := a
  obtain ⟨t, m⟩ := b
  obtain ⟨u, n⟩ := c
  cases s <;> cases t <;> cases u <;> simp only [markLe] at * <;> omega

section

variable {P : DeliveryPoller} {position : String → Nat} {w w' w'' : World X F} {d : HookDelivery X F}
  {item : DeliveryItem}

lemma Later.refl (w : World X F) : Later w w := ⟨List.prefix_refl _, fun _ h => h, fun _ h => h⟩

lemma Later.trans (h : Later w w') (h' : Later w' w'') : Later w w'' :=
  ⟨h.feed.trans h'.feed, fun r hr => h'.ledger r (h.ledger r hr), fun t ht => h'.cycles t (h.cycles t ht)⟩

lemma Open.earlier (h : Open P w' d item) (hlater : Later w w') : Open P w d item :=
  ⟨h.lists, h.candidate, fun ⟨request, hrequest, hs⟩ => h.failed ⟨request, hrequest, hlater.ledger _ hs⟩,
    fun now hnow => h.young now (hlater.cycles now hnow)⟩

lemma LedgerStep.keeps {ledger ledger' : ObserveLedger} (h : LedgerStep X ledger ledger')
    (request : DeploymentProtectionRequest) (hs : callbackSucceeded request ledger = true) :
    callbackSucceeded request ledger' = true := by
  obtain ⟨α, c, amb, rfl⟩ := h
  simp only [callbackSucceeded, decide_eq_true_eq, Option.map_eq_some_iff] at hs ⊢
  obtain ⟨row, hrow, hstatus⟩ := hs
  obtain ⟨row', hrow', -, -, hterminal⟩ := (exec_step c).keeps hrow
  exact ⟨row', hrow', (hterminal (.inl hstatus)).trans hstatus⟩

lemma ledgerSteps_keep {ledger ledger' : ObserveLedger} (h : Relation.ReflTransGen (LedgerStep X) ledger ledger')
    (request : DeploymentProtectionRequest) (hs : callbackSucceeded request ledger = true) :
    callbackSucceeded request ledger' = true := by
  induction h with
  | refl => exact hs
  | tail _ hstep ih => exact hstep.keeps request ih

lemma Beside.later (h : Beside w w') : Later w w' ∧ w'.poller = w.poller := by
  cases h with
  | delivered hfeed => exact ⟨⟨hfeed ▸ List.prefix_append _ _, fun _ h => h, fun _ h => h⟩, rfl⟩
  | called hcall => exact ⟨⟨List.prefix_refl _, hcall.keeps, fun _ h => h⟩, rfl⟩

/-- A new delivery is not older than any other, so it is not below the mark. -/
lemma Inv.delivered {feed : Feed X F} (hi : Inv P w) (hfeed : feed.entries = w.feed.entries ++ [d]) :
    Inv P { w with feed } := by
  refine ⟨fun s hs => ?_, fun s hs d' hd' item hopen => ?_⟩
  · obtain ⟨d₀, hd₀, item₀, hitem₀, hstamp⟩ := hi.origin s hs
    exact ⟨d₀, hfeed ▸ List.mem_append_left _ hd₀, item₀, hitem₀, hstamp⟩
  · have hopen' : Open P w d' item := hopen.earlier ⟨hfeed ▸ List.prefix_append _ _, fun _ h => h, fun _ h => h⟩
    rw [hfeed, List.mem_append, List.mem_singleton] at hd'
    rcases hd' with hd' | rfl
    · exact hi.below s hs d' hd' item hopen'
    · obtain ⟨d₀, hd₀, item₀, hitem₀, rfl⟩ := hi.origin s hs
      have hordered := feed.ordered
      rw [hfeed, List.pairwise_append] at hordered
      exact utcSeconds_mono (hordered.2.2 d₀ hd₀ d' (by simp) item₀ item hitem₀ hopen.lists)

/-- As long as neither the feed nor the state of the poller changes. -/
lemma Inv.same (hi : Inv P w) (hlater : Later w w') (hfeed : w'.feed = w.feed)
    (hpoller : w'.poller.highWaterDeliveredAt = w.poller.highWaterDeliveredAt) : Inv P w' := by
  refine ⟨fun s hs => ?_, fun s hs d hd item hopen => ?_⟩
  · rw [hfeed]
    exact hi.origin s (hpoller ▸ hs)
  · exact hi.below s (hpoller ▸ hs) d (hfeed ▸ hd) item (hopen.earlier hlater)

lemma Beside.inv (h : Beside w w') (hi : Inv P w) : Inv P w' := by
  have hlater := h.later
  cases h with
  | delivered hfeed => exact hi.delivered hfeed
  | called _ => exact hi.same hlater.1 rfl rfl

end

structure Guar (t : Thread) (w w' : World X F) : Prop where
  later : Later w w'
  mark : markLe w.poller.mark w'.poller.mark
  beside : t = .beside → w'.poller = w.poller

variable (X F) in
def contract (P : DeliveryPoller) : Contract (World X F) Thread where
  inv := Inv P
  guar := Guar

/-- Every call of the poller keeps the contract, and what it gives satisfies the postcondition. -/
def Wp {α : Type} (P : DeliveryPoller) (position : String → Nat) (p : Action α) (Q : α → World X F → Prop)
    (w : World X F) : Prop :=
  (contract X F P).wp (system X F P position).toMachine .poller p (fun r w => ∀ a, r = .ok a → Q a w) w

section

variable {α β : Type} {P : DeliveryPoller} {position : String → Nat} {w w' : World X F} {Q : β → World X F → Prop}

lemma rely_later (h : (contract X F P).rely .poller w w') : Later w w' ∧ w'.poller = w.poller := by
  induction h with
  | refl => exact ⟨.refl w, rfl⟩
  | tail _ hstep ih =>
    obtain ⟨u, hu, hg⟩ := hstep
    have hbeside : u = .beside := by
      cases u with
      | poller => exact (hu rfl).elim
      | beside => rfl
    exact ⟨ih.1.trans hg.later, (hg.beside hbeside).trans ih.2⟩

lemma wp_bind {p : Action α} {f : α → Action β} (h : Wp P position p (fun a w => Wp P position (f a) Q w) w) :
    Wp P position (p >>= f) Q w := by
  refine Contract.wp_bind (Contract.wp_mono (fun r w hr => ?_) h)
  cases r with
  | ok a => exact hr a rfl
  | error e =>
    intro a ha
    cases ha

lemma wp_pure {b : β} (h : Q b w) : Wp P position (pure b) Q w := by
  intro a ha
  cases ha
  exact h

lemma wp_ofExcept {r : Except Failure β} (h : ∀ b, r = .ok b → Q b w) : Wp P position (Prog.ofExcept r) Q w := by
  cases r with
  | ok b => exact wp_pure (h b rfl)
  | error e =>
    intro a ha
    cases ha

lemma wp_perform {e : Effect β}
    (h : ∀ w₁, Later w w₁ → w₁.poller = w.poller → Inv P w₁ → ∀ w₂ r, Gives position e w₁ w₂ r →
      Guar .poller w₁ w₂ ∧ Inv P w₂ ∧ ∀ b, r = .ok b → Q b w₂) : Wp P position (.perform e) Q w := by
  refine Contract.wp_perform fun w₁ hrely hinv w₂ r hans => ?_
  rcases hans with ⟨rfl, failure, rfl⟩ | hgives
  · exact ⟨⟨.refl _, markLe_refl _, fun h => by cases h⟩, hinv, fun b hb => by cases hb⟩
  · obtain ⟨hlater, hpoller⟩ := rely_later hrely
    exact h w₁ hlater hpoller hinv w₂ r hgives

/-- The rule for a call that changes nothing. -/
lemma wp_read {e : Effect β} (hread : ∀ (w₁ w₂ : World X F) r, Gives position e w₁ w₂ r → w₂ = w₁)
    (h : ∀ w₁, Later w w₁ → w₁.poller = w.poller → Inv P w₁ → ∀ b, Gives position e w₁ w₁ (.ok b) → Q b w₁) :
    Wp P position (.perform e) Q w := by
  refine wp_perform fun w₁ hlater hpoller hinv w₂ r hgives => ?_
  obtain rfl := hread w₁ w₂ r hgives
  refine ⟨⟨.refl _, markLe_refl _, fun h => by cases h⟩, hinv, fun b hb => ?_⟩
  subst hb
  exact h w₂ hlater hpoller hinv b hgives

end

section Listing

variable {now cutoff : Datetime}

/-- What a loop over raw items has added to a listing. -/
structure Scans (X : Externals) (F : Parsing) (cutoff : Datetime) (raws : List Json) (listing listing' : Listing) :
    Prop where
  parsed : ∀ raw ∈ raws, ∃ item, deliveryItem X F raw = .ok item ∧ (cutoff ≤ item.deliveredAt → item ∈ listing'.items)
  kept : ∀ item ∈ listing.items, item ∈ listing'.items
  origin : ∀ item ∈ listing'.items, item ∈ listing.items ∨ ∃ raw ∈ raws, deliveryItem X F raw = .ok item
  old : listing'.pageHasOld = true → listing.pageHasOld = true ∨
    ∃ raw ∈ raws, ∃ item, deliveryItem X F raw = .ok item ∧ item.deliveredAt < cutoff

lemma scanItem_scans {listing listing' : Listing} {raw : Json}
    (h : scanItem X F now cutoff listing raw = .ok listing') : Scans X F cutoff [raw] listing listing' := by
  simp only [scanItem, Fallible.bind_eq_ok, rejectIf_eq_ok] at h
  obtain ⟨item, hitem, -, -, -, -, -, -, h⟩ := h
  split at h
  · rename_i hold
    obtain rfl := Fallible.pure_eq_ok.mp h
    refine ⟨?_, fun _ h => h, fun _ h => .inl h, fun _ => .inr ⟨raw, by simp, item, hitem, hold⟩⟩
    simp only [List.mem_singleton, forall_eq]
    exact ⟨item, hitem, fun hle => absurd hold (not_lt.mpr hle)⟩
  · obtain rfl := Fallible.pure_eq_ok.mp h
    refine ⟨?_, fun i hi => List.mem_append_left _ hi, fun i hi => ?_, fun hold => .inl hold⟩
    · simp only [List.mem_singleton, forall_eq]
      exact ⟨item, hitem, fun _ => by simp⟩
    · rcases List.mem_append.mp hi with hi | hi
      · exact .inl hi
      · obtain rfl := List.mem_singleton.mp hi
        exact .inr ⟨raw, by simp, hitem⟩

lemma foldlM_scans {raws : List Json} {listing listing' : Listing}
    (h : raws.foldlM (scanItem X F now cutoff) listing = .ok listing') : Scans X F cutoff raws listing listing' := by
  induction raws generalizing listing with
  | nil =>
    obtain rfl := Fallible.pure_eq_ok.mp h
    exact ⟨by simp, fun _ h => h, fun _ h => .inl h, fun h => .inl h⟩
  | cons raw raws ih =>
    rw [List.foldlM_cons, Fallible.bind_eq_ok] at h
    obtain ⟨middle, hraw, hraws⟩ := h
    have hhead := scanItem_scans hraw
    have htail := ih hraws
    refine ⟨List.forall_mem_cons.mpr ⟨?_, htail.parsed⟩, fun i hi => htail.kept i (hhead.kept i hi), fun i hi => ?_,
      fun hold => ?_⟩
    · obtain ⟨item, hitem, hnew⟩ := hhead.parsed raw (by simp)
      exact ⟨item, hitem, fun hle => htail.kept item (hnew hle)⟩
    · rcases htail.origin i hi with hi | ⟨raw', hraw', hi⟩
      · rcases hhead.origin i hi with hi | ⟨raw', hraw', hi⟩
        · exact .inl hi
        · exact .inr ⟨raw, by simp, List.mem_singleton.mp hraw' ▸ hi⟩
      · exact .inr ⟨raw', List.mem_cons_of_mem _ hraw', hi⟩
    · rcases htail.old hold with hold | ⟨raw', hraw', hold⟩
      · rcases hhead.old hold with hold | ⟨raw', hraw', hold⟩
        · exact .inl hold
        · exact .inr ⟨raw, by simp, List.mem_singleton.mp hraw' ▸ hold⟩
      · exact .inr ⟨raw', List.mem_cons_of_mem _ hraw', hold⟩

/-- The deliveries of a page by their places in the feed. -/
lemma mem_page {entries : List (HookDelivery X F)} {upto n : Nat} (hupto : upto ≤ entries.length) {raw : Json} :
    raw ∈ ((entries.take upto).reverse.take n).map (·.summary) ↔
      ∃ i d, upto - n ≤ i ∧ i < upto ∧ entries[i]? = some d ∧ raw = d.summary := by
  have hlength : (entries.take upto).length = upto := by simpa using hupto
  rw [List.take_reverse, hlength, List.map_reverse, List.mem_reverse, List.mem_map]
  constructor
  · rintro ⟨d, hd, rfl⟩
    obtain ⟨j, hj⟩ := List.mem_iff_getElem?.mp hd
    rw [List.getElem?_drop, List.getElem?_take] at hj
    split at hj
    · exact ⟨upto - n + j, d, by omega, by assumption, hj, rfl⟩
    · cases hj
  · rintro ⟨i, d, hfrom, hto, hd, rfl⟩
    refine ⟨d, List.mem_iff_getElem?.mpr ⟨i - (upto - n), ?_⟩, rfl⟩
    rw [List.getElem?_drop, List.getElem?_take, Nat.add_sub_cancel' hfrom, if_pos hto, hd]

/-- A listing of the newest deliveries among the first `length` ones, down to the place `rest`. -/
structure Scanned (cutoff : Datetime) (entries : List (HookDelivery X F)) (rest length : Nat) (listing : Listing) :
    Prop where
  bounds : rest ≤ length ∧ length ≤ entries.length
  parsed : ∀ i d, rest ≤ i → i < length → entries[i]? = some d →
    ∃ item, d.Lists item ∧ (cutoff ≤ item.deliveredAt → item ∈ listing.items)
  origin : ∀ item ∈ listing.items, ∃ i d, i < length ∧ entries[i]? = some d ∧ d.Lists item

lemma getElem?_of_initial {entries entries' : List (HookDelivery X F)} (h : entries <+: entries') {i : Nat}
    (hi : i < entries.length) : entries'[i]? = entries[i]? := by
  obtain ⟨more, rfl⟩ := h
  exact List.getElem?_append_left hi

lemma Scanned.later {entries entries' : List (HookDelivery X F)} {rest length : Nat} {listing : Listing}
    (h : Scanned cutoff entries rest length listing) (hle : entries <+: entries') :
    Scanned cutoff entries' rest length listing := by
  have hsame : ∀ i < length, entries'[i]? = entries[i]? := fun i hi => getElem?_of_initial hle (by have := h.bounds; omega)
  refine ⟨⟨h.bounds.1, h.bounds.2.trans hle.length_le⟩, fun i d hfrom hto hd => ?_, fun item hitem => ?_⟩
  · exact h.parsed i d hfrom hto (hsame i hto ▸ hd)
  · obtain ⟨i, d, hi, hd, hlists⟩ := h.origin item hitem
    exact ⟨i, d, hi, (hsame i hi).trans hd, hlists⟩

lemma Scanned.page {entries : List (HookDelivery X F)} {rest length n : Nat} {listing listing' : Listing}
    (h : Scanned cutoff entries rest length listing)
    (hscans : Scans X F cutoff (((entries.take rest).reverse.take n).map (·.summary)) { listing with pageHasOld := false }
      listing') : Scanned cutoff entries (rest - n) length listing' := by
  have hrest : rest ≤ entries.length := h.bounds.1.trans h.bounds.2
  refine ⟨⟨by have := h.bounds; omega, h.bounds.2⟩, fun i d hfrom hto hd => ?_, fun item hitem => ?_⟩
  · by_cases hi : i < rest
    · exact hscans.parsed d.summary ((mem_page hrest).mpr ⟨i, d, hfrom, hi, hd, rfl⟩)
    · obtain ⟨item, hitem, hnew⟩ := h.parsed i d (Nat.not_lt.mp hi) hto hd
      exact ⟨item, hitem, fun hle => hscans.kept item (hnew hle)⟩
  · rcases hscans.origin item hitem with hitem | ⟨raw, hraw, hitem⟩
    · exact h.origin item hitem
    · obtain ⟨i, d, -, hi, hd, rfl⟩ := (mem_page hrest).mp hraw
      exact ⟨i, d, by have := h.bounds; omega, hd, hitem⟩

/-- A list of items that has every delivery among the first `length` ones that is not before the cutoff. -/
structure Covers (cutoff : Datetime) (entries : List (HookDelivery X F)) (length : Nat) (items : List DeliveryItem) :
    Prop where
  bound : length ≤ entries.length
  listed : ∀ i d item, i < length → entries[i]? = some d → d.Lists item → cutoff ≤ item.deliveredAt → item ∈ items
  origin : ∀ item ∈ items, ∃ i d, i < length ∧ entries[i]? = some d ∧ d.Lists item

lemma HookDelivery.Lists.eq {d : HookDelivery X F} {x y : DeliveryItem} (hx : d.Lists x) (hy : d.Lists y) : x = y :=
  Except.ok.inj (hx.symm.trans hy)

lemma Feed.ordered_getElem? (feed : Feed X F) {i j : Nat} {a b : HookDelivery X F} {x y : DeliveryItem} (hij : i < j)
    (ha : feed.entries[i]? = some a) (hb : feed.entries[j]? = some b) (hx : a.Lists x) (hy : b.Lists y) :
    x.deliveredAt ≤ y.deliveredAt := by
  obtain ⟨hi, rfl⟩ := List.getElem?_eq_some_iff.mp ha
  obtain ⟨hj, rfl⟩ := List.getElem?_eq_some_iff.mp hb
  exact List.pairwise_iff_getElem.mp feed.ordered i j hi hj hij x y hx hy

lemma Scanned.covers {entries : List (HookDelivery X F)} {rest length : Nat} {listing : Listing}
    (h : Scanned cutoff entries rest length listing)
    (hrest : ∀ i d item, i < rest → entries[i]? = some d → d.Lists item → item.deliveredAt < cutoff) :
    Covers cutoff entries length listing.items := by
  refine ⟨h.bounds.2, fun i d item hi hd hlists hle => ?_, h.origin⟩
  by_cases hscanned : rest ≤ i
  · obtain ⟨item', hlists', hnew⟩ := h.parsed i d hscanned hi hd
    obtain rfl := hlists.eq hlists'
    exact hnew hle
  · exact absurd (hrest i d item (by omega) hd hlists) (not_lt.mpr hle)

/-- Where a page ends with a delivery before the cutoff, so are all that are older. -/
lemma Feed.old_below (feed : Feed X F) {rest n : Nat} {listing listing' : Listing} (hrest : rest ≤ feed.entries.length)
    (hscans : Scans X F cutoff (((feed.entries.take rest).reverse.take n).map (·.summary))
      { listing with pageHasOld := false } listing') (hold : listing'.pageHasOld = true) :
    ∀ i d item, i < rest - n → feed.entries[i]? = some d → d.Lists item → item.deliveredAt < cutoff := by
  intro i d item hi hd hlists
  rcases hscans.old hold with h | ⟨raw, hraw, old, hraw', hlt⟩
  · cases h
  · obtain ⟨j, e, hj, -, he, rfl⟩ := (mem_page hrest).mp hraw
    exact lt_of_le_of_lt (feed.ordered_getElem? (by omega) hd he hlists hraw') hlt

end Listing

section

variable {P : DeliveryPoller} {position : String → Nat} {w w' : World X F} {d : HookDelivery X F} {item : DeliveryItem}
  {now cutoff : Datetime}

/-- A delivery that is to be recovered is not before the cutoff. -/
lemma Inv.cutoff_le (hi : Inv P w) (hcutoff : cutoffOf X P now w.poller = .ok cutoff) (hd : d ∈ w.feed.entries)
    (hopen : Open P w d item) (hnow : now - P.maxDeliveryAge ≤ item.deliveredAt) : cutoff ≤ item.deliveredAt := by
  unfold cutoffOf at hcutoff
  cases hs : w.poller.highWaterDeliveredAt with
  | none =>
    rw [hs] at hcutoff
    obtain rfl := Fallible.pure_eq_ok.mp hcutoff
    exact hnow
  | some s =>
    obtain ⟨d₀, -, item₀, hlists₀, hstamp⟩ := hi.origin s hs
    have hread := (hstamp ▸ d₀.stamped item₀ hlists₀).parseUtc_text "pollerState.high_water_delivered_at"
    have hbelow := hi.below s hs d hd item hopen
    have hinstant := instant_le item.deliveredAt
    have hoverlap := P.overlapPositive
    simp only [hs, hread, Fallible.bind_eq_ok, Fallible.pure_eq_ok, Except.ok.injEq, exists_eq_left'] at hcutoff
    subst hcutoff
    refine max_le hnow ?_
    have hle : s.instant ≤ (utcSeconds item.deliveredAt).instant := by
      exact Int.mul_le_mul_of_nonneg_right hbelow (by decide)
    have htrans : s.instant ≤ item.deliveredAt := le_trans hle hinstant
    change s.instant - P.overlap ≤ item.deliveredAt
    exact le_trans (Int.sub_le_self _ (le_of_lt hoverlap)) htrans

lemma wp_listPages {poller : PollerState} (pages : Nat) (cursor : Option String) (listing : Listing)
    (hstart : cursor = none → listing.items = [])
    (hnext : ∀ c, cursor = some c → ∃ length, Scanned cutoff w.feed.entries (position c) length listing)
    (hpoller : w.poller = poller) (hnow : now ∈ w.cycles) :
    Wp P position (listPages X F now cutoff pages cursor listing) (fun items w' => w'.poller = poller ∧
      now ∈ w'.cycles ∧ Inv P w' ∧ ∃ length, Covers cutoff w'.feed.entries length items) w := by
  induction pages generalizing cursor listing w with
  | zero => exact wp_ofExcept fun b hb => by cases hb
  | succ pages ih =>
    rw [listPages]
    refine wp_bind (wp_read (fun _ _ _ h => h.1) fun w₁ hlater hpoller₁ hinv page hgives => ?_)
    have hpoller₁ := hpoller₁.trans hpoller
    have hnow₁ := hlater.cycles now hnow
    obtain ⟨-, _, hpage, n, hitems, hmore⟩ := hgives
    obtain rfl := Except.ok.inj hpage
    -- the place of the cursor, also for the first page, which starts at the newest delivery
    obtain ⟨length, hscanned⟩ : ∃ length, Scanned cutoff w₁.feed.entries
        (cursor.elim w₁.feed.entries.length position) length listing := by
      cases cursor with
      | none =>
        refine ⟨w₁.feed.entries.length, ⟨⟨le_refl _, le_refl _⟩, fun i d hfrom hto => ?_, ?_⟩⟩
        · exact absurd hto (Nat.not_lt.mpr hfrom)
        · simp [hstart rfl]
      | some c =>
        obtain ⟨length, hscanned⟩ := hnext c rfl
        exact ⟨length, hscanned.later hlater.feed⟩
    refine wp_bind (wp_ofExcept fun listing' hfold => ?_)
    have hscans := foldlM_scans hfold
    rw [hitems] at hscans
    have hpage := hscanned.page hscans
    have hrest : cursor.elim w₁.feed.entries.length position ≤ w₁.feed.entries.length :=
      hscanned.bounds.1.trans hscanned.bounds.2
    split
    · rename_i hend
      refine wp_pure ⟨hpoller₁, hnow₁, hinv, length, hpage.covers fun i d item hi hd hlists => ?_⟩
      rcases hend with hend | hend
      · rw [hend] at hmore
        dsimp only at hmore
        omega
      · exact w₁.feed.old_below hrest hscans hend i d item hi hd hlists
    · split
      · exact wp_ofExcept fun b hb => by cases hb
      · rename_i hend _
        refine ih page.nextCursor listing' (fun h => absurd (.inl h) hend) (fun c hc => ?_) hpoller₁ hnow₁
        rw [hc] at hmore
        dsimp only at hmore
        rw [hmore]
        exact ⟨length, hpage⟩

end

/-- The listing has every delivery that is to be recovered, but for those that came after it. -/
structure Collected (P : DeliveryPoller) (items : List DeliveryItem) (w : World X F) (length : Nat) : Prop where
  bound : length ≤ w.feed.entries.length
  listed : ∀ i d item, i < length → w.feed.entries[i]? = some d → Open P w d item → item ∈ items
  origin : ∀ item ∈ items, ∃ i d, i < length ∧ w.feed.entries[i]? = some d ∧ d.Lists item

/-- A delivery of the feed whose callback has succeeded. -/
def Settled (P : DeliveryPoller) (w : World X F) (item : DeliveryItem) : Prop :=
  ∃ d ∈ w.feed.entries, d.Lists item ∧ Succeeded P w d item

section

variable {P : DeliveryPoller} {position : String → Nat} {w w' : World X F} {d : HookDelivery X F} {item : DeliveryItem}
  {now : Datetime} {items : List DeliveryItem} {length : Nat}

lemma Collected.later (h : Collected P items w length) (hlater : Later w w') : Collected P items w' length := by
  have hsame : ∀ i < length, w'.feed.entries[i]? = w.feed.entries[i]? :=
    fun i hi => getElem?_of_initial hlater.feed (lt_of_lt_of_le hi h.bound)
  refine ⟨h.bound.trans hlater.feed.length_le, fun i d item hi hd hopen => ?_, fun item hitem => ?_⟩
  · exact h.listed i d item hi (hsame i hi ▸ hd) (hopen.earlier hlater)
  · obtain ⟨i, d, hi, hd, hlists⟩ := h.origin item hitem
    exact ⟨i, d, hi, (hsame i hi).trans hd, hlists⟩

lemma Settled.later (h : Settled P w item) (hlater : Later w w') : Settled P w' item := by
  obtain ⟨d, hd, hlists, request, hrequest, hs⟩ := h
  exact ⟨d, hlater.feed.subset hd, hlists, request, hrequest, hlater.ledger _ hs⟩

/-- Deliveries with one id are one delivery. -/
lemma Feed.eq_of_id (feed : Feed X F) {a b : HookDelivery X F} {x y : DeliveryItem} (ha : a ∈ feed.entries)
    (hb : b ∈ feed.entries) (hx : a.Lists x) (hy : b.Lists y) (hid : x.apiDeliveryId = y.apiDeliveryId) : a = b := by
  obtain ⟨i, hi, rfl⟩ := List.mem_iff_getElem.mp ha
  obtain ⟨j, hj, rfl⟩ := List.mem_iff_getElem.mp hb
  have hpairwise := List.pairwise_iff_getElem.mp feed.distinct
  rcases lt_trichotomy i j with hlt | rfl | hgt
  · exact (hpairwise i j hi hj hlt x y hx hy hid).elim
  · rfl
  · exact (hpairwise j i hj hi hgt y x hy hx hid.symm).elim

lemma wp_collect (hnow : now ∈ w.cycles) :
    Wp P position (collect X F P now) (fun items w' => ∃ length, Collected P items w' length) w := by
  refine wp_bind (wp_read (fun _ _ _ h => h.1) fun w₁ hlater _ _ _ _ => ?_)
  have hnow₁ := hlater.cycles now hnow
  refine wp_bind (wp_bind (wp_read (fun _ _ _ h => h.1) fun w₂ hlater₂ _ _ state hgives => ?_))
  have hstate : state = w₂.poller := Except.ok.inj hgives.2
  refine wp_ofExcept fun cutoff hcutoff => ?_
  refine Contract.wp_mono (fun r w' hr items hitems => ?_)
    (wp_listPages maxPages none ⟨[], [], none, false⟩ (fun _ => rfl) (fun c hc => by cases hc) hstate.symm
      (hlater₂.cycles now hnow₁))
  obtain ⟨hpoller, hnow', hinv, length, hcovers⟩ := hr items hitems
  refine ⟨length, hcovers.bound, fun i d item hi hd hopen => ?_, hcovers.origin⟩
  rw [← hpoller] at hcutoff
  exact hcovers.listed i d item hi hd hopen.lists
    (hinv.cutoff_le hcutoff (List.mem_of_getElem? hd) hopen (hopen.young now hnow'))

lemma advance_eq_ok {request : DeploymentProtectionRequest} {id : Int} {deliveredAt recordedAt : Datetime}
    {ledger : ObserveLedger} {state state' : PollerState}
    (h : advancePollerAfterCallback request id deliveredAt recordedAt ledger state = .ok state') :
    callbackSucceeded request ledger = true ∧ markLe state.mark state'.mark ∧
      (state'.highWaterDeliveredAt = state.highWaterDeliveredAt ∨
        state'.highWaterDeliveredAt = some (utcSeconds deliveredAt)) := by
  simp only [advancePollerAfterCallback, Fallible.bind_eq_ok, rejectIf_eq_ok, Bool.not_eq_false] at h
  obtain ⟨-, -, -, hsucceeded, h⟩ := h
  split at h
  · rename_i hle
    obtain rfl := Fallible.pure_eq_ok.mp h
    exact ⟨hsucceeded, hle, .inr rfl⟩
  · obtain rfl := Fallible.pure_eq_ok.mp h
    exact ⟨hsucceeded, markLe_refl _, .inl rfl⟩

/-- The deliveries that are done have succeeded, and the others are not before those that are next. -/
structure Ready (P : DeliveryPoller) (done rest : List DeliveryItem) (w : World X F) (length : Nat) : Prop where
  collected : ∃ items, Collected P items w length ∧ ∀ item ∈ items, isCandidate P item = true → item ∈ done ++ rest
  origin : ∀ item ∈ rest, ∃ i d, i < length ∧ w.feed.entries[i]? = some d ∧ d.Lists item
  done : ∀ item ∈ done, Settled P w item
  sorted : rest.Pairwise fun a b => notAfter a b = true

lemma Ready.later {done rest : List DeliveryItem} (h : Ready P done rest w length) (hlater : Later w w') :
    Ready P done rest w' length := by
  obtain ⟨items, hcollected, hitems⟩ := h.collected
  refine ⟨⟨items, hcollected.later hlater, hitems⟩, fun item hitem => ?_, fun item hitem => (h.done item hitem).later hlater,
    h.sorted⟩
  obtain ⟨i, d, hi, hd, hlists⟩ := h.origin item hitem
  exact ⟨i, d, hi, (getElem?_of_initial hlater.feed (lt_of_lt_of_le hi hcollected.bound)).trans hd, hlists⟩

/-- The mark may be set to the next delivery once its callback has succeeded. -/
lemma Ready.below {done rest : List DeliveryItem} (h : Ready P done (item :: rest) w length) (hsettled : Settled P w item)
    (hd : d ∈ w.feed.entries) {other : DeliveryItem} (hopen : Open P w d other) :
    item.deliveredAt ≤ other.deliveredAt := by
  obtain ⟨items, hcollected, hitems⟩ := h.collected
  obtain ⟨i, e, hi, he, hlists⟩ := h.origin item List.mem_cons_self
  obtain ⟨j, hj⟩ := List.mem_iff_getElem?.mp hd
  have hnot : ∀ x, Settled P w x → x ≠ other := by
    rintro x ⟨d', hd', hx, hsucceeded⟩ rfl
    obtain rfl := w.feed.eq_of_id hd hd' hopen.lists hx rfl
    exact hopen.failed hsucceeded
  by_cases hlength : j < length
  · have hmem := hitems other (hcollected.listed j d other hlength hj hopen) hopen.candidate
    rcases List.mem_append.mp hmem with hmem | hmem
    · exact (hnot other (h.done other hmem) rfl).elim
    rcases List.mem_cons.mp hmem with rfl | hmem
    · exact le_refl _
    · have hsorted := (List.pairwise_cons.mp h.sorted).1 other hmem
      simp only [notAfter, decide_eq_true_eq] at hsorted
      rcases hsorted with hlt | ⟨heq, -⟩
      · exact le_of_lt hlt
      · exact le_of_eq heq
  · exact w.feed.ordered_getElem? (by omega) he hj hlists hopen.lists

end

section

variable {P : DeliveryPoller} {position : String → Nat} {w w' : World X F} {d : HookDelivery X F} {item : DeliveryItem}
  {now : Datetime} {done rest : List DeliveryItem} {length : Nat}

lemma wp_processItem (hready : Ready P done (item :: rest) w length) :
    Wp P position (processItem X F P now item) (fun _ w' => Ready P (done ++ [item]) rest w' length) w := by
  refine wp_bind (wp_read (fun _ _ _ h => h.1) fun w₁ hlater₁ _ _ detail hgives => ?_)
  obtain ⟨-, e, he, hdetail, x, hx, hid⟩ := hgives
  obtain rfl := Except.ok.inj hdetail
  have hready₁ := hready.later hlater₁
  -- the detail belongs to the delivery that the item was read from
  obtain ⟨i, d, hi, hd, hlists⟩ := hready₁.origin item List.mem_cons_self
  obtain rfl := w₁.feed.eq_of_id (List.mem_of_getElem? hd) he hlists hx hid.symm
  refine wp_bind (wp_ofExcept fun request hrequest => ?_)
  refine wp_bind (wp_perform fun w₂ hlater₂ _ hinv₂ w₃ r hgives => ?_)
  obtain ⟨ledger, rfl, hsteps⟩ := hgives
  have hlater₃ : Later w₂ { w₂ with ledger } := ⟨List.prefix_refl _, ledgerSteps_keep hsteps, fun _ h => h⟩
  refine ⟨⟨hlater₃, markLe_refl _, fun h => by cases h⟩, hinv₂.same hlater₃ rfl rfl, fun accepted _ => ?_⟩
  have hready₃ := hready₁.later (hlater₂.trans hlater₃)
  have hmem₃ : d ∈ w₂.feed.entries := hlater₂.feed.subset he
  refine wp_bind (wp_ofExcept fun _ _ => ?_)
  refine wp_perform fun w₄ hlater₄ _ hinv₄ w₅ r hgives => ?_
  obtain ⟨poller, rfl, rfl, hadvance⟩ := hgives
  obtain ⟨hsucceeded, hmark, hstamp⟩ := advance_eq_ok hadvance
  have hlater₅ : Later w₄ { w₄ with poller } := ⟨List.prefix_refl _, fun _ h => h, fun _ h => h⟩
  have hready₄ := hready₃.later hlater₄
  have hmem₄ : d ∈ w₄.feed.entries := hlater₄.feed.subset hmem₃
  have hsettled : Settled P w₄ item := ⟨d, hmem₄, hlists, request, hrequest, hsucceeded⟩
  refine ⟨⟨hlater₅, hmark, fun h => by cases h⟩, ?_, fun _ _ => ?_⟩
  · rcases hstamp with hstamp | hstamp
    · exact hinv₄.same hlater₅ rfl hstamp
    · refine ⟨fun s hs => ?_, fun s hs d' hd' other hopen => ?_⟩
      · exact ⟨d, hmem₄, item, hlists, Option.some.inj (hstamp.symm.trans hs)⟩
      · obtain rfl := Option.some.inj (hstamp.symm.trans hs)
        exact utcSeconds_mono (hready₄.below hsettled hd' (hopen.earlier hlater₅))
  · have hready₅ := hready₄.later hlater₅
    obtain ⟨items, hcollected, hitems⟩ := hready₅.collected
    refine ⟨⟨items, hcollected, by simpa using hitems⟩, fun x hx => hready₅.origin x (List.mem_cons_of_mem _ hx),
      fun x hx => ?_, (List.pairwise_cons.mp hready₅.sorted).2⟩
    rcases List.mem_append.mp hx with hx | hx
    · exact hready₅.done x hx
    · obtain rfl := List.mem_singleton.mp hx
      exact hsettled.later hlater₅

lemma wp_processEach (hready : Ready P done rest w length) :
    Wp P position (processEach X F P now rest) (fun _ _ => True) w := by
  induction rest generalizing done w with
  | nil => exact wp_pure trivial
  | cons item rest ih =>
    refine wp_bind (Contract.wp_mono (fun r w' hr u hu => ?_) (wp_processItem hready))
    exact wp_bind (Contract.wp_mono (fun _ _ _ _ _ => wp_pure trivial) (ih (hr u hu)))

lemma pairwise_sorted (candidates : List DeliveryItem) :
    (candidates.insertionSort fun a b => notAfter a b).Pairwise fun a b => notAfter a b = true := by
  have : Std.Total fun a b : DeliveryItem => notAfter a b = true := by
    refine ⟨fun a b => ?_⟩
    have hlex := lt_trichotomy a.deliveredAt b.deliveredAt
    have hid := le_total a.apiDeliveryId b.apiDeliveryId
    simp only [notAfter, decide_eq_true_eq]
    tauto
  have : IsTrans DeliveryItem fun a b => notAfter a b = true := by
    refine ⟨fun a b c hab hbc => ?_⟩
    simp only [notAfter, decide_eq_true_eq] at *
    rcases hab with hab | ⟨hab, hid⟩
    · rcases hbc with hbc | ⟨hbc, -⟩
      · exact .inl (lt_trans hab hbc)
      · exact .inl (hbc ▸ hab)
    · rcases hbc with hbc | ⟨hbc, hid'⟩
      · exact .inl (hab ▸ hbc)
      · exact .inr ⟨hab.trans hbc, hid.trans hid'⟩
  exact List.pairwise_insertionSort _ candidates

lemma wp_pollOnce : Wp P position (pollOnce X F P) (fun _ _ => True) w := by
  refine wp_bind (wp_perform fun w₁ _ _ hinv w₂ r hgives => ?_)
  obtain ⟨t, rfl, rfl⟩ := hgives
  have hlater : Later w₁ { w₁ with cycles := t :: w₁.cycles } :=
    ⟨List.prefix_refl _, fun _ h => h, fun _ h => List.mem_cons_of_mem _ h⟩
  refine ⟨⟨hlater, markLe_refl _, fun h => by cases h⟩, hinv.same hlater rfl rfl, fun now hnow => ?_⟩
  obtain rfl := Except.ok.inj hnow
  refine wp_bind (Contract.wp_mono (fun r w₃ hr listed hlisted => ?_) (wp_collect List.mem_cons_self))
  obtain ⟨length, hcollected⟩ := hr listed hlisted
  refine wp_bind (wp_ofExcept fun _ _ => ?_)
  have hperm := List.perm_insertionSort (fun a b => notAfter a b = true) (listed.filter (isCandidate P))
  have hready : Ready P [] ((listed.filter (isCandidate P)).insertionSort fun a b => notAfter a b) w₃ length := by
    refine ⟨⟨listed, hcollected, fun item hitem hcandidate => ?_⟩, fun item hitem => ?_, by simp, pairwise_sorted _⟩
    · exact hperm.mem_iff.mpr (List.mem_filter.mpr ⟨hitem, hcandidate⟩)
    · exact hcollected.origin item (List.mem_filter.mp (hperm.mem_iff.mp hitem)).1
  refine wp_bind (Contract.wp_mono (fun _ w₄ _ _ _ => ?_) (wp_processEach hready))
  refine wp_bind (wp_perform fun w₅ _ _ hinv w₆ r hgives => ?_)
  obtain ⟨rfl, rfl⟩ := hgives
  have hlater : Later w₅ { w₅ with poller := markPollerSuccess t w₅.poller } :=
    ⟨List.prefix_refl _, fun _ h => h, fun _ h => h⟩
  exact ⟨⟨hlater, markLe_refl _, fun h => by cases h⟩, hinv.same hlater rfl rfl, fun _ _ => wp_pure trivial⟩

lemma system_meets : Contract.Meets (system X F P position) (contract X F P) := by
  refine ⟨fun t p w hstart hinv => ?_, fun w w' hrestart hinv => ?_⟩
  · cases t with
    | poller =>
      obtain rfl := hstart
      have hwp : Wp P position (do let _ ← pollOnce X F P; pure ()) (fun _ _ => True) w :=
        wp_bind (Contract.wp_mono (fun _ _ _ _ _ => wp_pure trivial) wp_pollOnce)
      exact Contract.wp_mono (fun _ _ _ => trivial) hwp
    | beside =>
      obtain rfl := hstart
      refine Contract.wp_perform fun w₁ _ hinv₁ w₂ r hans => ?_
      rcases hans with ⟨rfl, -⟩ | ⟨hbeside, -⟩
      · exact ⟨⟨.refl _, markLe_refl _, fun _ => rfl⟩, hinv₁, trivial⟩
      · obtain ⟨hlater, hpoller⟩ := hbeside.later
        exact ⟨⟨hlater, hpoller ▸ markLe_refl _, fun _ => hpoller⟩, hbeside.inv hinv₁, trivial⟩
  · obtain rfl := hrestart
    exact hinv

end

section

variable {P : DeliveryPoller} {position : String → Nat} {w : World X F}

lemma inv_initial (h : w.poller = .initial) : Inv P w := by
  refine ⟨fun s hs => ?_, fun s hs => ?_⟩ <;> rw [h] at hs <;> cases hs

lemma run_kept {c : World X F × Pool Failure Effect Thread} (h : w.poller = .initial)
    (hrun : (system X F P position).Run (w, fun _ => none) c) :
    Contract.Kept (contract X F P) (system X F P position) c :=
  Contract.kept_run system_meets ⟨inv_initial h, fun t p hp => by cases hp⟩ hrun

lemma run_mark {c c' : World X F × Pool Failure Effect Thread}
    (hkept : Contract.Kept (contract X F P) (system X F P position) c)
    (hrun : (system X F P position).Run c c') : markLe c.1.poller.mark c'.1.poller.mark := by
  induction hrun with
  | refl => exact markLe_refl _
  | @tail b c' hrun hstep ih =>
    have hkept' := Contract.kept_run system_meets hkept hrun
    rcases (Contract.kept_step system_meets hkept' hstep).2 with heq | ⟨t, hg⟩ | hrestart
    · rw [heq]
      exact ih
    · exact markLe_trans ih hg.mark
    · have heq : c'.1 = b.1 := hrestart
      rw [heq]
      exact ih

/-- In every run of cycles, with stops and restarts anywhere and with deliveries and calls of the ledger in between, the
high-water mark never decreases; and every failed delivery without a successful callback that has not aged out is not
below the mark, and not before the cutoff of a next cycle unless that one finds it too old. -/
theorem high_water_never_passes_open_delivery (hinitial : w.poller = .initial)
    {c c' : World X F × Pool Failure Effect Thread} (hrun : (system X F P position).Run (w, fun _ => none) c)
    (hmore : (system X F P position).Run c c') :
    markLe c.1.poller.mark c'.1.poller.mark ∧
    ∀ d ∈ c'.1.feed.entries, ∀ item, Open P c'.1 d item →
      (∀ s, c'.1.poller.highWaterDeliveredAt = some s → s.seconds ≤ (utcSeconds item.deliveredAt).seconds) ∧
      ∀ now cutoff, cutoffOf X P now c'.1.poller = .ok cutoff → now - P.maxDeliveryAge ≤ item.deliveredAt →
        cutoff ≤ item.deliveredAt := by
  have hinv : Inv P c'.1 := (run_kept hinitial (hrun.trans hmore)).inv
  refine ⟨run_mark (run_kept hinitial hrun) hmore, fun d hd item hopen => ⟨fun s hs => ?_, fun now cutoff hcutoff hnow => ?_⟩⟩
  · exact hinv.below s hs d hd item hopen
  · exact hinv.cutoff_le hcutoff hd hopen hnow

end

namespace Sample

def summaryOf (id : Int) (guid deliveredAt : String) : Json :=
  .obj [("id", .int id), ("guid", .str guid), ("delivered_at", .str deliveredAt), ("redelivery", .bool false),
    ("duration", .int 1), ("status", .str "Bad Gateway"), ("status_code", .int 502), ("event", .str targetEvent),
    ("action", .str targetAction), ("installation_id", .int 1), ("repository_id", .int 2)]

def detailOf (id : Int) (guid deliveredAt : String) (run : Int) : Json :=
  .obj [("id", .int id), ("guid", .str guid), ("delivered_at", .str deliveredAt), ("redelivery", .bool false),
    ("status", .str "Bad Gateway"), ("status_code", .int 502), ("event", .str targetEvent),
    ("action", .str targetAction), ("installation_id", .int 1), ("repository_id", .int 2), ("url", .str "https://hook/"),
    ("request", .obj [("headers", .null), ("payload", .obj [("run", .int run)])]),
    ("response", .obj [("headers", .null), ("payload", .null)])]

def start : Datetime := 1784232000 * second

def externals : Externals where
  sha256 _ := ""
  fromisoformat s :=
    if s = "2026-07-16T20:00:00+00:00" then some ⟨start, some 0⟩
    else if s = "2026-07-16T20:00:10+00:00" then some ⟨start + 10 * second, some 0⟩
    else none
  b64decode _ := none
  jsonLoads _ := none
  ed25519Verify _ _ _ := false
  schemaValid _ _ := false

def parsing : Parsing where
  within _ _ _ := false
  parseDelivery payload guid := .ok ⟨guid, 2, "acik/platform", 1, "production", "", "", "",
    (payload.get "run").asInt?.getD 0, 1, "", .githubAppDeliveryApiV1⟩

def poller : DeliveryPoller where
  expectedWebhookUrl := "https://hook/"
  expectedInstallationId := 1
  expectedRepositoryId := 2
  maxDeliveryAge := 15 * minute
  overlap := 5 * minute
  agePositive := by decide
  overlapPositive := by decide

def firstGuid : String := "11111111-1111-4111-8111-111111111111"
def secondGuid : String := "22222222-2222-4222-8222-222222222222"

def itemOf (id : Int) (guid : String) (deliveredAt : Datetime) : DeliveryItem :=
  ⟨id, guid, deliveredAt, false, "Bad Gateway", 502, targetEvent, some targetAction, some 1, some 2⟩

lemma first_item : deliveryItem externals parsing (summaryOf 7 firstGuid "2026-07-16T20:00:00Z") =
    .ok (itemOf 7 firstGuid start) := by
  decide +kernel

lemma second_item : deliveryItem externals parsing (summaryOf 8 secondGuid "2026-07-16T20:00:10Z") =
    .ok (itemOf 8 secondGuid (start + 10 * second)) := by
  decide +kernel

def first : HookDelivery externals parsing where
  summary := summaryOf 7 firstGuid "2026-07-16T20:00:00Z"
  detail := detailOf 7 firstGuid "2026-07-16T20:00:00Z" 70
  stamped item h := by
    obtain rfl := Except.ok.inj (first_item.symm.trans h)
    exact @ReadsBack.of_text _ _ "2026-07-16T20:00:00" (by decide +kernel) rfl

def second : HookDelivery externals parsing where
  summary := summaryOf 8 secondGuid "2026-07-16T20:00:10Z"
  detail := detailOf 8 secondGuid "2026-07-16T20:00:10Z" 80
  stamped item h := by
    obtain rfl := Except.ok.inj (second_item.symm.trans h)
    exact @ReadsBack.of_text _ _ "2026-07-16T20:00:10" (by decide +kernel) rfl

def feed : Feed externals parsing where
  entries := [first, second]
  ordered := by
    refine List.pairwise_pair.mpr fun x y hx hy => ?_
    obtain rfl := Except.ok.inj (first_item.symm.trans hx)
    obtain rfl := Except.ok.inj (second_item.symm.trans hy)
    decide
  distinct := by
    refine List.pairwise_pair.mpr fun x y hx hy => ?_
    obtain rfl := Except.ok.inj (first_item.symm.trans hx)
    obtain rfl := Except.ok.inj (second_item.symm.trans hy)
    decide

/-- The callback for the run of the first delivery has succeeded. -/
def ledger : ObserveLedger :=
  { Ledger.empty with
    decisions := ⟨[⟨2, "production", 70, firstGuid, .approved, "r", none, "c", .succeeded, some 204, ⟨0⟩, ⟨0⟩⟩],
      by decide, trivial⟩ }

def begun : World externals parsing := ⟨feed, ledger, .initial, []⟩

/-- The processor accepts the first delivery only. -/
def world : {β : Type} → Effect β → World externals parsing → Option (World externals parsing × Except Failure β)
  | _, .now, w => some ({ w with cycles := (start + minute) :: w.cycles }, .ok (start + minute))
  | _, .cycle, w => some (w, .ok ())
  | _, .pollerState, w => some (w, .ok w.poller)
  | _, .listDeliveries none, w => some (w, .ok ⟨(w.feed.entries.reverse.map (·.summary)), none⟩)
  | _, .listDeliveries (some _), _ => none
  | _, .delivery id, w => (w.feed.entries.find? fun d =>
      (deliveryItem externals parsing d.summary).toOption.map (·.apiDeliveryId) = some id).map fun d => (w, .ok d.detail)
  | _, .processPolled request, w => some (w, .ok (callbackSucceeded request w.ledger))
  | _, .advancePollerAfterCallback request id deliveredAt recordedAt, w =>
    (advancePollerAfterCallback request id deliveredAt recordedAt w.ledger w.poller).toOption.map fun poller =>
      ({ w with poller }, .ok ())
  | _, .markPollerSuccess recordedAt, w => some ({ w with poller := markPollerSuccess recordedAt w.poller }, .ok ())
  | _, .outside, _ => none

lemma world_answers (position : String → Nat) (t : Thread) :
    Answers (system externals parsing poller position).toMachine t world := by
  intro γ e w w' r h
  cases e with
  | now =>
    cases h
    exact .inr ⟨_, rfl, rfl⟩
  | cycle =>
    cases h
    exact .inr ⟨rfl, rfl⟩
  | pollerState =>
    cases h
    exact .inr ⟨rfl, rfl⟩
  | listDeliveries cursor =>
    cases cursor with
    | none =>
      cases h
      refine .inr ⟨rfl, _, rfl, w.feed.entries.length, ?_, le_refl _⟩
      rw [Option.elim_none, List.take_length, List.take_of_length_le (by simp)]
    | some c => cases h
  | delivery id =>
    obtain ⟨d, hd, heq⟩ := Option.map_eq_some_iff.mp h
    cases heq
    have hid := List.find?_some hd
    simp only [decide_eq_true_eq, Option.map_eq_some_iff] at hid
    obtain ⟨item, hitem, hid⟩ := hid
    exact .inr ⟨rfl, d, List.mem_of_find?_eq_some hd, rfl, item, Fallible.toOption_eq_some hitem, hid⟩
  | processPolled request =>
    cases h
    exact .inr ⟨w.ledger, rfl, .refl⟩
  | advancePollerAfterCallback request id deliveredAt recordedAt =>
    obtain ⟨p, hp, heq⟩ := Option.map_eq_some_iff.mp h
    cases heq
    exact .inr ⟨p, rfl, rfl, Fallible.toOption_eq_some hp⟩
  | markPollerSuccess recordedAt =>
    cases h
    exact .inr ⟨rfl, rfl⟩
  | outside => cases h

lemma world_kept {γ : Type} {e : Effect γ} {w w' : World externals parsing} {r : Except Failure γ}
    (h : world e w = some (w', r)) : w'.feed = w.feed ∧ w'.ledger = w.ledger := by
  cases e with
  | listDeliveries cursor =>
    cases cursor <;> cases h
    exact ⟨rfl, rfl⟩
  | delivery id =>
    obtain ⟨d, -, heq⟩ := Option.map_eq_some_iff.mp h
    cases heq
    exact ⟨rfl, rfl⟩
  | advancePollerAfterCallback request id deliveredAt recordedAt =>
    obtain ⟨p, -, heq⟩ := Option.map_eq_some_iff.mp h
    cases heq
    exact ⟨rfl, rfl⟩
  | outside => cases h
  | _ =>
    cases h
    exact ⟨rfl, rfl⟩

lemma interp_kept {α : Type} {p : Action α} {w w' : World externals parsing} {r : Except Failure α}
    (h : p.interp world w = some (w', r)) : w'.feed = w.feed ∧ w'.ledger = w.ledger := by
  induction p generalizing w with
  | done a =>
    cases h
    exact ⟨rfl, rfl⟩
  | fail e =>
    cases h
    exact ⟨rfl, rfl⟩
  | call e next ih =>
    obtain ⟨⟨w₁, r₁⟩, hfirst, hnext⟩ := Option.bind_eq_some_iff.mp h
    obtain ⟨hfeed, hledger⟩ := world_kept hfirst
    obtain ⟨hfeed', hledger'⟩ := ih r₁ hnext
    exact ⟨hfeed'.trans hfeed, hledger'.trans hledger⟩

/-- What a cycle leaves: the mark is at the first delivery, since the second one failed again. -/
lemma cycle_view :
    ((do let _ ← pollOnce externals parsing poller; pure () : Action Unit).interp world begun).map
      (fun out => (out.1.poller.highWaterDeliveredAt, out.1.cycles)) =
    some (some (utcSeconds start), [start + minute]) := by
  decide +kernel

lemma second_request : (requestOf externals parsing poller (itemOf 8 secondGuid (start + 10 * CrossAi.second))
    second.detail).toOption.map (fun request => callbackSucceeded request ledger) = some false := by
  decide +kernel

lemma second_open {w : World externals parsing} (hledger : w.ledger = ledger) (hcycles : w.cycles = [start + minute]) :
    Open poller w second (itemOf 8 secondGuid (start + 10 * CrossAi.second)) := by
  refine ⟨second_item, by decide +kernel, ?_, ?_⟩
  · rintro ⟨request, hrequest, hsucceeded⟩
    have hview := second_request
    rw [hrequest] at hview
    rw [hledger] at hsucceeded
    simp [Except.toOption, hsucceeded] at hview
  · intro now hnow
    rw [hcycles, List.mem_singleton] at hnow
    subst hnow
    decide

theorem high_water_never_passes_open_delivery_failed_again :
    ∃ c, (system externals parsing poller fun _ => 0).Run (begun, fun _ => none) c ∧ ∃ d ∈ c.1.feed.entries, ∃ item,
      Open poller c.1 d item ∧ c.1.poller.highWaterDeliveredAt = some (utcSeconds start) ∧
      (utcSeconds start).seconds ≤ (utcSeconds item.deliveredAt).seconds := by
  obtain ⟨⟨w, r⟩, hinterp, hview⟩ := Option.map_eq_some_iff.mp cycle_view
  simp only [Prod.mk.injEq] at hview
  obtain ⟨hfeed, hledger⟩ := interp_kept hinterp
  have hrun := System.run_alone (S := system externals parsing poller fun _ => 0) (t := .poller) rfl
    (exec_interp (world_answers _ _) hinterp)
  have hopen := second_open hledger hview.2
  have hmem : second ∈ w.feed.entries := by
    rw [hfeed]
    exact List.mem_cons_of_mem _ List.mem_cons_self
  obtain ⟨-, hbelow⟩ := high_water_never_passes_open_delivery rfl hrun .refl
  exact ⟨_, hrun, second, hmem, _, hopen, hview.1, (hbelow second hmem _ hopen).1 _ hview.1⟩

end Sample

end

end PlatformGitops.CrossAi.Polling
