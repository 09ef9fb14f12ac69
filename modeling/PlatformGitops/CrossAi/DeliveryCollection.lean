import PlatformGitops.CrossAi.HighWater

/-! The listing of a cycle has every delivery of the feed that is not before the cutoff, or there is no listing. -/

namespace PlatformGitops.CrossAi.Polling

open Library Ledger

/-- The first pages of a feed from a cursor on, where `page` is what the API gives for each cursor. -/
def pagesFrom (page : Option String → HookDeliveryPage) : Nat → Option String → List HookDeliveryPage
  | 0, _ => []
  | n + 1, cursor => page cursor :: match (page cursor).nextCursor with
    | none => []
    | some next => pagesFrom page n (some next)

def itemsOf (pages : List HookDeliveryPage) : List Json := pages.flatMap (·.items)

def idOf (raw : Json) : Option Int := (integer (raw.get "id") "delivery.id" true).toOption

section

variable (X : Externals)

def timeOf (raw : Json) : Option Datetime := (parseUtc X (raw.get "delivered_at") "delivery.delivered_at").toOption

def recent (cutoff : Datetime) (raw : Json) : Bool := (timeOf X raw).any fun t => cutoff ≤ t

def old (cutoff : Datetime) (raw : Json) : Bool := (timeOf X raw).any fun t => t < cutoff

/-- The items are in the order of their times and ids, the newest first, and no two have the same id. -/
structure NewestFirst (raws : List Json) : Prop where
  ordered : raws.Pairwise fun a b => ∀ s t, timeOf X a = some s → timeOf X b = some t →
    t < s ∨ t = s ∧ ∀ i j, idOf a = some i → idOf b = some j → j < i
  distinct : raws.Pairwise fun a b => ∀ i j, idOf a = some i → idOf b = some j → i ≠ j

/-- The pages up to the first one with an item before the cutoff. -/
def window (cutoff : Datetime) : List HookDeliveryPage → List HookDeliveryPage
  | [] => []
  | page :: pages => if page.items.any (old X cutoff) then [page] else page :: window cutoff pages

/-- An item is newer than one before it, two items have one id, or an item lies in the future. -/
inductive Faulty (now : Datetime) (raws : List Json) : Prop
  | order {a b : Json} {s t : Datetime} {i j : Int} : [a, b].Sublist raws → timeOf X a = some s → timeOf X b = some t →
      idOf a = some i → idOf b = some j → s < t ∨ s = t ∧ i < j → Faulty now raws
  | repeated {a b : Json} {i : Int} : [a, b].Sublist raws → idOf a = some i → idOf b = some i → Faulty now raws
  | future {a : Json} {t : Datetime} : a ∈ raws → timeOf X a = some t → now + 30 * second < t → Faulty now raws

end

/-- The API gives the pages of one feed, and the ledger the state of the poller. Any call may fail. -/
def server (page : Option String → HookDeliveryPage) : Machine Failure Effect PollerState Unit where
  answer {_} _ e s s' r := s' = s ∧ ((∃ failure, r = .error failure) ∨ match e with
    | .listDeliveries cursor => r = .ok (page cursor)
    | .pollerState => r = .ok s
    | _ => True)

section

variable {X : Externals} {F : Parsing} {P : DeliveryPoller} {now cutoff : Datetime}
  {page : Option String → HookDeliveryPage}

/-- What the listing has checked of the items that it has read. -/
structure Checked (now : Datetime) (items : List DeliveryItem) : Prop where
  ordered : items.Pairwise fun a b => notAfter b a
  distinct : items.Pairwise fun a b => a.apiDeliveryId ≠ b.apiDeliveryId
  present : ∀ item ∈ items, item.deliveredAt ≤ now + 30 * second

def listingOf (cutoff : Datetime) (items : List DeliveryItem) (pageHasOld : Bool) : Listing :=
  ⟨items.filter fun item => cutoff ≤ item.deliveredAt, (items.map (·.apiDeliveryId)).reverse,
    items.getLast?.map fun item => (item.deliveredAt, item.apiDeliveryId), pageHasOld⟩

lemma checked_nil : Checked now [] := ⟨.nil, .nil, by simp⟩

lemma notAfter_trans {a b c : DeliveryItem} (hab : notAfter a b) (hbc : notAfter b c) : notAfter a c := by
  simp only [notAfter, decide_eq_true_eq] at *
  rcases hab with hab | ⟨hab, hid⟩
  · rcases hbc with hbc | ⟨hbc, -⟩
    · exact .inl (hab.trans hbc)
    · exact .inl (hbc ▸ hab)
  · rcases hbc with hbc | ⟨hbc, hid'⟩
    · exact .inl (hab ▸ hbc)
    · exact .inr ⟨hab.trans hbc, hid.trans hid'⟩

/-- An item that is not newer than the last one is not newer than any. -/
lemma Checked.concat {items : List DeliveryItem} {item : DeliveryItem} (h : Checked now items)
    (horder : ∀ last ∈ items.getLast?, notAfter item last) (hid : item.apiDeliveryId ∉ items.map (·.apiDeliveryId))
    (hnow : item.deliveredAt ≤ now + 30 * second) : Checked now (items ++ [item]) := by
  refine ⟨List.pairwise_append.mpr ⟨h.ordered, List.pairwise_singleton _ _, ?_⟩,
    List.pairwise_append.mpr ⟨h.distinct, List.pairwise_singleton _ _, ?_⟩, ?_⟩
  · simp only [List.mem_singleton, forall_eq]
    intro earlier hearlier
    obtain ⟨before, last, rfl⟩ := List.eq_nil_or_concat' items |>.resolve_left (List.ne_nil_of_mem hearlier)
    have hlast := horder last (by simp)
    rcases List.mem_append.mp hearlier with hmem | hmem
    · exact notAfter_trans hlast ((List.pairwise_append.mp h.ordered).2.2 _ hmem _ (by simp))
    · rwa [List.mem_singleton.mp hmem]
  · simp only [List.mem_singleton, forall_eq]
    intro earlier hearlier heq
    exact hid (heq ▸ List.mem_map_of_mem hearlier)
  · intro x hx
    rcases List.mem_append.mp hx with hx | hx
    · exact h.present x hx
    · rwa [List.mem_singleton.mp hx]

lemma scanItem_checked {items : List DeliveryItem} {b : Bool} {raw : Json} {listing : Listing} (hi : Checked now items)
    (h : scanItem X F now cutoff (listingOf cutoff items b) raw = .ok listing) :
    ∃ item, deliveryItem X F raw = .ok item ∧ Checked now (items ++ [item]) ∧
      listing = listingOf cutoff (items ++ [item]) (b || item.deliveredAt < cutoff) := by
  simp only [scanItem, Fallible.bind_eq_ok, rejectIf_eq_ok] at h
  obtain ⟨item, hitem, -, horder, -, hid, -, hnow, h⟩ := h
  refine ⟨item, hitem, hi.concat ?_ ?_ (not_lt.mp hnow), ?_⟩
  · intro last hlast
    have hle : ¬ (last.deliveredAt < item.deliveredAt ∨
        last.deliveredAt = item.deliveredAt ∧ last.apiDeliveryId < item.apiDeliveryId) :=
      fun hlt => horder ⟨(last.deliveredAt, last.apiDeliveryId), by simp [listingOf, Option.mem_def.mp hlast], hlt⟩
    simp only [not_or, not_and, not_lt] at hle
    simp only [notAfter, decide_eq_true_eq]
    rcases hle.1.lt_or_eq with hlt | heq
    · exact .inl hlt
    · exact .inr ⟨heq, hle.2 heq.symm⟩
  · simpa [listingOf] using hid
  · by_cases hlt : item.deliveredAt < cutoff
    · rw [if_pos hlt, Fallible.pure_eq_ok] at h
      simp [← h, listingOf, hlt]
    · rw [if_neg hlt, Fallible.pure_eq_ok] at h
      simp [← h, listingOf, hlt, not_lt.mp hlt]

lemma foldlM_checked {raws : List Json} {items : List DeliveryItem} {b : Bool} {listing : Listing}
    (hi : Checked now items)
    (h : raws.foldlM (scanItem X F now cutoff) (listingOf cutoff items b) = .ok listing) :
    ∃ more, raws.mapM (deliveryItem X F) = .ok more ∧ Checked now (items ++ more) ∧
      listing = listingOf cutoff (items ++ more) (b || more.any fun item => item.deliveredAt < cutoff) := by
  induction raws generalizing items b with
  | nil =>
    obtain rfl := Fallible.pure_eq_ok.mp h
    exact ⟨[], rfl, by simpa using hi, by simp⟩
  | cons raw raws ih =>
    rw [List.foldlM_cons, Fallible.bind_eq_ok] at h
    obtain ⟨middle, hraw, hraws⟩ := h
    obtain ⟨item, hitem, hi', rfl⟩ := scanItem_checked hi hraw
    obtain ⟨more, hmore, hi'', rfl⟩ := ih hi' hraws
    refine ⟨item :: more, ?_, by simpa using hi'', by simp [Bool.or_assoc]⟩
    rw [List.mapM_cons, hitem, hmore]
    rfl

lemma timeOf_item {raw : Json} {item : DeliveryItem} (h : deliveryItem X F raw = .ok item) :
    timeOf X raw = some item.deliveredAt ∧ idOf raw = some item.apiDeliveryId := by
  simp only [deliveryItem, Fallible.bind_eq_ok, rejectIf_eq_ok] at h
  obtain ⟨-, -, id, hid, guid, -, -, -, time, htime, h⟩ := h
  obtain ⟨_, -, -, -, _, -, _, -, _, -, _, -, _, -, _, -, h⟩ := h
  obtain rfl := Fallible.pure_eq_ok.mp h
  exact ⟨by simp [timeOf, htime, Except.toOption], by simp [idOf, hid, Except.toOption]⟩

lemma old_item {raw : Json} {item : DeliveryItem} (h : deliveryItem X F raw = .ok item) :
    old X cutoff raw = decide (item.deliveredAt < cutoff) ∧ recent X cutoff raw = decide (cutoff ≤ item.deliveredAt) := by
  simp [old, recent, (timeOf_item h).1]

lemma any_old {raws : List Json} {items : List DeliveryItem} (h : raws.mapM (deliveryItem X F) = .ok items) :
    raws.any (old X cutoff) = items.any fun item => item.deliveredAt < cutoff := by
  induction raws generalizing items with
  | nil =>
    obtain rfl := Fallible.pure_eq_ok.mp h
    rfl
  | cons raw raws ih =>
    simp only [List.mapM_cons, Fallible.bind_eq_ok, Fallible.pure_eq_ok] at h
    obtain ⟨item, hitem, items, hitems, rfl⟩ := h
    rw [List.any_cons, List.any_cons, ih hitems, (old_item hitem).1]

/-- The items that were read from the recent deliveries are the recent ones of the items. -/
lemma map_recent {raws : List Json} {items : List DeliveryItem} (h : raws.mapM (deliveryItem X F) = .ok items) :
    (raws.filter (recent X cutoff)).map (deliveryItem X F) =
      (items.filter fun item => cutoff ≤ item.deliveredAt).map .ok := by
  induction raws generalizing items with
  | nil =>
    obtain rfl := Fallible.pure_eq_ok.mp h
    rfl
  | cons raw raws ih =>
    simp only [List.mapM_cons, Fallible.bind_eq_ok, Fallible.pure_eq_ok] at h
    obtain ⟨item, hitem, items, hitems, rfl⟩ := h
    have hrecent := (@old_item X F cutoff _ _ hitem).2
    by_cases hle : cutoff ≤ item.deliveredAt
    · simp [hrecent, hle, hitem, ih hitems]
    · simp [hrecent, hle, ih hitems]

lemma Checked.not_faulty {raws : List Json} {items : List DeliveryItem} (hc : Checked now items)
    (h : raws.mapM (deliveryItem X F) = .ok items) : ¬ Faulty X now raws := by
  have hpair : ∀ {a b : Json}, [a, b].Sublist raws → ∃ x y, deliveryItem X F a = .ok x ∧ deliveryItem X F b = .ok y ∧
      [x, y].Sublist items := by
    intro a b hab
    obtain ⟨parsed, hparsed, hsub⟩ := Fallible.mapM_sublist hab h
    simp only [List.mapM_cons, List.mapM_nil, Fallible.bind_eq_ok, Fallible.pure_eq_ok] at hparsed
    obtain ⟨x, hx, -, ⟨y, hy, -, rfl, rfl⟩, rfl⟩ := hparsed
    exact ⟨x, y, hx, hy, hsub⟩
  rintro (⟨hab, hs, ht, hi, hj, hlt⟩ | ⟨hab, hi, hj⟩ | ⟨ha, ht, hlt⟩)
  · obtain ⟨x, y, hx, hy, hsub⟩ := hpair hab
    have hle := List.pairwise_iff_forall_sublist.mp hc.ordered hsub
    obtain ⟨hxt, hxi⟩ := timeOf_item hx
    obtain ⟨hyt, hyi⟩ := timeOf_item hy
    obtain rfl := Option.some.inj (hs.symm.trans hxt)
    obtain rfl := Option.some.inj (ht.symm.trans hyt)
    obtain rfl := Option.some.inj (hi.symm.trans hxi)
    obtain rfl := Option.some.inj (hj.symm.trans hyi)
    simp only [notAfter, decide_eq_true_eq] at hle
    rcases hlt with hlt | ⟨heq, hlt⟩
    · rcases hle with hle | ⟨hle, -⟩
      · exact absurd hlt hle.asymm
      · exact absurd hlt (hle ▸ lt_irrefl _)
    · rcases hle with hle | ⟨-, hle⟩
      · exact absurd hle (heq ▸ lt_irrefl _)
      · omega
  · obtain ⟨x, y, hx, hy, hsub⟩ := hpair hab
    refine List.pairwise_iff_forall_sublist.mp hc.distinct hsub ?_
    exact Option.some.inj ((timeOf_item hx).2.symm.trans (hi.trans (hj.symm.trans (timeOf_item hy).2)))
  · obtain ⟨x, hx, hax⟩ := (Fallible.mapM_eq_ok h).1 _ ha
    obtain rfl := Option.some.inj (ht.symm.trans (timeOf_item hax).1)
    exact absurd hlt (not_lt.mpr (hc.present x hx))

/-- The pages after the window follow an item before the cutoff. -/
lemma window_append (pages : List HookDeliveryPage) :
    ∃ rest, pages = window X cutoff pages ++ rest ∧
      (rest = [] ∨ ∃ raw ∈ itemsOf (window X cutoff pages), old X cutoff raw) := by
  induction pages with
  | nil => exact ⟨[], rfl, .inl rfl⟩
  | cons page pages ih =>
    obtain ⟨rest, hrest, hold⟩ := ih
    by_cases h : page.items.any (old X cutoff)
    · obtain ⟨raw, hraw, hraw'⟩ := List.any_eq_true.mp h
      exact ⟨pages, by simp [window, h], .inr ⟨raw, by simpa [window, h, itemsOf] using hraw, hraw'⟩⟩
    · refine ⟨rest, by simpa [window, h] using hrest, hold.imp_right ?_⟩
      rintro ⟨raw, hraw, hraw'⟩
      refine ⟨raw, ?_, hraw'⟩
      simp only [window, h, itemsOf] at hraw ⊢
      exact List.mem_append_right _ hraw

/-- Of a feed that is newest first, the window has all recent deliveries. -/
lemma NewestFirst.recent_window {pages : List HookDeliveryPage} (h : NewestFirst X (itemsOf pages)) :
    (itemsOf pages).filter (recent X cutoff) = (itemsOf (window X cutoff pages)).filter (recent X cutoff) := by
  obtain ⟨rest, hrest, hold⟩ := @window_append X cutoff pages
  have hitems : itemsOf pages = itemsOf (window X cutoff pages) ++ itemsOf rest := by
    conv_lhs => rw [hrest]
    exact List.flatMap_append
  have hnone : (itemsOf rest).filter (recent X cutoff) = [] := by
    rcases hold with rfl | ⟨raw, hraw, hold⟩
    · rfl
    · refine List.filter_eq_nil_iff.mpr fun later hlater hrecent => ?_
      obtain ⟨s, hs, hlt⟩ := (Option.any_eq_true _ _).mp hold
      obtain ⟨t, ht, hle⟩ := (Option.any_eq_true _ _).mp hrecent
      have hordered := h.ordered
      rw [hitems, List.pairwise_append] at hordered
      have hst := hordered.2.2 raw hraw later hlater s t hs ht
      simp only [decide_eq_true_eq] at hlt hle
      rcases hst with hst | ⟨hst, -⟩
      · exact absurd (hst.trans hlt) (not_lt.mpr hle)
      · exact absurd (hst ▸ hlt) (not_lt.mpr hle)
  rw [hitems, List.filter_append, hnone, List.append_nil]

/-- What a listing that is returned has read, from any page on. -/
lemma listPages_checked {n : Nat} {cursor : Option String} {items out : List DeliveryItem} {b : Bool}
    {s s' : PollerState} (hi : Checked now items)
    (h : Exec (server page) () (listPages X F now cutoff n cursor (listingOf cutoff items b)) s s' (.ok out)) :
    ∃ more, (itemsOf (window X cutoff (pagesFrom page n cursor))).mapM (deliveryItem X F) = .ok more ∧
      Checked now (items ++ more) ∧ out = (items ++ more).filter (fun item => cutoff ≤ item.deliveredAt) ∧
      ∀ m, n ≤ m → window X cutoff (pagesFrom page m cursor) = window X cutoff (pagesFrom page n cursor) := by
  induction n generalizing cursor items b with
  | zero => simp [listPages, reject] at h
  | succ n ih =>
    rw [listPages, exec_bind] at h
    rcases h with ⟨s₁, listed, hlisted, h⟩ | ⟨e, -, he⟩
    swap
    · cases he
    rw [exec_perform] at hlisted
    obtain ⟨rfl, ⟨failure, hfailure⟩ | hpage⟩ := hlisted
    · cases hfailure
    obtain rfl := Except.ok.inj hpage
    rw [exec_bind] at h
    rcases h with ⟨s₂, listing, hscan, h⟩ | ⟨e, -, he⟩
    swap
    · cases he
    obtain ⟨rfl, hok⟩ := exec_ofExcept.mp hscan
    obtain ⟨more, hmore, hi', rfl⟩ := foldlM_checked hi hok.symm
    have hold := @any_old X F cutoff _ _ hmore
    have hlisting : (listingOf cutoff (items ++ more) (false || more.any fun item => item.deliveredAt < cutoff)).pageHasOld =
        (page cursor).items.any (old X cutoff) := by
      rw [hold]
      rfl
    rw [hlisting] at h
    cases hany : (page cursor).items.any (old X cutoff) with
    | true =>
      rw [if_pos (.inr hany)] at h
      obtain ⟨rfl, hout⟩ := exec_pure.mp h
      have hwindow : ∀ m, n + 1 ≤ m → window X cutoff (pagesFrom page m cursor) = [page cursor] := by
        intro m hm
        obtain ⟨m, rfl⟩ := Nat.exists_eq_succ_of_ne_zero (show m ≠ 0 by omega)
        simp [pagesFrom, window, hany]
      refine ⟨more, ?_, hi', Except.ok.inj hout, fun m hm => (hwindow m hm).trans (hwindow _ le_rfl).symm⟩
      simpa [hwindow _ le_rfl, itemsOf] using hmore
    | false =>
      cases hnext : (page cursor).nextCursor with
      | none =>
        rw [if_pos (.inl hnext)] at h
        obtain ⟨rfl, hout⟩ := exec_pure.mp h
        have hwindow : ∀ m, n + 1 ≤ m → window X cutoff (pagesFrom page m cursor) = [page cursor] := by
          intro m hm
          obtain ⟨m, rfl⟩ := Nat.exists_eq_succ_of_ne_zero (show m ≠ 0 by omega)
          simp [pagesFrom, window, hany, hnext]
        refine ⟨more, ?_, hi', Except.ok.inj hout, fun m hm => (hwindow m hm).trans (hwindow _ le_rfl).symm⟩
        simpa [hwindow _ le_rfl, itemsOf] using hmore
      | some next =>
        rw [if_neg (by simp [hnext, hany])] at h
        by_cases hn : n = 0
        · simp [hn, reject] at h
        rw [if_neg hn, hnext] at h
        obtain ⟨later, hlater, hi'', hout, hrest⟩ := ih hi' h
        have hwindow : ∀ m, n + 1 ≤ m → window X cutoff (pagesFrom page m cursor) =
            page cursor :: window X cutoff (pagesFrom page n (some next)) := by
          intro m hm
          obtain ⟨m, rfl⟩ := Nat.exists_eq_succ_of_ne_zero (show m ≠ 0 by omega)
          simp [pagesFrom, window, hany, hnext, hrest m (by omega)]
        refine ⟨more ++ later, ?_, by simpa using hi'', by simpa using hout,
          fun m hm => (hwindow m hm).trans (hwindow _ le_rfl).symm⟩
        rw [hwindow _ le_rfl, itemsOf, List.flatMap_cons, Fallible.mapM_append_eq_ok]
        exact ⟨more, later, hmore, hlater, rfl⟩

lemma window_length (n : Nat) (cursor : Option String) : (window X cutoff (pagesFrom page n cursor)).length ≤ n := by
  induction n generalizing cursor with
  | zero => simp [pagesFrom, window]
  | succ n ih =>
    rw [pagesFrom, window]
    split
    · simp
    · cases (page cursor).nextCursor with
      | none => simp [window]
      | some next => simpa using ih (some next)

lemma collect_checked {state state' : PollerState} {items : List DeliveryItem}
    (h : Exec (server page) () (collect X F P now) state state' (.ok items)) :
    ∃ cutoff more, cutoffOf X P now state = .ok cutoff ∧
      (itemsOf (window X cutoff (pagesFrom page maxPages none))).mapM (deliveryItem X F) = .ok more ∧
      Checked now more ∧ items = more.filter (fun item => cutoff ≤ item.deliveredAt) ∧
      ∀ n, maxPages ≤ n → window X cutoff (pagesFrom page n none) = window X cutoff (pagesFrom page maxPages none) := by
  rw [collect, exec_bind] at h
  rcases h with ⟨s₁, _, hcycle, h⟩ | ⟨e, -, he⟩
  swap
  · cases he
  obtain ⟨rfl, -⟩ := exec_perform.mp hcycle
  rw [exec_bind] at h
  rcases h with ⟨s₂, cutoff, hcutoff, h⟩ | ⟨e, -, he⟩
  swap
  · cases he
  rw [Polling.cutoff, exec_bind] at hcutoff
  rcases hcutoff with ⟨s₃, state₀, hstate, hcutoff⟩ | ⟨e, -, he⟩
  swap
  · cases he
  obtain ⟨rfl, ⟨failure, hfailure⟩ | hread⟩ := exec_perform.mp hstate
  · cases hfailure
  obtain rfl := Except.ok.inj hread
  obtain ⟨rfl, hcutoff⟩ := exec_ofExcept.mp hcutoff
  obtain ⟨more, hmore, hchecked, hitems, hrest⟩ :=
    @listPages_checked X F now cutoff page _ _ [] _ false _ _ checked_nil h
  exact ⟨cutoff, more, hcutoff.symm, hmore, hchecked, hitems, hrest⟩

/-- The feed is read from its newest item down to the cutoff. A listing that is returned has each recent delivery of all
pages once, in the order of the feed, and it is not returned where more pages are needed or a fault was read. -/
theorem collect_complete {state state' : PollerState} {out : Except Failure (List DeliveryItem)}
    (hrun : Exec (server page) () (collect X F P now) state state' out) :
    (∀ items, out = .ok items → (∀ n, NewestFirst X (itemsOf (pagesFrom page n none))) →
      ∃ cutoff, cutoffOf X P now state = .ok cutoff ∧ (items.map (·.apiDeliveryId)).Nodup ∧
        ∀ n, maxPages ≤ n →
          items.map .ok = ((itemsOf (pagesFrom page n none)).filter (recent X cutoff)).map (deliveryItem X F)) ∧
    ∀ cutoff, cutoffOf X P now state = .ok cutoff →
      maxPages < (window X cutoff (pagesFrom page (maxPages + 1) none)).length ∨
        Faulty X now (itemsOf (window X cutoff (pagesFrom page maxPages none))) →
      ∃ failure, out = .error failure := by
  cases out with
  | error failure => exact ⟨fun _ h _ => (by cases h), fun _ _ _ => ⟨failure, rfl⟩⟩
  | ok items =>
    obtain ⟨cutoff, more, hcutoff, hmore, hchecked, rfl, hrest⟩ := collect_checked hrun
    refine ⟨fun items hitems hfeed => ⟨cutoff, hcutoff, ?_, fun n hn => ?_⟩, fun cutoff' hcutoff' hbad => ?_⟩
    · obtain rfl := Except.ok.inj hitems
      exact List.pairwise_map.mpr (hchecked.distinct.sublist List.filter_sublist)
    · obtain rfl := Except.ok.inj hitems
      rw [(hfeed n).recent_window, hrest n hn, map_recent hmore]
    · obtain rfl := Except.ok.inj (hcutoff.symm.trans hcutoff')
      rcases hbad with hlong | hfaulty
      · rw [hrest (maxPages + 1) (by omega)] at hlong
        exact absurd hlong (not_lt.mpr (window_length maxPages none))
      · exact absurd hfaulty (hchecked.not_faulty hmore)

end

namespace Sample

/-- Two pages with one delivery each, the newer one first. -/
def pageOf : Option String → HookDeliveryPage
  | none => ⟨[summaryOf 8 secondGuid "2026-07-16T20:00:10Z"], some "older"⟩
  | some _ => ⟨[summaryOf 7 firstGuid "2026-07-16T20:00:00Z"], none⟩

def serve : {β : Type} → Effect β → PollerState → Option (PollerState × Except Failure β)
  | _, .cycle, s => some (s, .ok ())
  | _, .pollerState, s => some (s, .ok s)
  | _, .listDeliveries cursor, s => some (s, .ok (pageOf cursor))
  | _, _, _ => none

lemma serve_answers : Answers (server pageOf) () serve := by
  intro γ e s s' r h
  cases e with
  | cycle =>
    cases h
    exact ⟨rfl, .inr trivial⟩
  | pollerState =>
    cases h
    exact ⟨rfl, .inr rfl⟩
  | listDeliveries cursor =>
    cases h
    exact ⟨rfl, .inr rfl⟩
  | _ => cases h

lemma serve_view :
    ((collect externals parsing poller (start + minute)).interp serve .initial).map
      (fun out => out.2.toOption.map fun items => items.map (·.apiDeliveryId)) = some (some [8, 7]) := by
  decide +kernel

lemma pages_ordered (n : Nat) : NewestFirst externals (itemsOf (pagesFrom pageOf n none)) := by
  have hpair : NewestFirst externals [summaryOf 8 secondGuid "2026-07-16T20:00:10Z",
      summaryOf 7 firstGuid "2026-07-16T20:00:00Z"] := by
    obtain ⟨hs, hi⟩ := timeOf_item second_item
    obtain ⟨ht, hj⟩ := timeOf_item first_item
    refine ⟨List.pairwise_pair.mpr fun s t hs' ht' => ?_, List.pairwise_pair.mpr fun i j hi' hj' => ?_⟩
    · obtain rfl := Option.some.inj (hs.symm.trans hs')
      obtain rfl := Option.some.inj (ht.symm.trans ht')
      exact .inl (by decide)
    · obtain rfl := Option.some.inj (hi.symm.trans hi')
      obtain rfl := Option.some.inj (hj.symm.trans hj')
      decide
  match n with
  | 0 => exact ⟨.nil, .nil⟩
  | 1 => exact ⟨List.pairwise_singleton _ _, List.pairwise_singleton _ _⟩
  | n + 2 => exact hpair

theorem collect_complete_two_pages :
    ∃ state items, Exec (server pageOf) () (collect externals parsing poller (start + minute)) .initial state (.ok items) ∧
      items.map (·.apiDeliveryId) = [8, 7] ∧ ∃ cutoff, ∀ n, maxPages ≤ n → items.map .ok =
        ((itemsOf (pagesFrom pageOf n none)).filter (recent externals cutoff)).map (deliveryItem externals parsing) := by
  obtain ⟨⟨state, out⟩, hinterp, hview⟩ := Option.map_eq_some_iff.mp serve_view
  obtain ⟨items, hitems, hids⟩ := Option.map_eq_some_iff.mp hview
  obtain rfl := Fallible.toOption_eq_some hitems
  have hrun := exec_interp serve_answers hinterp
  obtain ⟨cutoff, -, -, hcomplete⟩ := (collect_complete hrun).1 items rfl pages_ordered
  exact ⟨state, items, hrun, hids, cutoff, hcomplete⟩

end Sample

end PlatformGitops.CrossAi.Polling
