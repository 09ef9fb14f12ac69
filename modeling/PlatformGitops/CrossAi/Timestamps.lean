import PlatformGitops.CrossAi.DeliveryPoller
import PlatformGitops.CrossAi.IntentStore.Calls
import PlatformGitops.CrossAi.IntentStore.Stages
import PlatformGitops.Library.IsoReading

/-! The stored timestamps are compared as texts, in the database and in the service: the order of the texts is the
order of the instants, and a text is read back as its instant. -/

namespace PlatformGitops.CrossAi

open Library Library.Calendar

section Civil

variable {doe yoe : Int}

lemma century_of_era (h0 : 0 ≤ doe) (h : doe < 146096)
    (hyear : (doe - doe / 1460 + doe / 36524 - doe / 146096) / 365 = yoe) :
    0 ≤ yoe ∧ yoe ≤ 399 ∧ yoe / 100 = doe / 36524 ∧ doe / 146096 = 0 := by
  obtain ⟨q, hq⟩ : ∃ q, doe / 36524 = q := ⟨_, rfl⟩
  obtain ⟨hq0, hq3⟩ : 0 ≤ q ∧ q ≤ 3 := by omega
  have hlast : doe / 146096 = 0 := by omega
  rw [hlast, hq] at hyear
  rw [hq]
  interval_cases q <;> omega

lemma days_of_era (h0 : 0 ≤ doe) (h : doe < 146096)
    (hyear : (doe - doe / 1460 + doe / 36524 - doe / 146096) / 365 = yoe) :
    365 * yoe + yoe / 4 - yoe / 100 ≤ doe ∧ doe ≤ 365 * yoe + yoe / 4 - yoe / 100 + 365 := by
  obtain ⟨hy0, hy399, hcentury, hlast⟩ := century_of_era h0 h hyear
  obtain ⟨q, hq⟩ : ∃ q, doe / 36524 = q := ⟨_, rfl⟩
  obtain ⟨hq0, hq3⟩ : 0 ≤ q ∧ q ≤ 3 := by omega
  rw [hlast, hq] at hyear
  rw [hq] at hcentury
  rw [hcentury]
  interval_cases q <;> omega

/-- Only a leap year has a last day of February. -/
lemma leap_of_era (h0 : 0 ≤ doe) (h : doe < 146096)
    (hyear : (doe - doe / 1460 + doe / 36524 - doe / 146096) / 365 = yoe)
    (hday : doe = 365 * yoe + yoe / 4 - yoe / 100 + 365) : (yoe + 1) % 4 = 0 ∧ (yoe + 1) % 100 ≠ 0 := by
  obtain ⟨hy0, hy399, hcentury, hlast⟩ := century_of_era h0 h hyear
  obtain ⟨q, hq⟩ : ∃ q, doe / 36524 = q := ⟨_, rfl⟩
  obtain ⟨a, ha⟩ : ∃ a, yoe / 4 = a := ⟨_, rfl⟩
  obtain ⟨k, hk⟩ : ∃ k, doe / 1460 = k := ⟨_, rfl⟩
  rw [hlast, hq, hk] at hyear
  rw [ha, hcentury, hq] at hday
  rw [hq] at hcentury
  have hak : a < k := by omega
  have hlastyear : yoe = 4 * a + 3 := by omega
  exact ⟨by omega, by omega⟩

/-- A year of an era that starts in March. -/
lemma year_of_era (h0 : 0 ≤ doe) (h : doe < 146097)
    (hyear : (doe - doe / 1460 + doe / 36524 - doe / 146096) / 365 = yoe) :
    (0 ≤ yoe ∧ yoe ≤ 399) ∧ 365 * yoe + yoe / 4 - yoe / 100 ≤ doe ∧ doe ≤ 365 * yoe + yoe / 4 - yoe / 100 + 365 ∧
      (doe = 365 * yoe + yoe / 4 - yoe / 100 + 365 →
        (yoe + 1) % 4 = 0 ∧ ((yoe + 1) % 100 ≠ 0 ∨ (yoe + 1) % 400 = 0)) := by
  have hday : doe < 146096 ∨ doe = 146096 := by omega
  rcases hday with h | rfl
  · obtain ⟨hy0, hy399, -⟩ := century_of_era h0 h hyear
    obtain ⟨hlow, hhigh⟩ := days_of_era h0 h hyear
    exact ⟨⟨hy0, hy399⟩, hlow, hhigh, fun hday => (leap_of_era h0 h hyear hday).imp_right .inl⟩
  · obtain rfl : yoe = 399 := by omega
    decide

/-- The March-based year, and the days of it that are over. -/
lemma civil_eq (days : Int) :
    ∃ year doy mp : Int, (0 ≤ doy ∧ doy ≤ 365) ∧
      (doy = 365 → (year + 1) % 4 = 0 ∧ ((year + 1) % 100 ≠ 0 ∨ (year + 1) % 400 = 0)) ∧
      days + 719468 = 365 * year + year / 4 - year / 100 + year / 400 + doy ∧ mp = (5 * doy + 2) / 153 ∧
      civil days = (year + (if (if mp < 10 then mp + 3 else mp - 9) ≤ 2 then 1 else 0),
        if mp < 10 then mp + 3 else mp - 9, doy - (153 * mp + 2) / 5 + 1) := by
  obtain ⟨doe, hdoe⟩ : ∃ doe, (days + 719468) % 146097 = doe := ⟨_, rfl⟩
  obtain ⟨era, hera⟩ : ∃ era, (days + 719468) / 146097 = era := ⟨_, rfl⟩
  obtain ⟨yoe, hyoe⟩ : ∃ yoe, (doe - doe / 1460 + doe / 36524 - doe / 146096) / 365 = yoe := ⟨_, rfl⟩
  obtain ⟨⟨hy0, hy399⟩, hlow, hhigh, hleap⟩ := year_of_era (by omega) (by omega) hyoe
  have hquarter : (yoe + era * 400) / 4 = yoe / 4 + era * 100 := by omega
  have hcentury : (yoe + era * 400) / 100 = yoe / 100 + era * 4 := by omega
  have hera' : (yoe + era * 400) / 400 = era := by omega
  refine ⟨yoe + era * 400, doe - (365 * yoe + yoe / 4 - yoe / 100), _, ⟨by omega, by omega⟩, fun h => ?_, ?_, rfl, ?_⟩
  · have hyear := hleap (by omega)
    omega
  · rw [hquarter, hcentury, hera']
    omega
  · simp only [civil, hdoe, hera, hyoe]

/-- The date of a day of a March-based year. -/
lemma march_date {n p mp year month : Nat} (hp : p ≤ 365) (hleap : p = 365 → isLeap (n + 1) = true)
    (hmp : (5 * p + 2) / 153 = mp) (hmonth : (if mp < 10 then mp + 3 else mp - 9) = month)
    (hyear : n + (if month ≤ 2 then 1 else 0) = year) (hpos : 1 ≤ year) (hlast : year ≤ 9999) :
    ValidDate year month (p - (153 * mp + 2) / 5 + 1) ∧
      ordinal year month (p - (153 * mp + 2) / 5 + 1) + 305 = daysBeforeYear (n + 1) + p := by
  have hmp11 : mp ≤ 11 := by omega
  by_cases hspring : mp < 10
  · rw [if_pos hspring] at hmonth
    rw [if_neg (by omega), Nat.add_zero] at hyear
    subst hyear hmonth
    have hstep := daysBeforeYear_succ hpos
    refine ⟨⟨⟨hpos, hlast⟩, ⟨by omega, by omega⟩, by omega, ?_⟩, ?_⟩
    · interval_cases mp <;> simp [daysInMonth] <;> omega
    · rw [hstep, ordinal]
      interval_cases mp <;> simp [daysBeforeMonth] <;> split <;> omega
  · rw [if_neg hspring] at hmonth
    rw [if_pos (by omega)] at hyear
    subst hyear hmonth
    refine ⟨⟨⟨hpos, hlast⟩, ⟨by omega, by omega⟩, by omega, ?_⟩, ?_⟩
    · interval_cases mp
      · simp [daysInMonth]
        omega
      · simp only [daysInMonth]
        by_cases hlastday : p = 365
        · simp [hleap hlastday, hlastday]
        · simp
          split <;> omega
    · interval_cases mp <;> simp [ordinal, daysBeforeMonth] <;> omega

/-- A day number counted from the epoch is the day number of its calendar date. -/
lemma civil_ordinal {days : Int} (hpos : 1 ≤ (civil days).1) (hlast : (civil days).1 ≤ 9999) :
    ∃ year month day : Nat, civil days = (↑year, ↑month, ↑day) ∧ ValidDate year month day ∧
      (ordinal year month day : Int) = days + 719163 := by
  obtain ⟨y, doy, mp, ⟨hdoy0, hdoy365⟩, hleap, hdays, hmp, hcivil⟩ := civil_eq days
  rw [hcivil] at hpos hlast ⊢
  obtain ⟨p, rfl⟩ := Int.eq_ofNat_of_zero_le hdoy0
  obtain ⟨k, rfl⟩ := Int.eq_ofNat_of_zero_le (show 0 ≤ mp by omega)
  obtain ⟨n, rfl⟩ := Int.eq_ofNat_of_zero_le (show 0 ≤ y by split at hpos <;> omega)
  obtain ⟨month, hmonth⟩ : ∃ month, (if k < 10 then k + 3 else k - 9) = month := ⟨_, rfl⟩
  obtain ⟨year, hyear⟩ : ∃ year, n + (if month ≤ 2 then 1 else 0) = year := ⟨_, rfl⟩
  have hcast : (if (k : Int) < 10 then (k : Int) + 3 else k - 9) = month := by
    rw [← hmonth]
    split <;> split <;> omega
  have hcast' : (n : Int) + (if (month : Int) ≤ 2 then 1 else 0) = year := by
    rw [← hyear]
    split <;> split <;> omega
  rw [hcast, hcast'] at hpos hlast ⊢
  have hisLeap : p = 365 → isLeap (n + 1) = true := by
    intro hp
    have hy := hleap (by omega)
    simp only [isLeap, decide_eq_true_eq]
    omega
  obtain ⟨hvalid, hordinal⟩ := march_date (by omega) hisLeap (by omega) hmonth hyear (by omega) (by omega)
  refine ⟨year, month, _, ?_, hvalid, ?_⟩
  · have hfirst : (153 * k + 2) / 5 ≤ p := by omega
    simp only [Prod.mk.injEq, true_and]
    omega
  · have hyears : (daysBeforeYear (n + 1) : Int) = 365 * n + n / 4 - n / 100 + n / 400 := by
      simp only [daysBeforeYear, Nat.add_sub_cancel]
      omega
    omega

end Civil

section Text

lemma toList_toString (n : Nat) : (toString (n : Int)).toList = Nat.toDigits 10 n := by
  show (toString n).toList = _
  rw [Nat.toString_eq_repr, Nat.toList_repr]

lemma toList_pad2 {n : Nat} (h : n < 100) : (pad2 n).toList = Decimal.padded 2 n := by
  have hlength : (Nat.toDigits 10 n).length ≤ 2 := (Nat.length_toDigits_le_iff (by decide) (by decide)).mpr h
  have hpos : 0 < (Nat.toDigits 10 n).length := Nat.length_toDigits_pos
  have hone : (Nat.toDigits 10 n).length ≤ 1 ↔ n < 10 := Nat.length_toDigits_le_iff (by decide) (by decide)
  have hzero : "0".toList = ['0'] := by decide
  by_cases hn : n < 10
  · have hwidth : 2 - (Nat.toDigits 10 n).length = 1 := by
      have hle := hone.mpr hn
      omega
    rw [pad2, if_pos (by omega), String.toList_append, hzero, toList_toString, Decimal.padded, hwidth]
    rfl
  · have hwidth : 2 - (Nat.toDigits 10 n).length = 0 := by
      have hlt := mt hone.mp hn
      omega
    rw [pad2, if_neg (by omega), toList_toString, Decimal.padded, hwidth]
    rfl

lemma toList_year {year : Nat} (h : 1000 ≤ year) (h' : year ≤ 9999) :
    (toString (year : Int)).toList = Decimal.padded 4 year := by
  have hle : (Nat.toDigits 10 year).length ≤ 4 := (Nat.length_toDigits_le_iff (by decide) (by decide)).mpr (by omega)
  have hgt : ¬ (Nat.toDigits 10 year).length ≤ 3 := by
    rw [Nat.length_toDigits_le_iff (by decide) (by decide)]
    omega
  have hwidth : 4 - (Nat.toDigits 10 year).length = 0 := by omega
  rw [toList_toString, Decimal.padded, hwidth]
  rfl

def FourDigitYear (t : Datetime) : Prop :=
  1000 ≤ (civil (t / second / 86400)).1 ∧ (civil (t / second / 86400)).1 ≤ 9999

instance (t : Datetime) : Decidable (FourDigitYear t) := inferInstanceAs (Decidable (_ ∧ _))

lemma Stamp.instant_div (s : Stamp) : s.instant / second = s.seconds :=
  Int.mul_ediv_cancel s.seconds (by decide)

/-- The seconds between the start of the year 1 and the epoch. -/
def epochSeconds : Int := 62135596800

lemma Stamp.exists_civilTime {s : Stamp} (h : FourDigitYear s.instant) :
    ∃ t : CivilTime, t.Valid ∧ s.text.toList = t.text ++ ['Z'] ∧ (t.seconds : Int) = s.seconds + epochSeconds := by
  rw [FourDigitYear, s.instant_div] at h
  obtain ⟨year, month, day, hcivil, hvalid, hordinal⟩ := civil_ordinal (by omega) h.2
  rw [hcivil] at h
  obtain ⟨time, htime⟩ := Int.eq_ofNat_of_zero_le (Int.emod_nonneg s.seconds (by decide : (86400 : Int) ≠ 0))
  obtain ⟨-, ⟨-, hmonth⟩, hday⟩ := id hvalid
  have hshort : daysInMonth year month ≤ 31 := daysInMonth_le hmonth
  refine ⟨⟨year, month, day, time / 3600, time / 60 % 60, time % 60⟩, ⟨hvalid, ?_, ?_, ?_⟩, ?_, ?_⟩
  · show time / 3600 < 24
    omega
  · show time / 60 % 60 < 60
    omega
  · show time % 60 < 60
    omega
  · have hyear := toList_year (show 1000 ≤ year by omega) (by omega)
    have hhour : (time : Int) / 3600 = (time / 3600 : Nat) := rfl
    have hminute : (time : Int) / 60 % 60 = (time / 60 % 60 : Nat) := rfl
    have hsecond : (time : Int) % 60 = (time % 60 : Nat) := rfl
    simp only [Stamp.text, hcivil, htime, String.toList_append, hhour, hminute, hsecond,
      hyear, toList_pad2 (show month < 100 by omega), toList_pad2 (show day < 100 by omega),
      toList_pad2 (show time / 3600 < 100 by omega), toList_pad2 (show time / 60 % 60 < 100 by omega),
      toList_pad2 (show time % 60 < 100 by omega)]
    simp [CivilTime.text]
  · have hpos : 1 ≤ ordinal year month day := by
      unfold ordinal
      omega
    have hsum : s.seconds = s.seconds / 86400 * 86400 + s.seconds % 86400 := (Int.ediv_mul_add_emod _ _).symm
    simp only [CivilTime.seconds, epochSeconds]
    omega

lemma Stamp.text_lt_iff {s s' : Stamp} (h : FourDigitYear s.instant) (h' : FourDigitYear s'.instant) :
    s.text < s'.text ↔ s.seconds < s'.seconds := by
  obtain ⟨t, ht, htext, hseconds⟩ := s.exists_civilTime h
  obtain ⟨t', ht', htext', hseconds'⟩ := s'.exists_civilTime h'
  rw [String.lt_iff_toList_lt, htext, htext', append_lt_append_iff (ht.length_text.trans ht'.length_text.symm),
    CivilTime.text_lt_iff ht ht']
  omega

lemma Stamp.text_le_iff {s s' : Stamp} (h : FourDigitYear s.instant) (h' : FourDigitYear s'.instant) :
    s.text ≤ s'.text ↔ s.seconds ≤ s'.seconds := by
  rw [← not_lt, ← not_lt, Stamp.text_lt_iff h' h]

lemma Stamp.empty_lt_text {s : Stamp} (h : FourDigitYear s.instant) : "" < s.text := by
  obtain ⟨t, -, htext, -⟩ := s.exists_civilTime h
  rw [String.lt_iff_toList_lt, htext, String.toList_empty]
  cases t.text <;> exact List.nil_lt_cons _ _

end Text

section Comparisons

open IntentStore Ledger

variable (X : Externals) (field : String) {t u : Datetime} {s s' : Stamp}

/-- The reading of a text, with the instant counted from the epoch. -/
def fromisoformat (text : String) : Option IsoDatetime :=
  (fromIsoFormat text.toList).map fun (time, offset) => ⟨time - epochSeconds * second, offset⟩

lemma parseUtc_text (h : FourDigitYear s.instant) :
    parseUtc { X with fromisoformat } (.str s.text) field = .ok s.instant := by
  obtain ⟨t, ht, htext, hseconds⟩ := s.exists_civilTime h
  have hoffset : "+00:00".toList = ['+', '0', '0', ':', '0', '0'] := by decide
  have hends : endsWithZ s.text = true := by simp [endsWithZ, htext]
  have hread : fromisoformat (String.ofList s.text.toList.dropLast ++ "+00:00") = some ⟨s.instant, some 0⟩ := by
    rw [fromisoformat, String.toList_append, String.toList_ofList, htext, List.dropLast_concat, hoffset,
      ht.fromIsoFormat_text, Option.map_some, Stamp.instant]
    simp only [second, epochSeconds, Option.some.injEq, IsoDatetime.mk.injEq, and_true] at hseconds ⊢
    show ((t.seconds * 1000000 : Nat) : Int) - 62135596800 * 1000000 = s.seconds * 1000000
    omega
  simp only [parseUtc, hends, if_true, hread]

/-- The rows that the statement selects: the stored text of the deadline is compared with the text of the present. -/
def overdueRowsByText (timestamp : Stamp) (db : Db) : List StageRow :=
  (db.stages.rows.filter (fun r => (r.state = .reserved ∨ r.state = .approvedPendingOutcome) ∧
    ∃ e ∈ r.reservationExpiresAt, e.text ≤ timestamp.text)).insertionSort (rowLe · ·)

/-- The current mark as it is compared: a missing text is the empty one. -/
def currentMark (state : PollerState) : String × Int :=
  ((state.highWaterDeliveredAt.map Stamp.text).getD "", state.highWaterDeliveryId.getD 0)

/-- The order of pairs. -/
def pairLe (p q : String × Int) : Prop := p.1 < q.1 ∨ p.1 = q.1 ∧ p.2 ≤ q.2

lemma utcSeconds_year (h : FourDigitYear t) : FourDigitYear (utcSeconds t).instant := by
  rwa [FourDigitYear, Stamp.instant_div]

lemma overdueRowsByText_eq {db : Db} (hs : FourDigitYear s.instant)
    (hdb : ∀ r ∈ db.stages.rows, ∀ e ∈ r.reservationExpiresAt, FourDigitYear e.instant) :
    overdueRowsByText s db = overdueRows s db := by
  unfold overdueRowsByText overdueRows
  congr 1
  refine List.filter_congr fun r hr => decide_eq_decide.mpr (and_congr_right fun _ => ?_)
  refine exists_congr fun e => and_congr_right fun he => ?_
  exact Stamp.text_le_iff (hdb r hr e he) hs

lemma pairLe_iff {state : PollerState} {apiDeliveryId : Int} (hs : FourDigitYear s.instant)
    (hstate : ∀ s ∈ state.highWaterDeliveredAt, FourDigitYear s.instant) :
    pairLe (currentMark state) (s.text, apiDeliveryId) ↔ markLe state.mark (some s, apiDeliveryId) := by
  unfold pairLe currentMark PollerState.mark
  cases hmark : state.highWaterDeliveredAt with
  | none => exact iff_of_true (.inl (Stamp.empty_lt_text hs)) trivial
  | some m =>
    have hm := hstate m hmark
    have heq : m.text = s.text ↔ m.seconds = s.seconds := by
      rw [le_antisymm_iff, Stamp.text_le_iff hm hs, Stamp.text_le_iff hs hm, ← le_antisymm_iff]
    simp only [Option.map_some, Option.getD_some, markLe, Stamp.text_lt_iff hm hs, heq]

theorem timestamps_order_like_instants (ht : FourDigitYear t) (hu : FourDigitYear u) :
    ((utcSeconds t).text ≤ (utcSeconds u).text ↔ t / second * second ≤ u / second * second) ∧
      parseUtc { X with fromisoformat } (.str (utcSeconds t).text) field = .ok (t / second * second) ∧
      (∀ db : Db, (∀ r ∈ db.stages.rows, ∀ e ∈ r.reservationExpiresAt, FourDigitYear e.instant) →
        overdueRowsByText (utcSeconds t) db = overdueRows (utcSeconds t) db) ∧
      ∀ (state : PollerState) (apiDeliveryId : Int), (∀ s ∈ state.highWaterDeliveredAt, FourDigitYear s.instant) →
        (pairLe (currentMark state) ((utcSeconds t).text, apiDeliveryId) ↔
          markLe state.mark (some (utcSeconds t), apiDeliveryId)) := by
  have ht' := utcSeconds_year ht
  refine ⟨?_, parseUtc_text X field ht', fun db hdb => overdueRowsByText_eq ht' hdb,
    fun state apiDeliveryId hstate => pairLe_iff ht' hstate⟩
  rw [Stamp.text_le_iff ht' (utcSeconds_year hu)]
  exact (mul_le_mul_iff_left₀ (by decide : (0 : Int) < second)).symm

theorem timestamps_order_leap_day : (utcSeconds (1709251199 * second + 999999)).text ≤ (utcSeconds (1709251200 * second)).text :=
  (timestamps_order_like_instants IntentStore.Sample.externals "createdAt" (by decide) (by decide)).1.mpr (by decide)

end Comparisons

end PlatformGitops.CrossAi
