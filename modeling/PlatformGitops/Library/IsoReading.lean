import Mathlib.Data.String.Basic
import Mathlib.Tactic.IntervalCases
import PlatformGitops.Library.Calendar

/-! Reading of dates and times in the notations of ISO 8601, and their order. -/

namespace PlatformGitops.Library.Calendar

open Decimal

section Dates

def daysInMonth (year month : Nat) : Nat :=
  ([0, 31, 28, 31, 30, 31, 30, 31, 31, 30, 31, 30, 31][month]?).getD 0 + if month = 2 ∧ isLeap year then 1 else 0

def ordinal (year month day : Nat) : Nat := daysBeforeYear year + daysBeforeMonth year month + day

def ValidDate (year month day : Nat) : Prop :=
  (1 ≤ year ∧ year ≤ 9999) ∧ (1 ≤ month ∧ month ≤ 12) ∧ 1 ≤ day ∧ day ≤ daysInMonth year month

instance (year month day : Nat) : Decidable (ValidDate year month day) := inferInstanceAs (Decidable (_ ∧ _))

end Dates

section Reading

def digits? (width : Nat) (s : List Char) : Option Nat :=
  if s.length = width ∧ s.all Char.isDigit then some (Nat.ofDigitChars 10 s 0) else none

/-- The day number of the Monday of the first week of a year. -/
def isoWeek1Monday (year : Nat) : Int :=
  let first : Int := ordinal year 1 1
  let weekday := (first + 6) % 7
  first - weekday + if 3 < weekday then 7 else 0

def isoWeekToOrdinal (year week day : Nat) : Option Nat :=
  let firstWeekday := ordinal year 1 1 % 7
  let longYear := firstWeekday = 4 ∨ (firstWeekday = 3 ∧ isLeap year)
  if (1 ≤ year ∧ year ≤ 9999) ∧ (1 ≤ week ∧ (week < 53 ∨ week = 53 ∧ longYear)) ∧ 1 ≤ day ∧ day < 8 then
    let n := isoWeek1Monday year + (week - 1) * 7 + (day - 1)
    if 1 ≤ n ∧ n ≤ maxOrdinal then some n.toNat else none
  else none

/-- The day number of a date: of a calendar date, or of a day of a week. -/
def readDate (s : List Char) : Option Nat := do
  let year ← digits? 4 (s.take 4)
  let separators := if s[4]? = some '-' then 1 else 0
  let rest := s.drop (4 + separators)
  if rest.head? = some 'W' then
    let week ← digits? 2 ((rest.drop 1).take 2)
    let rest := rest.drop 3
    if rest = [] then isoWeekToOrdinal year week 1
    else if rest.head? = some '-' ↔ separators = 1 then
      isoWeekToOrdinal year week (← digits? 1 ((rest.drop separators).take 1))
    else none
  else
    let month ← digits? 2 (rest.take 2)
    let rest := rest.drop 2
    if rest.head? = some '-' ↔ separators = 1 then
      let day ← digits? 2 ((rest.drop separators).take 2)
      if ValidDate year month day then some (ordinal year month day) else none
    else none

/-- Two digits each, as far as they go, and what stands behind them. -/
def components (separated : Bool) : Nat → List Char → Option (List Nat × List Char)
  | 0, s => some ([], s)
  | more + 1, s => do
    let value ← digits? 2 (s.take 2)
    let rest := s.drop 2
    if rest = [] ∨ more = 0 then pure ([value], rest)
    else
      let rest ← if separated then (if rest.head? = some ':' then some rest.tail else none) else some rest
      let (values, rest) ← components separated more rest
      pure (value :: values, rest)

def fraction : List Char → Option Nat
  | [] => some 0
  | c :: s =>
    if (c = '.' ∨ c = ',') ∧ s ≠ [] ∧ s.all Char.isDigit then
      some (Nat.ofDigitChars 10 (s.take 6) 0 * 10 ^ (6 - s.length))
    else none

/-- Hours, minutes, seconds and microseconds. -/
def readClock (s : List Char) : Option (Nat × Nat × Nat × Nat) := do
  let (values, rest) ← components (s[2]? = some ':') 3 s
  let microsecond ← fraction rest
  pure (values[0]?.getD 0, values[1]?.getD 0, values[2]?.getD 0, microsecond)

def clockTime : Nat × Nat × Nat × Nat → Nat
  | (h, m, s, microsecond) => h * hour + m * minute + s * second + microsecond

def ValidClock : Nat × Nat × Nat × Nat → Prop
  | (h, m, s, _) => h < 24 ∧ m < 60 ∧ s < 60

instance : DecidablePred ValidClock := fun (_, _, _, _) => inferInstanceAs (Decidable (_ ∧ _))

/-- The time of the day and the offset from UTC, where the text names one. -/
def readTime (s : List Char) : Option (Nat × Option Int) := do
  let zonePos := (s.idxOf? '-').or ((s.idxOf? '+').or (s.idxOf? 'Z'))
  let clock ← readClock (s.take (zonePos.getD s.length))
  if ValidClock clock then
    match zonePos with
    | none => pure (clockTime clock, none)
    | some i =>
      if i + 1 = s.length ∧ s[i]? = some 'Z' then pure (clockTime clock, some 0)
      else
        let zone ← readClock (s.drop (i + 1))
        if s.length - (i + 1) ∉ [0, 1, 3] ∧ clockTime zone < day then
          pure (clockTime clock, some ((if s[i]? = some '-' then -1 else 1) * (clockTime zone : Int)))
        else none
  else none

/-- Where the date ends. -/
def dateLength (s : List Char) : Option Nat :=
  let isDigitAt (i : Nat) := (s[i]?.map Char.isDigit).getD false
  if s.length < 7 then none
  else if s.length = 7 then some 7
  else if s[4]? = some '-' then
    if s[5]? = some 'W' then
      if s[8]? = some '-' then (if s.length = 9 then none else some (if isDigitAt 10 then 8 else 10))
      else some 8
    else some 10
  else if s[4]? = some 'W' then
    let digits := ((s.drop 7).takeWhile Char.isDigit).length
    some (if digits < 2 then 7 + digits else if (7 + digits) % 2 = 0 then 7 else 8)
  else some 8

/-- The time since the start of the year 1, in microseconds, and the offset from UTC where the text names one. -/
def fromIsoFormat (s : List Char) : Option (Int × Option Int) := do
  let length ← dateLength s
  let date ← readDate (s.take length)
  let (time, offset) ← if s.drop (length + 1) = [] then some (0, none) else readTime (s.drop (length + 1))
  pure (((date - 1 : Nat) * day + time : Nat) - offset.getD 0, offset)

example : fromIsoFormat "2025-W01-1T01:30:00.5-02:00".toList =
    some (.ofNat ((ordinal 2024 12 30 - 1) * day + 3 * hour + 30 * minute + second / 2), some (.negSucc (2 * hour - 1))) := by decide +kernel

end Reading

/-- A date and a time of the day, to the second. -/
structure CivilTime where
  year : Nat
  month : Nat
  day : Nat
  hour : Nat
  minute : Nat
  second : Nat

namespace CivilTime

def Valid (t : CivilTime) : Prop :=
  ValidDate t.year t.month t.day ∧ t.hour < 24 ∧ t.minute < 60 ∧ t.second < 60

def text (t : CivilTime) : List Char :=
  padded 4 t.year ++ '-' :: (padded 2 t.month ++ '-' :: (padded 2 t.day ++ 'T' :: (padded 2 t.hour ++ ':' ::
    (padded 2 t.minute ++ ':' :: padded 2 t.second))))

/-- The seconds since the start of the year 1. -/
def seconds (t : CivilTime) : Nat :=
  (ordinal t.year t.month t.day - 1) * 86400 + (t.hour * 3600 + t.minute * 60 + t.second)

end CivilTime

section RoundTrip

variable {width n : Nat}

lemma digits?_padded (hwidth : 0 < width) (h : n < 10 ^ width) : digits? width (padded width n) = some n := by
  have hall : (padded width n).all Char.isDigit = true := List.all_eq_true.mpr fun _ => isDigit_padded
  have hvalue : Nat.ofDigitChars 10 (padded width n) 0 = n := by
    simp [padded, Nat.ofDigitChars_append, Nat.ofDigitChars_replicate_zero]
  rw [digits?, if_pos ⟨length_padded hwidth h, hall⟩, hvalue]

lemma exists_padded_two (h : n < 100) :
    ∃ a b, padded 2 n = [a, b] ∧ a.isDigit = true ∧ b.isDigit = true ∧ digits? 2 [a, b] = some n := by
  obtain ⟨a, b, hab⟩ := List.length_eq_two.mp (length_padded (n := n) (by decide : 0 < 2) h)
  have hdigit : ∀ c ∈ [a, b], c.isDigit = true := by
    intro c hc
    rw [← hab] at hc
    exact isDigit_padded hc
  refine ⟨a, b, hab, hdigit a (by simp), hdigit b (by simp), ?_⟩
  rw [← hab, digits?_padded (by decide) h]

lemma daysInMonth_le {year month : Nat} (h : month ≤ 12) : daysInMonth year month ≤ 31 := by
  unfold daysInMonth
  interval_cases month <;> simp
  split <;> omega

lemma ne_of_isDigit {c d : Char} (h : c.isDigit = true) (hd : d.isDigit = false) : c ≠ d := by
  rintro rfl
  rw [h] at hd
  cases hd

lemma readClock_seconds {h m s : Nat} (hh : h < 100) (hm : m < 100) (hs : s < 100) :
    readClock (padded 2 h ++ ':' :: (padded 2 m ++ ':' :: padded 2 s)) = some (h, m, s, 0) := by
  obtain ⟨a, b, hab, -, -, hread⟩ := exists_padded_two hh
  obtain ⟨a', b', hab', -, -, hread'⟩ := exists_padded_two hm
  obtain ⟨a'', b'', hab'', -, -, hread''⟩ := exists_padded_two hs
  rw [hab, hab', hab'']
  simp [readClock, components, fraction, hread, hread', hread'']

lemma readTime_utc {h m s : Nat} (hh : h < 24) (hm : m < 60) (hs : s < 60) :
    readTime (padded 2 h ++ ':' :: (padded 2 m ++ ':' :: (padded 2 s ++ ['+', '0', '0', ':', '0', '0']))) =
      some (h * hour + m * minute + s * second, some 0) := by
  have hread := readClock_seconds (h := h) (m := m) (s := s) (by omega) (by omega) (by omega)
  obtain ⟨a, b, hab, ha, hb, -⟩ := exists_padded_two (n := h) (by omega)
  obtain ⟨a', b', hab', ha', hb', -⟩ := exists_padded_two (n := m) (by omega)
  obtain ⟨a'', b'', hab'', ha'', hb'', -⟩ := exists_padded_two (n := s) (by omega)
  have hzone : readClock ['0', '0', ':', '0', '0'] = some (0, 0, 0, 0) := by decide
  have hminus : ∀ {c : Char}, c.isDigit = true → (c == '-') = false := fun hc =>
    beq_eq_false_iff_ne.mpr (ne_of_isDigit hc (by decide))
  have hplus : ∀ {c : Char}, c.isDigit = true → (c == '+') = false := fun hc =>
    beq_eq_false_iff_ne.mpr (ne_of_isDigit hc (by decide))
  have hday : clockTime (0, 0, 0, 0) < day := by decide
  rw [hab, hab', hab''] at hread ⊢
  simp only [List.cons_append, List.nil_append] at hread
  simp [readTime, List.idxOf?, List.findIdx?_cons, hminus, hplus, ha, hb, ha', hb', ha'', hb'', hread, hzone, hday,
    ValidClock, hh, hm, hs]
  simp [clockTime]

variable {c₁ c₂ c₃ c₄ a b a' b' : Char} {rest : List Char}

lemma dateLength_extended (ha : a.isDigit = true) :
    dateLength (c₁ :: c₂ :: c₃ :: c₄ :: '-' :: a :: b :: '-' :: a' :: b' :: rest) = some 10 := by
  have hlong : ¬ rest.length + 10 < 7 := by omega
  simp [dateLength, ne_of_isDigit ha (by decide : 'W'.isDigit = false), hlong]

lemma readDate_extended {y m d : Nat} (h : ValidDate y m d) (ha : a.isDigit = true)
    (hyear : digits? 4 [c₁, c₂, c₃, c₄] = some y) (hmonth : digits? 2 [a, b] = some m)
    (hday : digits? 2 [a', b'] = some d) :
    readDate [c₁, c₂, c₃, c₄, '-', a, b, '-', a', b'] = some (ordinal y m d) := by
  simp [readDate, ne_of_isDigit ha (by decide : 'W'.isDigit = false), hyear, hmonth, hday, h]

lemma exists_four {s : List Char} (h : s.length = 4) : ∃ a b c d, s = [a, b, c, d] := by
  match s, h with
  | [a, b, c, d], _ => exact ⟨a, b, c, d, rfl⟩

lemma CivilTime.Valid.fromIsoFormat_text {t : CivilTime} (h : t.Valid) :
    fromIsoFormat (t.text ++ ['+', '0', '0', ':', '0', '0']) = some (Nat.cast (t.seconds * 1000000), some 0) := by
  obtain ⟨hdate, hhour, hminute, hsecond⟩ := h
  obtain ⟨⟨-, hyear⟩, ⟨-, hmonth⟩, -, hday⟩ := id hdate
  have htime := readTime_utc hhour hminute hsecond
  have hyearread := digits?_padded (n := t.year) (by decide : 0 < 4) (by omega)
  obtain ⟨c₁, c₂, c₃, c₄, hpadded⟩ := exists_four (length_padded (n := t.year) (by decide : 0 < 4) (by omega))
  have hshort : daysInMonth t.year t.month ≤ 31 := daysInMonth_le hmonth
  obtain ⟨a, b, hab, ha, -, hread⟩ := exists_padded_two (n := t.month) (by omega)
  obtain ⟨a', b', hab', -, -, hread'⟩ := exists_padded_two (n := t.day) (by omega)
  have hseconds : (ordinal t.year t.month t.day - 1) * Calendar.day +
      (t.hour * Calendar.hour + t.minute * Calendar.minute + t.second * Calendar.second) = t.seconds * 1000000 := by
    simp only [seconds, Calendar.day, Calendar.hour, Calendar.minute, Calendar.second]
    omega
  rw [hpadded] at hyearread
  simp only [text, List.append_assoc, List.cons_append, hpadded, hab, hab', List.nil_append]
  simp only [fromIsoFormat, dateLength_extended ha, ← hseconds, Option.bind_eq_bind, Option.bind_some, List.take_succ_cons,
    List.take_zero, List.drop_succ_cons, List.drop_zero, readDate_extended hdate ha hyearread hread hread']
  simp [htime]

end RoundTrip

section Order

variable {width m n : Nat} {a b s t : List Char}

lemma toNat_of_isDigit {c : Char} (h : c.isDigit = true) : 48 ≤ c.toNat ∧ c.toNat ≤ 57 := by
  simp only [Char.isDigit, Bool.and_eq_true, decide_eq_true_eq] at h
  exact ⟨UInt32.le_iff_toNat_le.mp h.1, UInt32.le_iff_toNat_le.mp h.2⟩

/-- Among digits of one length, the greater number is the later text. -/
lemma lt_of_ofDigitChars_lt (ha : ∀ c ∈ a, c.isDigit = true) (hb : ∀ c ∈ b, c.isDigit = true)
    (hlength : a.length = b.length) (h : Nat.ofDigitChars 10 a m < Nat.ofDigitChars 10 b n) :
    m < n ∨ m = n ∧ a < b := by
  induction a generalizing b m n with
  | nil =>
    obtain rfl := List.length_eq_zero_iff.mp hlength.symm
    rw [Nat.ofDigitChars_nil, Nat.ofDigitChars_nil] at h
    exact .inl h
  | cons c a ih =>
    match b, hlength with
    | d :: b, hlength =>
      rw [Nat.ofDigitChars_cons, Nat.ofDigitChars_cons] at h
      have hc := toNat_of_isDigit (ha c List.mem_cons_self)
      have hd := toNat_of_isDigit (hb d List.mem_cons_self)
      have hzero : '0'.toNat = 48 := rfl
      have hrest := ih (fun c h => ha c (List.mem_cons_of_mem _ h)) (fun d h => hb d (List.mem_cons_of_mem _ h))
        (Nat.succ.inj hlength) h
      rw [List.cons_lt_cons_iff]
      rcases hrest with hlt | ⟨heq, hlt⟩
      · rcases Nat.lt_trichotomy c.toNat d.toNat with hcd | hcd | hcd
        · have hchar : c < d := hcd
          by_cases hmn : m = n
          · exact .inr ⟨hmn, .inl hchar⟩
          · exact .inl (by omega)
        · exact .inl (by omega)
        · exact .inl (by omega)
      · obtain ⟨rfl, hcd⟩ : m = n ∧ c.toNat = d.toNat := by omega
        exact .inr ⟨rfl, .inr ⟨Char.toNat_inj.mp hcd, hlt⟩⟩

lemma padded_lt (hm : m < 10 ^ width) (hwidth : 0 < width) (hn : n < 10 ^ width) (h : m < n) :
    padded width m < padded width n := by
  have hvalue : ∀ k, Nat.ofDigitChars 10 (padded width k) 0 = k := fun k => by
    simp [padded, Nat.ofDigitChars_append, Nat.ofDigitChars_replicate_zero]
  have hlength := (length_padded hwidth hm).trans (length_padded hwidth hn).symm
  have hlt := lt_of_ofDigitChars_lt (m := 0) (n := 0) (fun _ => isDigit_padded) (fun _ => isDigit_padded) hlength
    (by rwa [hvalue, hvalue])
  rcases hlt with hlt | ⟨-, hlt⟩
  · exact absurd hlt (Nat.lt_irrefl 0)
  · exact hlt

lemma append_lt_append (hlength : a.length = b.length) (h : a < b) (s t : List Char) : a ++ s < b ++ t := by
  induction a generalizing b with
  | nil =>
    obtain rfl := List.length_eq_zero_iff.mp hlength.symm
    exact absurd h (List.lt_irrefl _)
  | cons c a ih =>
    match b, hlength with
    | d :: b, hlength =>
      rw [List.cons_lt_cons_iff] at h
      rw [List.cons_append, List.cons_append, List.cons_lt_cons_iff]
      exact h.imp_right fun h => ⟨h.1, ih (Nat.succ.inj hlength) h.2⟩

lemma append_lt_append_iff (hlength : a.length = b.length) : a ++ s < b ++ s ↔ a < b := by
  refine ⟨fun h => ?_, fun h => append_lt_append hlength h s s⟩
  rcases lt_trichotomy a b with hab | rfl | hab
  · exact hab
  · exact absurd h (List.lt_irrefl _)
  · exact absurd h (List.lt_asymm (append_lt_append hlength.symm hab s s))

/-- A field of a fixed width, and what stands behind it. -/
lemma field_lt (hwidth : 0 < width) (hm : m < 10 ^ width) (hn : n < 10 ^ width) (c : Char)
    (h : m < n ∨ m = n ∧ s < t) : padded width m ++ c :: s < padded width n ++ c :: t := by
  rcases h with h | ⟨rfl, h⟩
  · exact append_lt_append ((length_padded hwidth hm).trans (length_padded hwidth hn).symm)
      (padded_lt hm hwidth hn h) _ _
  · exact List.append_left_lt (List.cons_lt_cons_iff.mpr (.inr ⟨rfl, h⟩))

variable {y : Nat}

lemma daysBeforeMonth_succ (hm : 1 ≤ m) (h : m < 12) :
    daysBeforeMonth y (m + 1) = daysBeforeMonth y m + daysInMonth y m := by
  unfold daysBeforeMonth daysInMonth
  interval_cases m <;> simp
  all_goals split <;> omega

lemma daysBeforeMonth_le (hm : 1 ≤ m) (h : m < n) (hn : n ≤ 12) :
    daysBeforeMonth y m + daysInMonth y m ≤ daysBeforeMonth y n := by
  induction n, h using Nat.le_induction with
  | base => exact (daysBeforeMonth_succ hm (by omega)).ge
  | succ n hmn ih =>
    have hstep := daysBeforeMonth_succ (y := y) (m := n) (by omega) (by omega)
    have hrest := ih (by omega)
    omega

lemma isLeap_iff : isLeap y = true ↔ 4 ∣ y ∧ (¬ 100 ∣ y ∨ 400 ∣ y) := by
  simp [isLeap, Nat.dvd_iff_mod_eq_zero]

lemma daysBeforeYear_succ (h : 1 ≤ y) : daysBeforeYear (y + 1) = daysBeforeYear y + if isLeap y then 366 else 365 := by
  obtain ⟨k, rfl⟩ := Nat.exists_eq_add_of_le' h
  have hcentury : 100 ∣ k + 1 → 4 ∣ k + 1 := (by decide : 4 ∣ 100).trans
  have hera : 400 ∣ k + 1 → 100 ∣ k + 1 := (by decide : 100 ∣ 400).trans
  have hle : k / 100 ≤ k / 4 := Nat.div_le_div_left (by decide) (by decide)
  simp only [daysBeforeYear, Nat.add_sub_cancel, Nat.succ_div, isLeap_iff]
  by_cases hera' : 400 ∣ k + 1
  · simp only [hera', hera hera', hcentury (hera hera'), if_true, not_true, or_true, and_self]
    omega
  · by_cases hcentury' : 100 ∣ k + 1
    · simp only [hera', hcentury', hcentury hcentury', if_true, if_false, not_true, or_self, and_false]
      omega
    · by_cases hleap : 4 ∣ k + 1 <;> simp only [hera', hcentury', hleap, if_true, if_false, not_false_iff, true_or, and_true]
      all_goals omega

lemma daysBeforeYear_mono : Monotone daysBeforeYear := by
  refine monotone_nat_of_le_succ fun y => ?_
  rcases Nat.eq_zero_or_pos y with rfl | hy
  · simp [daysBeforeYear]
  · rw [daysBeforeYear_succ hy]
    exact Nat.le_add_right _ _

/-- A month is over when its year is. -/
lemma month_le_year (hy : 1 ≤ y) (hm : 1 ≤ m) (h : m ≤ 12) :
    daysBeforeYear y + daysBeforeMonth y m + daysInMonth y m ≤ daysBeforeYear (y + 1) := by
  have hlast : daysBeforeMonth y 12 + daysInMonth y 12 = if isLeap y then 366 else 365 := by
    simp [daysBeforeMonth, daysInMonth]
    split <;> rfl
  rw [daysBeforeYear_succ hy, ← hlast]
  rcases Nat.lt_or_eq_of_le h with h | rfl
  · have hle := daysBeforeMonth_le (y := y) hm h le_rfl
    omega
  · omega

namespace CivilTime

variable {t u : CivilTime}

def Before (t u : CivilTime) : Prop :=
  t.year < u.year ∨ t.year = u.year ∧ (t.month < u.month ∨ t.month = u.month ∧ (t.day < u.day ∨ t.day = u.day ∧
    (t.hour < u.hour ∨ t.hour = u.hour ∧ (t.minute < u.minute ∨ t.minute = u.minute ∧ t.second < u.second))))

lemma before_trichotomy (t u : CivilTime) : t.Before u ∨ t = u ∨ u.Before t := by
  have heq : t = u ↔ t.year = u.year ∧ t.month = u.month ∧ t.day = u.day ∧ t.hour = u.hour ∧ t.minute = u.minute ∧
      t.second = u.second := by
    cases t
    cases u
    simp
  simp only [Before, heq]
  omega

lemma ordinal_lt {m' d d' y' : Nat} (h : ValidDate y m d) (h' : ValidDate y' m' d')
    (hlt : y < y' ∨ y = y' ∧ (m < m' ∨ m = m' ∧ d < d')) : ordinal y m d < ordinal y' m' d' := by
  obtain ⟨⟨hy, -⟩, ⟨hm, hm12⟩, -, hd⟩ := h
  obtain ⟨-, ⟨-, hm'⟩, hd', -⟩ := h'
  unfold ordinal
  rcases hlt with hlt | ⟨rfl, hlt | ⟨rfl, hlt⟩⟩
  · have hyear := month_le_year hy hm hm12
    have hmono : daysBeforeYear (y + 1) ≤ daysBeforeYear y' := daysBeforeYear_mono hlt
    omega
  · have hmonth := daysBeforeMonth_le (y := y) hm hlt hm'
    omega
  · omega

lemma seconds_lt (ht : t.Valid) (hu : u.Valid) (h : t.Before u) : t.seconds < u.seconds := by
  obtain ⟨hdate, hhour, hminute, hsecond⟩ := ht
  obtain ⟨hdate', -⟩ := hu
  have hpos : 1 ≤ ordinal t.year t.month t.day := by
    have hday := hdate.2.2.1
    unfold ordinal
    omega
  unfold seconds
  by_cases hlt : t.year < u.year ∨ t.year = u.year ∧ (t.month < u.month ∨ t.month = u.month ∧ t.day < u.day)
  · have hordinal := ordinal_lt hdate hdate' hlt
    omega
  · obtain ⟨hyear, hmonth, hday, hrest⟩ : t.year = u.year ∧ t.month = u.month ∧ t.day = u.day ∧
        (t.hour < u.hour ∨ t.hour = u.hour ∧ (t.minute < u.minute ∨ t.minute = u.minute ∧ t.second < u.second)) := by
      unfold Before at h
      omega
    rw [hyear, hmonth, hday]
    omega

lemma Valid.length_text (h : t.Valid) : t.text.length = 19 := by
  obtain ⟨⟨⟨-, hyear⟩, ⟨-, hmonth⟩, -, hday⟩, hhour, hminute, hsecond⟩ := h
  have hshort : daysInMonth t.year t.month ≤ 31 := daysInMonth_le hmonth
  have htwo : ∀ {n}, n < 100 → (padded 2 n).length = 2 := fun h => length_padded (by decide) h
  have hfour : (padded 4 t.year).length = 4 := length_padded (by decide) (show t.year < 10 ^ 4 by omega)
  simp only [text, List.length_append, List.length_cons, hfour, htwo (show t.month < 100 by omega),
    htwo (show t.day < 100 by omega), htwo (show t.hour < 100 by omega), htwo (show t.minute < 100 by omega),
    htwo (show t.second < 100 by omega)]

lemma text_lt (ht : t.Valid) (hu : u.Valid) (h : t.Before u) : t.text < u.text := by
  obtain ⟨⟨⟨-, hyear⟩, ⟨-, hmonth⟩, -, hday⟩, hhour, hminute, hsecond⟩ := ht
  obtain ⟨⟨⟨-, hyear'⟩, ⟨-, hmonth'⟩, -, hday'⟩, hhour', hminute', hsecond'⟩ := hu
  have hshort : daysInMonth t.year t.month ≤ 31 := daysInMonth_le hmonth
  have hshort' : daysInMonth u.year u.month ≤ 31 := daysInMonth_le hmonth'
  refine field_lt (by decide) (by omega) (by omega) _ (h.imp_right (And.imp_right fun h => ?_))
  refine field_lt (by decide) (by omega) (by omega) _ (h.imp_right (And.imp_right fun h => ?_))
  refine field_lt (by decide) (by omega) (by omega) _ (h.imp_right (And.imp_right fun h => ?_))
  refine field_lt (by decide) (by omega) (by omega) _ (h.imp_right (And.imp_right fun h => ?_))
  refine field_lt (by decide) (by omega) (by omega) _ (h.imp_right (And.imp_right fun h => ?_))
  exact padded_lt (by omega) (by decide) (by omega) h

/-- The texts are ordered as the instants are. -/
lemma text_lt_iff (ht : t.Valid) (hu : u.Valid) : t.text < u.text ↔ t.seconds < u.seconds := by
  rcases before_trichotomy t u with h | rfl | h
  · exact iff_of_true (text_lt ht hu h) (seconds_lt ht hu h)
  · exact iff_of_false (List.lt_irrefl _) (Nat.lt_irrefl _)
  · exact iff_of_false (List.lt_asymm (text_lt hu ht h)) (Nat.lt_asymm (seconds_lt hu ht h))

end CivilTime

end Order

end PlatformGitops.Library.Calendar
