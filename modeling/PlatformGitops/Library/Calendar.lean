import Mathlib.Data.Nat.Find
import PlatformGitops.Library.Decimal

/-! Days and times of the proleptic Gregorian calendar, and their notation of ISO 8601. -/

namespace PlatformGitops.Library.Calendar

open Decimal

section Days

def daysBeforeYear (year : Nat) : Nat := (year - 1) * 365 + (year - 1) / 4 - (year - 1) / 100 + (year - 1) / 400

def isLeap (year : Nat) : Bool := year % 4 = 0 ∧ (year % 100 ≠ 0 ∨ year % 400 = 0)

def daysBeforeMonth (year month : Nat) : Nat :=
  ([0, 0, 31, 59, 90, 120, 151, 181, 212, 243, 273, 304, 334][month]?).getD 334 +
    if 2 < month ∧ isLeap year then 1 else 0

/-- The last day of the year 9999; the first one of the year 1 is day 1. -/
def maxOrdinal : Nat := 3652059

def yearOf (ordinal : Nat) : Nat := Nat.findGreatest (daysBeforeYear · < ordinal) 9999

def monthOf (ordinal : Nat) : Nat :=
  Nat.findGreatest (fun month => daysBeforeYear (yearOf ordinal) + daysBeforeMonth (yearOf ordinal) month < ordinal) 12

def dayOf (ordinal : Nat) : Nat :=
  ordinal - (daysBeforeYear (yearOf ordinal) + daysBeforeMonth (yearOf ordinal) (monthOf ordinal))

def isoDate (ordinal : Nat) : List Char :=
  padded 4 (yearOf ordinal) ++ '-' :: (padded 2 (monthOf ordinal) ++ '-' :: padded 2 (dayOf ordinal))

end Days

section Times

def second : Nat := 1000000

def minute : Nat := 60 * second

def hour : Nat := 60 * minute

def day : Nat := 24 * hour

/-- Behind the end of the year 9999, in microseconds. -/
def maxTime : Nat := maxOrdinal * day

def isoTime (time : Nat) : List Char :=
  padded 2 (time / hour) ++ ':' :: (padded 2 (time % hour / minute) ++ ':' :: (padded 2 (time % minute / second) ++
    if time % second = 0 then [] else '.' :: padded 6 (time % second)))

/-- A time in UTC, in microseconds since the start of the year 1. -/
def isoUtc (time : Nat) : List Char :=
  isoDate (time / day + 1) ++ 'T' :: (isoTime (time % day) ++ ['+', '0', '0', ':', '0', '0'])

example : isoUtc 63902820834100200 = "2025-12-31T23:33:54.100200+00:00".toList := by decide +kernel

end Times

section Injective

variable {m n : Nat}

lemma digits_not {c : Char} {width : Nat} (hc : c.isDigit = false) : c ∉ padded width n := by
  intro hmem
  rw [isDigit_padded hmem] at hc
  cases hc

lemma ordinal_eq (h : 0 < n) :
    daysBeforeYear (yearOf n) + daysBeforeMonth (yearOf n) (monthOf n) + dayOf n = n := by
  have hyear : daysBeforeYear (yearOf n) < n :=
    Nat.findGreatest_spec (P := (daysBeforeYear · < n)) (Nat.zero_le 9999) (by simpa [daysBeforeYear] using h)
  have hmonth : daysBeforeYear (yearOf n) + daysBeforeMonth (yearOf n) (monthOf n) < n :=
    Nat.findGreatest_spec (P := fun month => daysBeforeYear (yearOf n) + daysBeforeMonth (yearOf n) month < n)
      (Nat.zero_le 12) (by simpa [daysBeforeMonth] using hyear)
  unfold dayOf
  omega

lemma isoDate_injective (hm : 0 < m) (hn : 0 < n) (h : isoDate m = isoDate n) : m = n := by
  obtain ⟨hyear, h⟩ := separated_inj (digits_not (by decide)) (digits_not (by decide)) h
  obtain ⟨hmonth, hday⟩ := separated_inj (digits_not (by decide)) (digits_not (by decide)) h
  rw [← ordinal_eq hm, ← ordinal_eq hn, padded_injective hyear, padded_injective hmonth, padded_injective hday]

lemma isoTime_injective (h : isoTime m = isoTime n) : m = n := by
  obtain ⟨hhour, h⟩ := separated_inj (digits_not (by decide)) (digits_not (by decide)) h
  obtain ⟨hminute, h⟩ := separated_inj (digits_not (by decide)) (digits_not (by decide)) h
  have hhour := padded_injective hhour
  have hminute := padded_injective hminute
  have hpoint : ∀ {a b c : Nat}, padded 2 a ≠ padded 2 b ++ '.' :: padded 6 c := fun heq =>
    digits_not (c := '.') (by decide) (heq ▸ List.mem_append_right _ List.mem_cons_self)
  have hsecond : m % minute / second = n % minute / second ∧ m % second = n % second := by
    split_ifs at h with hm hn hn
    · rw [List.append_nil, List.append_nil] at h
      exact ⟨padded_injective h, hm.trans hn.symm⟩
    · rw [List.append_nil] at h
      exact absurd h hpoint
    · rw [List.append_nil] at h
      exact absurd h.symm hpoint
    · obtain ⟨hwhole, hfraction⟩ := separated_inj (digits_not (by decide)) (digits_not (by decide)) h
      exact ⟨padded_injective hwhole, padded_injective hfraction⟩
  simp only [hour, minute, second] at hhour hminute hsecond
  omega

lemma not_mem_isoDate : 'T' ∉ isoDate n := by
  simp only [isoDate, List.mem_append, List.mem_cons, not_or]
  exact ⟨digits_not (by decide), by decide, digits_not (by decide), by decide, digits_not (by decide)⟩

lemma isoUtc_injective (h : isoUtc m = isoUtc n) : m = n := by
  obtain ⟨hdate, h⟩ := separated_inj not_mem_isoDate not_mem_isoDate h
  have hdays := isoDate_injective (Nat.succ_pos _) (Nat.succ_pos _) hdate
  have htime := isoTime_injective (List.append_cancel_right h)
  rw [← Nat.div_add_mod m day, ← Nat.div_add_mod n day, htime, Nat.succ.inj hdays]

end Injective

end PlatformGitops.Library.Calendar
