import Mathlib.Order.Bounds.Basic
import Vici2.GoTime
import Vici2.JsDate

/-! The date of Easter from the lunar tables of the Gregorian calendar: the first Sunday after
the full moon of spring. Days are counted from 1970-01-01. -/

namespace Vici2

namespace Computus

open IsoTime JsDate

/-- `weekday` counts its days from 0001-01-01. -/
def dayOfWeek (z : Int) : Fin 7 := weekday (z + 719162)

theorem dayOfWeek_eq_iff (z : Int) (w : Fin 7) : dayOfWeek z = w ↔ (z + 4) % 7 = w.val := by
  unfold dayOfWeek weekday
  rw [Fin.ext_iff]
  dsimp only
  omega

def sundayAfter (z : Int) : Int := z + 7 - (z + 4) % 7

theorem isLeast_sundayAfter (z : Int) : IsLeast {s | z < s ∧ dayOfWeek s = 0} (sundayAfter z) := by
  unfold sundayAfter
  constructor
  · refine ⟨by omega, ?_⟩
    rw [dayOfWeek_eq_iff]
    simp only [Fin.val_zero]
    omega
  · rintro s ⟨hlt, hsunday⟩
    rw [dayOfWeek_eq_iff] at hsunday
    simp only [Fin.val_zero] at hsunday
    omega

/-- A Sunday within the week after a day is the first one. -/
theorem sundayAfter_eq {z s : Int} (hlt : z < s) (hle : s ≤ z + 7) (hs : (s + 4) % 7 = 0) :
    sundayAfter z = s := by
  unfold sundayAfter
  omega

section Moon

variable (year : Int)

def goldenNumber : Int := year % 19 + 1

def century : Int := year / 100 + 1

/-- The leap days left out at the turns of the centuries. -/
def solarCorrection : Int := 3 * century year / 4 - 12

def lunarCorrection : Int := (8 * century year + 5) / 25 - 5

/-- The age of the moon at the start of the year. Two epochs are kept from sharing a moon. -/
def epact : Int :=
  let e := (11 * goldenNumber year + 20 + lunarCorrection year - solarCorrection year) % 30
  if e = 24 ∨ e = 25 ∧ 11 < goldenNumber year then e + 1 else e

/-- The full moon from the 21st of March on, as a day of March. -/
def moonOfMarch : Int :=
  let n := 44 - epact year
  if n < 21 then n + 30 else n

def paschalMoon : Int := daysFromCivil year 3 (moonOfMarch year)

def easter : Int := sundayAfter (paschalMoon year)

theorem epact_bounds : (0 ≤ epact year ∧ epact year ≤ 29) ∧ epact year ≠ 24 := by
  unfold epact
  dsimp only
  split <;> omega

theorem moonOfMarch_bounds : 21 ≤ moonOfMarch year ∧ moonOfMarch year ≤ 49 := by
  have hepact := epact_bounds year
  unfold moonOfMarch
  dsimp only
  split <;> omega

end Moon

/-- An era has a whole number of weeks, a century of its four five days more, and so on. -/
theorem march_day_of_week (year d : Int) :
    (daysFromCivil year 3 d + 4) % 7 = (d + 5 * (year / 100 % 4) + 5 * (year % 100 / 4) +
      year % 100 % 4 + 2) % 7 := by
  have hera : year / 400 = year / 100 / 4 := by omega
  have hyoe : year % 400 = 100 * (year / 100 % 4) + year % 100 := by omega
  obtain ⟨e, he⟩ : ∃ e, e = year / 100 % 4 := ⟨_, rfl⟩
  obtain ⟨c, hc⟩ : ∃ c, c = year % 100 := ⟨_, rfl⟩
  have hleap : (100 * e + c) / 4 = 25 * e + c / 4 := by omega
  have hcentury : (100 * e + c) / 100 = e := by omega
  rw [daysFromCivil_of_march d (year / 400) (year % 400) 0 (by omega) (by omega) (by decide)]
  rw [hyoe, ← he, ← hc, hleap, hcentury]
  omega

/-- A day of March past the 31st is one of April. -/
theorem civil_march {year n : Int} (h1 : 1 ≤ n) (h61 : n ≤ 61) :
    civil (daysFromCivil year 3 n) = if n ≤ 31 then (year, 3, n) else (year, 4, n - 31) := by
  split
  · rename_i hmarch
    exact civil_daysFromCivil (by decide) ⟨h1, hmarch⟩
  · rename_i hapril
    have hday : daysFromCivil year 3 n = daysFromCivil year 4 (n - 31) := by
      unfold daysFromCivil
      dsimp only
      omega
    rw [hday]
    exact civil_daysFromCivil (by decide) ⟨by omega, show n - 31 ≤ 30 by omega⟩

section Easter

variable (year : Int)

theorem isLeast_easter :
    IsLeast {s | paschalMoon year < s ∧ dayOfWeek s = 0} (easter year) :=
  isLeast_sundayAfter _

theorem dayOfWeek_easter : dayOfWeek (easter year) = 0 := (isLeast_easter year).1.2

/-- The full moon falls on the 18th of April at the latest, and a Sunday within the week. -/
theorem civil_easter : ∃ month day, civil (easter year) = (year, month, day) ∧
    (month = 3 ∧ 22 ≤ day ∧ day ≤ 31 ∨ month = 4 ∧ 1 ≤ day ∧ day ≤ 25) := by
  have hmoon := moonOfMarch_bounds year
  obtain ⟨n, hn⟩ : ∃ n, n = moonOfMarch year + 7 - (paschalMoon year + 4) % 7 := ⟨_, rfl⟩
  have hday : easter year = daysFromCivil year 3 n := by
    unfold easter sundayAfter
    rw [hn, daysFromCivil_day]
    unfold paschalMoon
    rw [daysFromCivil_day _ _ (moonOfMarch year)]
    omega
  have hdate := @civil_march year n (by omega) (by omega)
  rw [← hday] at hdate
  split at hdate
  · exact ⟨3, n, hdate, .inl ⟨rfl, by omega, by omega⟩⟩
  · exact ⟨4, n - 31, hdate, .inr ⟨rfl, by omega, by omega⟩⟩

end Easter

end Computus

end Vici2
