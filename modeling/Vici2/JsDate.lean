import Vici2.IsoTime

/-! Dates of the language: a time value is a number of milliseconds since
1970-01-01 in UTC, and `none` is the invalid date. -/

namespace Vici2

namespace JsDate

open IsoTime

def msPerDay : Int := 86400000

def maxTime : Int := 8640000000000000

def timeClip (t : Int) : Option Int := if -maxTime ≤ t ∧ t ≤ maxTime then some t else none

/-- The day of a date of the calendar, the inverse of `civil`. -/
def daysFromCivil (y m d : Int) : Int :=
  let y := if m ≤ 2 then y - 1 else y
  let era := y / 400
  let yoe := y % 400
  let mp := if m ≤ 2 then m + 9 else m - 3
  era * 146097 + (yoe * 365 + yoe / 4 - yoe / 100 + (153 * mp + 2) / 5 + d - 1) - 719468

/-- The month counts from 0 and may lie outside the year. -/
def makeDay (y m d : Int) : Int := daysFromCivil (y + m / 12) (m % 12 + 1) 1 + d - 1

def year (t : Int) : Int := (civil (t / msPerDay)).1

def month (t : Int) : Int := (civil (t / msPerDay)).2.1 - 1

def date (t : Int) : Int := (civil (t / msPerDay)).2.2

/-- `Date.UTC`; it takes the years 0 to 99 for 1900 to 1999. -/
def utc (y m d : Int) : Option Int :=
  timeClip (makeDay (if 0 ≤ y ∧ y ≤ 99 then 1900 + y else y) m d * msPerDay)

def setUTCMonth (t m : Int) : Option Int :=
  timeClip (makeDay (year t) m (date t) * msPerDay + t % msPerDay)

def setUTCDate (t d : Int) : Option Int :=
  timeClip (makeDay (year t) (month t) d * msPerDay + t % msPerDay)

/-- The first ten characters of `toISOString`. -/
def isoDate (t : Int) : List Char :=
  let y := year t
  if 0 ≤ y ∧ y ≤ 9999 then dateText (t / msPerDay)
  else (if y < 0 then '-' else '+') :: fixedDigits 6 y.natAbs ++ '-' ::
    fixedDigits 2 (month t + 1).toNat

def digit (c : Char) : Option Nat := if c.isDigit then some (c.toNat - 48) else none

def digits : List Char → Option Nat
  | [] => some 0
  | c :: cs => do
    let a ← digit c
    let b ← digits cs
    return a * 10 ^ cs.length + b

/-- A year of four digits, or of six after a sign, and what follows. -/
def parseYear : List Char → Option (Int × List Char)
  | '+' :: text => (digits (text.take 6)).bind fun (y : Nat) =>
      if text.length < 6 then none else some (y, text.drop 6)
  | '-' :: text => (digits (text.take 6)).bind fun (y : Nat) =>
      if text.length < 6 ∨ y = 0 then none else some (-y, text.drop 6)
  | text => (digits (text.take 4)).bind fun (y : Nat) =>
      if text.length < 4 then none else some (y, text.drop 4)

def parseMonthDay : List Char → Option (Int × Int)
  | [] => some (1, 1)
  | ['-', a, b] => (digits [a, b]).map fun (m : Nat) => ((m : Int), 1)
  | ['-', a, b, '-', c, d] => (digits [a, b]).bind fun (m : Nat) =>
      (digits [c, d]).map fun (d : Nat) => ((m : Int), (d : Int))
  | _ => none

/-- The day that a date of the interchange format names. -/
def parseDay (text : List Char) : Option Int :=
  (parseYear text).bind fun (y, rest) =>
    (parseMonthDay rest).bind fun (m, d) =>
      if civil (daysFromCivil y m d) = (y, m, d) then some (daysFromCivil y m d) else none

/-- `new Date` of the text with `T00:00:00Z` appended. What an engine makes of a
text outside the interchange format is its own affair. -/
def parseMidnight (fallback : List Char → Option Int) (text : List Char) : Option Int :=
  match parseDay text with
  | some day => timeClip (day * msPerDay)
  | none => fallback (text ++ "T00:00:00Z".toList)

/-- `daysFromCivil` with the year and the month counted from the first of March. -/
theorem daysFromCivil_of_march {y m : Int} (d era yoe mp : Int) (hyoe : 0 ≤ yoe ∧ yoe < 400)
    (hy : (if m ≤ 2 then y - 1 else y) = yoe + era * 400)
    (hm : (if m ≤ 2 then m + 9 else m - 3) = mp) :
    daysFromCivil y m d =
      era * 146097 + (yoe * 365 + yoe / 4 - yoe / 100 + (153 * mp + 2) / 5 + d - 1) - 719468 := by
  have hdiv : (yoe + era * 400) / 400 = era := by omega
  have hmod : (yoe + era * 400) % 400 = yoe := by omega
  unfold daysFromCivil
  dsimp only
  rw [hy, hm, hdiv, hmod]

/-- The days of the years of an era that are over, and the day of the year. -/
theorem days_of_years (doe : Int) :
    yearOfEra doe * 365 + yearOfEra doe / 4 - yearOfEra doe / 100 + dayOfYear doe = doe := by
  unfold dayOfYear
  omega

theorem daysFromCivil_civil (z : Int) :
    daysFromCivil (civil z).1 (civil z).2.1 (civil z).2.2 = z := by
  have hdoe : 0 ≤ (z + 719468) % 146097 ∧ (z + 719468) % 146097 ≤ 146096 := by omega
  have hy := yearOfEra_bounds hdoe.1 hdoe.2
  have hd := dayOfYear_bounds hdoe.1 hdoe.2
  have hyear := days_of_years ((z + 719468) % 146097)
  have hyoe : 0 ≤ yearOfEra ((z + 719468) % 146097) ∧ yearOfEra ((z + 719468) % 146097) < 400 := by
    omega
  rw [civil_eq]
  dsimp only
  rw [daysFromCivil_of_march _ ((z + 719468) / 146097) _
    ((5 * dayOfYear ((z + 719468) % 146097) + 2) / 153) hyoe]
  · omega
  · split <;> split <;> omega
  · split <;> split <;> omega

theorem yearOfEra_of_day {yoe doy : Int} (hyoe : 0 ≤ yoe ∧ yoe < 400) (hdoy : 0 ≤ doy ∧ doy ≤ 364) :
    yearOfEra (yoe * 365 + yoe / 4 - yoe / 100 + doy) = yoe := by
  obtain ⟨c, hc⟩ : ∃ c, c = yoe / 100 := ⟨_, rfl⟩
  obtain ⟨q, hq⟩ : ∃ q, q = yoe / 4 := ⟨_, rfl⟩
  obtain ⟨doe, hdoe⟩ : ∃ doe, doe = yoe * 365 + q - c + doy := ⟨_, rfl⟩
  have hcentury : 25 * c ≤ q ∧ q ≤ 25 * c + 24 := by omega
  have hleap : doe / 1460 = q ∨ doe / 1460 = q + 1 ∧ 1 ≤ doy := by omega
  have hcenturies : doe / 36524 = c := by omega
  have heras : doe / 146096 = 0 := by omega
  rw [← hq, ← hc, ← hdoe]
  unfold yearOfEra
  rw [hcenturies, heras]
  omega

/-- A day of a month is before the next month, in the year that begins with March. -/
theorem day_before_next_month {m mp d : Int} (hm : 1 ≤ m ∧ m ≤ 12)
    (hd : d ≤ if m = 2 then 28 else 30 + (m + m / 8) % 2)
    (hmp : (if m ≤ 2 then m + 9 else m - 3) = mp) :
    (153 * mp + 2) / 5 + d ≤ (153 * (mp + 1) + 2) / 5 ∧ (153 * mp + 2) / 5 + d ≤ 365 := by
  obtain ⟨hm1, hm12⟩ := hm
  subst hmp
  interval_cases m <;> simp at hd ⊢ <;> omega

/-- A date of the calendar is that of its day. The 29th of February is left out. -/
theorem civil_daysFromCivil {y m d : Int} (hm : 1 ≤ m ∧ m ≤ 12)
    (hd : 1 ≤ d ∧ d ≤ if m = 2 then 28 else 30 + (m + m / 8) % 2) :
    civil (daysFromCivil y m d) = (y, m, d) := by
  obtain ⟨yoe, hyoe⟩ : ∃ yoe, yoe = (if m ≤ 2 then y - 1 else y) % 400 := ⟨_, rfl⟩
  obtain ⟨era, hera⟩ : ∃ era, era = (if m ≤ 2 then y - 1 else y) / 400 := ⟨_, rfl⟩
  obtain ⟨mp, hmp⟩ : ∃ mp, mp = if m ≤ 2 then m + 9 else m - 3 := ⟨_, rfl⟩
  have hyear : (if m ≤ 2 then y - 1 else y) = yoe + era * 400 := by omega
  have hbounds : 0 ≤ yoe ∧ yoe < 400 := by omega
  have hmonth : 0 ≤ mp ∧ mp ≤ 11 := by
    split at hmp <;> omega
  have hnext := day_before_next_month hm hd.2 hmp.symm
  obtain ⟨doy, hdoy⟩ : ∃ doy, doy = (153 * mp + 2) / 5 + d - 1 := ⟨_, rfl⟩
  have hdays : 0 ≤ doy ∧ doy ≤ 364 := by omega
  have hdoe := yearOfEra_of_day hbounds hdays
  obtain ⟨doe, hdef⟩ : ∃ doe, doe = yoe * 365 + yoe / 4 - yoe / 100 + doy := ⟨_, rfl⟩
  have hday : daysFromCivil y m d + 719468 = era * 146097 + doe := by
    rw [daysFromCivil_of_march d era yoe mp hbounds hyear hmp.symm]
    omega
  have hmod : (era * 146097 + doe) % 146097 = doe := by omega
  have hdiv : (era * 146097 + doe) / 146097 = era := by omega
  have hdayOfYear : dayOfYear doe = doy := by
    unfold dayOfYear
    rw [hdef, hdoe]
    omega
  have hmp' : (5 * doy + 2) / 153 = mp := by omega
  rw [civil_eq, hday, hmod, hdiv, hdayOfYear, hmp']
  rw [← hdef] at hdoe
  rw [hdoe]
  ext
  · dsimp only
    split at hmp <;> split at hyear <;> split <;> split <;> omega
  · dsimp only
    split at hmp <;> split <;> omega
  · dsimp only
    omega

theorem daysFromCivil_day (y m d : Int) : daysFromCivil y m d = daysFromCivil y m 1 + d - 1 := by
  unfold daysFromCivil
  dsimp only
  omega

theorem makeDay_carry (y m k d : Int) : makeDay (y + m / 12) (m % 12 + k) d = makeDay y (m + k) d := by
  have hyear : y + m / 12 + (m % 12 + k) / 12 = y + (m + k) / 12 := by omega
  have hmonth : (m % 12 + k) % 12 = (m + k) % 12 := by omega
  unfold makeDay
  rw [hyear, hmonth]

theorem makeDay_month_start (t : Int) : makeDay (year t) (month t) 1 = t / msPerDay - (date t - 1) := by
  obtain ⟨hm, -⟩ := civil_month_day (t / msPerDay)
  have hdiv : month t / 12 = 0 := by
    unfold month
    omega
  have hmod : month t % 12 + 1 = (civil (t / msPerDay)).2.1 := by
    unfold month
    omega
  have hday := daysFromCivil_civil (t / msPerDay)
  rw [daysFromCivil_day] at hday
  unfold makeDay year date
  rw [hdiv, hmod, Int.add_zero]
  omega

theorem civil_makeDay (y m : Int) : civil (makeDay y m 1) = (y + m / 12, m % 12 + 1, 1) := by
  unfold makeDay
  rw [Int.add_sub_cancel]
  exact civil_daysFromCivil (by omega) (by split <;> omega)

/-- The first of a month, `k` months on. -/
theorem setUTCMonth_month_start (y m k : Int) :
    setUTCMonth (makeDay y m 1 * msPerDay) (month (makeDay y m 1 * msPerDay) + k) =
      timeClip (makeDay y (m + k) 1 * msPerDay) := by
  have hday : makeDay y m 1 * msPerDay / msPerDay = makeDay y m 1 := Int.mul_ediv_cancel _ (by decide)
  unfold setUTCMonth year month date
  rw [hday, civil_makeDay, Int.add_sub_cancel, makeDay_carry, Int.mul_emod_left, Int.add_zero]

theorem digit_digitChar {n : Nat} (hn : n < 10) : digit (Nat.digitChar n) = some n := by
  interval_cases n <;> rfl

theorem digits_append (xs : List Char) (c : Char) :
    digits (xs ++ [c]) = (digits xs).bind fun n => (digit c).map fun a => n * 10 + a := by
  induction xs with
  | nil =>
    cases hc : digit c with
    | none => simp [digits, hc]
    | some a => simp [digits, hc]
  | cons x xs ih =>
    cases hx : digit x with
    | none => simp [digits, hx]
    | some b =>
      cases hxs : digits xs with
      | none => simp [digits, hx, ih, hxs]
      | some n =>
        cases hc : digit c with
        | none => simp [digits, hx, ih, hxs, hc]
        | some a =>
          simp only [List.cons_append, digits, hx, ih, hxs, hc, List.length_append, Option.bind_some,
            Option.map_some, List.length_singleton, Nat.pow_succ, bind, pure]
          congr 1
          rw [Nat.add_mul, Nat.add_assoc, Nat.mul_assoc]

theorem digits_fixedDigits (k n : Nat) : digits (fixedDigits k n) = some (n % 10 ^ k) := by
  induction k generalizing n with
  | zero => simp [fixedDigits, digits, Nat.mod_one]
  | succ k ih =>
    rw [fixedDigits_succ, digits_append, ih, digit_digitChar (Nat.mod_lt n (by decide))]
    simp only [Option.bind_some, Option.map_some, Option.some.injEq]
    rw [Nat.pow_succ', Nat.mod_mul]
    omega

theorem digits_of_lt {k n : Nat} (h : n < 10 ^ k) : digits (fixedDigits k n) = some n := by
  rw [digits_fixedDigits, Nat.mod_eq_of_lt h]

theorem parseMidnight_of_day {fallback : List Char → Option Int} {text : List Char} {z : Int}
    (h : parseDay text = some z) : parseMidnight fallback text = timeClip (z * msPerDay) := by
  unfold parseMidnight
  rw [h]

theorem parseYear_fixedDigits {n : Nat} (hn : n < 10000) (rest : List Char) :
    parseYear (fixedDigits 4 n ++ rest) = some ((n : Int), rest) := by
  have hlength := length_fixedDigits 4 n
  have hdigits : digits (fixedDigits 4 n) = some n := digits_of_lt (by omega)
  obtain ⟨a, hfirst⟩ : ∃ a, fixedDigits 4 n = Nat.digitChar (n / 1000 % 10) :: a := ⟨_, rfl⟩
  have hsign : ∀ k, k < 10 → Nat.digitChar k ≠ '+' ∧ Nat.digitChar k ≠ '-' := by
    decide
  obtain ⟨hplus, hminus⟩ := hsign (n / 1000 % 10) (Nat.mod_lt _ (by decide))
  have hbranch : parseYear (fixedDigits 4 n ++ rest) =
      (digits ((fixedDigits 4 n ++ rest).take 4)).bind fun (y : Nat) =>
        if (fixedDigits 4 n ++ rest).length < 4 then none
        else some ((y : Int), (fixedDigits 4 n ++ rest).drop 4) := by
    rw [hfirst, List.cons_append]
    unfold parseYear
    split
    · next h => exact absurd (List.cons.inj h).1 hplus
    · next h => exact absurd (List.cons.inj h).1 hminus
    · rfl
  rw [hbranch, List.take_append_of_le_length (by omega), List.drop_append_of_le_length (by omega),
    List.take_of_length_le (by omega), List.drop_of_length_le (by omega), hdigits, Option.bind_some,
    if_neg (by rw [List.length_append]; omega), List.nil_append]

theorem parseMonthDay_fixedDigits {m d : Nat} (hm : m < 100) (hd : d < 100) :
    parseMonthDay ('-' :: (fixedDigits 2 m ++ '-' :: fixedDigits 2 d)) = some ((m : Int), (d : Int)) := by
  have hpair : ∀ n, fixedDigits 2 n = [Nat.digitChar (n / 10 % 10), Nat.digitChar (n % 10)] := by
    intro n
    simp [fixedDigits, List.range_succ]
  have hmonth : digits (fixedDigits 2 m) = some m := digits_of_lt (by omega)
  have hday : digits (fixedDigits 2 d) = some d := digits_of_lt (by omega)
  rw [hpair] at hmonth hday
  rw [hpair, hpair]
  simp only [List.cons_append, List.nil_append, parseMonthDay, hmonth, hday, Option.bind_some,
    Option.map_some]

theorem parseDay_dateText {z : Int} (h0 : 0 ≤ (civil z).1) (h1 : (civil z).1 ≤ 9999) :
    parseDay (dateText z) = some z := by
  obtain ⟨hm, hd⟩ := civil_month_day z
  have hz := daysFromCivil_civil z
  obtain ⟨y, m, d, hc⟩ : ∃ y m d, civil z = (y, m, d) := ⟨_, _, _, rfl⟩
  rw [hc] at h0 h1 hm hd hz
  dsimp only at h0 h1 hm hd hz
  have hyear : parseYear (dateText z) =
      some (y, '-' :: (fixedDigits 2 m.toNat ++ '-' :: fixedDigits 2 d.toNat)) := by
    unfold dateText
    rw [hc]
    dsimp only
    rw [List.append_assoc, List.cons_append, parseYear_fixedDigits (by omega), Int.toNat_of_nonneg h0]
  have hrest := parseMonthDay_fixedDigits (m := m.toNat) (d := d.toNat) (by omega) (by omega)
  rw [Int.toNat_of_nonneg (by omega), Int.toNat_of_nonneg (by omega)] at hrest
  unfold parseDay
  rw [hyear, Option.bind_some]
  dsimp only
  rw [hrest, Option.bind_some]
  dsimp only
  rw [hz, hc, if_pos rfl]

theorem day_bounds {z : Int} (h : 1 ≤ (civil z).1 ∧ (civil z).1 ≤ 9999) :
    -719162 ≤ z ∧ z ≤ 2932896 := by
  obtain ⟨hm, hd⟩ := civil_month_day z
  have hz := daysFromCivil_civil z
  obtain ⟨y, m, d, hc⟩ : ∃ y m d, civil z = (y, m, d) := ⟨_, _, _, rfl⟩
  rw [hc] at h hm hd hz
  dsimp only at h hm hd hz
  unfold daysFromCivil at hz
  dsimp only at hz
  by_cases hmonth : m ≤ 2
  · rw [if_pos hmonth, if_pos hmonth] at hz
    omega
  · rw [if_neg hmonth, if_neg hmonth] at hz
    omega

theorem year_bounds {z : Int} (h0 : -719468 ≤ z) (h1 : z ≤ 2932896) :
    0 ≤ (civil z).1 ∧ (civil z).1 ≤ 9999 := by
  have hdoe : 0 ≤ (z + 719468) % 146097 ∧ (z + 719468) % 146097 ≤ 146096 := by omega
  have hy := yearOfEra_bounds hdoe.1 hdoe.2
  have hd := dayOfYear_bounds hdoe.1 hdoe.2
  have hyear := days_of_years ((z + 719468) % 146097)
  rw [civil_eq]
  dsimp only
  split <;> split <;> omega

end JsDate

end Vici2
