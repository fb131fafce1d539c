import Vici2.Computus
import Vici2.Delimited
import Vici2.EslRouter
import Vici2.Tcpa

/-! The holidays of the states, on which the TCPA gate lets no call pass. The movable ones are
counted from Easter. -/

namespace Vici2

namespace Tcpa

open IsoTime JsDate

/-- `time.Date` at midnight in UTC, as a day from 1970-01-01. -/
def dateUTC (year month day : Int) : Int := makeDay year (month - 1) day

def computeEaster (year : Int) : Int :=
  let a := year.tmod 19
  let b := year.tdiv 100
  let c := year.tmod 100
  let d := b.tdiv 4
  let e := b.tmod 4
  let f := (b + 8).tdiv 25
  let g := (b - f + 1).tdiv 3
  let h := (19 * a + b - d - g + 15).tmod 30
  let i := c.tdiv 4
  let k := c.tmod 4
  let l := (32 + 2 * e + 2 * i - h - k).tmod 7
  let m := (a + 11 * h + 22 * l).tdiv 451
  let month := (h + l - 7 * m + 114).tdiv 31
  let day := (h + l - 7 * m + 114).tmod 31 + 1
  dateUTC year month day

def zeroPad (k n : Nat) : List Char :=
  let ds := Nat.toDigits 10 n
  List.replicate (k - ds.length) '0' ++ ds

/-- `Time.Format` with the layout `2006-01-02`. -/
def formatDate (z : Int) : List Char :=
  let c := civil z
  (if c.1 < 0 then ['-'] else []) ++ zeroPad 4 c.1.natAbs ++ '-' :: fixedDigits 2 c.2.1.toNat ++
    '-' :: fixedDigits 2 c.2.2.toNat

/-- The text of a day that is counted from 0001-01-01. -/
def dateISO (day : Int) : List Char := formatDate (day - 719162)

/-- `fmt.Sprintf` with `%04d`, where a sign counts for one of the four. -/
def sprintfYear (year : Int) : List Char :=
  if year < 0 then '-' :: zeroPad 3 year.natAbs else zeroPad 4 year.natAbs

inductive HolidayKind
  | fixed
  | easterOffset
  | named
  deriving DecidableEq, Repr

structure HolidayMatcher where
  kind : HolidayKind
  value : String
  deriving DecidableEq, Repr

/-- What `expandMatcher` appends for a year. -/
def matchYear (hm : HolidayMatcher) (year : Int) : Option (List Char) :=
  match hm.kind with
  | .fixed =>
    match hm.value.toList.dropWhile (· ≠ '-') with
    | _ :: monthDay => some (sprintfYear year ++ '-' :: monthDay)
    | [] => none
  | .easterOffset =>
    let (offset, ok) := Affinity.atoi hm.value
    if ok then some (formatDate (computeEaster year + offset)) else none
  | .named =>
    if hm.value = "MARDI_GRAS" then some (formatDate (computeEaster year - 47)) else none

def expandMatcher (hm : HolidayMatcher) (baseYear : Int) (years : Nat) : List (List Char) :=
  (List.range years).filterMap fun i : Nat => matchYear hm (baseYear + i)

/-- What the calendar reads of a `StateRule`. -/
structure RuleHolidays where
  code : String
  holidayBlackout : List HolidayMatcher
  deriving DecidableEq, Repr

/-- The dates of each state that has any; a map that was not built has none. -/
structure HolidayCalendar where
  fixed : String → Option (List (List Char))

def HolidayCalendar.isHoliday (hc : HolidayCalendar) (state : String) (date : List Char) : Bool :=
  match hc.fixed state with
  | none => false
  | some dates => dates.contains date

def HolidayCalendar.add (hc : HolidayCalendar) (code : String) (dates : List (List Char)) :
    HolidayCalendar :=
  ⟨Function.update hc.fixed code (some ((hc.fixed code).getD [] ++ dates))⟩

def HolidayCalendar.addRule (hc : HolidayCalendar) (baseYear : Int) (rule : RuleHolidays) :
    HolidayCalendar :=
  rule.holidayBlackout.foldl (fun hc hm => hc.add rule.code (expandMatcher hm baseYear 5)) hc

/-- `build`, with the rules in the order in which the map is walked. -/
def HolidayCalendar.build (rules : List RuleHolidays) (baseYear : Int) : HolidayCalendar :=
  rules.foldl (fun hc rule => hc.addRule baseYear rule) ⟨fun _ => none⟩

section Easter

variable {year : Int}

/-- The days from the 21st of March to a full moon, as `h` has them. -/
def moonAge (year : Int) : Int :=
  (19 * (year % 19) + year / 100 - year / 100 / 4 -
    (year / 100 - (year / 100 + 8) / 25 + 1) / 3 + 15) % 30

/-- The two latest moons are taken a day earlier. -/
theorem moonOfMarch_eq (year : Int) :
    Computus.moonOfMarch year = 21 + if moonAge year = 29 ∨ moonAge year = 28 ∧ 10 < year % 19 then
      moonAge year - 1 else moonAge year := by
  have hlunar : (8 * (year / 100 + 1) + 5) / 25 = (year / 100 - (year / 100 + 8) / 25 + 1) / 3 := by
    omega
  have hsolar : 3 * (year / 100 + 1) / 4 = year / 100 - year / 100 / 4 := by omega
  unfold Computus.moonOfMarch Computus.epact Computus.lunarCorrection Computus.solarCorrection
    Computus.century Computus.goldenNumber moonAge
  rw [hlunar, hsolar]
  dsimp only
  split <;> split <;> split <;> omega

/-- In months of 31 days, `114` is the 22nd of March. -/
theorem dateUTC_of_march {x : Int} (h0 : 0 ≤ x) (h34 : x ≤ 34) :
    dateUTC year ((x + 114).tdiv 31) ((x + 114).tmod 31 + 1) =
      daysFromCivil year 3 (22 + x) := by
  rw [Int.tdiv_eq_ediv_of_nonneg (by omega), Int.tmod_eq_emod_of_nonneg (by omega)]
  have hmonth : (x + 114) / 31 = 3 ∨ (x + 114) / 31 = 4 := by omega
  unfold dateUTC makeDay daysFromCivil
  rcases hmonth with hmarch | hapril
  · rw [hmarch]
    dsimp only
    omega
  · rw [hapril]
    dsimp only
    omega

/-- A week is taken back only from a late moon whose Sunday would be the second. -/
theorem weekBack_eq {a h l : Int} (ha : 0 ≤ a ∧ a ≤ 18) (hh : 0 ≤ h ∧ h ≤ 29)
    (hl : 0 ≤ l ∧ l ≤ 6) :
    (a + 11 * h + 22 * l) / 451 = if (h = 29 ∨ h = 28 ∧ 10 < a) ∧ l = 6 then 1 else 0 := by
  split <;> omega

theorem computeEaster_eq_easter (hyear : 1583 ≤ year) :
    computeEaster year = Computus.easter year := by
  obtain ⟨a, ha⟩ : ∃ a, a = year.tmod 19 := ⟨_, rfl⟩
  obtain ⟨b, hb⟩ : ∃ b, b = year.tdiv 100 := ⟨_, rfl⟩
  obtain ⟨c, hc⟩ : ∃ c, c = year.tmod 100 := ⟨_, rfl⟩
  obtain ⟨d, hd⟩ : ∃ d, d = b.tdiv 4 := ⟨_, rfl⟩
  obtain ⟨e, he⟩ : ∃ e, e = b.tmod 4 := ⟨_, rfl⟩
  obtain ⟨f, hf⟩ : ∃ f, f = (b + 8).tdiv 25 := ⟨_, rfl⟩
  obtain ⟨g, hg⟩ : ∃ g, g = (b - f + 1).tdiv 3 := ⟨_, rfl⟩
  obtain ⟨h, hh⟩ : ∃ h, h = (19 * a + b - d - g + 15).tmod 30 := ⟨_, rfl⟩
  obtain ⟨i, hi⟩ : ∃ i, i = c.tdiv 4 := ⟨_, rfl⟩
  obtain ⟨k, hk⟩ : ∃ k, k = c.tmod 4 := ⟨_, rfl⟩
  obtain ⟨l, hl⟩ : ∃ l, l = (32 + 2 * e + 2 * i - h - k).tmod 7 := ⟨_, rfl⟩
  obtain ⟨m, hm⟩ : ∃ m, m = (a + 11 * h + 22 * l).tdiv 451 := ⟨_, rfl⟩
  have hdate : computeEaster year =
      dateUTC year ((h + l - 7 * m + 114).tdiv 31) ((h + l - 7 * m + 114).tmod 31 + 1) := by
    rw [hm, hl, hk, hi, hh, hg, hf, he, hd, hc, hb, ha]
    rfl
  -- from 1583 on nothing that is divided is negative
  rw [Int.tmod_eq_emod_of_nonneg (by omega)] at ha hc
  rw [Int.tdiv_eq_ediv_of_nonneg (by omega)] at hb
  rw [Int.tdiv_eq_ediv_of_nonneg (by omega)] at hd hf hi
  rw [Int.tmod_eq_emod_of_nonneg (by omega)] at he hk
  rw [Int.tdiv_eq_ediv_of_nonneg (by omega)] at hg
  rw [Int.tmod_eq_emod_of_nonneg (by omega)] at hh
  rw [Int.tmod_eq_emod_of_nonneg (by omega)] at hl
  rw [Int.tdiv_eq_ediv_of_nonneg (by omega),
    weekBack_eq (by omega) (by omega) (by omega)] at hm
  have hage : moonAge year = h := by
    rw [hh, hg, hf, hd, hb, ha]
    rfl
  obtain ⟨moon, hmoon⟩ : ∃ moon, moon = if h = 29 ∨ h = 28 ∧ 10 < a then h - 1 else h := ⟨_, rfl⟩
  have hbounds : 0 ≤ moon ∧ moon ≤ 28 := by
    split at hmoon <;> omega
  have hweek : moon ≤ h + l - 7 * m ∧ h + l - 7 * m ≤ moon + 6 := by
    split at hmoon <;> split at hm <;> omega
  rw [hdate, dateUTC_of_march (by omega) (by omega)]
  unfold Computus.easter Computus.paschalMoon
  rw [moonOfMarch_eq, hage, ← ha, ← hmoon]
  symm
  apply Computus.sundayAfter_eq
  · rw [daysFromCivil_day _ _ (21 + _), daysFromCivil_day _ _ (22 + _)]
    omega
  · rw [daysFromCivil_day _ _ (21 + _), daysFromCivil_day _ _ (22 + _)]
    omega
  · rw [Computus.march_day_of_week, ← hb, ← hc, ← he, ← hi, ← hk]
    omega

/-- From the first full year of the calendar on, as far as `time.Date` reaches. -/
theorem computeEaster_sunday (hyear : 1583 ≤ year) :
    ∃ month day, civil (computeEaster year) = (year, month, day) ∧
      (month = 3 ∧ 22 ≤ day ∧ day ≤ 31 ∨ month = 4 ∧ 1 ≤ day ∧ day ≤ 25) ∧
      Computus.dayOfWeek (computeEaster year) = 0 := by
  rw [computeEaster_eq_easter hyear]
  obtain ⟨month, day, hcivil, hrange⟩ := Computus.civil_easter year
  exact ⟨month, day, hcivil, hrange, Computus.dayOfWeek_easter year⟩

theorem computeEaster_sunday_2024 :
    ∃ month day, civil (computeEaster 2024) = (2024, month, day) ∧
      (month = 3 ∧ 22 ≤ day ∧ day ≤ 31 ∨ month = 4 ∧ 1 ≤ day ∧ day ≤ 25) ∧
      Computus.dayOfWeek (computeEaster 2024) = 0 :=
  computeEaster_sunday (by decide)

/-- A day that is counted from Easter falls on the same day of the week each year. -/
theorem dayOfWeek_computeEaster_add (hyear : 1583 ≤ year) {offset : Int} {w : Fin 7}
    (hw : offset % 7 = w.val) : Computus.dayOfWeek (computeEaster year + offset) = w := by
  have hsunday := Computus.dayOfWeek_easter year
  rw [← computeEaster_eq_easter hyear, Computus.dayOfWeek_eq_iff, Fin.val_zero] at hsunday
  rw [Computus.dayOfWeek_eq_iff]
  omega

theorem mardiGras_goodFriday (hyear : 1583 ≤ year) :
    Computus.dayOfWeek (computeEaster year - 47) = 2 ∧
      Computus.dayOfWeek (computeEaster year - 2) = 5 :=
  ⟨dayOfWeek_computeEaster_add hyear rfl, dayOfWeek_computeEaster_add hyear rfl⟩

end Easter

section Texts

theorem zeroPad_inj {k m n : Nat} (h : zeroPad k m = zeroPad k n) : m = n :=
  Delimited.padded_inj h

theorem dash_not_mem_zeroPad (k n : Nat) : '-' ∉ zeroPad k n := fun hmem =>
  absurd (Delimited.isDigit_of_mem_padded hmem) (by decide)

/-- The year and its sign can be read off the text. -/
theorem signed_zeroPad_inj {y y' : Int}
    (h : (if y < 0 then ['-'] else []) ++ zeroPad 4 y.natAbs =
      (if y' < 0 then ['-'] else []) ++ zeroPad 4 y'.natAbs) : y = y' := by
  split_ifs at h with hy hy' hy'
  · have habs := zeroPad_inj (List.cons.inj h).2
    omega
  · have hmem : '-' ∈ zeroPad 4 y'.natAbs := List.mem_of_head? (congrArg List.head? h).symm
    exact absurd hmem (dash_not_mem_zeroPad 4 _)
  · have hmem : '-' ∈ zeroPad 4 y.natAbs := List.mem_of_head? (congrArg List.head? h)
    exact absurd hmem (dash_not_mem_zeroPad 4 _)
  · have habs := zeroPad_inj h
    omega

theorem formatDate_inj {z z' : Int} (h : formatDate z = formatDate z') : z = z' := by
  obtain ⟨hm, hd⟩ := civil_month_day z
  obtain ⟨hm', hd'⟩ := civil_month_day z'
  unfold formatDate at h
  dsimp only at h
  obtain ⟨hfront, hday⟩ := List.append_inj' h (by simp [length_fixedDigits])
  obtain ⟨hyear, hmonth⟩ := List.append_inj' hfront (by simp [length_fixedDigits])
  have hyeq := signed_zeroPad_inj hyear
  have hmeq := fixedDigits_two_inj (by omega) (by omega) (List.cons.inj hmonth).2
  have hdeq := fixedDigits_two_inj (by omega) (by omega) (List.cons.inj hday).2
  apply civil_inj
  apply Prod.ext
  · exact hyeq
  · apply Prod.ext
    · omega
    · omega

end Texts

section Calendar

variable {hc : HolidayCalendar} {state : String} {date : List Char} {baseYear : Int}

theorem mem_expandMatcher {hm : HolidayMatcher} {years : Nat} :
    date ∈ expandMatcher hm baseYear years ↔
      ∃ year, baseYear ≤ year ∧ year < baseYear + years ∧ matchYear hm year = some date := by
  unfold expandMatcher
  rw [List.mem_filterMap]
  constructor
  · rintro ⟨i, hi, hdate⟩
    have hlt := List.mem_range.1 hi
    exact ⟨baseYear + i, by omega, by omega, hdate⟩
  · rintro ⟨year, hfirst, hlast, hdate⟩
    refine ⟨(year - baseYear).toNat, List.mem_range.2 (by omega), ?_⟩
    have hyear : baseYear + ((year - baseYear).toNat : Int) = year := by omega
    rw [hyear]
    exact hdate

theorem isHoliday_iff_mem :
    hc.isHoliday state date = true ↔ date ∈ (hc.fixed state).getD [] := by
  unfold HolidayCalendar.isHoliday
  cases hc.fixed state with
  | none => simp
  | some dates => simp

theorem isHoliday_add (code : String) (dates : List (List Char)) :
    (hc.add code dates).isHoliday state date = true ↔
      hc.isHoliday state date = true ∨ code = state ∧ date ∈ dates := by
  rw [isHoliday_iff_mem, isHoliday_iff_mem]
  unfold HolidayCalendar.add
  dsimp only
  by_cases hcode : code = state
  · subst hcode
    rw [Function.update_self, Option.getD_some, List.mem_append, and_iff_right rfl]
  · rw [Function.update_of_ne (Ne.symm hcode), iff_comm, or_iff_left (fun h => hcode h.1)]

theorem isHoliday_addRule (rule : RuleHolidays) :
    (hc.addRule baseYear rule).isHoliday state date = true ↔ hc.isHoliday state date = true ∨
      rule.code = state ∧ ∃ hm ∈ rule.holidayBlackout, date ∈ expandMatcher hm baseYear 5 := by
  unfold HolidayCalendar.addRule
  induction rule.holidayBlackout generalizing hc with
  | nil => simp
  | cons hm matchers ih =>
    rw [List.foldl_cons, ih, isHoliday_add, or_assoc, ← and_or_left]
    simp only [List.exists_mem_cons_iff]

theorem isHoliday_foldl (rules : List RuleHolidays) :
    (rules.foldl (fun hc rule => hc.addRule baseYear rule) hc).isHoliday state date = true ↔
      hc.isHoliday state date = true ∨ ∃ rule ∈ rules, rule.code = state ∧
        ∃ hm ∈ rule.holidayBlackout, date ∈ expandMatcher hm baseYear 5 := by
  induction rules generalizing hc with
  | nil => simp
  | cons rule rules ih =>
    rw [List.foldl_cons, ih, isHoliday_addRule, or_assoc]
    simp only [List.exists_mem_cons_iff]

/-- The holidays of a state are those that its rules name in the five years. The order in which
the rules are walked does not show. -/
theorem isHoliday_build_iff (rules : List RuleHolidays) :
    (HolidayCalendar.build rules baseYear).isHoliday state date = true ↔
      ∃ rule ∈ rules, rule.code = state ∧ ∃ hm ∈ rule.holidayBlackout, ∃ year,
        baseYear ≤ year ∧ year < baseYear + 5 ∧ matchYear hm year = some date := by
  unfold HolidayCalendar.build
  rw [isHoliday_foldl, or_iff_right (by simp [HolidayCalendar.isHoliday])]
  simp only [mem_expandMatcher, Nat.cast_ofNat]

theorem isHoliday_build {rules : List RuleHolidays} {rule : RuleHolidays} {hm : HolidayMatcher}
    {year : Int} (hrule : rule ∈ rules) (hhm : hm ∈ rule.holidayBlackout)
    (hfirst : baseYear ≤ year) (hlast : year < baseYear + 5)
    (hmatch : matchYear hm year = some date) :
    (HolidayCalendar.build rules baseYear).isHoliday rule.code date = true :=
  (isHoliday_build_iff rules).2 ⟨rule, hrule, rfl, hm, hhm, year, hfirst, hlast, hmatch⟩

section Louisiana

/-- The rule of the one state that has movable holidays. -/
def louisiana : RuleHolidays := ⟨"LA", [⟨.named, "MARDI_GRAS"⟩, ⟨.easterOffset, "-2"⟩]⟩

theorem matchYear_mardiGras (year : Int) :
    matchYear ⟨.named, "MARDI_GRAS"⟩ year = some (formatDate (computeEaster year - 47)) := rfl

theorem matchYear_goodFriday (year : Int) :
    matchYear ⟨.easterOffset, "-2"⟩ year = some (formatDate (computeEaster year - 2)) := rfl

theorem mardiGras_mem : ⟨.named, "MARDI_GRAS"⟩ ∈ louisiana.holidayBlackout := List.mem_cons_self

theorem goodFriday_mem : ⟨.easterOffset, "-2"⟩ ∈ louisiana.holidayBlackout :=
  List.mem_cons_of_mem _ List.mem_cons_self

variable {rules : List RuleHolidays}

theorem louisiana_holidays (hrule : ∀ rule ∈ rules, rule.code = "LA" → rule = louisiana)
    (hla : louisiana ∈ rules) (z : Int) :
    (HolidayCalendar.build rules baseYear).isHoliday "LA" (formatDate z) = true ↔
      ∃ year, baseYear ≤ year ∧ year < baseYear + 5 ∧
        (z = computeEaster year - 47 ∨ z = computeEaster year - 2) := by
  constructor
  · intro hholiday
    obtain ⟨rule, hmem, hcode, hm, hhm, year, hfirst, hlast, hmatch⟩ :=
      (isHoliday_build_iff rules).1 hholiday
    rw [hrule rule hmem hcode] at hhm
    refine ⟨year, hfirst, hlast, ?_⟩
    rcases List.mem_pair.1 hhm with rfl | rfl
    · rw [matchYear_mardiGras] at hmatch
      exact .inl (formatDate_inj (Option.some.inj hmatch)).symm
    · rw [matchYear_goodFriday] at hmatch
      exact .inr (formatDate_inj (Option.some.inj hmatch)).symm
  · rintro ⟨year, hfirst, hlast, rfl | rfl⟩
    · exact isHoliday_build hla mardiGras_mem hfirst hlast (matchYear_mardiGras year)
    · exact isHoliday_build hla goodFriday_mem hfirst hlast (matchYear_goodFriday year)

/-- The gate lets no call to Louisiana pass on a Good Friday of the five years, whatever the
window. -/
theorem checkState_goodFriday {c : Checker} {req : CheckRequest} {resolved : ResolveResult}
    {partyLocal year : Int} {rule : StateRule} (hla : louisiana ∈ rules)
    (hcal : ∀ state day, c.isHoliday state day =
      (HolidayCalendar.build rules baseYear).isHoliday state (dateISO day))
    (hfirst : baseYear ≤ year) (hlast : year < baseYear + 5)
    (hday : dayOf partyLocal = computeEaster year - 2 + 719162) :
    ∃ r, checkState c req resolved partyLocal "LA" rule = .ok r ∧ r.outcome = .skipUntil ∧
      r.reason = .stateHolidayBlackout := by
  have hdate : dateISO (dayOf partyLocal) = formatDate (computeEaster year - 2) := by
    unfold dateISO
    rw [hday, Int.add_sub_cancel]
  have hholiday : c.isHoliday "LA" (dayOf partyLocal) = true := by
    rw [hcal, hdate]
    exact isHoliday_build hla goodFriday_mem hfirst hlast (matchYear_goodFriday year)
  unfold checkState
  dsimp only
  rw [if_pos hholiday]
  exact ⟨_, rfl, rfl, rfl⟩

/-- The Good Fridays that the API's copy of the calendar lists. -/
example : [2026, 2027, 2028, 2029, 2030].map (fun year => civil (computeEaster year - 2)) =
    [(2026, 4, 3), (2027, 3, 26), (2028, 4, 14), (2029, 3, 30), (2030, 4, 19)] := by decide

end Louisiana

end Calendar

end Tcpa

end Vici2
