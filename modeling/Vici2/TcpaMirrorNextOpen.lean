import Vici2.FirstStop
import Vici2.TcpaMirror

/-! Where the TypeScript mirror sends a deferred call, in zones of a fixed offset. Its
start of the local day is off by what the dates and seconds of the local clock and of
UTC differ by, and every opening it names is off by as much. -/

namespace Vici2

namespace Tcpa

namespace Mirror

/-- A zone that is always `s` seconds ahead of UTC. -/
def fixedZone (s : Int) : Location := ⟨fun _ => s * nsPerSecond⟩

def msPerDay : Int := 86400000

/-- The instant `t`, in milliseconds, is the start of the local calendar day of `d`. -/
structure StartsLocalDay (loc : Location) (d t : Int) : Prop where
  wall : loc.wall (unixMilli t) = dayOf (loc.wall (unixMilli d)) * nsPerDay
  not_after : t ≤ d
  within_day : d < t + msPerDay

def localDay (s d : Int) : Int := dayOf ((fixedZone s).wall (unixMilli d))

/-- The date and the second of the local clock, less those of UTC, in milliseconds. -/
def misdated (s d : Int) : Int :=
  (localDay s d - dayOf (unixMilli d)) * msPerDay +
    (clockSecond ((fixedZone s).wall (unixMilli d)) - clockSecond (unixMilli d)) * 1000

/-- The local clock and UTC show one date and one second. -/
def SameDate (s d : Int) : Prop :=
  localDay s d = dayOf (unixMilli d) ∧
    clockSecond ((fixedZone s).wall (unixMilli d)) = clockSecond (unixMilli d)

/-- The start, in milliseconds, of a day of the local calendar. -/
def dayStart (s day : Int) : Int := day * msPerDay - s * 1000 - 62135596800000

section Clock

variable {s d : Int}

theorem wall_fixedZone (s t : Int) : (fixedZone s).wall t = t + s * nsPerSecond := rfl

theorem clockMinutes_eq (wall : Int) :
    (clockHour wall * 60 + clockMinute wall) * nsPerMinute =
      wall - dayOf wall * nsPerDay - clockSecond wall * nsPerSecond - wall % nsPerSecond := by
  simp only [clockHour, clockMinute, clockSecond, dayOf, nsPerDay, nsPerHour, nsPerMinute,
    nsPerSecond]
  omega

theorem clockSecond_bounds (wall : Int) : 0 ≤ clockSecond wall ∧ clockSecond wall < 60 := by
  simp only [clockSecond, nsPerMinute, nsPerSecond]
  omega

theorem dayOf_bounds (wall : Int) :
    dayOf wall * nsPerDay ≤ wall ∧ wall < dayOf wall * nsPerDay + nsPerDay := by
  simp only [dayOf, nsPerDay, nsPerHour, nsPerMinute, nsPerSecond]
  omega

theorem getZoneOffsetMs_fixedZone (s d : Int) :
    getZoneOffsetMs (fixedZone s) d = s * 1000 - misdated s d := by
  have hwall := clockMinutes_eq ((fixedZone s).wall (unixMilli d))
  have hutc := clockMinutes_eq (unixMilli d)
  have hsub : (fixedZone s).wall (unixMilli d) % nsPerSecond = unixMilli d % nsPerSecond := by
    rw [wall_fixedZone, Int.add_mul_emod_self_right]
  rw [hsub] at hwall
  have hzone := wall_fixedZone s (unixMilli d)
  unfold getZoneOffsetMs misdated localDay
  simp only [nsPerDay, nsPerHour, nsPerMinute, nsPerSecond, msPerDay] at hwall hutc hzone ⊢
  omega

theorem localMidnightUtcMs_fixedZone (s d : Int) :
    localMidnightUtcMs (fixedZone s) d = dayStart s (localDay s d) + misdated s d := by
  unfold localMidnightUtcMs
  rw [getZoneOffsetMs_fixedZone]
  unfold dayStart localDay
  simp only [unixEpoch, nsPerDay, nsPerHour, nsPerMinute, nsPerSecond, msPerDay]
  omega

theorem startsLocalDay_dayStart (s d : Int) :
    StartsLocalDay (fixedZone s) d (dayStart s (localDay s d)) := by
  have hday := dayOf_bounds ((fixedZone s).wall (unixMilli d))
  have hzone := wall_fixedZone s (unixMilli d)
  unfold dayStart localDay
  refine ⟨?_, ?_, ?_⟩
  · rw [wall_fixedZone]
    simp only [unixMilli, unixEpoch, nsPerDay, nsPerHour, nsPerMinute, nsPerSecond, msPerDay]
    omega
  · simp only [unixMilli, unixEpoch, nsPerDay, nsPerHour, nsPerMinute, nsPerSecond, msPerDay] at hday hzone ⊢
    omega
  · simp only [unixMilli, unixEpoch, nsPerDay, nsPerHour, nsPerMinute, nsPerSecond, msPerDay] at hday hzone ⊢
    omega

theorem StartsLocalDay.unique {t t' : Int} (h : StartsLocalDay (fixedZone s) d t)
    (h' : StartsLocalDay (fixedZone s) d t') : t = t' := by
  have hwall := h.wall.trans h'.wall.symm
  rw [wall_fixedZone, wall_fixedZone] at hwall
  unfold unixMilli at hwall
  omega

theorem misdated_eq_zero_iff : misdated s d = 0 ↔ SameDate s d := by
  have hwall := clockSecond_bounds ((fixedZone s).wall (unixMilli d))
  have hutc := clockSecond_bounds (unixMilli d)
  unfold misdated SameDate msPerDay
  constructor
  · intro h
    constructor
    · omega
    · omega
  · rintro ⟨hday, hsecond⟩
    rw [hday, hsecond]
    omega

theorem localMidnightUtcMs_starts_iff (s d : Int) :
    StartsLocalDay (fixedZone s) d (localMidnightUtcMs (fixedZone s) d) ↔ SameDate s d := by
  have htrue := startsLocalDay_dayStart s d
  have hmidnight := localMidnightUtcMs_fixedZone s d
  rw [← misdated_eq_zero_iff]
  constructor
  · intro h
    have heq := h.unique htrue
    omega
  · intro hzero
    rw [hmidnight, hzero, Int.add_zero]
    exact htrue

/-- A day later the local clock and UTC stand as they do now. -/
theorem later_day (s d : Int) (k : Nat) :
    localDay s (d + k * msPerDay) = localDay s d + k ∧ misdated s (d + k * msPerDay) = misdated s d := by
  have hunix : unixMilli (d + k * msPerDay) = unixMilli d + k * nsPerDay := by
    have hms : nsPerDay = msPerDay * 1000000 := by decide
    unfold unixMilli
    rw [hms, Int.add_mul, Int.mul_assoc, Int.add_assoc]
  have hday : ∀ w : Int, dayOf (w + k * nsPerDay) = dayOf w + k := by
    intro w
    unfold dayOf
    exact Int.add_mul_ediv_right _ _ (by decide)
  have hsecond : ∀ w : Int, clockSecond (w + k * nsPerDay) = clockSecond w := by
    intro w
    simp only [clockSecond, nsPerDay, nsPerHour, nsPerMinute, nsPerSecond]
    omega
  have hwall : (fixedZone s).wall (unixMilli (d + k * msPerDay)) =
      (fixedZone s).wall (unixMilli d) + k * nsPerDay := by
    rw [hunix, wall_fixedZone, wall_fixedZone]
    omega
  unfold misdated localDay
  rw [hwall, hunix, hday, hday, hsecond, hsecond]
  exact ⟨rfl, by rw [Int.add_sub_add_right]⟩

end Clock

section Search

variable (req : CheckRequest) (rule : Option StateRule) (hols : Option (Int → Bool))

def holidayOn (day : Int) : Bool := (hols.map fun h => h day).getD false

def blackoutOn (day : Int) : Bool :=
  ((rule.bind fun r => r.perDow (weekday day)).map isBlackout).getD false

/-- The `k`th day after `day` is the first that is neither a holiday nor a blackout. -/
structure FirstClear (day : Int) (k : Nat) : Prop where
  pos : 0 < k
  within : k ≤ 14
  clear : (holidayOn hols (day + k) || blackoutOn rule (day + k)) = false
  passed : ∀ j : Nat, 0 < j → j < k → (holidayOn hols (day + j) || blackoutOn rule (day + j)) = true

def dayWindow (day : Int) : Window :=
  withCampaignWindow
    (withAutoDialerWindow (withStateWindow fedFloor (rule.bind fun r => r.perDow (weekday day)))
      (req.isAutoDialer.getD false) rule)
    req.campaignWindow

def closedOn (day : Int) : Bool := rule.isSome && holidayOn hols day || blackoutOn rule day

def barredOn (day : Int) : Bool :=
  req.isAutoDialer.getD false && (rule.map fun r => barsAutoDialer r (weekday day)).getD false

def minutesSinceMidnight (wall : Int) : Int := secondsSinceMidnight wall / 60 * 60

/-- The day's window is still to open. -/
def stillToOpen (wall : Int) : Bool :=
  !closedOn rule hols (dayOf wall) && !barredOn req rule (dayOf wall) &&
    !isBlackout (dayWindow req rule (dayOf wall)) &&
    decide (minutesSinceMidnight wall * nsPerSecond < (dayWindow req rule (dayOf wall)).openLocal)

/-- The opening that the search takes into later days. -/
def carriedOpening (day : Int) : Int :=
  if closedOn rule hols day then fedFloor.openLocal
  else if barredOn req rule day then
    ((rule.bind StateRule.autoDialerOnly).map Window.openLocal).getD fedFloor.openLocal
  else if isBlackout (dayWindow req rule day) then fedFloor.openLocal
  else (dayWindow req rule day).openLocal

/-- The opening of the day that the rules send the call to, counted from the start of
that day and moved by what the clocks differ by, is still to come. -/
structure OpensAhead (s now : Int) : Prop where
  today : stillToOpen req rule hols ((fixedZone s).wall (unixMilli now)) = true →
    now < atOpen (dayStart s (localDay s now) + misdated s now)
      (dayWindow req rule (localDay s now)).openLocal
  later : stillToOpen req rule hols ((fixedZone s).wall (unixMilli now)) = false →
    ∀ k : Nat, FirstClear rule hols (localDay s now) k →
      now < atOpen (dayStart s (localDay s now + k) + misdated s now)
        (carriedOpening req rule hols (localDay s now))

end Search

section Ahead

variable {req : CheckRequest} {rule : Option StateRule} {hols : Option (Int → Bool)} {s : Int}

theorem FirstClear.unique {day : Int} {k k' : Nat} (h : FirstClear rule hols day k)
    (h' : FirstClear rule hols day k') : k = k' := by
  rcases Nat.lt_trichotomy k k' with hlt | heq | hlt
  · have hclosed := h'.passed k h.pos hlt
    rw [h.clear] at hclosed
    cases hclosed
  · exact heq
  · have hclosed := h.passed k' h'.pos hlt
    rw [h'.clear] at hclosed
    cases hclosed

theorem scanDays_scans (s : Int) (rule : Option StateRule) (hols : Option (Int → Bool))
    (openLocal fallback : Int) :
    Scans (fun t => holidayOn hols (localDay s t) || blackoutOn rule (localDay s t))
      (fun t => t + msPerDay) (fun t => atOpen (localMidnightUtcMs (fixedZone s) t) openLocal)
      fallback (scanDays (fixedZone s) rule hols openLocal fallback) where
  none_left := fun _ => rfl
  pass := by
    intro n t hp
    rw [Bool.or_eq_true] at hp
    rw [scanDays]
    exact if_pos hp
  stop := by
    intro n t hp
    rw [← Bool.not_eq_true, Bool.or_eq_true] at hp
    rw [scanDays]
    exact if_neg hp

theorem nextDayOpenMs_cases (d openLocal : Int) (rule : Option StateRule)
    (hols : Option (Int → Bool)) :
    (∃ k, FirstClear rule hols (localDay s d) k ∧
        nextDayOpenMs (fixedZone s) d openLocal rule hols =
          atOpen (dayStart s (localDay s d + k) + misdated s d) openLocal) ∨
      ((∀ k, ¬ FirstClear rule hols (localDay s d) k) ∧
        nextDayOpenMs (fixedZone s) d openLocal rule hols =
          atOpen (d + 7 * 86400000) fedFloor.openLocal) := by
  have hplace : ∀ j : Nat, (fun t => t + msPerDay)^[j] (d + msPerDay) = d + (j + 1 : Nat) * msPerDay := by
    intro j
    induction j with
    | zero => rw [Function.iterate_zero, id_eq, Int.natCast_one, Int.one_mul]
    | succ j ih =>
      rw [Function.iterate_succ_apply', ih, Int.natCast_add (j + 1) 1, Int.add_mul]
      omega
  have hday : ∀ j : Nat, localDay s ((fun t => t + msPerDay)^[j] (d + msPerDay)) =
      localDay s d + (j + 1 : Nat) := by
    intro j
    rw [hplace j]
    exact (later_day s d (j + 1)).1
  have hscan := (scanDays_scans s rule hols openLocal
    (atOpen (d + 7 * 86400000) fedFloor.openLocal)).cases 14 (d + msPerDay)
  simp only [hday] at hscan
  obtain ⟨k, hk, hpassed, hclear, he⟩ | ⟨hpassed, he⟩ := hscan
  · refine Or.inl ⟨k + 1, ⟨by omega, by omega, hclear, fun j hj hlt => ?_⟩, ?_⟩
    · have hj' := hpassed (j - 1) (by omega)
      rw [Nat.sub_add_cancel hj] at hj'
      exact hj'
    · obtain ⟨hlater, hsame⟩ := later_day s d (k + 1)
      rw [hplace k, localMidnightUtcMs_fixedZone, hlater, hsame] at he
      exact he
  · refine Or.inr ⟨fun k hk => ?_, he⟩
    have hclosed := hpassed (k - 1) (by have := hk.within; have := hk.pos; omega)
    rw [Nat.sub_add_cancel hk.pos, hk.clear] at hclosed
    cases hclosed

theorem lt_atOpen_fallback (d : Int) : d < atOpen (d + 7 * 86400000) fedFloor.openLocal := by
  have hsum : (d + 7 * 86400000) * 1000000 + fedFloor.openLocal =
      (d + 7 * 86400000 + 28800000) * 1000000 := by
    have hfed : fedFloor.openLocal = 28800000 * 1000000 := by decide
    rw [hfed]
    omega
  unfold atOpen
  rw [hsum, Int.mul_tdiv_cancel _ (by decide)]
  omega

/-- A search is ahead of the call exactly when the day it stops at opens ahead of it. -/
theorem lt_nextDayOpenMs_iff (d openLocal : Int) :
    d < nextDayOpenMs (fixedZone s) d openLocal rule hols ↔
      ∀ k : Nat, FirstClear rule hols (localDay s d) k →
        d < atOpen (dayStart s (localDay s d + k) + misdated s d) openLocal := by
  obtain ⟨k, hk, he⟩ | ⟨hnone, he⟩ := @nextDayOpenMs_cases s d openLocal rule hols
  · rw [he]
    constructor
    · intro h k' hk'
      rw [← hk.unique hk']
      exact h
    · intro h
      exact h k hk
  · rw [he]
    exact iff_of_true (lt_atOpen_fallback d) fun k hk => absurd hk (hnone k)

def AheadOf (now : Int) (r : CheckResult) : Prop := ∃ n, r.nextOpen = some n ∧ now < n

theorem aheadOf_iff {now n : Int} {r : CheckResult} (h : r.nextOpen = some n) :
    AheadOf now r ↔ now < n := by
  unfold AheadOf
  rw [h]
  simp

theorem opensAhead_iff_today {now : Int}
    (h : stillToOpen req rule hols ((fixedZone s).wall (unixMilli now)) = true) :
    OpensAhead req rule hols s now ↔
      now < atOpen (dayStart s (localDay s now) + misdated s now)
        (dayWindow req rule (localDay s now)).openLocal := by
  constructor
  · intro hahead
    exact hahead.today h
  · intro hahead
    refine ⟨fun _ => hahead, fun hnot => ?_⟩
    rw [h] at hnot
    cases hnot

theorem opensAhead_iff_search {now openLocal : Int}
    (h : stillToOpen req rule hols ((fixedZone s).wall (unixMilli now)) = false)
    (hopen : carriedOpening req rule hols (localDay s now) = openLocal) :
    OpensAhead req rule hols s now ↔
      now < nextDayOpenMs (fixedZone s) now openLocal rule hols := by
  rw [lt_nextDayOpenMs_iff]
  constructor
  · intro hahead k hk
    rw [← hopen]
    exact hahead.later h k hk
  · intro hahead
    refine ⟨fun hnot => ?_, fun _ k hk => ?_⟩
    · rw [h] at hnot
      cases hnot
    · rw [hopen]
      exact hahead k hk

theorem checkWindow_ahead_iff {z : Local} (hz : z.loc = fixedZone s)
    (hclosed : closedOn rule hols (localDay s z.now) = false)
    (hbarred : barredOn req rule (localDay s z.now) = false)
    (hskip : (checkWindow req z rule hols (dayWindow req rule (localDay s z.now))).outcome = .skipUntil) :
    AheadOf z.now (checkWindow req z rule hols (dayWindow req rule (localDay s z.now))) ↔
      OpensAhead req rule hols s z.now := by
  obtain ⟨eff, heff⟩ : ∃ eff, dayWindow req rule (localDay s z.now) = eff := ⟨_, rfl⟩
  have hstill : stillToOpen req rule hols ((fixedZone s).wall (unixMilli z.now)) =
      (!isBlackout eff && decide (minutesSinceMidnight ((fixedZone s).wall (unixMilli z.now)) *
        nsPerSecond < eff.openLocal)) := by
    rw [← heff]
    simp [stillToOpen, show dayOf ((fixedZone s).wall (unixMilli z.now)) = localDay s z.now from rfl,
      hclosed, hbarred]
  have hcarried : carriedOpening req rule hols (localDay s z.now) =
      if isBlackout eff then fedFloor.openLocal else eff.openLocal := by
    simp [carriedOpening, hclosed, hbarred, heff]
  rw [heff] at hskip ⊢
  unfold checkWindow at hskip ⊢
  dsimp only at hskip ⊢
  rw [hz] at hskip ⊢
  by_cases hb : isBlackout eff = true
  · rw [if_pos hb] at hcarried
    rw [if_pos hb, aheadOf_iff rfl]
    exact (opensAhead_iff_search (by simp [hstill, hb]) hcarried).symm
  · rw [if_neg hb] at hcarried hskip ⊢
    by_cases hbefore : minutesSinceMidnight ((fixedZone s).wall (unixMilli z.now)) * nsPerSecond <
        eff.openLocal
    · have hbefore' := hbefore
      unfold minutesSinceMidnight at hbefore'
      rw [if_pos hbefore', aheadOf_iff rfl, localMidnightUtcMs_fixedZone, ← heff]
      exact (opensAhead_iff_today (by simp [hstill, hb, hbefore])).symm
    · have hlater := opensAhead_iff_search (by simp [hstill, hbefore]) hcarried
      unfold minutesSinceMidnight at hbefore
      rw [if_neg hbefore] at hskip ⊢
      rw [hlater]
      split at hskip
      · next hafter =>
        rw [if_pos hafter]
        exact aheadOf_iff rfl
      · next hafter =>
        rw [if_neg hafter]
        split at hskip
        · next hguard =>
          rw [if_pos hguard]
          exact aheadOf_iff rfl
        · cases hskip

theorem checkLocal_ahead_iff {z : Local} (hz : z.loc = fixedZone s)
    (hskip : (checkLocal req z rule hols).outcome = .skipUntil) :
    AheadOf z.now (checkLocal req z rule hols) ↔ OpensAhead req rule hols s z.now := by
  have hlocal : dayOf (z.loc.wall (unixMilli z.now)) = localDay s z.now := by
    rw [hz]
    rfl
  have hstill : closedOn rule hols (localDay s z.now) = true ∨
      barredOn req rule (localDay s z.now) = true →
        stillToOpen req rule hols ((fixedZone s).wall (unixMilli z.now)) = false := by
    intro h
    have hday : dayOf ((fixedZone s).wall (unixMilli z.now)) = localDay s z.now := rfl
    unfold stillToOpen
    rw [hday]
    rcases h with h | h
    · simp [h]
    · simp [h]
  have hclosedOn : closedOn rule hols (localDay s z.now) = true ↔
      (rule.isSome = true ∧ holidayOn hols (localDay s z.now) = true) ∨
        blackoutOn rule (localDay s z.now) = true := by
    simp [closedOn]
  have hsearch : ∀ openLocal, carriedOpening req rule hols (localDay s z.now) = openLocal →
      closedOn rule hols (localDay s z.now) = true ∨
        barredOn req rule (localDay s z.now) = true →
      ∀ r : CheckResult, r.nextOpen = some (nextDayOpenMs z.loc z.now openLocal rule hols) →
        (AheadOf z.now r ↔ OpensAhead req rule hols s z.now) := by
    intro openLocal hopen h r hr
    rw [aheadOf_iff hr, hz]
    exact (opensAhead_iff_search (hstill h) hopen).symm
  unfold checkLocal localDow at hskip ⊢
  dsimp only at hskip ⊢
  rw [hlocal, ← holidayOn.eq_1 hols, ← blackoutOn.eq_1 rule] at hskip ⊢
  by_cases hh : rule.isSome = true ∧ holidayOn hols (localDay s z.now) = true
  · have hclosed := hclosedOn.2 (Or.inl hh)
    rw [if_pos hh]
    exact hsearch _ (by simp [carriedOpening, hclosed]) (Or.inl hclosed) _ rfl
  · by_cases hb : blackoutOn rule (localDay s z.now) = true
    · have hclosed := hclosedOn.2 (Or.inr hb)
      rw [if_neg hh, if_pos hb]
      exact hsearch _ (by simp [carriedOpening, hclosed]) (Or.inl hclosed) _ rfl
    · have hclosed : closedOn rule hols (localDay s z.now) = false := by
        cases he : closedOn rule hols (localDay s z.now) with
        | false => rfl
        | true => exact absurd (hclosedOn.1 he) (by simp [hh, hb])
      by_cases ha : barredOn req rule (localDay s z.now) = true
      · have hif : req.isAutoDialer.getD false = true ∧
            (rule.map fun r => barsAutoDialer r (weekday (localDay s z.now))).getD false = true := by
          simpa [barredOn] using ha
        rw [if_neg hh, if_neg hb, if_pos hif]
        exact hsearch _ (by simp [carriedOpening, hclosed, ha]) (Or.inr ha) _ rfl
      · have hif : ¬ (req.isAutoDialer.getD false = true ∧
            (rule.map fun r => barsAutoDialer r (weekday (localDay s z.now))).getD false = true) := by
          simpa [barredOn] using ha
        have hbarred : barredOn req rule (localDay s z.now) = false := by simpa using ha
        rw [if_neg hh, if_neg hb, if_neg hif] at hskip ⊢
        exact checkWindow_ahead_iff hz hclosed hbarred hskip

end Ahead

/-- The entry of a table for the state of the request, if it names one. -/
def ofState {α : Type} (table : String → Option α) (req : CheckRequest) : Option α :=
  req.state.bind fun state => if state = "" then none else table state

theorem checkLocal_tzIana (req : CheckRequest) (z : Local) (rule : Option StateRule)
    (hols : Option (Int → Bool)) : (checkLocal req z rule hols).tzIana = some z.tzIana := by
  unfold checkLocal checkWindow
  dsimp only
  split_ifs <;> rfl

theorem check_checkLocal {m : Tables} {req : CheckRequest} {r : CheckResult} {tz : String}
    {loc : Location} (h : check m req = .ok r) (htz : r.tzIana = some tz) (hloc : m.zone tz = some loc) :
    ∃ z : Local, z.loc = loc ∧ z.now = req.when.getD m.now ∧
      r = checkLocal req z (ofState m.rules req) (ofState m.holidays req) := by
  unfold check at h
  cases hres : resolveTimezone req with
  | error e =>
    rw [hres] at h
    cases h
  | ok resolved =>
    simp only [hres, bind, Except.bind] at h
    cases resolved with
    | none =>
      dsimp only at h
      split at h
      · obtain rfl := Except.ok.inj h
        cases htz
      · obtain rfl := Except.ok.inj h
        cases htz
    | some zone =>
      obtain ⟨tzIana, confidence⟩ := zone
      dsimp only at h
      cases hzone : m.zone tzIana with
      | none =>
        rw [hzone] at h
        cases h
      | some loc' =>
        rw [hzone] at h
        dsimp only at h
        obtain ⟨z, hz⟩ : ∃ z : Local, z = ⟨tzIana, confidence, loc', req.when.getD m.now⟩ := ⟨_, rfl⟩
        have hr : r = checkLocal req z (ofState m.rules req) (ofState m.holidays req) := by
          unfold ofState
          rw [← hz] at h
          cases hstate : req.state with
          | none =>
            rw [hstate] at h
            exact (Except.ok.inj h).symm
          | some state =>
            rw [hstate] at h
            dsimp only at h
            by_cases hempty : state = ""
            · rw [if_pos hempty] at h
              simp only [Option.bind_some, if_pos hempty]
              exact (Except.ok.inj h).symm
            · rw [if_neg hempty] at h
              split at h
              · cases h
              · simp only [Option.bind_some, if_neg hempty]
                exact (Except.ok.inj h).symm
        rw [hr, checkLocal_tzIana, hz] at htz
        obtain rfl := Option.some.inj htz
        obtain rfl := Option.some.inj (hzone.symm.trans hloc)
        exact ⟨z, by rw [hz], by rw [hz], hr⟩

/-- The start of the local day, and every opening that a deferred call is sent to, for
zones of a fixed offset. -/
theorem midnight_starts_and_skip_ahead_iff (s : Int) :
    (∀ d, StartsLocalDay (fixedZone s) d (localMidnightUtcMs (fixedZone s) d) ↔ SameDate s d) ∧
      ∀ m req r tz, check m req = .ok r → r.outcome = .skipUntil → r.tzIana = some tz →
        m.zone tz = some (fixedZone s) →
          (AheadOf (req.when.getD m.now) r ↔
            OpensAhead req (ofState m.rules req) (ofState m.holidays req) s
              (req.when.getD m.now)) := by
  refine ⟨localMidnightUtcMs_starts_iff s, ?_⟩
  intro m req r tz hcheck hskip htz hzone
  obtain ⟨z, hloc, hnow, rfl⟩ := check_checkLocal hcheck htz hzone
  rw [← hnow]
  exact checkLocal_ahead_iff hloc hskip

/-- A zone five hours behind UTC, without rules or holidays. -/
def gmtFiveTables : Tables where
  rules := fun _ => none
  holidays := fun _ => none
  zone := fun tz => if tz = "Etc/GMT+5" then some (fixedZone (-18000)) else none
  now := 0
  keys := fun _ _ => ⟨rfl, rfl⟩

def gmtFiveRequest (when : Int) : CheckRequest where
  knownTimezone := some "Etc/GMT+5"
  state := none
  campaignWindow := none
  unknownTzPolicy := none
  enforcementPoint := .manual
  when := some when
  isAutoDialer := none

/-- 2026-01-17, 02:30 in UTC: in the zone it is Friday, 21:30. -/
def fridayNight : Int := 1768617000000

/-- 2026-01-16, 12:00 in UTC: in the zone it is Friday, 07:00. -/
def fridayMorning : Int := 1768564800000

theorem friday_morning_sent_ahead :
    ∃ r, check gmtFiveTables (gmtFiveRequest fridayMorning) = .ok r ∧ r.outcome = .skipUntil ∧
      r.tzIana = some "Etc/GMT+5" ∧
      (AheadOf fridayMorning r ↔
        OpensAhead (gmtFiveRequest fridayMorning) none none (-18000) fridayMorning) :=
  ⟨_, rfl, rfl, rfl, (midnight_starts_and_skip_ahead_iff (-18000)).2 gmtFiveTables
    (gmtFiveRequest fridayMorning) _ "Etc/GMT+5" rfl rfl rfl rfl⟩

theorem friday_night_sent_to_friday_morning :
    ¬ StartsLocalDay (fixedZone (-18000)) fridayNight
        (localMidnightUtcMs (fixedZone (-18000)) fridayNight) ∧
      ∃ r, check gmtFiveTables (gmtFiveRequest fridayNight) = .ok r ∧ r.outcome = .skipUntil ∧
        r.reason = .afterWindow ∧ r.nextOpen = some 1768568400000 ∧ ¬ AheadOf fridayNight r := by
  constructor
  · intro h
    exact absurd h.within_day (by decide)
  · refine ⟨_, rfl, rfl, rfl, rfl, ?_⟩
    rintro ⟨n, hn, hlt⟩
    obtain rfl := Option.some.inj hn
    exact absurd hlt (by decide)

end Mirror

end Tcpa

end Vici2
