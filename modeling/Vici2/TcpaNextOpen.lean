import Vici2.FirstStop
import Vici2.TcpaVerdict

/-! Where the gate sends a call that it defers. The opening it names is a time of
day after the start of some day, both read off the rules and the calendar; what
the gate answers at an instant is read off the window of the day the instant
falls on. -/

namespace Vici2

namespace Tcpa

/-- The same request asked at the instant `u`, which may be the zero time. -/
def checkAt (c : Checker) (req : CheckRequest) (u : Int) : Except String CheckResult :=
  check { c with now := u } { req with when := u }

section Days

variable (c : Checker) (req : CheckRequest) (state : String)

/-- The rule as the code reads it, the zero rule for a state without one. -/
def ruleOf : StateRule := (c.rules state).getD .zero

def closedDay (d : Int) : Bool :=
  (c.rules state).any fun rule => c.isHoliday state d || (rule.perDow (weekday d)).isBlackout

def barredDay (d : Int) : Bool :=
  (c.rules state).any fun rule => req.isAutoDialer &&
    (barsAutoDialer rule (weekday d) || rule.autoDialerOnly.any Window.isBlackout)

def dayWindow (d : Int) : Window :=
  applicable (c.rules state) req.isAutoDialer req.campaignWindow (weekday d)

/-- The local clock shows a time at which the day's own window lets the call through. -/
structure OpenAt (wall : Int) : Prop where
  day_open : closedDay c state (dayOf wall) = false
  not_barred : barredDay c req state (dayOf wall) = false
  opened : (dayWindow c req state (dayOf wall)).openLocal ≤ partyMins wall
  not_closed : partyMins wall < (dayWindow c req state (dayOf wall)).closeLocal
  guard : req.enforcementPoint = .originate →
    partyElapsed wall + boundaryGuard ≤ (dayWindow c req state (dayOf wall)).closeLocal

def stillToOpen (wall : Int) : Bool :=
  !closedDay c state (dayOf wall) && !barredDay c req state (dayOf wall) &&
    !(dayWindow c req state (dayOf wall)).isBlackout &&
    decide (partyMins wall < (dayWindow c req state (dayOf wall)).openLocal)

def stateOpening (d : Int) : Int :=
  (withStateWindow fedFloor ((ruleOf c state).perDow (weekday d))).openLocal

/-- The opening of the request's own day, which the search carries into later days. -/
def carriedOpening (d : Int) : Int :=
  if closedDay c state d then fedFloor.openLocal
  else if barredDay c req state d then stateOpening c state d
  else (dayWindow c req state d).openLocal

def passedOver (rule : StateRule) (d : Int) : Bool :=
  c.isHoliday rule.code d || (rule.perDow (weekday d)).isBlackout

/-- The `k`th day the search looks at; where the clock changes at midnight it may
look at one day twice. -/
def visitedDay (loc : Location) (wall : Int) (k : Nat) : Int :=
  dayOf (loc.wall ((fun t => loc.addDays t 1)^[k] (loc.addDays (midnightLocal loc wall) 1)))

/-- The start of a day and the time after it that a deferred call is sent to. -/
inductive Reopening (loc : Location) (wall : Int) : Int → Int → Prop
  | today (h : stillToOpen c req state wall = true) :
    Reopening loc wall (midnightLocal loc wall) (dayWindow c req state (dayOf wall)).openLocal
  | later (h : stillToOpen c req state wall = false) (k : Nat) (hk : k < 14)
    (hpassed : ∀ j < k, passedOver c (ruleOf c state) (visitedDay loc wall j) = true)
    (hopen : passedOver c (ruleOf c state) (visitedDay loc wall k) = false) :
    Reopening loc wall (loc.fromWall (visitedDay loc wall k * nsPerDay))
      (max (carriedOpening c req state (dayOf wall)) (stateOpening c state (visitedDay loc wall k)))
  | afterTwoWeeks (h : stillToOpen c req state wall = false)
    (hpassed : ∀ j < 14, passedOver c (ruleOf c state) (visitedDay loc wall j) = true) :
    Reopening loc wall (loc.addDays (midnightLocal loc wall) 7) fedFloor.openLocal

/-- The result sends the call to the opening that the rules and the calendar give. -/
def DeferredTo (loc : Location) (wall : Int) (r : CheckResult) : Prop :=
  ∃ start time, Reopening c req state loc wall start time ∧ r.nextOpen = some (start + time)

/-- The opening is after the request, and the window of the day it falls on lets
the call through. -/
def ReopensInWindow (loc : Location) (t : Int) : Prop :=
  ∃ start time, Reopening c req state loc (loc.wall t) start time ∧ t < start + time ∧
    OpenAt c req state (loc.wall (start + time))

/-- The first whole minute of the day's window. -/
def firstMinute (d : Int) : Int :=
  -(-(dayWindow c req state d).openLocal / nsPerMinute) * nsPerMinute

/-- The day's window lets the call through at its first whole minute. -/
structure HasOpening (d : Int) : Prop where
  day_open : closedDay c state d = false
  not_barred : barredDay c req state d = false
  not_closed : firstMinute c req state d < (dayWindow c req state d).closeLocal
  guard : req.enforcementPoint = .originate →
    firstMinute c req state d + boundaryGuard ≤ (dayWindow c req state d).closeLocal

/-- On the clock of the request, no day's window opens after the request and
before the opening that the call is sent to. -/
def ReopensFirst (loc : Location) (t : Int) : Prop :=
  ∃ start time, Reopening c req state loc (loc.wall t) start time ∧
    ∀ d, HasOpening c req state d →
      loc.wall t < d * nsPerDay + firstMinute c req state d →
        start + time + loc.offset t ≤ d * nsPerDay + firstMinute c req state d

end Days

section Search

variable {c : Checker} {req : CheckRequest} {state : String} {loc : Location} {wall : Int}

theorem Reopening.unique {start start' time time' : Int}
    (h : Reopening c req state loc wall start time)
    (h' : Reopening c req state loc wall start' time') : start = start' ∧ time = time' := by
  cases h with
  | today hstill =>
    cases h' with
    | today => exact ⟨rfl, rfl⟩
    | later hnot => simp [hstill] at hnot
    | afterTwoWeeks hnot => simp [hstill] at hnot
  | later hnot k hk hpassed hopen =>
    cases h' with
    | today hstill => simp [hstill] at hnot
    | later _ k' _ hpassed' hopen' =>
      rcases Nat.lt_trichotomy k k' with hlt | heq | hlt
      · simp [hpassed' k hlt] at hopen
      · subst heq
        exact ⟨rfl, rfl⟩
      · simp [hpassed k' hlt] at hopen'
    | afterTwoWeeks _ hpassed' => simp [hpassed' k hk] at hopen
  | afterTwoWeeks hnot hpassed =>
    cases h' with
    | today hstill => simp [hstill] at hnot
    | later _ k' hk' _ hopen' => simp [hpassed k' hk'] at hopen'
    | afterTwoWeeks => exact ⟨rfl, rfl⟩

theorem scanOpen_scans (c : Checker) (loc : Location) (rule : StateRule) (openOn : Window → Int)
    (fallback : Int) : Scans (fun t => passedOver c rule (dayOf (loc.wall t)))
      (fun t => loc.addDays t 1)
      (fun t => loc.fromWall (dayOf (loc.wall t) * nsPerDay) +
        openOn (rule.perDow (weekday (dayOf (loc.wall t)))))
      fallback (scanOpen c loc rule openOn fallback) where
  none_left := fun _ => rfl
  pass := by
    intro n t hp
    have hif : c.isHoliday rule.code (dayOf (loc.wall t)) = true ∨
        (rule.perDow (weekday (dayOf (loc.wall t)))).isBlackout = true := by
      simpa [passedOver] using hp
    simp only [scanOpen, if_pos hif]
  stop := by
    intro n t hp
    have hif : ¬ (c.isHoliday rule.code (dayOf (loc.wall t)) = true ∨
        (rule.perDow (weekday (dayOf (loc.wall t)))).isBlackout = true) := by
      simpa [passedOver] using hp
    simp only [scanOpen, if_neg hif]

theorem reopening_of_scan {openOn : Window → Int}
    (hopen : ∀ w, openOn w =
      max (carriedOpening c req state (dayOf wall)) (withStateWindow fedFloor w).openLocal)
    (hstill : stillToOpen c req state wall = false) :
    ∃ start time, Reopening c req state loc wall start time ∧
      scanOpen c loc (ruleOf c state) openOn
        (loc.addDays (midnightLocal loc wall) 7 + fedFloor.openLocal) 14
        (loc.addDays (midnightLocal loc wall) 1) = start + time := by
  obtain ⟨k, hk, hpassed, hclear, he⟩ | ⟨hpassed, he⟩ :=
    (scanOpen_scans c loc (ruleOf c state) openOn
      (loc.addDays (midnightLocal loc wall) 7 + fedFloor.openLocal)).cases 14
      (loc.addDays (midnightLocal loc wall) 1)
  · rw [hopen] at he
    exact ⟨_, _, Reopening.later hstill k hk hpassed hclear, he⟩
  · exact ⟨_, _, Reopening.afterTwoWeeks hstill hpassed, he⟩

theorem withStateWindow_of_open {w : Window} (h : (!w.isZero && !w.isBlackout) = true)
    (eff : Window) : withStateWindow eff w = intersect eff w := by
  unfold withStateWindow
  rw [if_pos h]

theorem withStateWindow_of_not_open {w : Window} (h : ¬ (!w.isZero && !w.isBlackout) = true)
    (eff : Window) : withStateWindow eff w = eff := by
  unfold withStateWindow
  rw [if_neg h]

theorem nextDowOpen_reopening (hclosed : closedDay c state (dayOf wall) = true) :
    ∃ start time, Reopening c req state loc wall start time ∧
      nextDowOpen c loc wall (ruleOf c state) = start + time := by
  have hstill : stillToOpen c req state wall = false := by simp [stillToOpen, hclosed]
  apply reopening_of_scan (fun w => ?_) hstill
  have hcarried : carriedOpening c req state (dayOf wall) = fedFloor.openLocal := by
    simp [carriedOpening, hclosed]
  have hfed := (within_withStateWindow fedFloor_open_pos w).opens
  rw [hcarried, max_eq_right hfed]
  by_cases hw : (!w.isZero && !w.isBlackout) = true
  · rw [if_pos hw, withStateWindow_of_open hw]
  · rw [if_neg hw, withStateWindow_of_not_open hw]

theorem nextDayOpen_reopening {eff : Window} (heff : Within eff fedFloor)
    (hcarried : carriedOpening c req state (dayOf wall) = eff.openLocal)
    (hstill : stillToOpen c req state wall = false) :
    ∃ start time, Reopening c req state loc wall start time ∧
      nextDayOpen c loc wall (ruleOf c state) eff = start + time := by
  apply reopening_of_scan (fun w => ?_) hstill
  have hfed := heff.opens
  rw [hcarried]
  by_cases hw : (!w.isZero && !w.isBlackout) = true
  · rw [if_pos hw, withStateWindow_of_open hw]
  · rw [if_neg hw, withStateWindow_of_not_open hw, max_eq_left hfed]

theorem eq_of_named {x : Except String String} {f : String → CheckResult} {r : CheckResult}
    (h : (x >>= fun name => pure (f name)) = Except.ok r) : ∃ name, r = f name := by
  cases x with
  | error e => cases h
  | ok name =>
    obtain rfl := Except.ok.inj h
    exact ⟨name, rfl⟩

variable {resolved : ResolveResult} {r : CheckResult}

theorem deferredTo_checkWindow {rule : StateRule} {eff : Window} (hrule : ruleOf c state = rule)
    (heff : dayWindow c req state (dayOf wall) = eff)
    (hclosed : closedDay c state (dayOf wall) = false)
    (hbarred : barredDay c req state (dayOf wall) = false)
    (h : checkWindow c req resolved wall state rule eff = .ok r) (hskip : r.outcome = .skipUntil) :
    DeferredTo c req state resolved.location wall r := by
  have hwithin : Within eff fedFloor := by
    rw [← heff]
    exact within_applicable _ _ _ _
  have hcarried : carriedOpening c req state (dayOf wall) = eff.openLocal := by
    simp [carriedOpening, hclosed, hbarred, heff]
  have hlater : stillToOpen c req state wall = false → ∀ reason name,
      r = { outcome := .skipUntil, tzIANA := resolved.iana, confidence := resolved.confidence,
            nextOpen := some (nextDayOpen c resolved.location wall rule eff), reason := reason,
            ruleApplied := name, partyLocal := wall, effective := eff } →
      DeferredTo c req state resolved.location wall r := by
    intro hstill reason name hr
    obtain ⟨start, time, hre, hsum⟩ :=
      @nextDayOpen_reopening c req state resolved.location wall eff hwithin hcarried hstill
    refine ⟨start, time, hre, ?_⟩
    rw [hr, ← hsum, hrule]
  unfold checkWindow at h
  dsimp only at h
  by_cases hb : eff.isBlackout = true
  · rw [if_pos hb] at h
    obtain ⟨name, hr⟩ := eq_of_named h
    exact hlater (by simp [stillToOpen, heff, hb]) _ name hr
  · rw [if_neg hb] at h
    by_cases hbefore : partyMins wall < eff.openLocal
    · rw [if_pos hbefore] at h
      obtain ⟨name, hr⟩ := eq_of_named h
      have hstill : stillToOpen c req state wall = true := by
        simp [stillToOpen, hclosed, hbarred, heff, hb, hbefore]
      refine ⟨_, _, Reopening.today hstill, ?_⟩
      rw [hr, heff]
    · have hstill : stillToOpen c req state wall = false := by
        simp [stillToOpen, heff, hbefore]
      rw [if_neg hbefore] at h
      by_cases hafter : eff.closeLocal ≤ partyMins wall
      · rw [if_pos hafter] at h
        obtain ⟨name, hr⟩ := eq_of_named h
        exact hlater hstill _ name hr
      · rw [if_neg hafter] at h
        by_cases hguard : req.enforcementPoint = .originate ∧
            eff.closeLocal - partyElapsed wall < boundaryGuard
        · rw [if_pos hguard] at h
          obtain ⟨name, hr⟩ := eq_of_named h
          exact hlater hstill _ name hr
        · rw [if_neg hguard] at h
          obtain ⟨name, hr⟩ := eq_of_named h
          rw [hr] at hskip
          cases hskip

theorem closedDay_of_rule {rule : StateRule} (hrule : c.rules state = some rule) (d : Int) :
    closedDay c state d = (c.isHoliday state d || (rule.perDow (weekday d)).isBlackout) := by
  simp [closedDay, hrule]

theorem barredDay_of_rule {rule : StateRule} (hrule : c.rules state = some rule) (d : Int) :
    barredDay c req state d = (req.isAutoDialer &&
      (barsAutoDialer rule (weekday d) || rule.autoDialerOnly.any Window.isBlackout)) := by
  simp [barredDay, hrule]

theorem deferredTo_nextDowOpen {rule : StateRule} {loc : Location} {res : CheckResult}
    (hrule : ruleOf c state = rule) (hclosed : closedDay c state (dayOf wall) = true)
    (hnext : res.nextOpen = some (nextDowOpen c loc wall rule)) :
    DeferredTo c req state loc wall res := by
  obtain ⟨start, time, hre, hsum⟩ := @nextDowOpen_reopening c req state loc wall hclosed
  refine ⟨start, time, hre, ?_⟩
  rw [hnext, ← hsum, hrule]

theorem deferredTo_checkState {rule : StateRule} (hrule : c.rules state = some rule)
    (h : checkState c req resolved wall state rule = .ok r) (hskip : r.outcome = .skipUntil) :
    DeferredTo c req state resolved.location wall r := by
  have hof : ruleOf c state = rule := by simp [ruleOf, hrule]
  have hcd := closedDay_of_rule hrule (dayOf wall)
  have hbd := @barredDay_of_rule c req state rule hrule (dayOf wall)
  obtain ⟨hh, res, hres, -, -, hnext⟩ | ⟨-, hb, res, hres, -, -, hnext⟩ |
    ⟨hh, hb, ha, hbar, res, hres, -, -, hnext⟩ | ⟨hnames, he⟩ :=
    checkState_cases c req resolved wall state rule
  · obtain rfl := Except.ok.inj (hres.symm.trans h)
    exact deferredTo_nextDowOpen hof (by simp [hcd, hh]) hnext
  · obtain rfl := Except.ok.inj (hres.symm.trans h)
    exact deferredTo_nextDowOpen hof (by simp [hcd, hb]) hnext
  · obtain rfl := Except.ok.inj (hres.symm.trans h)
    have hclosed : closedDay c state (dayOf wall) = false := by simp [hcd, hh, hb]
    have hbarred : barredDay c req state (dayOf wall) = true := by rw [hbd, ha, hbar]; rfl
    have hcarried : carriedOpening c req state (dayOf wall) =
        (withStateWindow fedFloor (rule.perDow (weekday (dayOf wall)))).openLocal := by
      simp [carriedOpening, hclosed, hbarred, stateOpening, hof]
    have hstill : stillToOpen c req state wall = false := by simp [stillToOpen, hbarred]
    have hwithin := within_withStateWindow fedFloor_open_pos (rule.perDow (weekday (dayOf wall)))
    obtain ⟨start, time, hre, hsum⟩ :=
      @nextDayOpen_reopening c req state resolved.location wall _ hwithin hcarried hstill
    refine ⟨start, time, hre, ?_⟩
    rw [hnext, ← hsum, hof]
  · obtain ⟨hh, hb, hauto⟩ := namesWindow_some.1 hnames
    have hclosed : closedDay c state (dayOf wall) = false := by simp [hcd, hh, hb]
    have hbarred : barredDay c req state (dayOf wall) = false := by
      rw [hbd, Bool.and_eq_false_imp]
      intro ha
      obtain ⟨hfree, hw⟩ := hauto ha
      rw [hfree, Bool.false_or, Option.any_eq_false]
      exact fun w hmem => by simp [hw w hmem]
    rw [he] at h
    refine deferredTo_checkWindow hof ?_ hclosed hbarred h hskip
    simp only [dayWindow, hrule]

theorem check_of_resolved (hr : c.resolver (resolveRequest req) = .ok resolved)
    (hc : resolved.confidence ≠ .none) :
    check c req = checkResolved c req resolved (checkInstant c req) := by
  simp only [check, hr, bind, Except.bind, if_neg hc]

theorem confidence_of_skip (hr : c.resolver (resolveRequest req) = .ok resolved)
    (h : check c req = .ok r) (hskip : r.outcome = .skipUntil) : resolved.confidence ≠ .none := by
  intro hc
  simp only [check, hr, bind, Except.bind, if_pos hc] at h
  by_cases hp : req.unknownTzPolicy = some .warnPass
  · rw [if_pos hp] at h
    obtain rfl := Except.ok.inj h
    cases hskip
  · rw [if_neg hp] at h
    obtain rfl := Except.ok.inj h
    cases hskip

/-- Every deferred call is sent to the opening that the rules and the calendar give. -/
theorem deferredTo_check (hr : c.resolver (resolveRequest req) = .ok resolved)
    (h : check c req = .ok r) (hskip : r.outcome = .skipUntil) :
    DeferredTo c req (ruleState req resolved) resolved.location
      (resolved.location.wall (checkInstant c req)) r := by
  rw [check_of_resolved hr (confidence_of_skip hr h hskip)] at h
  unfold checkResolved at h
  dsimp only at h
  cases hrule : c.rules (ruleState req resolved) with
  | some rule =>
    rw [hrule] at h
    exact deferredTo_checkState hrule h hskip
  | none =>
    rw [hrule] at h
    refine deferredTo_checkWindow ?_ ?_ ?_ ?_ h hskip
    · simp [ruleOf, hrule]
    · simp [dayWindow, hrule, applicable]
    · simp [closedDay, hrule]
    · simp [barredDay, hrule]

end Search

section Answers

variable {c : Checker} {req : CheckRequest} {state : String}

theorem narrowed_dayWindow {d : Int} (hclosed : closedDay c state d = false) :
    Narrowed (dayWindow c req state d) (callable c req state (weekday d)) := by
  cases hrule : c.rules state with
  | none =>
    have hw : dayWindow c req state d = withCampaignWindow fedFloor req.campaignWindow := by
      simp [dayWindow, applicable, hrule]
    have hs : callable c req state (weekday d) =
        fedFloor.span ∩ req.campaignWindow.elim Set.univ Window.span := by
      simp [callable, hrule]
    rw [hw, hs]
    exact narrowed_fedFloor.withCampaignWindow _
  | some rule =>
    have hopen : (rule.perDow (weekday d)).isBlackout = false := by
      rw [closedDay_of_rule hrule] at hclosed
      exact (Bool.or_eq_false_iff.1 hclosed).2
    have hstate := narrowed_fedFloor.withStateWindow hopen
    have hw : dayWindow c req state d = withCampaignWindow (withAutoDialerWindow
        (withStateWindow fedFloor (rule.perDow (weekday d))) req.isAutoDialer rule)
          req.campaignWindow := by
      simp only [dayWindow, hrule, applicable_some]
    have hs : callable c req state (weekday d) =
        fedFloor.span ∩ (rule.perDow (weekday d)).span ∩
          (if req.isAutoDialer then rule.autoDialerOnly.elim Set.univ Window.span else Set.univ) ∩
          req.campaignWindow.elim Set.univ Window.span := by
      simp [callable, hrule]
    rw [hw, hs]
    apply Narrowed.withCampaignWindow
    cases ha : req.isAutoDialer with
    | false => simpa [withAutoDialerWindow_off] using hstate
    | true =>
      cases hauto : rule.autoDialerOnly with
      | none => simpa [withAutoDialerWindow_none _ _ hauto] using hstate
      | some autoW =>
        simpa [withAutoDialerWindow_auto _ hauto] using hstate.intersect autoW

theorem closedDay_eq_false_iff {d : Int} :
    closedDay c state d = false ↔
      ((c.rules state).isSome = true → c.isHoliday state d = false) ∧
        ∀ rule, c.rules state = some rule → (rule.perDow (weekday d)).isBlackout = false := by
  cases hrule : c.rules state with
  | none => simp [closedDay, hrule]
  | some rule => simp [closedDay_of_rule hrule]

/-- On a day whose window is not empty, a call is barred by the day alone. -/
theorem barredDay_eq_false_iff {d : Int}
    (hopen : (dayWindow c req state d).openLocal < (dayWindow c req state d).closeLocal) :
    barredDay c req state d = false ↔
      ∀ rule, c.rules state = some rule → req.isAutoDialer = true →
        barsAutoDialer rule (weekday d) = false := by
  cases hrule : c.rules state with
  | none => simp [barredDay, hrule]
  | some rule =>
    have hauto : req.isAutoDialer = true → rule.autoDialerOnly.any Window.isBlackout = false := by
      intro ha
      cases hw : rule.autoDialerOnly with
      | none => rfl
      | some autoW =>
        by_contra hb
        have hab : autoW.isBlackout = true := by simpa using hb
        have hempty := isBlackout_applicable hw hab req.campaignWindow (weekday d)
        rw [(within_applicable _ _ _ _).isBlackout_iff] at hempty
        simp only [dayWindow, hrule, ha] at hopen
        omega
    rw [barredDay_of_rule hrule]
    cases ha : req.isAutoDialer with
    | false => simp
    | true => simp [hauto ha]

theorem permitted_iff_openAt {wall : Int} :
    Permitted c req state wall (partyElapsed wall) ↔ OpenAt c req state wall := by
  have hle := partyMins_le_partyElapsed wall
  have hguard : (0 : Int) < boundaryGuard := by decide
  constructor
  · intro hp
    have hclosed := closedDay_eq_false_iff.2 ⟨hp.no_holiday, hp.no_blackout⟩
    have hspan := (@narrowed_dayWindow c req state _ hclosed).times
    have hin := hp.in_window
    rw [← hspan, Set.mem_Ico] at hin
    obtain ⟨hopened, hnot⟩ := hin
    refine ⟨hclosed, ?_, hopened, hnot, fun ho => ?_⟩
    · exact (barredDay_eq_false_iff (by omega)).2 hp.no_autoDialer_blackout
    · have hsub := hp.before_close ho
      rw [← hspan, Set.Ico_subset_Ico_iff (by omega)] at hsub
      exact hsub.2
  · intro h
    have hopened := h.opened
    have hnot := h.not_closed
    have hspan := (@narrowed_dayWindow c req state _ h.day_open).times
    obtain ⟨hholiday, hblackout⟩ := closedDay_eq_false_iff.1 h.day_open
    refine ⟨hholiday, hblackout, (barredDay_eq_false_iff (by omega)).1 h.not_barred, ?_,
      fun ho => ?_⟩
    · rw [← hspan]
      exact ⟨hopened, hnot⟩
    · rw [← hspan, Set.Ico_subset_Ico_iff (by omega)]
      exact ⟨by omega, h.guard ho⟩

theorem checkInstant_at (u : Int) :
    checkInstant { c with now := u } { req with when := u } = u := by
  unfold checkInstant
  split
  · rfl
  · rfl

variable {resolved : ResolveResult}

theorem check_allow_iff_openAt (hr : c.resolver (resolveRequest req) = .ok resolved)
    (hc : resolved.confidence ≠ .none) :
    IsAllow (check c req) ↔
      OpenAt c req (ruleState req resolved) (resolved.location.wall (checkInstant c req)) := by
  rw [check_of_resolved hr hc, checkResolved_allow_iff, permitted_iff_openAt]

theorem checkAt_allow_iff (hr : c.resolver (resolveRequest req) = .ok resolved)
    (hc : resolved.confidence ≠ .none) (u : Int) :
    IsAllow (checkAt c req u) ↔
      OpenAt c req (ruleState req resolved) (resolved.location.wall u) := by
  unfold checkAt
  rw [@check_allow_iff_openAt { c with now := u } { req with when := u } resolved hr hc,
    checkInstant_at]
  constructor
  · intro h
    exact ⟨h.day_open, h.not_barred, h.opened, h.not_closed, h.guard⟩
  · intro h
    exact ⟨h.day_open, h.not_barred, h.opened, h.not_closed, h.guard⟩

/-- The opening a call is sent to is after the request and lets the call through
exactly when it falls inside the window of its own day. -/
theorem nextOpen_sound_iff {r : CheckResult} (hr : c.resolver (resolveRequest req) = .ok resolved)
    (h : check c req = .ok r) (hskip : r.outcome = .skipUntil) :
    (∃ n, r.nextOpen = some n ∧ checkInstant c req < n ∧ IsAllow (checkAt c req n)) ↔
      ReopensInWindow c req (ruleState req resolved) resolved.location (checkInstant c req) := by
  have hc := confidence_of_skip hr h hskip
  obtain ⟨start, time, hre, hnext⟩ := deferredTo_check hr h hskip
  constructor
  · rintro ⟨n, hn, hlater, hallow⟩
    obtain rfl : start + time = n := by
      rw [hnext] at hn
      exact Option.some.inj hn
    exact ⟨start, time, hre, hlater, (checkAt_allow_iff hr hc _).1 hallow⟩
  · rintro ⟨start', time', hre', hlater, hopen⟩
    obtain ⟨rfl, rfl⟩ := hre.unique hre'
    exact ⟨start + time, hnext, hlater, (checkAt_allow_iff hr hc _).2 hopen⟩

/-- A zone as long as its clock does not change. -/
def zoneAt (hours : Int) : Location := ⟨fun _ => hours * nsPerHour⟩

def winterChecker (hours : Int) (rule : StateRule) : Checker where
  resolver req := .ok ⟨req.knownTimezone, .known, zoneAt hours⟩
  rules state := if state = rule.code then some rule else none
  isHoliday _ _ := false
  now := 0

def winterRequest (tz state : String) (when : Int) (auto : Bool) : CheckRequest where
  leadID := 1
  phoneE164 := "+12075550100"
  knownTimezone := tz
  zip := ""
  state := state
  campaignID := 42
  campaignWindow := none
  unknownTzPolicy := none
  enforcementPoint := .hopper
  when := when
  isAutoDialer := auto

def maineRule : StateRule where
  code := "ME"
  perDow _ := ⟨8 * nsPerHour, 21 * nsPerHour, 0⟩
  autoDialerOnly := some ⟨9 * nsPerHour, 17 * nsPerHour, 0⟩
  autoDialerBlackoutDows := 0x41

def texasRule : StateRule where
  code := "TX"
  perDow dow := if dow.val = 0 then ⟨12 * nsPerHour, 21 * nsPerHour, 0⟩
    else ⟨9 * nsPerHour, 21 * nsPerHour, 0⟩
  autoDialerOnly := none
  autoDialerBlackoutDows := 0

/-- An autodialer on a Friday at six in the evening. -/
def maineFriday : CheckRequest :=
  winterRequest "America/New_York" "ME" (739631 * nsPerDay + 23 * nsPerHour) true

/-- A Monday, half past nine in the evening. -/
def texasMonday : CheckRequest :=
  winterRequest "America/Chicago" "TX" (739634 * nsPerDay + 27 * nsPerHour + 30 * nsPerMinute) false

def texasMondayResult : CheckResult where
  outcome := .skipUntil
  tzIANA := "America/Chicago"
  confidence := .known
  nextOpen := some (739635 * nsPerDay + 15 * nsPerHour)
  reason := .afterWindow
  ruleApplied := "TX_Mon_9_21"
  partyLocal := 739634 * nsPerDay + 21 * nsPerHour + 30 * nsPerMinute
  effective := ⟨9 * nsPerHour, 21 * nsPerHour, 0⟩

theorem texas_monday_reopens_in_window :
    (∃ n, texasMondayResult.nextOpen = some n ∧
        checkInstant (winterChecker (-6) texasRule) texasMonday < n ∧
          IsAllow (checkAt (winterChecker (-6) texasRule) texasMonday n)) ↔
      ReopensInWindow (winterChecker (-6) texasRule) texasMonday "TX" (zoneAt (-6))
        (checkInstant (winterChecker (-6) texasRule) texasMonday) :=
  @nextOpen_sound_iff (winterChecker (-6) texasRule) texasMonday
    ⟨"America/Chicago", .known, zoneAt (-6)⟩ texasMondayResult rfl (by decide) rfl

theorem maine_friday_sent_to_barred_saturday :
    (check (winterChecker (-5) maineRule) maineFriday).toOption.map
        (fun r => (r.outcome, r.nextOpen)) =
          some (.skipUntil, some (739632 * nsPerDay + 14 * nsPerHour)) ∧
      ¬ IsAllow (checkAt (winterChecker (-5) maineRule) maineFriday
        (739632 * nsPerDay + 14 * nsPerHour)) := by
  decide

theorem openLocal_le_firstMinute (d : Int) :
    (dayWindow c req state d).openLocal ≤ firstMinute c req state d := by
  simp only [firstMinute, nsPerMinute, nsPerSecond]
  omega

theorem firstMinute_pos (d : Int) : 0 < firstMinute c req state d := by
  have hopen := (within_applicable (c.rules state) req.isAutoDialer req.campaignWindow
    (weekday d)).open_pos
  exact lt_of_lt_of_le hopen (openLocal_le_firstMinute d)

theorem firstMinute_le_partyMins {d wall : Int}
    (h : (dayWindow c req state d).openLocal ≤ partyMins wall) :
    firstMinute c req state d ≤ partyMins wall := by
  simp only [firstMinute, partyMins, nsPerMinute, nsPerSecond] at h ⊢
  omega

theorem dayStart_add_partyMins_le (wall : Int) : dayOf wall * nsPerDay + partyMins wall ≤ wall := by
  simp only [dayOf, partyMins, clockHour, clockMinute, nsPerDay, nsPerHour, nsPerMinute,
    nsPerSecond]
  omega

/-- The clock at a whole minute of the day `d`. -/
theorem clock_at_minute {d m : Int} (h0 : 0 ≤ m) (hday : m < nsPerDay) (hmin : nsPerMinute ∣ m) :
    dayOf (d * nsPerDay + m) = d ∧ partyMins (d * nsPerDay + m) = m ∧
      partyElapsed (d * nsPerDay + m) = m := by
  obtain ⟨q, rfl⟩ := hmin
  rw [partyElapsed_eq]
  simp only [dayOf, partyMins, clockHour, clockMinute, secondsSinceMidnight, nsPerDay, nsPerHour,
    nsPerMinute, nsPerSecond] at h0 hday ⊢
  refine ⟨?_, ?_, ?_⟩
  · omega
  · omega
  · omega

/-- Within a day the clock fields only grow. -/
theorem clock_mono {wall wall' : Int} (h : wall ≤ wall') (hday : dayOf wall = dayOf wall') :
    partyMins wall ≤ partyMins wall' ∧ partyElapsed wall ≤ partyElapsed wall' := by
  rw [partyElapsed_eq, partyElapsed_eq]
  simp only [dayOf, partyMins, clockHour, clockMinute, secondsSinceMidnight, nsPerDay, nsPerHour,
    nsPerMinute, nsPerSecond] at h hday ⊢
  refine ⟨?_, ?_⟩
  · omega
  · omega

theorem HasOpening.clock {d : Int} (h : HasOpening c req state d) :
    dayOf (d * nsPerDay + firstMinute c req state d) = d ∧
      partyMins (d * nsPerDay + firstMinute c req state d) = firstMinute c req state d ∧
      partyElapsed (d * nsPerDay + firstMinute c req state d) = firstMinute c req state d := by
  have hclose := (within_applicable (c.rules state) req.isAutoDialer req.campaignWindow
    (weekday d)).closes
  have hfed : fedFloor.closeLocal < nsPerDay := by decide
  have hday : firstMinute c req state d < nsPerDay :=
    lt_trans (lt_of_lt_of_le h.not_closed hclose) hfed
  exact clock_at_minute (firstMinute_pos d).le hday (Dvd.intro_left _ rfl)

theorem HasOpening.openAt {d : Int} (h : HasOpening c req state d) :
    OpenAt c req state (d * nsPerDay + firstMinute c req state d) := by
  obtain ⟨hd, hmins, helapsed⟩ := h.clock
  constructor
  · rw [hd]
    exact h.day_open
  · rw [hd]
    exact h.not_barred
  · rw [hd, hmins]
    exact openLocal_le_firstMinute d
  · rw [hd, hmins]
    exact h.not_closed
  · intro ho
    rw [hd, helapsed]
    exact h.guard ho

theorem OpenAt.hasOpening {wall : Int} (h : OpenAt c req state wall) :
    HasOpening c req state (dayOf wall) := by
  have hfirst := firstMinute_le_partyMins h.opened
  have hle := partyMins_le_partyElapsed wall
  refine ⟨h.day_open, h.not_barred, ?_, fun ho => ?_⟩
  · exact lt_of_le_of_lt hfirst h.not_closed
  · have hguard := h.guard ho
    omega

/-- The times of one day at which the gate lets the call through have no gap after
the day's first minute. -/
theorem OpenAt.earlier {wall wall' : Int} (h : OpenAt c req state wall') (hle : wall ≤ wall')
    (hfirst : dayOf wall' * nsPerDay + firstMinute c req state (dayOf wall') ≤ wall) :
    OpenAt c req state wall := by
  have hpos := @firstMinute_pos c req state (dayOf wall')
  have hday : dayOf wall = dayOf wall' := by
    have hstart : dayOf wall' * nsPerDay ≤ wall := by omega
    simp only [dayOf, nsPerDay, nsPerHour, nsPerMinute, nsPerSecond] at hstart ⊢
    omega
  obtain ⟨hmins, helapsed⟩ := clock_mono hle hday
  have hnot := h.not_closed
  constructor
  · rw [hday]
    exact h.day_open
  · rw [hday]
    exact h.not_barred
  · rw [hday]
    have hopens := @openLocal_le_firstMinute c req state (dayOf wall')
    have hreach : firstMinute c req state (dayOf wall') ≤ partyMins wall := by
      rw [← hday] at hfirst hpos ⊢
      simp only [firstMinute, dayOf, partyMins, clockHour, clockMinute, nsPerDay, nsPerHour,
        nsPerMinute, nsPerSecond] at hfirst hpos ⊢
      omega
    omega
  · rw [hday]
    omega
  · intro ho
    have hguard := h.guard ho
    rw [hday]
    omega

/-- Where the gate defers a call now and lets it through later, the day of the later
time opens in between. -/
theorem OpenAt.opens_between {wall wall' : Int} (h : OpenAt c req state wall') (hle : wall ≤ wall')
    (hnow : ¬ OpenAt c req state wall) :
    wall < dayOf wall' * nsPerDay + firstMinute c req state (dayOf wall') ∧
      dayOf wall' * nsPerDay + firstMinute c req state (dayOf wall') ≤ wall' := by
  constructor
  · by_contra hpast
    exact hnow (h.earlier hle (not_lt.1 hpast))
  · have hmins := firstMinute_le_partyMins h.opened
    have hstart := dayStart_add_partyMins_le wall'
    omega

/-- While the clock does not change, no earlier instant lets the call through
exactly when no day's window opens before the opening the call is sent to. -/
theorem nextOpen_minimal_iff {r : CheckResult} {n : Int}
    (hr : c.resolver (resolveRequest req) = .ok resolved) (h : check c req = .ok r)
    (hskip : r.outcome = .skipUntil) (hn : r.nextOpen = some n)
    (hsteady : ∀ u, checkInstant c req ≤ u → u < n →
      resolved.location.offset u = resolved.location.offset (checkInstant c req)) :
    (∀ u, checkInstant c req < u → u < n → ¬ IsAllow (checkAt c req u)) ↔
      ReopensFirst c req (ruleState req resolved) resolved.location (checkInstant c req) := by
  have hc := confidence_of_skip hr h hskip
  obtain ⟨start, time, hre, hnext⟩ := deferredTo_check hr h hskip
  obtain rfl : start + time = n := by
    rw [hnext] at hn
    exact Option.some.inj hn
  have hwall : ∀ u, checkInstant c req ≤ u → u < start + time →
      resolved.location.wall u = u + resolved.location.offset (checkInstant c req) := by
    intro u hle hlt
    rw [Location.wall, hsteady u hle hlt]
  have hnow : ¬ OpenAt c req (ruleState req resolved)
      (resolved.location.wall (checkInstant c req)) := by
    rw [← check_allow_iff_openAt hr hc, h, isAllow_ok, hskip]
    decide
  have hclock : resolved.location.wall (checkInstant c req) =
      checkInstant c req + resolved.location.offset (checkInstant c req) := rfl
  constructor
  · intro hnone
    refine ⟨start, time, hre, fun d hd hafter => ?_⟩
    by_contra hbefore
    obtain ⟨u, hu⟩ : ∃ u, u + resolved.location.offset (checkInstant c req) =
        d * nsPerDay + firstMinute c req (ruleState req resolved) d :=
      ⟨_, Int.sub_add_cancel _ _⟩
    have hlater : checkInstant c req < u := by omega
    have hsooner : u < start + time := by omega
    refine hnone u hlater hsooner ((checkAt_allow_iff hr hc u).2 ?_)
    rw [hwall u hlater.le hsooner, hu]
    exact hd.openAt
  · rintro ⟨start', time', hre', hfirst⟩ u hlater hsooner hallow
    obtain ⟨rfl, rfl⟩ := hre.unique hre'
    have hopen := (checkAt_allow_iff hr hc u).1 hallow
    rw [hwall u hlater.le hsooner] at hopen
    obtain ⟨hafter, hreached⟩ := hopen.opens_between (by omega) hnow
    have hle := hfirst _ hopen.hasOpening hafter
    omega

/-- A Sunday, half past nine in the evening. -/
def texasSunday : CheckRequest :=
  winterRequest "America/Chicago" "TX" (739633 * nsPerDay + 27 * nsPerHour + 30 * nsPerMinute) false

theorem texas_monday_reopens_first :
    (∀ u, checkInstant (winterChecker (-6) texasRule) texasMonday < u →
        u < 739635 * nsPerDay + 15 * nsPerHour →
          ¬ IsAllow (checkAt (winterChecker (-6) texasRule) texasMonday u)) ↔
      ReopensFirst (winterChecker (-6) texasRule) texasMonday "TX" (zoneAt (-6))
        (checkInstant (winterChecker (-6) texasRule) texasMonday) :=
  @nextOpen_minimal_iff (winterChecker (-6) texasRule) texasMonday
    ⟨"America/Chicago", .known, zoneAt (-6)⟩ texasMondayResult _ rfl (by decide) rfl rfl
    (fun _ _ _ => rfl)

theorem texas_sunday_sent_past_monday_morning :
    (check (winterChecker (-6) texasRule) texasSunday).toOption.map
        (fun r => (r.outcome, r.nextOpen)) =
          some (.skipUntil, some (739634 * nsPerDay + 18 * nsPerHour)) ∧
      checkInstant (winterChecker (-6) texasRule) texasSunday <
        739634 * nsPerDay + 15 * nsPerHour ∧
      (739634 * nsPerDay + 15 * nsPerHour : Int) < 739634 * nsPerDay + 18 * nsPerHour ∧
      IsAllow (checkAt (winterChecker (-6) texasRule) texasSunday
        (739634 * nsPerDay + 15 * nsPerHour)) := by
  decide

end Answers

end Tcpa

end Vici2
