import Vici2.TcpaNextOpen

/-! The advisory that the window of a call closes soon. It works the effective
window out again and counts from the minute the local clock shows, where the gate
counts from the second. -/

namespace Vici2

namespace Tcpa

def windowClosesWithin (c : Checker) (req : CheckRequest) (d : Duration) : Except String Bool := do
  let resolved ← c.resolver (resolveRequest req)
  if resolved.confidence = .none then
    return false
  else
    let partyLocal := resolved.location.wall (checkInstant c req)
    let dow := weekday (dayOf partyLocal)
    let closes (eff : Window) : Bool :=
      let eff := withCampaignWindow eff req.campaignWindow
      if eff.closeLocal ≤ partyMins partyLocal then true
      else decide (eff.closeLocal - partyMins partyLocal < d)
    match c.rules (ruleState req resolved) with
    | none => return closes fedFloor
    | some rule =>
      let eff := withStateWindow fedFloor (rule.perDow dow)
      if req.isAutoDialer then
        -- An autodialer on a barred day counts as past its window.
        if barsAutoDialer rule dow then return true
        else
          match rule.autoDialerOnly with
          | none => return closes eff
          | some autoW => return closes (if autoW.isBlackout then eff else intersect eff autoW)
      else return closes eff

/-- Less than `d` remains until the window that the gate used closes. -/
def LessRemains (r : CheckResult) (d : Duration) : Prop :=
  r.confidence ≠ .none ∧ r.effective.closeLocal - sinceMidnight r.partyLocal < d

def atOriginate (req : CheckRequest) : CheckRequest := { req with enforcementPoint := .originate }

section Originate

variable (req : CheckRequest) (resolved : ResolveResult)

@[simp] theorem atOriginate_isAutoDialer : (atOriginate req).isAutoDialer = req.isAutoDialer := rfl

@[simp] theorem atOriginate_campaignWindow :
    (atOriginate req).campaignWindow = req.campaignWindow := rfl

@[simp] theorem atOriginate_enforcementPoint : (atOriginate req).enforcementPoint = .originate := rfl

@[simp] theorem ruleState_atOriginate :
    ruleState (atOriginate req) resolved = ruleState req resolved := rfl

@[simp] theorem resolveRequest_atOriginate :
    resolveRequest (atOriginate req) = resolveRequest req := rfl

@[simp] theorem checkInstant_atOriginate (c : Checker) :
    checkInstant c (atOriginate req) = checkInstant c req := rfl

end Originate

def BoundaryBlocked (r : Except String CheckResult) : Prop :=
  ∃ res, r = .ok res ∧ res.outcome = .skipUntil ∧ res.reason = .boundary30sToClose

/-- The duration fits before the close of the day's window when it is counted from the
minute shown, and no longer fits when it is counted from the time `elapsed`. -/
def FitsFromMinuteOnly (c : Checker) (req : CheckRequest) (d : Duration) (elapsed : Int → Int) :
    Prop :=
  ∃ resolved, c.resolver (resolveRequest req) = .ok resolved ∧ resolved.confidence ≠ .none ∧
    let wall := resolved.location.wall (checkInstant c req)
    let close := (dayWindow c req (ruleState req resolved) (dayOf wall)).closeLocal
    partyMins wall + d ≤ close ∧ close < elapsed wall + d

section Closing

variable {c : Checker} {req : CheckRequest} {resolved : ResolveResult} {r : CheckResult}
  {state : String} {rule : StateRule} {wall : Int} {eff : Window}

/-- What an allowed call tells of the window it was let through. -/
structure AllowedIn (resolved : ResolveResult) (wall : Int) (eff : Window) (r : CheckResult) :
    Prop where
  confidence : r.confidence = resolved.confidence
  party : r.partyLocal = wall
  effective : r.effective = eff
  not_blackout : eff.isBlackout = false
  opened : eff.openLocal ≤ partyMins wall
  not_closed : partyMins wall < eff.closeLocal

theorem checkWindow_allowedIn (h : checkWindow c req resolved wall state rule eff = .ok r)
    (hallow : r.outcome = .allow) : AllowedIn resolved wall eff r := by
  unfold checkWindow at h
  dsimp only at h
  by_cases hb : eff.isBlackout = true
  · rw [if_pos hb] at h
    obtain ⟨name, rfl⟩ := eq_of_named h
    cases hallow
  · rw [if_neg hb] at h
    by_cases hbefore : partyMins wall < eff.openLocal
    · rw [if_pos hbefore] at h
      obtain ⟨name, rfl⟩ := eq_of_named h
      cases hallow
    · rw [if_neg hbefore] at h
      by_cases hafter : eff.closeLocal ≤ partyMins wall
      · rw [if_pos hafter] at h
        obtain ⟨name, rfl⟩ := eq_of_named h
        cases hallow
      · rw [if_neg hafter] at h
        by_cases hguard : req.enforcementPoint = .originate ∧
            eff.closeLocal - partyElapsed wall < boundaryGuard
        · rw [if_pos hguard] at h
          obtain ⟨name, rfl⟩ := eq_of_named h
          cases hallow
        · rw [if_neg hguard] at h
          obtain ⟨name, rfl⟩ := eq_of_named h
          have hopen : eff.isBlackout = false := by simpa using hb
          exact ⟨rfl, rfl, rfl, hopen, not_lt.1 hbefore, not_le.1 hafter⟩

theorem checkState_allowedIn (h : checkState c req resolved wall state rule = .ok r)
    (hallow : r.outcome = .allow) :
    NamesWindow (c.isHoliday state (dayOf wall)) (some rule) req.isAutoDialer
        (weekday (dayOf wall)) ∧
      AllowedIn resolved wall (applicable (some rule) req.isAutoDialer req.campaignWindow
        (weekday (dayOf wall))) r := by
  have hskip : ∀ {reason nextOpen}, ¬ DeferredFor reason nextOpen
      (checkState c req resolved wall state rule) := by
    rintro reason nextOpen ⟨res, hres, hskip, -⟩
    obtain rfl := Except.ok.inj (h.symm.trans hres)
    rw [hallow] at hskip
    cases hskip
  obtain ⟨-, hdef⟩ | ⟨-, -, hdef⟩ | ⟨-, -, -, -, hdef⟩ | ⟨hnames, he⟩ :=
    checkState_cases c req resolved wall state rule
  · exact absurd hdef hskip
  · exact absurd hdef hskip
  · exact absurd hdef hskip
  · rw [he] at h
    exact ⟨hnames, checkWindow_allowedIn h hallow⟩

theorem checkResolved_allowedIn {t : Int} (h : checkResolved c req resolved t = .ok r)
    (hallow : r.outcome = .allow) :
    NamesWindow (c.isHoliday (ruleState req resolved) (dayOf (resolved.location.wall t)))
        (c.rules (ruleState req resolved)) req.isAutoDialer
        (weekday (dayOf (resolved.location.wall t))) ∧
      AllowedIn resolved (resolved.location.wall t)
        (dayWindow c req (ruleState req resolved) (dayOf (resolved.location.wall t))) r := by
  unfold checkResolved at h
  unfold dayWindow
  dsimp only at h
  cases hrule : c.rules (ruleState req resolved) with
  | some rule =>
    rw [hrule] at h
    exact checkState_allowedIn h hallow
  | none =>
    rw [hrule] at h
    refine ⟨?_, checkWindow_allowedIn h hallow⟩
    intro rule hmem
    cases hmem

/-- Where the gate names a window, the advisory has worked out the same one. -/
theorem windowClosesWithin_eq (hr : c.resolver (resolveRequest req) = .ok resolved)
    (hc : resolved.confidence ≠ .none) (hwall : resolved.location.wall (checkInstant c req) = wall)
    {holiday : Bool} (hnames : NamesWindow holiday (c.rules (ruleState req resolved))
      req.isAutoDialer (weekday (dayOf wall))) (d : Duration) :
    windowClosesWithin c req d =
      .ok (let close := (dayWindow c req (ruleState req resolved) (dayOf wall)).closeLocal
        if close ≤ partyMins wall then true else decide (close - partyMins wall < d)) := by
  unfold windowClosesWithin dayWindow
  simp only [hr, bind, Except.bind, if_neg hc, hwall]
  cases hrule : c.rules (ruleState req resolved) with
  | none => rfl
  | some rule =>
    rw [hrule] at hnames
    obtain ⟨-, -, hauto⟩ := namesWindow_some.1 hnames
    rw [applicable_some]
    dsimp only
    by_cases ha : req.isAutoDialer = true
    · obtain ⟨hfree, hopen⟩ := hauto ha
      rw [if_pos ha, hfree, ha]
      cases hw : rule.autoDialerOnly with
      | none =>
        rw [withAutoDialerWindow_none _ _ hw]
        rfl
      | some autoW =>
        have hopenW := hopen autoW hw
        rw [withAutoDialerWindow_auto _ hw]
        simp only [hopenW, Bool.false_eq_true, if_false]
        rfl
    · have hoff : req.isAutoDialer = false := by simpa using ha
      rw [if_neg ha, hoff, withAutoDialerWindow_off]
      rfl

theorem boundaryBlocked_iff_verdict (x : Except String CheckResult) :
    BoundaryBlocked x ↔ verdict x = some (said .boundary30sToClose) := by
  cases x with
  | error e => simp [BoundaryBlocked, verdict, Except.toOption]
  | ok res => simp [BoundaryBlocked, verdict, Except.toOption, said, outcomeOf]

theorem decisionReason_eq_windowReason {holiday auto : Bool} {rule : Option StateRule}
    {point : EnforcementPoint} {campaign : Option Window}
    (h : NamesWindow holiday rule auto (weekday (dayOf wall))) :
    decisionReason holiday rule auto point campaign wall =
      windowReason auto point wall (applicable rule auto campaign (weekday (dayOf wall))) := by
  cases rule with
  | none => rfl
  | some rule => exact decisionReason_of_namesWindow h

theorem AllowedIn.windowReason_originate (h : AllowedIn resolved wall eff r) (auto : Bool) :
    windowReason auto .originate wall eff = .boundary30sToClose ↔
      eff.closeLocal - partyElapsed wall < boundaryGuard := by
  have hb := h.not_blackout
  have hopen := h.opened
  have hclose := h.not_closed
  unfold windowReason
  rw [if_neg (by simp [hb]), if_neg (not_lt.2 hopen), if_neg (not_le.2 hclose)]
  by_cases hguard : eff.closeLocal - partyElapsed wall < boundaryGuard
  · simp [hguard]
  · simp [hguard]

theorem boundaryBlocked_iff {t : Int} (h : checkResolved c req resolved t = .ok r)
    (hallow : r.outcome = .allow) :
    BoundaryBlocked (checkResolved c (atOriginate req) resolved t) ↔
      (dayWindow c req (ruleState req resolved)
          (dayOf (resolved.location.wall t))).closeLocal -
        partyElapsed (resolved.location.wall t) < boundaryGuard := by
  obtain ⟨hnames, hin⟩ := checkResolved_allowedIn h hallow
  have hverdict : verdict (checkResolved c req resolved t) = some (r.outcome, r.reason) := by
    rw [h]
    rfl
  obtain ⟨hno, -⟩ := verdict_checkResolved_iff t |>.1 hverdict
  have hsaid : ∀ reason, said .boundary30sToClose = said reason ↔
      reason = .boundary30sToClose := by
    intro reason
    simp [said, outcomeOf]
    exact ⟨fun hh => hh.2.symm, fun hh => by simp [hh]⟩
  rw [boundaryBlocked_iff_verdict, verdict_checkResolved_iff, hsaid]
  simp only [ruleState_atOriginate, atOriginate_isAutoDialer, atOriginate_campaignWindow,
    atOriginate_enforcementPoint]
  rw [decisionReason_eq_windowReason hnames]
  exact (and_iff_right hno).trans (hin.windowReason_originate req.isAutoDialer)

theorem partyElapsed_le_sinceMidnight (wall : Int) : partyElapsed wall ≤ sinceMidnight wall := by
  rw [partyElapsed_eq]
  simp only [secondsSinceMidnight, sinceMidnight, nsPerDay, nsPerHour, nsPerMinute, nsPerSecond]
  omega

/-- Counting from the minute agrees with counting from a later time unless the
duration fits from the minute only. -/
theorem closes_agree_iff {close mins elapsed d : Int} (hle : mins ≤ elapsed) (hlt : mins < close) :
    (((if close ≤ mins then true else decide (close - mins < d)) = true ↔ close - elapsed < d) ↔
      ¬ (mins + d ≤ close ∧ close < elapsed + d)) := by
  rw [if_neg (by omega), decide_eq_true_iff]
  constructor
  · intro hiff hstraddle
    have := hiff.2 (by omega)
    omega
  · intro hno
    constructor
    · intro h
      omega
    · intro h
      by_contra hnot
      exact hno ⟨by omega, by omega⟩

theorem fitsFromMinuteOnly_iff (hr : c.resolver (resolveRequest req) = .ok resolved)
    (hc : resolved.confidence ≠ .none) (hwall : resolved.location.wall (checkInstant c req) = wall)
    {close : Int}
    (hclose : (dayWindow c req (ruleState req resolved) (dayOf wall)).closeLocal = close)
    (d : Duration) (elapsed : Int → Int) :
    FitsFromMinuteOnly c req d elapsed ↔ partyMins wall + d ≤ close ∧ close < elapsed wall + d := by
  subst hwall hclose
  constructor
  · rintro ⟨resolved', hr', -, hfits⟩
    obtain rfl := Except.ok.inj (hr.symm.trans hr')
    exact hfits
  · intro hfits
    exact ⟨resolved, hr, hc, hfits⟩

theorem windowClosesWithin_agrees_iff (h : check c req = .ok r) (hallow : r.outcome = .allow)
    (d : Duration) :
    ((windowClosesWithin c req d = .ok true ↔ LessRemains r d) ↔
        ¬ FitsFromMinuteOnly c req d sinceMidnight) ∧
      ((windowClosesWithin c req boundaryGuard = .ok true ↔
          BoundaryBlocked (check c (atOriginate req))) ↔
        ¬ FitsFromMinuteOnly c req boundaryGuard partyElapsed) := by
  unfold check at h ⊢
  rw [resolveRequest_atOriginate, checkInstant_atOriginate]
  cases hr : c.resolver (resolveRequest req) with
  | error e =>
    rw [hr] at h
    cases h
  | ok resolved =>
    simp only [hr, bind, Except.bind] at h ⊢
    by_cases hc : resolved.confidence = .none
    · -- The campaign lets the call pass without a zone: no window is used at any point.
      have hno : ∀ d elapsed, ¬ FitsFromMinuteOnly c req d elapsed := by
        rintro d elapsed ⟨resolved', hr', hc', -⟩
        obtain rfl := Except.ok.inj (hr.symm.trans hr')
        exact hc' hc
      have hfalse : ∀ d, windowClosesWithin c req d = .ok false := by
        intro d
        simp only [windowClosesWithin, hr, bind, Except.bind, if_pos hc]
        rfl
      rw [if_pos hc] at h ⊢
      have hpolicy : req.unknownTzPolicy = some .warnPass := by
        by_contra hne
        rw [if_neg hne] at h
        obtain rfl := Except.ok.inj h
        cases hallow
      rw [if_pos hpolicy] at h
      obtain rfl := Except.ok.inj h
      have hpolicy' : (atOriginate req).unknownTzPolicy = some .warnPass := hpolicy
      rw [if_pos hpolicy', hfalse, hfalse]
      refine ⟨iff_of_true ?_ (hno _ _), iff_of_true ?_ (hno _ _)⟩
      · simp [LessRemains]
      · refine iff_of_false nofun ?_
        rintro ⟨res, hres, hskip, -⟩
        obtain rfl := Except.ok.inj hres
        cases hskip
    · rw [if_neg hc] at h ⊢
      obtain ⟨hnames, hin⟩ := checkResolved_allowedIn h hallow
      have hadvice := @windowClosesWithin_eq c req resolved _ hr hc rfl _ hnames
      have hfits := @fitsFromMinuteOnly_iff c req resolved _ hr hc rfl _ rfl
      have hmins := partyMins_le_partyElapsed (resolved.location.wall (checkInstant c req))
      have helapsed := partyElapsed_le_sinceMidnight (resolved.location.wall (checkInstant c req))
      have hremains : LessRemains r d ↔
          (dayWindow c req (ruleState req resolved)
              (dayOf (resolved.location.wall (checkInstant c req)))).closeLocal -
            sinceMidnight (resolved.location.wall (checkInstant c req)) < d := by
        unfold LessRemains
        rw [hin.confidence, hin.effective, hin.party]
        exact and_iff_right hc
      rw [hadvice, hadvice, hfits, hfits, hremains, boundaryBlocked_iff h hallow,
        Except.ok.injEq, Except.ok.injEq]
      exact ⟨closes_agree_iff (le_trans hmins helapsed) hin.not_closed,
        closes_agree_iff hmins hin.not_closed⟩

end Closing

/-- A pacing tick in Phoenix, `sinceMidnightUTC` after midnight UTC. -/
def pacingRequest (sinceMidnightUTC : Int) : CheckRequest :=
  { phoenixRequest sinceMidnightUTC with enforcementPoint := .pacing }

theorem noon_does_not_close :
    ∃ r, check phoenixChecker (pacingRequest (19 * nsPerHour)) = .ok r ∧ r.outcome = .allow ∧
      ((windowClosesWithin phoenixChecker (pacingRequest (19 * nsPerHour)) boundaryGuard = .ok true ↔
          LessRemains r boundaryGuard) ↔
        ¬ FitsFromMinuteOnly phoenixChecker (pacingRequest (19 * nsPerHour)) boundaryGuard
          sinceMidnight) :=
  ⟨_, rfl, rfl, (windowClosesWithin_agrees_iff rfl rfl boundaryGuard).1⟩

/-- Local time 20:59:35. -/
def lastMinuteRequest : CheckRequest :=
  pacingRequest (27 * nsPerHour + 59 * nsPerMinute + 35 * nsPerSecond)

theorem last_minute_said_to_stay_open :
    ∃ r, check phoenixChecker lastMinuteRequest = .ok r ∧ r.outcome = .allow ∧
      lastMinuteRequest.enforcementPoint ≠ .originate ∧
      LessRemains r boundaryGuard ∧ BoundaryBlocked (check phoenixChecker (atOriginate lastMinuteRequest)) ∧
      windowClosesWithin phoenixChecker lastMinuteRequest boundaryGuard = .ok false :=
  ⟨_, rfl, rfl, by decide, ⟨by decide, by decide⟩, ⟨_, rfl, rfl, rfl⟩, rfl⟩

end Tcpa

end Vici2
