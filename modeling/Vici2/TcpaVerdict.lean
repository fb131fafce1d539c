import Vici2.TcpaDecision

/-! The dialer's gate as one decision over the rule that applies. The gate returns
it unless it has to name a window that opens at hour 1000 or later; a rule that is
idle at the local time leaves it as it is without one. -/

namespace Vici2

namespace Tcpa

def outcomeOf : Reason → Outcome
  | .noTimezone => .blockInvalid
  | .unknownTzWarnPass => .allow
  | .ok => .allow
  | _ => .skipUntil

def windowReason (auto : Bool) (point : EnforcementPoint) (wall : Int) (eff : Window) : Reason :=
  if eff.isBlackout then (if auto then .stateAutoDialerWindow else .afterWindow)
  else if partyMins wall < eff.openLocal then .beforeWindow
  else if eff.closeLocal ≤ partyMins wall then .afterWindow
  else if point = .originate ∧ eff.closeLocal - partyElapsed wall < boundaryGuard then
    .boundary30sToClose
  else .ok

def withAutoDialerWindow (eff : Window) (auto : Bool) (rule : StateRule) : Window :=
  match rule.autoDialerOnly with
  | some w => if auto then intersect eff w else eff
  | none => eff

/-- The effective window under the rule that applies, if any. -/
def applicable (rule : Option StateRule) (auto : Bool) (campaign : Option Window) (dow : Fin 7) :
    Window :=
  match rule with
  | some r =>
    withCampaignWindow (withAutoDialerWindow (withStateWindow fedFloor (r.perDow dow)) auto r)
      campaign
  | none => withCampaignWindow fedFloor campaign

def decisionReason (holiday : Bool) (rule : Option StateRule) (auto : Bool)
    (point : EnforcementPoint) (campaign : Option Window) (wall : Int) : Reason :=
  let dow := weekday (dayOf wall)
  match rule with
  | some r =>
    if holiday then .stateHolidayBlackout
    else if (r.perDow dow).isBlackout then
      (if dow.val ≠ 0 then .stateDowBlackout else .stateSundayBlackout)
    else if auto && barsAutoDialer r dow then .stateAutoDialerWindow
    else windowReason auto point wall (applicable rule auto campaign dow)
  | none => windowReason auto point wall (applicable rule auto campaign dow)

/-- The dialer gets as far as naming the effective window. -/
def NamesWindow (holiday : Bool) (rule : Option StateRule) (auto : Bool) (dow : Fin 7) : Prop :=
  ∀ r ∈ rule, holiday = false ∧ (r.perDow dow).isBlackout = false ∧
    (auto = true → barsAutoDialer r dow = false ∧ ∀ w ∈ r.autoDialerOnly, w.isBlackout = false)

def verdict (r : Except String CheckResult) : Option (Outcome × Reason) :=
  r.toOption.map fun r => (r.outcome, r.reason)

theorem verdict_named {x : Except String String} {f : String → CheckResult} {o : Outcome}
    {reason : Reason} (hf : ∀ name, (f name).outcome = o ∧ (f name).reason = reason) :
    verdict (x >>= fun name => pure (f name)) = if x.isOk then some (o, reason) else none := by
  cases x with
  | error e => rfl
  | ok name =>
    have h := hf name
    simp [verdict, Except.toOption, bind, Except.bind, Except.isOk, Except.toBool, pure,
      Except.pure, h.1, h.2]

theorem itoa_isOk_iff {n : Int} : (itoa n).isOk = true ↔ n < 1000 := by
  unfold itoa
  split_ifs with h0 hneg hlt
  · simp [Except.isOk, Except.toBool, h0]
  · simp only [Except.isOk, Except.toBool, true_iff]
    omega
  · simp [Except.isOk, Except.toBool, hlt]
  · simp [Except.isOk, Except.toBool, hlt]

theorem tdiv_nsPerHour_lt_iff {d : Int} (h : 0 < d) :
    d.tdiv nsPerHour < 1000 ↔ d < 1000 * nsPerHour := by
  rw [Int.tdiv_eq_ediv_of_nonneg (by omega)]
  simp only [nsPerHour, nsPerMinute, nsPerSecond]
  omega

theorem ruleNameOf_isOk_iff (state : String) (dow : Fin 7) {eff : Window}
    (hopen : 0 < eff.openLocal) (hclose : eff.closeLocal ≤ fedFloor.closeLocal) :
    (ruleNameOf state dow eff).isOk = true ↔ eff.openLocal < 1000 * nsPerHour := by
  have hday : eff.closeLocal < nsPerDay := lt_of_le_of_lt hclose (by decide)
  obtain ⟨cl, hcl⟩ := itoa_isOk (tdiv_nsPerHour_lt hday)
  rw [← tdiv_nsPerHour_lt_iff hopen, ← itoa_isOk_iff]
  unfold ruleNameOf
  rw [hcl]
  cases itoa (eff.openLocal.tdiv nsPerHour) with
  | error e => rfl
  | ok o => rfl

theorem verdict_checkWindow {eff : Window} (hopen : 0 < eff.openLocal)
    (hclose : eff.closeLocal ≤ fedFloor.closeLocal) (c : Checker) (req : CheckRequest)
    (resolved : ResolveResult) (wall : Int) (state : String) (rule : StateRule) :
    verdict (checkWindow c req resolved wall state rule eff) =
      if eff.openLocal < 1000 * nsPerHour then
        some (outcomeOf (windowReason req.isAutoDialer req.enforcementPoint wall eff),
          windowReason req.isAutoDialer req.enforcementPoint wall eff)
      else none := by
  have hname := ruleNameOf_isOk_iff state (weekday (dayOf wall)) hopen hclose
  have hif : ∀ p : Outcome × Reason,
      (if (ruleNameOf state (weekday (dayOf wall)) eff).isOk = true then some p else none) =
        if eff.openLocal < 1000 * nsPerHour then some p else none := by
    intro p
    by_cases h : eff.openLocal < 1000 * nsPerHour
    · rw [if_pos h, if_pos (hname.2 h)]
    · rw [if_neg h, if_neg (fun hok => h (hname.1 hok))]
  unfold checkWindow windowReason
  dsimp only
  rw [← hif]
  by_cases hb : eff.isBlackout = true
  · rw [if_pos hb, if_pos hb]
    cases req.isAutoDialer with
    | true => exact verdict_named fun _ => ⟨rfl, rfl⟩
    | false => exact verdict_named fun _ => ⟨rfl, rfl⟩
  · rw [if_neg hb, if_neg hb]
    by_cases hbefore : partyMins wall < eff.openLocal
    · rw [if_pos hbefore, if_pos hbefore]
      exact verdict_named fun _ => ⟨rfl, rfl⟩
    · rw [if_neg hbefore, if_neg hbefore]
      by_cases hafter : eff.closeLocal ≤ partyMins wall
      · rw [if_pos hafter, if_pos hafter]
        exact verdict_named fun _ => ⟨rfl, rfl⟩
      · rw [if_neg hafter, if_neg hafter]
        by_cases hguard : req.enforcementPoint = .originate ∧
            eff.closeLocal - partyElapsed wall < boundaryGuard
        · rw [if_pos hguard, if_pos hguard]
          exact verdict_named fun _ => ⟨rfl, rfl⟩
        · rw [if_neg hguard, if_neg hguard]
          exact verdict_named fun _ => ⟨rfl, rfl⟩

/-- A window between `outer` and midnight, and not closing after it. -/
structure Within (eff outer : Window) : Prop where
  opens : outer.openLocal ≤ eff.openLocal
  closes : eff.closeLocal ≤ outer.closeLocal
  pos : 0 < outer.openLocal

theorem Within.open_pos {eff outer : Window} (h : Within eff outer) : 0 < eff.openLocal :=
  lt_of_lt_of_le h.pos h.opens

theorem Within.refl {w : Window} (h : 0 < w.openLocal) : Within w w := ⟨le_refl _, le_refl _, h⟩

theorem Within.trans {a b d : Window} (h : Within a b) (h' : Within b d) : Within a d :=
  ⟨le_trans h'.opens h.opens, le_trans h.closes h'.closes, h'.pos⟩

theorem within_intersect {eff : Window} (h : 0 < eff.openLocal) (w : Window) :
    Within (intersect eff w) eff := by
  have hz := not_isZero_of_open_pos h
  unfold intersect
  rw [hz]
  by_cases hw : w.isZero = true
  · simp only [Bool.false_eq_true, if_false, hw, if_true]
    exact Within.refl h
  · simp only [Bool.false_eq_true, if_false, hw]
    exact ⟨le_max_left _ _, min_le_left _ _, h⟩

theorem within_withStateWindow {eff : Window} (h : 0 < eff.openLocal) (w : Window) :
    Within (withStateWindow eff w) eff := by
  unfold withStateWindow
  split
  · exact within_intersect h w
  · exact Within.refl h

theorem within_withAutoDialerWindow {eff : Window} (h : 0 < eff.openLocal) (auto : Bool)
    (rule : StateRule) : Within (withAutoDialerWindow eff auto rule) eff := by
  unfold withAutoDialerWindow
  split
  · split
    · exact within_intersect h _
    · exact Within.refl h
  · exact Within.refl h

theorem within_withCampaignWindow {eff : Window} (h : 0 < eff.openLocal)
    (campaign : Option Window) : Within (withCampaignWindow eff campaign) eff := by
  unfold withCampaignWindow
  split
  · split
    · exact Within.refl h
    · exact within_intersect h _
  · exact Within.refl h

theorem fedFloor_open_pos : 0 < fedFloor.openLocal := by decide

theorem within_applicable (rule : Option StateRule) (auto : Bool) (campaign : Option Window)
    (dow : Fin 7) : Within (applicable rule auto campaign dow) fedFloor := by
  cases rule with
  | none => exact within_withCampaignWindow fedFloor_open_pos campaign
  | some r =>
    have hstate := within_withStateWindow fedFloor_open_pos (r.perDow dow)
    have hauto := (within_withAutoDialerWindow hstate.open_pos auto r).trans hstate
    exact (within_withCampaignWindow hauto.open_pos campaign).trans hauto

theorem Within.isBlackout_iff {eff outer : Window} (h : Within eff outer) :
    eff.isBlackout = true ↔ eff.closeLocal ≤ eff.openLocal := by
  have hz := not_isZero_of_open_pos h.open_pos
  simp [Window.isBlackout, hz]

theorem isBlackout_intersect {eff w : Window} (h : 0 < eff.openLocal) (hw : w.isBlackout = true) :
    (intersect eff w).isBlackout = true := by
  obtain ⟨hle, hz⟩ : w.closeLocal ≤ w.openLocal ∧ w.isZero = false := by
    simpa [Window.isBlackout] using hw
  rw [(within_intersect h w).isBlackout_iff]
  have heff := not_isZero_of_open_pos h
  simp only [intersect, heff, hz, Bool.false_eq_true, if_false]
  omega

theorem Within.isBlackout_of {eff outer : Window} (h : Within eff outer)
    (hb : outer.isBlackout = true) : eff.isBlackout = true := by
  have hopens := h.opens
  have hcloses := h.closes
  have hle := (Within.refl h.pos).isBlackout_iff.1 hb
  rw [h.isBlackout_iff]
  omega

theorem applicable_some (rule : StateRule) (auto : Bool) (campaign : Option Window)
    (dow : Fin 7) :
    applicable (some rule) auto campaign dow = withCampaignWindow
      (withAutoDialerWindow (withStateWindow fedFloor (rule.perDow dow)) auto rule) campaign := rfl

theorem withAutoDialerWindow_none {rule : StateRule} (eff : Window) (auto : Bool)
    (hw : rule.autoDialerOnly = none) : withAutoDialerWindow eff auto rule = eff := by
  simp [withAutoDialerWindow, hw]

theorem withAutoDialerWindow_auto {rule : StateRule} {w : Window} (eff : Window)
    (hw : rule.autoDialerOnly = some w) :
    withAutoDialerWindow eff true rule = intersect eff w := by
  simp [withAutoDialerWindow, hw]

theorem withAutoDialerWindow_off (eff : Window) (rule : StateRule) :
    withAutoDialerWindow eff false rule = eff := by
  cases hw : rule.autoDialerOnly with
  | none => exact withAutoDialerWindow_none eff false hw
  | some w => simp [withAutoDialerWindow, hw]

theorem isBlackout_applicable {rule : StateRule} {w : Window} (hw : rule.autoDialerOnly = some w)
    (hb : w.isBlackout = true) (campaign : Option Window) (dow : Fin 7) :
    (applicable (some rule) true campaign dow).isBlackout = true := by
  have hstate := within_withStateWindow fedFloor_open_pos (rule.perDow dow)
  have hpos := (within_intersect hstate.open_pos w).open_pos
  have hempty := isBlackout_intersect hstate.open_pos hb
  rw [applicable_some, withAutoDialerWindow_auto _ hw]
  exact (within_withCampaignWindow hpos campaign).isBlackout_of hempty

/-- A window for autodialers that never opens gives the reason that the dialer
states without naming a window. -/
theorem windowReason_of_autoDialer_blackout {rule : StateRule} {w : Window}
    (hw : rule.autoDialerOnly = some w) (hb : w.isBlackout = true) (point : EnforcementPoint)
    (campaign : Option Window) (wall : Int) :
    windowReason true point wall (applicable (some rule) true campaign (weekday (dayOf wall))) =
      .stateAutoDialerWindow := by
  unfold windowReason
  rw [if_pos (isBlackout_applicable hw hb campaign _)]
  rfl

theorem namesWindow_some {holiday : Bool} {rule : StateRule} {auto : Bool} {dow : Fin 7} :
    NamesWindow holiday (some rule) auto dow ↔
      holiday = false ∧ (rule.perDow dow).isBlackout = false ∧
        (auto = true → barsAutoDialer rule dow = false ∧
          ∀ w ∈ rule.autoDialerOnly, w.isBlackout = false) := by
  simp only [NamesWindow, Option.mem_some_iff, forall_eq']

/-- The dialer names a window that opens at hour 1000 or later. -/
def Overruns (holiday : Bool) (rule : Option StateRule) (auto : Bool) (campaign : Option Window)
    (dow : Fin 7) : Prop :=
  NamesWindow holiday rule auto dow ∧
    1000 * nsPerHour ≤ (applicable rule auto campaign dow).openLocal

def said (r : Reason) : Outcome × Reason := (outcomeOf r, r)

/-- The gate defers the call without naming a window. -/
def DeferredFor (reason : Reason) (nextOpen : Int) (x : Except String CheckResult) : Prop :=
  ∃ res, x = .ok res ∧ res.outcome = .skipUntil ∧ res.reason = reason ∧
    res.nextOpen = some nextOpen

/-- Under a rule the gate defers the call for a holiday, a blackout or a bar to
autodialers, or goes on to the window that applies. -/
theorem checkState_cases (c : Checker) (req : CheckRequest) (resolved : ResolveResult) (wall : Int)
    (state : String) (rule : StateRule) :
    (c.isHoliday state (dayOf wall) = true ∧
        DeferredFor .stateHolidayBlackout (nextDowOpen c resolved.location wall rule)
          (checkState c req resolved wall state rule)) ∨
      (c.isHoliday state (dayOf wall) = false ∧
        (rule.perDow (weekday (dayOf wall))).isBlackout = true ∧
        DeferredFor
          (if weekday (dayOf wall) ≠ 0 then .stateDowBlackout else .stateSundayBlackout)
          (nextDowOpen c resolved.location wall rule)
          (checkState c req resolved wall state rule)) ∨
      (c.isHoliday state (dayOf wall) = false ∧
        (rule.perDow (weekday (dayOf wall))).isBlackout = false ∧ req.isAutoDialer = true ∧
        (barsAutoDialer rule (weekday (dayOf wall)) ||
          rule.autoDialerOnly.any Window.isBlackout) = true ∧
        DeferredFor .stateAutoDialerWindow
          (nextDayOpen c resolved.location wall rule
            (withStateWindow fedFloor (rule.perDow (weekday (dayOf wall)))))
          (checkState c req resolved wall state rule)) ∨
      (NamesWindow (c.isHoliday state (dayOf wall)) (some rule) req.isAutoDialer
          (weekday (dayOf wall)) ∧
        checkState c req resolved wall state rule =
          checkWindow c req resolved wall state rule (applicable (some rule) req.isAutoDialer
            req.campaignWindow (weekday (dayOf wall)))) := by
  unfold checkState
  dsimp only
  by_cases hh : c.isHoliday state (dayOf wall) = true
  · rw [if_pos hh]
    exact Or.inl ⟨hh, _, rfl, rfl, rfl, rfl⟩
  · rw [if_neg hh]
    have hclear : c.isHoliday state (dayOf wall) = false := by simpa using hh
    by_cases hb : (rule.perDow (weekday (dayOf wall))).isBlackout = true
    · rw [if_pos hb]
      exact Or.inr (Or.inl ⟨hclear, hb, _, rfl, rfl, rfl, rfl⟩)
    · rw [if_neg hb]
      have hopen : (rule.perDow (weekday (dayOf wall))).isBlackout = false := by simpa using hb
      refine Or.inr (Or.inr ?_)
      rw [namesWindow_some, applicable_some]
      by_cases ha : req.isAutoDialer = true
      · rw [if_pos ha]
        by_cases hbar : barsAutoDialer rule (weekday (dayOf wall)) = true
        · rw [if_pos hbar]
          exact Or.inl ⟨hclear, hopen, ha, by simp [hbar], _, rfl, rfl, rfl, rfl⟩
        · rw [if_neg hbar]
          have hfree : barsAutoDialer rule (weekday (dayOf wall)) = false := by simpa using hbar
          cases hw : rule.autoDialerOnly with
          | none =>
            rw [withAutoDialerWindow_none _ _ hw]
            exact Or.inr ⟨⟨hclear, hopen, fun _ => ⟨hfree, by simp⟩⟩, rfl⟩
          | some w =>
            by_cases hwb : w.isBlackout = true
            · simp only [if_pos hwb]
              exact Or.inl ⟨hclear, hopen, ha, by simp [hwb], _, rfl, rfl, rfl, rfl⟩
            · simp only [if_neg hwb]
              rw [ha, withAutoDialerWindow_auto _ hw]
              exact Or.inr ⟨⟨hclear, hopen, fun _ => ⟨hfree, by simpa using hwb⟩⟩, rfl⟩
      · rw [if_neg ha]
        have hoff : req.isAutoDialer = false := by simpa using ha
        rw [hoff, withAutoDialerWindow_off]
        exact Or.inr ⟨⟨hclear, hopen, nofun⟩, rfl⟩

theorem decisionReason_of_barred {holiday : Bool} {rule : StateRule} {auto : Bool}
    {point : EnforcementPoint} {campaign : Option Window} {wall : Int} (hh : holiday = false)
    (hb : (rule.perDow (weekday (dayOf wall))).isBlackout = false) (ha : auto = true)
    (hbar : (barsAutoDialer rule (weekday (dayOf wall)) ||
      rule.autoDialerOnly.any Window.isBlackout) = true) :
    decisionReason holiday (some rule) auto point campaign wall = .stateAutoDialerWindow := by
  subst ha
  simp only [decisionReason, hh, hb, Bool.true_and, Bool.false_eq_true, if_false]
  by_cases hday : barsAutoDialer rule (weekday (dayOf wall)) = true
  · rw [if_pos hday]
  · rw [if_neg hday]
    have hany : rule.autoDialerOnly.any Window.isBlackout = true := by simpa [hday] using hbar
    obtain ⟨w, hw, hwb⟩ := (Option.any_eq_true _ _).1 hany
    exact windowReason_of_autoDialer_blackout hw hwb point campaign wall

theorem decisionReason_of_namesWindow {holiday : Bool} {rule : StateRule} {auto : Bool}
    {point : EnforcementPoint} {campaign : Option Window} {wall : Int}
    (h : NamesWindow holiday (some rule) auto (weekday (dayOf wall))) :
    decisionReason holiday (some rule) auto point campaign wall =
      windowReason auto point wall
        (applicable (some rule) auto campaign (weekday (dayOf wall))) := by
  obtain ⟨hh, hb, hauto⟩ := namesWindow_some.1 h
  have hbar : (auto && barsAutoDialer rule (weekday (dayOf wall))) = false := by
    cases auto with
    | false => rfl
    | true => exact (hauto rfl).1
  simp only [decisionReason, hh, hb, hbar, Bool.false_eq_true, if_false]

section Dialer

variable {c : Checker} {req : CheckRequest} {resolved : ResolveResult} {wall : Int}
  {state : String} {p : Outcome × Reason}

theorem verdict_checkWindow_iff {rule : StateRule} {eff : Window} (heff : Within eff fedFloor) :
    verdict (checkWindow c req resolved wall state rule eff) = some p ↔
      ¬ 1000 * nsPerHour ≤ eff.openLocal ∧
        p = said (windowReason req.isAutoDialer req.enforcementPoint wall eff) := by
  rw [verdict_checkWindow heff.open_pos heff.closes]
  by_cases hlt : eff.openLocal < 1000 * nsPerHour
  · rw [if_pos hlt, Option.some.injEq]
    exact ⟨fun h => ⟨not_le.2 hlt, h.symm⟩, fun h => h.2.symm⟩
  · rw [if_neg hlt]
    constructor
    · intro h
      cases h
    · intro h
      exact absurd (not_lt.1 hlt) h.1

theorem verdict_early {res : CheckResult} {reason : Reason} {rule : StateRule}
    (ho : res.outcome = outcomeOf reason) (hr : res.reason = reason)
    (hnot : ¬ NamesWindow (c.isHoliday state (dayOf wall)) (some rule) req.isAutoDialer
      (weekday (dayOf wall))) :
    verdict (.ok res) = some p ↔
      ¬ Overruns (c.isHoliday state (dayOf wall)) (some rule) req.isAutoDialer req.campaignWindow
        (weekday (dayOf wall)) ∧ p = said reason := by
  have hv : verdict (.ok res) = some (said reason) := by
    simp [verdict, Except.toOption, said, ho, hr]
  rw [hv, Option.some.injEq]
  exact ⟨fun h => ⟨fun hover => hnot hover.1, h.symm⟩, fun h => h.2.symm⟩

theorem verdict_late {rule : StateRule} {eff : Window}
    (heff : applicable (some rule) req.isAutoDialer req.campaignWindow (weekday (dayOf wall)) = eff)
    (hnames : NamesWindow (c.isHoliday state (dayOf wall)) (some rule) req.isAutoDialer
      (weekday (dayOf wall))) :
    verdict (checkWindow c req resolved wall state rule eff) = some p ↔
      ¬ Overruns (c.isHoliday state (dayOf wall)) (some rule) req.isAutoDialer req.campaignWindow
        (weekday (dayOf wall)) ∧
        p = said (windowReason req.isAutoDialer req.enforcementPoint wall eff) := by
  have hwithin := within_applicable (some rule) req.isAutoDialer req.campaignWindow
    (weekday (dayOf wall))
  rw [heff] at hwithin
  rw [verdict_checkWindow_iff hwithin]
  unfold Overruns
  rw [heff]
  simp only [hnames, true_and]

theorem verdict_checkState_iff (rule : StateRule) :
    verdict (checkState c req resolved wall state rule) = some p ↔
      ¬ Overruns (c.isHoliday state (dayOf wall)) (some rule) req.isAutoDialer req.campaignWindow
        (weekday (dayOf wall)) ∧
      p = said (decisionReason (c.isHoliday state (dayOf wall)) (some rule) req.isAutoDialer
        req.enforcementPoint req.campaignWindow wall) := by
  have hnames := @namesWindow_some (c.isHoliday state (dayOf wall)) rule req.isAutoDialer
    (weekday (dayOf wall))
  obtain ⟨hh, res, hres, ho, hr, -⟩ | ⟨hh, hb, res, hres, ho, hr, -⟩ |
    ⟨hh, hb, ha, hbar, res, hres, ho, hr, -⟩ | ⟨hwindow, he⟩ :=
    checkState_cases c req resolved wall state rule
  · have hnot : ¬ NamesWindow (c.isHoliday state (dayOf wall)) (some rule) req.isAutoDialer
        (weekday (dayOf wall)) := by
      rw [hnames, hh]
      simp
    rw [hres, verdict_early ho hr hnot]
    simp only [decisionReason, hh, if_true]
  · have hnot : ¬ NamesWindow (c.isHoliday state (dayOf wall)) (some rule) req.isAutoDialer
        (weekday (dayOf wall)) := by
      rw [hnames, hb]
      simp
    have hout : res.outcome = outcomeOf (if weekday (dayOf wall) ≠ 0 then Reason.stateDowBlackout
        else .stateSundayBlackout) := by
      rw [ho]
      split <;> rfl
    rw [hres, verdict_early hout hr hnot]
    simp only [decisionReason, hh, hb, Bool.false_eq_true, if_false, if_true, Fin.val_ne_zero_iff]
  · have hnot : ¬ NamesWindow (c.isHoliday state (dayOf wall)) (some rule) req.isAutoDialer
        (weekday (dayOf wall)) := by
      rw [hnames]
      rintro ⟨-, -, hopen⟩
      obtain ⟨hfree, hauto⟩ := hopen ha
      rw [hfree, Bool.false_or, Option.any_eq_true] at hbar
      obtain ⟨w, hw, hwb⟩ := hbar
      rw [hauto w hw] at hwb
      cases hwb
    rw [hres, verdict_early ho hr hnot, decisionReason_of_barred hh hb ha hbar]
  · rw [he, verdict_late rfl hwindow, decisionReason_of_namesWindow hwindow]

theorem verdict_checkResolved_iff (t : Int) :
    verdict (checkResolved c req resolved t) = some p ↔
      ¬ Overruns (c.isHoliday (ruleState req resolved) (dayOf (resolved.location.wall t)))
        (c.rules (ruleState req resolved)) req.isAutoDialer req.campaignWindow
        (weekday (dayOf (resolved.location.wall t))) ∧
      p = said (decisionReason
        (c.isHoliday (ruleState req resolved) (dayOf (resolved.location.wall t)))
        (c.rules (ruleState req resolved)) req.isAutoDialer req.enforcementPoint
        req.campaignWindow (resolved.location.wall t)) := by
  unfold checkResolved
  dsimp only
  cases hrule : c.rules (ruleState req resolved) with
  | some rule => exact verdict_checkState_iff rule
  | none =>
    have hwithin : Within (withCampaignWindow fedFloor req.campaignWindow) fedFloor :=
      within_withCampaignWindow fedFloor_open_pos _
    have hnames : NamesWindow (c.isHoliday (ruleState req resolved)
        (dayOf (resolved.location.wall t))) none req.isAutoDialer
        (weekday (dayOf (resolved.location.wall t))) := by
      intro r hr
      cases hr
    dsimp only
    rw [verdict_checkWindow_iff hwithin]
    unfold Overruns
    simp only [hnames, true_and]
    rfl

end Dialer

theorem Within.withCampaignWindow {eff outer : Window} (h : Within eff outer)
    (campaign : Option Window) :
    Within (withCampaignWindow eff campaign) (withCampaignWindow outer campaign) := by
  have hopens := h.opens
  have hcloses := h.closes
  have hz := not_isZero_of_open_pos h.open_pos
  have hz' := not_isZero_of_open_pos h.pos
  cases campaign with
  | none => exact h
  | some w =>
    by_cases hw : w.isZero = true
    · simp only [Tcpa.withCampaignWindow, hw, if_true]
      exact h
    · have hpos := (within_intersect h.pos w).open_pos
      simp only [Tcpa.withCampaignWindow, hw, if_false, Bool.false_eq_true]
      refine ⟨?_, ?_, hpos⟩
      · simp only [intersect, hz, hz', hw, if_false, Bool.false_eq_true]
        omega
      · simp only [intersect, hz, hz', hw, if_false, Bool.false_eq_true]
        omega

theorem applicable_within (rule : StateRule) (auto : Bool) (campaign : Option Window)
    (dow : Fin 7) :
    Within (applicable (some rule) auto campaign dow) (applicable none auto campaign dow) := by
  have hstate := within_withStateWindow fedFloor_open_pos (rule.perDow dow)
  have hauto := (within_withAutoDialerWindow hstate.open_pos auto rule).trans hstate
  exact hauto.withCampaignWindow campaign

/-- The local time stands to the narrower window `eff` as it does to `outer`. -/
def SameStanding (auto : Bool) (point : EnforcementPoint) (wall : Int) (eff outer : Window) :
    Prop :=
  (eff.isBlackout = true ∧ auto = false ∧ outer.closeLocal ≤ partyMins wall) ∨
    (eff.isBlackout = false ∧
      (partyMins wall < outer.openLocal ∨ outer.closeLocal ≤ partyMins wall ∨
        (eff.openLocal ≤ partyMins wall ∧ partyMins wall < eff.closeLocal ∧
          (point = .originate → eff.closeLocal - partyElapsed wall < boundaryGuard →
            outer.closeLocal - partyElapsed wall < boundaryGuard))))

theorem windowReason_eq_iff {auto : Bool} {point : EnforcementPoint} {wall : Int}
    {eff outer : Window} (h : Within eff outer) (hout : outer.isBlackout = false) :
    windowReason auto point wall eff = windowReason auto point wall outer ↔
      SameStanding auto point wall eff outer := by
  have hopens := h.opens
  have hcloses := h.closes
  have hlt : outer.openLocal < outer.closeLocal := by
    have hno := (Within.refl h.pos).isBlackout_iff
    rw [hout] at hno
    by_contra hge
    exact absurd (hno.2 (not_lt.1 hge)) (by decide)
  unfold windowReason SameStanding
  rw [hout]
  by_cases hb : eff.isBlackout = true
  · have hle := h.isBlackout_iff.1 hb
    rw [hb]
    cases auto with
    | true =>
      simp only [if_true, Bool.false_eq_true, if_false]
      split_ifs <;> simp
    | false =>
      simp only [if_true, Bool.false_eq_true, if_false, true_and]
      split_ifs <;> simp <;> omega
  · have hbf : eff.isBlackout = false := by simpa using hb
    have hlt' : eff.openLocal < eff.closeLocal := by
      by_contra hge
      exact hb (h.isBlackout_iff.2 (not_lt.1 hge))
    rw [hbf]
    simp only [Bool.false_eq_true, if_false, false_and, false_or, true_and]
    by_cases hbefore : partyMins wall < outer.openLocal
    · rw [if_pos (show partyMins wall < eff.openLocal by omega), if_pos hbefore]
      exact iff_of_true rfl (Or.inl hbefore)
    · by_cases hafter : outer.closeLocal ≤ partyMins wall
      · rw [if_neg (show ¬ partyMins wall < eff.openLocal by omega),
          if_pos (show eff.closeLocal ≤ partyMins wall by omega), if_neg hbefore, if_pos hafter]
        exact iff_of_true rfl (Or.inr (Or.inl hafter))
      · rw [if_neg hbefore, if_neg hafter]
        simp only [hbefore, hafter, false_or]
        by_cases hin : eff.openLocal ≤ partyMins wall ∧ partyMins wall < eff.closeLocal
        · rw [if_neg (not_lt.2 hin.1), if_neg (not_le.2 hin.2)]
          simp only [hin.1, hin.2, true_and]
          by_cases horig : point = .originate
          · simp only [horig, true_and, forall_const]
            split_ifs <;> simp <;> omega
          · simp [horig]
        · refine iff_of_false ?_ fun hh => hin ⟨hh.1, hh.2.1⟩
          split_ifs <;> simp <;> omega

/-- The rule of a state changes nothing about a call at this local time. -/
structure RuleIdle (holiday : Bool) (rule : StateRule) (auto : Bool) (point : EnforcementPoint)
    (campaign : Option Window) (wall : Int) : Prop where
  no_holiday : holiday = false
  no_blackout : (rule.perDow (weekday (dayOf wall))).isBlackout = false
  same_standing : (applicable none auto campaign (weekday (dayOf wall))).isBlackout = true ∨
    (auto && barsAutoDialer rule (weekday (dayOf wall))) = false ∧
      SameStanding auto point wall (applicable (some rule) auto campaign (weekday (dayOf wall)))
        (applicable none auto campaign (weekday (dayOf wall)))

theorem windowReason_ne_blackout {auto : Bool} {point : EnforcementPoint} {wall : Int}
    {eff : Window} : windowReason auto point wall eff ≠ .stateHolidayBlackout ∧
      windowReason auto point wall eff ≠ .stateDowBlackout ∧
      windowReason auto point wall eff ≠ .stateSundayBlackout ∧
      (eff.isBlackout = false → windowReason auto point wall eff ≠ .stateAutoDialerWindow) := by
  unfold windowReason
  split_ifs <;> simp_all

theorem decisionReason_eq_none_iff {holiday holiday' : Bool} {rule : StateRule} {auto : Bool}
    {point : EnforcementPoint} {campaign : Option Window} {wall : Int} :
    decisionReason holiday (some rule) auto point campaign wall =
        decisionReason holiday' none auto point campaign wall ↔
      RuleIdle holiday rule auto point campaign wall := by
  have hne : ∀ eff, _ := fun eff => @windowReason_ne_blackout auto point wall eff
  have hwithin := applicable_within rule auto campaign (weekday (dayOf wall))
  have hidle : ∀ {P : Prop}, (RuleIdle holiday rule auto point campaign wall → P) →
      ¬ P → ¬ RuleIdle holiday rule auto point campaign wall := fun h hP hr => hP (h hr)
  unfold decisionReason
  dsimp only
  by_cases hh : holiday = true
  · rw [if_pos hh]
    refine iff_of_false (fun h => (hne _).1 h.symm) (hidle RuleIdle.no_holiday ?_)
    rw [hh]
    decide
  · rw [if_neg hh]
    by_cases hb : (rule.perDow (weekday (dayOf wall))).isBlackout = true
    · rw [if_pos hb]
      refine iff_of_false ?_ (hidle RuleIdle.no_blackout (by rw [hb]; decide))
      split
      · exact fun h => (hne _).2.1 h.symm
      · exact fun h => (hne _).2.2.1 h.symm
    · rw [if_neg hb]
      have hhf : holiday = false := by simpa using hh
      have hbf : (rule.perDow (weekday (dayOf wall))).isBlackout = false := by simpa using hb
      by_cases hout : (applicable none auto campaign (weekday (dayOf wall))).isBlackout = true
      · refine iff_of_true ?_ ⟨hhf, hbf, Or.inl hout⟩
        have hin := hwithin.isBlackout_of hout
        have hreason : ∀ eff : Window, eff.isBlackout = true →
            windowReason auto point wall eff =
              if auto then .stateAutoDialerWindow else .afterWindow := by
          intro eff heff
          unfold windowReason
          rw [if_pos heff]
        rw [hreason _ hout, hreason _ hin]
        cases auto with
        | true => simp
        | false => simp
      · have hof : (applicable none auto campaign (weekday (dayOf wall))).isBlackout = false := by
          simpa using hout
        by_cases hbar : (auto && barsAutoDialer rule (weekday (dayOf wall))) = true
        · rw [if_pos hbar]
          refine iff_of_false (fun h => (hne _).2.2.2 hof h.symm) ?_
          refine hidle RuleIdle.same_standing ?_
          rw [hof, hbar]
          simp
        · have hbarf : (auto && barsAutoDialer rule (weekday (dayOf wall))) = false := by
            simpa using hbar
          rw [if_neg hbar, windowReason_eq_iff hwithin hof]
          constructor
          · intro h
            exact ⟨hhf, hbf, Or.inr ⟨hbarf, h⟩⟩
          · intro h
            exact (h.same_standing.resolve_left (by rw [hof]; decide)).2

theorem decisionReason_congr {wall wall' : Int}
    (h : wall / nsPerSecond = wall' / nsPerSecond) :
    dayOf wall = dayOf wall' ∧ ∀ holiday rule auto point campaign,
      decisionReason holiday rule auto point campaign wall =
        decisionReason holiday rule auto point campaign wall' := by
  have hday : dayOf wall = dayOf wall' := by
    simp only [dayOf, nsPerDay, nsPerHour, nsPerMinute, nsPerSecond] at h ⊢
    omega
  have hmins : partyMins wall = partyMins wall' := by
    simp only [partyMins, clockHour, clockMinute, nsPerDay, nsPerHour, nsPerMinute,
      nsPerSecond] at h ⊢
    omega
  have helapsed : partyElapsed wall = partyElapsed wall' := by
    simp only [partyElapsed, clockHour, clockMinute, clockSecond, nsPerDay, nsPerHour,
      nsPerMinute, nsPerSecond] at h ⊢
    omega
  refine ⟨hday, ?_⟩
  intro holiday rule auto point campaign
  unfold decisionReason windowReason
  rw [hday, hmins, helapsed]

end Tcpa

end Vici2
