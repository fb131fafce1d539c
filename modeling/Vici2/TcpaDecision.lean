import Mathlib.Data.Int.ConditionallyCompleteOrder
import Mathlib.Order.Interval.Set.Basic
import Mathlib.Tactic.Ring
import Vici2.Tcpa

/-! When the gate allows a call. A window is read as the set of times of day it
leaves open, and the effective window of the checker as the intersection of
the windows that apply. -/

namespace Vici2

namespace Tcpa

def IsAllow (r : Except String CheckResult) : Prop :=
  r.toOption.map CheckResult.outcome = some .allow

instance (r : Except String CheckResult) : Decidable (IsAllow r) :=
  inferInstanceAs (Decidable (_ = _))

/-- The times of day a window leaves open; the zero window restricts nothing. -/
def Window.span (w : Window) : Set Int :=
  if w.isZero then Set.univ else Set.Ico w.openLocal w.closeLocal

def callable (c : Checker) (req : CheckRequest) (state : String) (dow : Fin 7) : Set Int :=
  fedFloor.span ∩
    (c.rules state).elim Set.univ (fun rule => (rule.perDow dow).span) ∩
    (c.rules state).elim Set.univ (fun rule =>
      if req.isAutoDialer then rule.autoDialerOnly.elim Set.univ Window.span else Set.univ) ∩
    req.campaignWindow.elim Set.univ Window.span

/-- A call at wall clock `wall` is permitted, with `elapsed` the time since local
midnight that the thirty-second guard counts from. -/
structure Permitted (c : Checker) (req : CheckRequest) (state : String) (wall : Int)
    (elapsed : Int) : Prop where
  no_holiday : (c.rules state).isSome = true → c.isHoliday state (dayOf wall) = false
  no_blackout : ∀ rule, c.rules state = some rule →
    (rule.perDow (weekday (dayOf wall))).isBlackout = false
  no_autoDialer_blackout : ∀ rule, c.rules state = some rule → req.isAutoDialer = true →
    barsAutoDialer rule (weekday (dayOf wall)) = false
  in_window : partyMins wall ∈ callable c req state (weekday (dayOf wall))
  before_close : req.enforcementPoint = .originate →
    Set.Ico elapsed (elapsed + boundaryGuard) ⊆ callable c req state (weekday (dayOf wall))

def sinceMidnight (wall : Int) : Int := wall % nsPerDay

def secondsSinceMidnight (wall : Int) : Int := wall % nsPerDay / nsPerSecond * nsPerSecond

theorem partyElapsed_eq (wall : Int) : partyElapsed wall = secondsSinceMidnight wall := by
  simp only [partyElapsed, secondsSinceMidnight, clockHour, clockMinute, clockSecond, nsPerDay,
    nsPerHour, nsPerMinute, nsPerSecond]
  omega

theorem partyMins_le_partyElapsed (wall : Int) : partyMins wall ≤ partyElapsed wall := by
  simp only [partyMins, partyElapsed, clockHour, clockMinute, clockSecond, nsPerDay, nsPerHour,
    nsPerMinute, nsPerSecond]
  omega

theorem partyMins_lt_day (wall : Int) : partyMins wall < nsPerDay := by
  simp only [partyMins, clockHour, clockMinute, nsPerDay, nsPerHour, nsPerMinute, nsPerSecond]
  omega

/-- The window is the set `S` of times, opens after midnight and closes by the
federal close. -/
structure Narrowed (eff : Window) (S : Set Int) : Prop where
  opens : 0 < eff.openLocal
  closes : eff.closeLocal ≤ fedFloor.closeLocal
  times : Set.Ico eff.openLocal eff.closeLocal = S

theorem not_isZero_of_open_pos {w : Window} (h : 0 < w.openLocal) : w.isZero = false := by
  have hne : w.openLocal ≠ 0 := by omega
  simp [Window.isZero, hne]

theorem narrowed_fedFloor : Narrowed fedFloor fedFloor.span where
  opens := by decide
  closes := le_refl _
  times := by
    have hz : fedFloor.isZero = false := by decide
    simp [Window.span, hz]

theorem Narrowed.intersect {eff : Window} {S : Set Int} (h : Narrowed eff S) (w : Window) :
    Narrowed (intersect eff w) (S ∩ w.span) := by
  have hz := not_isZero_of_open_pos h.opens
  have hopens := h.opens
  have hcloses := h.closes
  by_cases hw : w.isZero = true
  · have he : Tcpa.intersect eff w = eff := by simp [Tcpa.intersect, hz, hw]
    rw [he]
    refine ⟨h.opens, h.closes, ?_⟩
    simp [Window.span, hw, h.times]
  · have he : Tcpa.intersect eff w =
        ⟨max eff.openLocal w.openLocal, min eff.closeLocal w.closeLocal, 0⟩ := by
      simp [Tcpa.intersect, hz, hw]
    rw [he]
    refine ⟨?_, ?_, ?_⟩
    · show 0 < max eff.openLocal w.openLocal
      omega
    · show min eff.closeLocal w.closeLocal ≤ fedFloor.closeLocal
      omega
    · simp only [Window.span, hw, Bool.false_eq_true, if_false, ← h.times]
      exact Set.Ico_inter_Ico.symm

theorem Narrowed.withStateWindow {eff : Window} {S : Set Int} (h : Narrowed eff S)
    {w : Window} (hb : w.isBlackout = false) : Narrowed (withStateWindow eff w) (S ∩ w.span) := by
  by_cases hw : w.isZero = true
  · have he : Tcpa.withStateWindow eff w = eff := by simp [Tcpa.withStateWindow, hw]
    have hs : S ∩ w.span = S := by simp [Window.span, hw]
    rw [he, hs]
    exact h
  · have he : Tcpa.withStateWindow eff w = Tcpa.intersect eff w := by
      simp [Tcpa.withStateWindow, hw, hb]
    rw [he]
    exact h.intersect w

theorem Narrowed.withCampaignWindow {eff : Window} {S : Set Int} (h : Narrowed eff S)
    (cw : Option Window) :
    Narrowed (withCampaignWindow eff cw) (S ∩ cw.elim Set.univ Window.span) := by
  cases cw with
  | none =>
    have hs : S ∩ (none : Option Window).elim Set.univ Window.span = S := by simp
    rw [hs]
    exact h
  | some w =>
    by_cases hw : w.isZero = true
    · have he : Tcpa.withCampaignWindow eff (some w) = eff := by
        simp [Tcpa.withCampaignWindow, hw]
      have hs : S ∩ (some w).elim Set.univ Window.span = S := by simp [Window.span, hw]
      rw [he, hs]
      exact h
    · have he : Tcpa.withCampaignWindow eff (some w) = Tcpa.intersect eff w := by
        simp [Tcpa.withCampaignWindow, hw]
      rw [he]
      exact h.intersect w

theorem isAllow_ok (res : CheckResult) : IsAllow (.ok res) ↔ res.outcome = .allow := by
  simp [IsAllow, Except.toOption]

theorem isAllow_named (x : Except String String) (f : String → CheckResult) (o : Outcome)
    (hf : ∀ name, (f name).outcome = o) :
    IsAllow (x >>= fun name => pure (f name)) ↔ x.isOk = true ∧ o = .allow := by
  cases x with
  | error e => simp [IsAllow, Except.toOption, bind, Except.bind, Except.isOk, Except.toBool]
  | ok name =>
    simp [IsAllow, Except.toOption, bind, Except.bind, Except.isOk, Except.toBool, pure,
      Except.pure, hf]

theorem itoa_isOk {n : Int} (h : n < 1000) : ∃ s, itoa n = .ok s := by
  unfold itoa
  split_ifs
  · exact ⟨_, rfl⟩
  · exact ⟨_, rfl⟩
  · exact ⟨_, rfl⟩

theorem tdiv_nsPerHour_lt {d : Int} (h : d < nsPerDay) : d.tdiv nsPerHour < 1000 := by
  have hh : d.tdiv nsPerHour ≤ 23 := by
    by_cases hd : 0 ≤ d
    · rw [Int.tdiv_eq_ediv_of_nonneg hd]
      simp only [nsPerDay, nsPerHour, nsPerMinute, nsPerSecond] at h ⊢
      omega
    · have hneg := Int.neg_tdiv d nsPerHour
      have hpos : 0 ≤ (-d).tdiv nsPerHour := Int.tdiv_nonneg (by omega) (by decide)
      omega
  omega

theorem ruleNameOf_isOk (state : String) (dow : Fin 7) {eff : Window}
    (ho : eff.openLocal < nsPerDay) (hc : eff.closeLocal < nsPerDay) :
    (ruleNameOf state dow eff).isOk = true := by
  obtain ⟨o, hopen⟩ := itoa_isOk (tdiv_nsPerHour_lt ho)
  obtain ⟨cl, hclose⟩ := itoa_isOk (tdiv_nsPerHour_lt hc)
  simp [ruleNameOf, hopen, hclose, bind, Except.bind, pure, Except.pure, Except.isOk,
    Except.toBool]

/-- From the effective window on: allowed exactly inside it, and at the
originate point only while the guard fits before the close. -/
theorem checkWindow_allow_iff {eff : Window} {S : Set Int} (h : Narrowed eff S) (c : Checker)
    (req : CheckRequest) (resolved : ResolveResult) (wall : Int) (state : String)
    (rule : StateRule) :
    IsAllow (checkWindow c req resolved wall state rule eff) ↔
      partyMins wall ∈ S ∧ (req.enforcementPoint = .originate →
        Set.Ico (partyElapsed wall) (partyElapsed wall + boundaryGuard) ⊆ S) := by
  have hz := not_isZero_of_open_pos h.opens
  have hday := partyMins_lt_day wall
  have hfed : eff.closeLocal < nsPerDay := lt_of_le_of_lt h.closes (by decide)
  rw [← h.times, Set.mem_Ico]
  by_cases hin : eff.openLocal ≤ partyMins wall ∧ partyMins wall < eff.closeLocal
  · obtain ⟨hopen, hclose⟩ := hin
    have hle := partyMins_le_partyElapsed wall
    have hguard : (0 : Int) < boundaryGuard := by decide
    have hsub : Set.Ico (partyElapsed wall) (partyElapsed wall + boundaryGuard) ⊆
        Set.Ico eff.openLocal eff.closeLocal ↔
          partyElapsed wall + boundaryGuard ≤ eff.closeLocal := by
      rw [Set.Ico_subset_Ico_iff (by omega)]
      constructor
      · intro hh
        exact hh.2
      · intro hh
        exact ⟨by omega, hh⟩
    have hblack : eff.isBlackout = false := by
      have hlt : ¬ eff.closeLocal ≤ eff.openLocal := by omega
      simp [Window.isBlackout, hlt]
    have hname := ruleNameOf_isOk state (weekday (dayOf wall)) (lt_of_le_of_lt hopen hday) hfed
    rw [hsub]
    simp only [checkWindow, hblack, Bool.false_eq_true, if_false, not_lt.mpr hopen,
      not_le.mpr hclose, hopen, hclose, and_self, true_and]
    by_cases horig : req.enforcementPoint = .originate ∧
        eff.closeLocal - partyElapsed wall < boundaryGuard
    · rw [if_pos horig, isAllow_named _ _ .skipUntil (fun _ => rfl)]
      have hno : ¬ partyElapsed wall + boundaryGuard ≤ eff.closeLocal := by omega
      simp [horig.1, hno]
    · rw [if_neg horig, isAllow_named _ _ .allow (fun _ => rfl)]
      refine iff_of_true ⟨hname, rfl⟩ ?_
      intro ho
      by_contra hno
      exact horig ⟨ho, by omega⟩
  · refine iff_of_false ?_ fun hh => hin hh.1
    simp only [checkWindow]
    by_cases hb : eff.isBlackout = true
    · rw [if_pos hb, isAllow_named _ _ .skipUntil (fun _ => rfl)]
      simp
    · by_cases hlt : partyMins wall < eff.openLocal
      · rw [if_neg hb, if_pos hlt, isAllow_named _ _ .skipUntil (fun _ => rfl)]
        simp
      · have hge : eff.closeLocal ≤ partyMins wall := by
          by_contra hno
          exact hin ⟨by omega, by omega⟩
        rw [if_neg hb, if_neg hlt, if_pos hge, isAllow_named _ _ .skipUntil (fun _ => rfl)]
        simp

theorem Window.span_of_isBlackout {w : Window} (h : w.isBlackout = true) : w.span = ∅ := by
  obtain ⟨hle, hz⟩ : w.closeLocal ≤ w.openLocal ∧ w.isZero = false := by
    simpa [Window.isBlackout] using h
  simp [Window.span, hz, hle]

theorem permitted_iff_of_clear {c : Checker} {req : CheckRequest} {state : String} {wall : Int}
    {rule : StateRule} (hrule : c.rules state = some rule)
    (hh : c.isHoliday state (dayOf wall) = false)
    (hb : (rule.perDow (weekday (dayOf wall))).isBlackout = false)
    (ha : req.isAutoDialer = true → barsAutoDialer rule (weekday (dayOf wall)) = false)
    (elapsed : Int) :
    Permitted c req state wall elapsed ↔
      partyMins wall ∈ callable c req state (weekday (dayOf wall)) ∧
        (req.enforcementPoint = .originate →
          Set.Ico elapsed (elapsed + boundaryGuard) ⊆
            callable c req state (weekday (dayOf wall))) := by
  constructor
  · intro hp
    exact ⟨hp.in_window, hp.before_close⟩
  · rintro ⟨hin, hclose⟩
    refine ⟨fun _ => hh, fun rule' hr => ?_, fun rule' hr hauto => ?_, hin, hclose⟩
    · rw [hrule] at hr
      obtain rfl := Option.some.inj hr
      exact hb
    · rw [hrule] at hr
      obtain rfl := Option.some.inj hr
      exact ha hauto

theorem checkState_allow_iff (c : Checker) (req : CheckRequest) (resolved : ResolveResult)
    (wall : Int) (state : String) {rule : StateRule} (hrule : c.rules state = some rule) :
    IsAllow (checkState c req resolved wall state rule) ↔
      Permitted c req state wall (partyElapsed wall) := by
  have hcall : callable c req state (weekday (dayOf wall)) =
      fedFloor.span ∩ (rule.perDow (weekday (dayOf wall))).span ∩
        (if req.isAutoDialer then rule.autoDialerOnly.elim Set.univ Window.span else Set.univ) ∩
        req.campaignWindow.elim Set.univ Window.span := by
    simp [callable, hrule]
  by_cases hh : c.isHoliday state (dayOf wall) = true
  · refine iff_of_false ?_ fun hp => ?_
    · simp only [checkState, if_pos hh, isAllow_ok]
      simp
    · have hno := hp.no_holiday (by simp [hrule])
      rw [hh] at hno
      simp at hno
  · by_cases hb : (rule.perDow (weekday (dayOf wall))).isBlackout = true
    · refine iff_of_false ?_ fun hp => ?_
      · simp only [checkState, if_neg hh, if_pos hb, isAllow_ok]
        simp
      · have hno := hp.no_blackout rule hrule
        rw [hb] at hno
        simp at hno
    · have hclear : c.isHoliday state (dayOf wall) = false := by simpa using hh
      have hopen : (rule.perDow (weekday (dayOf wall))).isBlackout = false := by simpa using hb
      have hstate := narrowed_fedFloor.withStateWindow hopen
      by_cases ha : req.isAutoDialer = true
      · by_cases hbar : barsAutoDialer rule (weekday (dayOf wall)) = true
        · refine iff_of_false ?_ fun hp => ?_
          · simp only [checkState, if_neg hh, if_neg hb, if_pos ha, if_pos hbar, isAllow_ok]
            simp
          · have hno := hp.no_autoDialer_blackout rule hrule ha
            rw [hbar] at hno
            simp at hno
        · rw [permitted_iff_of_clear hrule hclear hopen (fun _ => by simpa using hbar), hcall]
          simp only [checkState, if_neg hh, if_neg hb, if_pos ha, if_neg hbar]
          cases hw : rule.autoDialerOnly with
          | none =>
            rw [Option.elim_none, Set.inter_univ]
            exact checkWindow_allow_iff (hstate.withCampaignWindow _) c req resolved wall state rule
          | some autoW =>
            by_cases hab : autoW.isBlackout = true
            · rw [Option.elim_some, Window.span_of_isBlackout hab]
              simp only [if_pos hab, isAllow_ok]
              simp
            · simp only [if_neg hab, Option.elim_some]
              exact checkWindow_allow_iff ((hstate.intersect autoW).withCampaignWindow _) c req
                resolved wall state rule
      · rw [permitted_iff_of_clear hrule hclear hopen (fun h => absurd h ha), hcall]
        simp only [checkState, if_neg hh, if_neg hb, if_neg ha, Set.inter_univ]
        exact checkWindow_allow_iff (hstate.withCampaignWindow _) c req resolved wall state rule

theorem checkResolved_allow_iff (c : Checker) (req : CheckRequest) (resolved : ResolveResult)
    (t : Int) :
    IsAllow (checkResolved c req resolved t) ↔
      Permitted c req (ruleState req resolved) (resolved.location.wall t)
        (partyElapsed (resolved.location.wall t)) := by
  cases hrule : c.rules (ruleState req resolved) with
  | some rule =>
    simp only [checkResolved, hrule]
    exact checkState_allow_iff c req resolved _ _ hrule
  | none =>
    have hcall : callable c req (ruleState req resolved)
        (weekday (dayOf (resolved.location.wall t))) =
          fedFloor.span ∩ req.campaignWindow.elim Set.univ Window.span := by
      simp [callable, hrule]
    simp only [checkResolved, hrule]
    rw [checkWindow_allow_iff (narrowed_fedFloor.withCampaignWindow _), ← hcall]
    constructor
    · rintro ⟨hin, hclose⟩
      exact ⟨fun h => by simp [hrule] at h, fun rule hr => by simp [hrule] at hr,
        fun rule hr => by simp [hrule] at hr, hin, hclose⟩
    · intro hp
      exact ⟨hp.in_window, hp.before_close⟩

/-- With a resolved zone, a call is allowed exactly when no holiday or blackout
of the applicable state stands against it, its local minute is open in every
window that applies, and at the originate point the next thirty seconds,
counted from the whole second, are open too. -/
theorem check_allow_iff_permitted {c : Checker} {req : CheckRequest} {resolved : ResolveResult}
    (hr : c.resolver (resolveRequest req) = .ok resolved) (hc : resolved.confidence ≠ .none) :
    IsAllow (check c req) ↔
      Permitted c req (ruleState req resolved)
        (resolved.location.wall (checkInstant c req))
        (secondsSinceMidnight (resolved.location.wall (checkInstant c req))) := by
  have hcheck : check c req = checkResolved c req resolved (checkInstant c req) := by
    simp only [check, hr, bind, Except.bind, if_neg hc]
  rw [hcheck, checkResolved_allow_iff, partyElapsed_eq]

def phoenix : ResolveResult := ⟨"America/Phoenix", .known, ⟨fun _ => -7 * nsPerHour⟩⟩

def phoenixChecker : Checker where
  resolver := fun _ => .ok phoenix
  rules := fun _ => none
  isHoliday := fun _ _ => false
  now := 0

def phoenixRequest (sinceMidnightUTC : Int) : CheckRequest where
  leadID := 1
  phoneE164 := "+16025550100"
  knownTimezone := "America/Phoenix"
  zip := ""
  state := "AZ"
  campaignID := 42
  campaignWindow := none
  unknownTzPolicy := none
  enforcementPoint := .originate
  when := 739000 * nsPerDay + sinceMidnightUTC
  isAutoDialer := true

theorem phoenix_noon_permitted :
    phoenix.confidence ≠ .none ∧
      (IsAllow (check phoenixChecker (phoenixRequest (19 * nsPerHour))) ↔
        Permitted phoenixChecker (phoenixRequest (19 * nsPerHour)) "AZ"
          (739000 * nsPerDay + 12 * nsPerHour) (12 * nsPerHour)) :=
  ⟨by decide, @check_allow_iff_permitted phoenixChecker (phoenixRequest (19 * nsPerHour)) phoenix
    rfl (by decide)⟩

def lateRequest : CheckRequest :=
  phoenixRequest (27 * nsPerHour + 59 * nsPerMinute + 30 * nsPerSecond + 500000000)

theorem late_request_allowed_with_less_than_thirty_seconds :
    phoenixChecker.resolver (resolveRequest lateRequest) = .ok phoenix ∧
      phoenix.confidence ≠ .none ∧
      ¬ (IsAllow (check phoenixChecker lateRequest) ↔
        Permitted phoenixChecker lateRequest (ruleState lateRequest phoenix)
          (phoenix.location.wall (checkInstant phoenixChecker lateRequest))
          (sinceMidnight (phoenix.location.wall (checkInstant phoenixChecker lateRequest)))) := by
  refine ⟨rfl, by decide, fun h => ?_⟩
  have hp := h.mp (by decide)
  have hin := hp.before_close rfl (show 21 * nsPerHour ∈ Set.Ico _ _ by decide)
  have hfed : 21 * nsPerHour ∈ Set.Ico fedFloor.openLocal fedFloor.closeLocal := hin.1.1.1
  exact absurd hfed.2 (by decide)

end Tcpa

end Vici2
