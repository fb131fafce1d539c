import Vici2.TcpaMirror
import Vici2.TcpaVerdict

/-! Agreement of the dialer's gate and its TypeScript mirror. The mirror reaches the
same decision, but never derives a state from the zone. -/

namespace Vici2

namespace Tcpa

namespace Mirror

def Window.toGo (w : Window) : Tcpa.Window := ⟨w.openLocal, w.closeLocal, 0⟩

/-- The same rule in the dialer's table, where a missing window is the zero one. -/
def StateRule.toGo (r : StateRule) : Tcpa.StateRule where
  code := r.code
  perDow d := ((r.perDow d).map Window.toGo).getD ⟨0, 0, 0⟩
  autoDialerOnly := r.autoDialerOnly.map Window.toGo
  autoDialerBlackoutDows := r.autoDialerBlackoutDows.getD 0

@[simp] theorem isZero_toGo (w : Window) : w.toGo.isZero = w.isZero := by
  simp [Tcpa.Window.isZero, Window.toGo, Window.isZero]

@[simp] theorem isBlackout_toGo (w : Window) : w.toGo.isBlackout = isBlackout w := by
  unfold Tcpa.Window.isBlackout isBlackout
  rw [isZero_toGo]
  rfl

theorem toGo_intersect (a b : Window) : (intersect a b).toGo = Tcpa.intersect a.toGo b.toGo := by
  unfold intersect Tcpa.intersect
  rw [isZero_toGo, isZero_toGo]
  split
  · rfl
  · split
    · rfl
    · rfl

theorem toGo_withStateWindow (eff : Window) (w : Option Window) :
    (withStateWindow eff w).toGo =
      Tcpa.withStateWindow eff.toGo ((w.map Window.toGo).getD ⟨0, 0, 0⟩) := by
  cases w with
  | none => rfl
  | some w =>
    unfold withStateWindow Tcpa.withStateWindow
    simp only [Option.map_some, Option.getD_some, isZero_toGo, isBlackout_toGo]
    rw [Bool.and_comm]
    split
    · exact toGo_intersect eff w
    · rfl

theorem toGo_withCampaignWindow (eff : Window) (w : Option Window) :
    (withCampaignWindow eff w).toGo = Tcpa.withCampaignWindow eff.toGo (w.map Window.toGo) := by
  cases w with
  | none => rfl
  | some w =>
    unfold withCampaignWindow Tcpa.withCampaignWindow
    simp only [Option.map_some, isZero_toGo]
    split
    · rfl
    · exact toGo_intersect eff w

theorem toGo_withAutoDialerWindow (eff : Window) (auto : Bool) (r : StateRule) :
    (withAutoDialerWindow eff auto (some r)).toGo =
      Tcpa.withAutoDialerWindow eff.toGo auto r.toGo := by
  unfold withAutoDialerWindow Tcpa.withAutoDialerWindow
  cases hw : r.autoDialerOnly with
  | none => simp [StateRule.toGo, hw]
  | some w =>
    simp only [StateRule.toGo, hw, Option.map_some, Option.bind_some]
    split
    · exact toGo_intersect eff w
    · rfl

theorem shiftRight_bit (x : UInt8) (d : Fin 7) :
    (x >>> UInt8.ofNat d.val) &&& 1 = 1 ↔ (x.toNat >>> d.val) &&& 1 ≠ 0 := by
  have hd : (UInt8.ofNat d.val).toNat % 8 = d.val := by
    rw [UInt8.toNat_ofNat']
    omega
  rw [← UInt8.toNat_inj, UInt8.toNat_and, UInt8.toNat_shiftRight, hd]
  show (x.toNat >>> d.val) &&& 1 = 1 ↔ _
  rw [Nat.and_one_is_mod]
  omega

theorem barsAutoDialer_toGo (r : StateRule) (dow : Fin 7) :
    Tcpa.barsAutoDialer r.toGo dow = barsAutoDialer r dow := by
  have hbit := shiftRight_bit (r.autoDialerBlackoutDows.getD 0) dow
  unfold Tcpa.barsAutoDialer barsAutoDialer
  rw [Bool.eq_iff_iff]
  simp only [StateRule.toGo, Bool.and_eq_true, bne_iff_ne, beq_iff_eq, decide_eq_true_eq, hbit]

theorem secondsSinceMidnight_ns (wall : Int) :
    secondsSinceMidnight wall * nsPerSecond = partyElapsed wall := by
  simp only [secondsSinceMidnight, partyElapsed, nsPerHour, nsPerMinute]
  ring

theorem minutesSinceMidnight_ns (wall : Int) :
    secondsSinceMidnight wall / 60 * 60 * nsPerSecond = partyMins wall := by
  have hlt : 0 ≤ clockSecond wall ∧ clockSecond wall < 60 := by
    simp only [clockSecond, nsPerMinute, nsPerSecond]
    omega
  have hdiv : secondsSinceMidnight wall / 60 = clockHour wall * 60 + clockMinute wall := by
    unfold secondsSinceMidnight
    omega
  rw [hdiv]
  simp only [partyMins, nsPerMinute]
  ring

def CheckResult.verdict (r : CheckResult) : Outcome × Reason := (r.outcome, r.reason)

section Local

variable (req : CheckRequest) (z : Local)

theorem verdict_checkWindow (rule : Option StateRule) (hols : Option (Int → Bool)) (eff : Window) :
    (checkWindow req z rule hols eff).verdict =
      said (windowReason (req.isAutoDialer.getD false) req.enforcementPoint
        (z.loc.wall (unixMilli z.now)) eff.toGo) := by
  have hguard : boundaryGuard = 30 * nsPerSecond := rfl
  have hopen : eff.toGo.openLocal = eff.openLocal := rfl
  have hclose : eff.toGo.closeLocal = eff.closeLocal := rfl
  unfold checkWindow windowReason
  dsimp only
  rw [minutesSinceMidnight_ns, secondsSinceMidnight_ns, isBlackout_toGo, hguard, hopen, hclose]
  by_cases hb : isBlackout eff = true
  · rw [if_pos hb, if_pos hb]
    cases req.isAutoDialer.getD false with
    | true => rfl
    | false => rfl
  · rw [if_neg hb, if_neg hb]
    by_cases hbefore : partyMins (z.loc.wall (unixMilli z.now)) < eff.openLocal
    · rw [if_pos hbefore, if_pos hbefore]
      rfl
    · rw [if_neg hbefore, if_neg hbefore]
      by_cases hafter : eff.closeLocal ≤ partyMins (z.loc.wall (unixMilli z.now))
      · rw [if_pos hafter, if_pos hafter]
        rfl
      · rw [if_neg hafter, if_neg hafter]
        by_cases hclose : req.enforcementPoint = .originate ∧
            eff.closeLocal - partyElapsed (z.loc.wall (unixMilli z.now)) < 30 * nsPerSecond
        · rw [if_pos hclose, if_pos hclose]
          rfl
        · rw [if_neg hclose, if_neg hclose]
          rfl

theorem toGo_effective (rule : Option StateRule) (auto : Bool) (campaign : Option Window)
    (dow : Fin 7) :
    (withCampaignWindow (withAutoDialerWindow
      (withStateWindow fedFloor (rule.bind fun r => r.perDow dow)) auto rule) campaign).toGo =
      applicable (rule.map StateRule.toGo) auto (campaign.map Window.toGo) dow := by
  rw [toGo_withCampaignWindow]
  cases rule with
  | none => rfl
  | some r =>
    rw [toGo_withAutoDialerWindow, toGo_withStateWindow]
    rfl

theorem verdict_checkLocal (rule : Option StateRule) (hols : Option (Int → Bool)) :
    (checkLocal req z rule hols).verdict =
      said (decisionReason
        ((hols.map fun h => h (dayOf (z.loc.wall (unixMilli z.now)))).getD false)
        (rule.map StateRule.toGo) (req.isAutoDialer.getD false) req.enforcementPoint
        (req.campaignWindow.map Window.toGo) (z.loc.wall (unixMilli z.now))) := by
  have hwindow := verdict_checkWindow req z rule hols (withCampaignWindow
    (withAutoDialerWindow (withStateWindow fedFloor (rule.bind fun r =>
      r.perDow (weekday (dayOf (z.loc.wall (unixMilli z.now)))))) (req.isAutoDialer.getD false) rule)
    req.campaignWindow)
  rw [toGo_effective] at hwindow
  unfold checkLocal decisionReason localDow
  dsimp only
  cases rule with
  | none =>
    simp only [Option.isSome_none, Bool.false_eq_true, false_and, if_false, Option.bind_none,
      Option.map_none, Option.getD_none, and_false] at hwindow ⊢
    exact hwindow
  | some r =>
    have hdow : ((r.perDow (weekday (dayOf (z.loc.wall (unixMilli z.now))))).map isBlackout).getD
        false = (r.toGo.perDow (weekday (dayOf (z.loc.wall (unixMilli z.now))))).isBlackout := by
      cases hw : r.perDow (weekday (dayOf (z.loc.wall (unixMilli z.now)))) with
      | none => simp [StateRule.toGo, hw, Tcpa.Window.isBlackout, Tcpa.Window.isZero]
      | some w => simp [StateRule.toGo, hw]
    simp only [Option.isSome_some, true_and, Option.bind_some, Option.map_some, Option.getD_some,
      hdow, barsAutoDialer_toGo, Bool.and_eq_true] at hwindow ⊢
    split
    · rfl
    · split
      · by_cases h0 : (weekday (dayOf (z.loc.wall (unixMilli z.now)))).val = 0
        · rw [if_pos h0, if_neg (not_not.2 h0)]
          rfl
        · rw [if_neg h0, if_pos h0]
          rfl
      · split
        · rfl
        · exact hwindow

end Local

/-- Both sides found no zone, or the same one, in which the local time is the
same to the second. -/
def SameZone (c : Checker) (req : Tcpa.CheckRequest) (resolved : ResolveResult) (m : Tables)
    (r : CheckRequest) : Prop :=
  (resolved.confidence = .none ∧ resolveTimezone r = .ok none) ∨
    (resolved.confidence ≠ .none ∧ ∃ confidence loc,
      resolveTimezone r = .ok (some (resolved.iana, confidence)) ∧
      m.zone resolved.iana = some loc ∧
      loc.wall (unixMilli (r.when.getD m.now)) / nsPerSecond =
        resolved.location.wall (checkInstant c req) / nsPerSecond)

/-- The two gates are asked the same, over equal tables. -/
structure SameInputs (c : Checker) (req : Tcpa.CheckRequest) (resolved : ResolveResult)
    (m : Tables) (r : CheckRequest) : Prop where
  rules : ∀ s, c.rules s = (m.rules s).map StateRule.toGo
  holidays : ∀ s day, c.isHoliday s day = ((m.holidays s).map fun h => h day).getD false
  state : req.state = r.state.getD ""
  autoDialer : req.isAutoDialer = r.isAutoDialer.getD false
  campaign : req.campaignWindow = r.campaignWindow.map Window.toGo
  point : req.enforcementPoint = r.enforcementPoint
  policy : req.unknownTzPolicy = some .warnPass ↔ r.unknownTzPolicy = some .warnPass
  resolves : c.resolver (resolveRequest req) = .ok resolved
  zone : SameZone c req resolved m r

/-- Both gates return, with the same outcome and the same reason. -/
def Agree (c : Checker) (req : Tcpa.CheckRequest) (m : Tables) (r : CheckRequest) : Prop :=
  ∃ p, verdict (Tcpa.check c req) = some p ∧ (check m r).toOption.map CheckResult.verdict = some p

section Agreement

variable {c : Checker} {req : Tcpa.CheckRequest} {resolved : ResolveResult} {m : Tables}
  {r : CheckRequest}

theorem SameInputs.agree_unresolved (h : SameInputs c req resolved m r)
    (hconf : resolved.confidence = .none) : Agree c req m r := by
  have hts : resolveTimezone r = .ok none := by
    rcases h.zone with ⟨-, hts⟩ | ⟨hne, -⟩
    · exact hts
    · exact absurd hconf hne
  unfold Agree Tcpa.check check
  rw [h.resolves, hts]
  by_cases hp : r.unknownTzPolicy = some .warnPass
  · refine ⟨said .unknownTzWarnPass, ?_, ?_⟩
    · simp only [bind, Except.bind, hconf, h.policy.2 hp, if_true]
      rfl
    · simp only [bind, Except.bind, hp, if_true]
      rfl
  · have hgo : ¬ req.unknownTzPolicy = some .warnPass := fun hh => hp (h.policy.1 hh)
    refine ⟨said .noTimezone, ?_, ?_⟩
    · simp only [bind, Except.bind, hconf, hgo, if_true, if_false]
      rfl
    · simp only [bind, Except.bind, hp, if_false]
      rfl

/-- What the mirror does once the zone is known; a missing state is an empty one. -/
theorem check_of_zone {tz : String} {confidence : Confidence} {loc : Location}
    (hts : resolveTimezone r = .ok (some (tz, confidence))) (hloc : m.zone tz = some loc) :
    check m r =
      if r.state.getD "" = "" then
        .ok (checkLocal r ⟨tz, confidence, loc, r.when.getD m.now⟩ none none)
      else if r.state.getD "" ∈ inheritedKeys then .error "hols.has is not a function"
      else .ok (checkLocal r ⟨tz, confidence, loc, r.when.getD m.now⟩
        (m.rules (r.state.getD "")) (m.holidays (r.state.getD ""))) := by
  unfold check
  rw [hts]
  simp only [bind, Except.bind, hloc]
  cases r.state with
  | none => rfl
  | some s => rfl

theorem verdict_ok_iff {res : CheckResult} {p : Outcome × Reason} :
    (Except.toOption (.ok res : Except String CheckResult)).map CheckResult.verdict = some p ↔
      p = res.verdict := by
  show some res.verdict = some p ↔ _
  rw [Option.some.injEq]
  exact eq_comm

theorem SameInputs.mirror_verdict (h : SameInputs c req resolved m r)
    (hconf : resolved.confidence ≠ .none) {p : Outcome × Reason} :
    (check m r).toOption.map CheckResult.verdict = some p ↔
      req.state ∉ inheritedKeys ∧
        p = said (decisionReason
          (c.isHoliday req.state (dayOf (resolved.location.wall (checkInstant c req))))
          (if req.state = "" then none else c.rules req.state) req.isAutoDialer
          req.enforcementPoint req.campaignWindow
          (resolved.location.wall (checkInstant c req))) := by
  obtain ⟨confidence, loc, hts, hloc, hwall⟩ : ∃ confidence loc,
      resolveTimezone r = .ok (some (resolved.iana, confidence)) ∧
      m.zone resolved.iana = some loc ∧
      loc.wall (unixMilli (r.when.getD m.now)) / nsPerSecond =
        resolved.location.wall (checkInstant c req) / nsPerSecond := by
    rcases h.zone with ⟨hno, -⟩ | ⟨-, hz⟩
    · exact absurd hno hconf
    · exact hz
  obtain ⟨hday, hcongr⟩ := decisionReason_congr hwall
  have hlocal : ∀ rule hols, (checkLocal r ⟨resolved.iana, confidence, loc, r.when.getD m.now⟩
      rule hols).verdict = said (decisionReason
      ((hols.map fun f => f (dayOf (resolved.location.wall (checkInstant c req)))).getD false)
      (rule.map StateRule.toGo) req.isAutoDialer req.enforcementPoint req.campaignWindow
      (resolved.location.wall (checkInstant c req))) := by
    intro rule hols
    rw [verdict_checkLocal, hcongr, hday, h.autoDialer, h.point, h.campaign]
  rw [check_of_zone hts hloc, ← h.state]
  by_cases hnil : req.state = ""
  · have hkey : req.state ∉ inheritedKeys := by
      rw [hnil]
      decide
    rw [if_pos hnil, if_pos hnil, verdict_ok_iff, hlocal, and_iff_right hkey]
    rfl
  · rw [if_neg hnil, if_neg hnil]
    by_cases hkey : req.state ∈ inheritedKeys
    · rw [if_pos hkey]
      refine iff_of_false ?_ fun hh => hh.1 hkey
      intro hno
      cases hno
    · rw [if_neg hkey, verdict_ok_iff, hlocal, and_iff_right hkey, h.rules, h.holidays]

theorem SameInputs.agree_resolved_iff (h : SameInputs c req resolved m r)
    (hconf : resolved.confidence ≠ .none) :
    Agree c req m r ↔
      (req.state ∉ inheritedKeys ∧
        ¬ Overruns (c.isHoliday (ruleState req resolved)
            (dayOf (resolved.location.wall (checkInstant c req))))
          (c.rules (ruleState req resolved)) req.isAutoDialer req.campaignWindow
          (weekday (dayOf (resolved.location.wall (checkInstant c req))))) ∧
        decisionReason (c.isHoliday (ruleState req resolved)
            (dayOf (resolved.location.wall (checkInstant c req))))
          (c.rules (ruleState req resolved)) req.isAutoDialer req.enforcementPoint
          req.campaignWindow (resolved.location.wall (checkInstant c req)) =
        decisionReason (c.isHoliday req.state
            (dayOf (resolved.location.wall (checkInstant c req))))
          (if req.state = "" then none else c.rules req.state) req.isAutoDialer
          req.enforcementPoint req.campaignWindow
          (resolved.location.wall (checkInstant c req)) := by
  have hcheck : Tcpa.check c req = checkResolved c req resolved (checkInstant c req) := by
    simp only [Tcpa.check, h.resolves, bind, Except.bind, if_neg hconf]
  unfold Agree
  rw [hcheck]
  simp only [verdict_checkResolved_iff, h.mirror_verdict hconf]
  constructor
  · intro hagree
    obtain ⟨p, ⟨hover, hgo⟩, hkey, hts⟩ := hagree
    exact ⟨⟨hkey, hover⟩, congrArg Prod.snd (hgo.symm.trans hts)⟩
  · intro hagree
    obtain ⟨⟨hkey, hover⟩, hreason⟩ := hagree
    exact ⟨_, ⟨hover, rfl⟩, hkey, congrArg said hreason⟩

/-- Asked the same over equal tables, the two gates agree exactly if no zone is
found, or the state is not a name every object inherits, the dialer names no
window that opens at hour 1000 or later, and a state that only the dialer derives
from the zone has no rule or one that is idle at the local time. -/
theorem check_agrees_iff (h : SameInputs c req resolved m r) :
    Agree c req m r ↔
      resolved.confidence = .none ∨
        (req.state ∉ inheritedKeys ∧
          ¬ Overruns (c.isHoliday (ruleState req resolved)
              (dayOf (resolved.location.wall (checkInstant c req))))
            (c.rules (ruleState req resolved)) req.isAutoDialer req.campaignWindow
            (weekday (dayOf (resolved.location.wall (checkInstant c req))))) ∧
          (req.state ≠ "" ∨ ∀ rule ∈ c.rules (stateFromTz resolved.iana),
            RuleIdle (c.isHoliday (stateFromTz resolved.iana)
                (dayOf (resolved.location.wall (checkInstant c req))))
              rule req.isAutoDialer req.enforcementPoint req.campaignWindow
              (resolved.location.wall (checkInstant c req))) := by
  by_cases hconf : resolved.confidence = .none
  · exact iff_of_true (h.agree_unresolved hconf) (Or.inl hconf)
  · rw [h.agree_resolved_iff hconf, or_iff_right hconf]
    refine and_congr_right fun _ => ?_
    by_cases hs : req.state = ""
    · have hderived : ruleState req resolved = stateFromTz resolved.iana := if_pos hs
      rw [hderived, if_pos hs]
      simp only [ne_eq, hs, not_true_eq_false, false_or]
      cases hrule : c.rules (stateFromTz resolved.iana) with
      | none =>
        refine iff_of_true rfl ?_
        intro rule hr
        cases hr
      | some rule =>
        rw [decisionReason_eq_none_iff]
        simp only [Option.mem_some_iff, forall_eq']
    · have hgiven : ruleState req resolved = req.state := if_neg hs
      rw [hgiven, if_neg hs]
      exact iff_of_true rfl (Or.inl hs)

end Agreement

def eastern : Location := ⟨fun _ => -5 * nsPerHour⟩

def easternTables : Tables where
  rules s :=
    if s = "FL" ∨ s = "IN" then
      some ⟨s, fun _ => some ⟨8 * nsPerHour, 20 * nsPerHour⟩, none, none⟩
    else none
  holidays _ := none
  zone _ := some eastern
  now := 0
  keys := by
    intro k hk
    have hne : ∀ k ∈ inheritedKeys, ¬ (k = "FL" ∨ k = "IN") := by decide
    exact ⟨if_neg (hne k hk), rfl⟩

def easternChecker : Checker where
  resolver req := .ok ⟨req.knownTimezone, .known, eastern⟩
  rules s := (easternTables.rules s).map StateRule.toGo
  isHoliday _ _ := false
  now := 0

def manualDial (tz : String) (state : Option String) (campaign : Option Window) (when : Int) :
    CheckRequest where
  knownTimezone := some tz
  state := state
  campaignWindow := campaign
  unknownTzPolicy := none
  enforcementPoint := .manual
  when := some when
  isAutoDialer := none

def dialerRequest (tz : String) (state : Option String) (campaign : Option Window) (when : Int) :
    Tcpa.CheckRequest where
  leadID := 0
  phoneE164 := "+13055550100"
  knownTimezone := tz
  zip := ""
  state := state.getD ""
  campaignID := 0
  campaignWindow := campaign.map Window.toGo
  unknownTzPolicy := none
  enforcementPoint := .manual
  when := unixMilli when
  isAutoDialer := false

theorem eastern_same_inputs {tz : String} (htz : tz ≠ "") (state : Option String)
    (campaign : Option Window) {when : Int} (hwhen : 0 < when) :
    SameInputs easternChecker (dialerRequest tz state campaign when) ⟨tz, .known, eastern⟩
      easternTables (manualDial tz state campaign when) where
  rules _ := rfl
  holidays _ _ := rfl
  state := rfl
  autoDialer := rfl
  campaign := rfl
  point := rfl
  policy := Iff.rfl
  resolves := rfl
  zone := by
    have hts : resolveTimezone (manualDial tz state campaign when) = .ok (some (tz, .known)) :=
      if_neg htz
    have hinstant : checkInstant easternChecker (dialerRequest tz state campaign when) =
        unixMilli when := by
      have hne : unixMilli when ≠ 0 := by
        show (62135596800 * 1000000000 + when * 1000000 : Int) ≠ 0
        omega
      simp [checkInstant, Instant.isZero, dialerRequest, hne]
    refine Or.inr ⟨nofun, .known, eastern, hts, rfl, ?_⟩
    rw [hinstant]
    rfl

/-- A call to Florida at noon of 15 January 2026, within a campaign's 9 to 17. -/
theorem eastern_noon_agrees :
    SameInputs easternChecker
        (dialerRequest "America/New_York" (some "FL") (some ⟨9 * nsPerHour, 17 * nsPerHour⟩)
          1768496400000)
        ⟨"America/New_York", .known, eastern⟩ easternTables
        (manualDial "America/New_York" (some "FL") (some ⟨9 * nsPerHour, 17 * nsPerHour⟩)
          1768496400000) ∧
      Agree easternChecker
        (dialerRequest "America/New_York" (some "FL") (some ⟨9 * nsPerHour, 17 * nsPerHour⟩)
          1768496400000)
        easternTables
        (manualDial "America/New_York" (some "FL") (some ⟨9 * nsPerHour, 17 * nsPerHour⟩)
          1768496400000) := by
  have hsame := eastern_same_inputs (show "America/New_York" ≠ "" by decide) (some "FL")
    (some ⟨9 * nsPerHour, 17 * nsPerHour⟩) (show (0 : Int) < 1768496400000 by decide)
  refine ⟨hsame, (check_agrees_iff hsame).2 (Or.inr ⟨⟨by decide, ?_⟩, Or.inl (by decide)⟩)⟩
  intro hover
  exact absurd hover.2 (by decide)

/-- A campaign window that opens at hour 1000 stops the dialer alone; half past
eight in the evening in Indianapolis, no state given, is open for the mirror alone. -/
theorem eastern_disagreements :
    (SameInputs easternChecker
        (dialerRequest "America/New_York" (some "FL")
          (some ⟨1000 * nsPerHour, 1001 * nsPerHour⟩) 1768496400000)
        ⟨"America/New_York", .known, eastern⟩ easternTables
        (manualDial "America/New_York" (some "FL")
          (some ⟨1000 * nsPerHour, 1001 * nsPerHour⟩) 1768496400000) ∧
      ¬ Agree easternChecker
        (dialerRequest "America/New_York" (some "FL")
          (some ⟨1000 * nsPerHour, 1001 * nsPerHour⟩) 1768496400000)
        easternTables
        (manualDial "America/New_York" (some "FL")
          (some ⟨1000 * nsPerHour, 1001 * nsPerHour⟩) 1768496400000)) ∧
    (SameInputs easternChecker
        (dialerRequest "America/Indiana/Indianapolis" none none 1768527000000)
        ⟨"America/Indiana/Indianapolis", .known, eastern⟩ easternTables
        (manualDial "America/Indiana/Indianapolis" none none 1768527000000) ∧
      ¬ Agree easternChecker
        (dialerRequest "America/Indiana/Indianapolis" none none 1768527000000) easternTables
        (manualDial "America/Indiana/Indianapolis" none none 1768527000000)) := by
  refine ⟨⟨eastern_same_inputs (by decide) _ _ (by decide), ?_⟩,
    eastern_same_inputs (by decide) _ _ (by decide), ?_⟩
  · intro hagree
    obtain ⟨p, hgo, -⟩ := hagree
    have hpanic : verdict (Tcpa.check easternChecker
        (dialerRequest "America/New_York" (some "FL")
          (some ⟨1000 * nsPerHour, 1001 * nsPerHour⟩) 1768496400000)) = none := by
      decide +kernel
    rw [hpanic] at hgo
    cases hgo
  · intro hagree
    obtain ⟨p, hgo, hts⟩ := hagree
    have hskip : verdict (Tcpa.check easternChecker
        (dialerRequest "America/Indiana/Indianapolis" none none 1768527000000)) =
          some (.skipUntil, .afterWindow) := by
      decide +kernel
    have hallow : (check easternTables
        (manualDial "America/Indiana/Indianapolis" none none 1768527000000)).toOption.map
          CheckResult.verdict = some (.allow, .ok) := by
      decide +kernel
    rw [hskip] at hgo
    rw [hallow] at hts
    have hne := hgo.trans hts.symm
    cases hne

end Mirror

end Tcpa

end Vici2
