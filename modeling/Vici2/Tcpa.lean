import Mathlib.Logic.Function.Basic
import Vici2.GoTime

/-! The TCPA time-window gate. The resolver, the rules map and the holiday
calendar are parameters of the checker; a calendar day is named by its number,
instants and times of day are nanosecond counts. Metrics and the sampled audit
rows are left out. -/

namespace Vici2

namespace Tcpa

inductive Outcome
  | allow
  | skipUntil
  | blockInvalid
  deriving DecidableEq, Repr

inductive EnforcementPoint
  | hopper
  | originate
  | pacing
  | manual
  deriving DecidableEq, Repr

inductive Confidence
  | known
  | zip
  | nxx
  | npa
  | stateDefault
  | campaignDefault
  | none
  deriving DecidableEq, Repr

inductive UnknownTzPolicy
  | deny
  | warnPass
  deriving DecidableEq, Repr

inductive Reason
  | noTimezone
  | unknownTzWarnPass
  | stateSundayBlackout
  | stateDowBlackout
  | stateHolidayBlackout
  | beforeWindow
  | afterWindow
  | stateAutoDialerWindow
  | boundary30sToClose
  | ok
  deriving DecidableEq, Repr

def Reason.text : Reason → String
  | .noTimezone => "no_timezone"
  | .unknownTzWarnPass => "unknown_tz_warn_pass"
  | .stateSundayBlackout => "state_sunday_blackout"
  | .stateDowBlackout => "state_dow_blackout"
  | .stateHolidayBlackout => "state_holiday_blackout"
  | .beforeWindow => "before_window"
  | .afterWindow => "after_window"
  | .stateAutoDialerWindow => "state_autodialer_window"
  | .boundary30sToClose => "boundary_30s_to_close"
  | .ok => "ok"

structure Window where
  openLocal : Int
  closeLocal : Int
  dowMask : UInt8 := 0
  deriving DecidableEq, Repr

def Window.isZero (w : Window) : Bool := w.openLocal == 0 && w.closeLocal == 0 && w.dowMask == 0

def Window.isBlackout (w : Window) : Bool := decide (w.closeLocal ≤ w.openLocal) && !w.isZero

structure StateRule where
  code : String
  perDow : Fin 7 → Window
  autoDialerOnly : Option Window
  autoDialerBlackoutDows : UInt8

/-- The rule a map read gives for a state without one. -/
def StateRule.zero : StateRule := ⟨"", fun _ => ⟨0, 0, 0⟩, none, 0⟩

structure ResolveRequest where
  leadID : Int
  phoneE164 : String
  knownTimezone : String
  zip : String
  state : String
  deriving DecidableEq, Repr

structure ResolveResult where
  iana : String
  confidence : Confidence
  location : Location

structure CheckRequest where
  leadID : Int
  phoneE164 : String
  knownTimezone : String
  zip : String
  state : String
  campaignID : Int
  campaignWindow : Option Window
  unknownTzPolicy : Option UnknownTzPolicy
  enforcementPoint : EnforcementPoint
  when : Int
  isAutoDialer : Bool

structure CheckResult where
  outcome : Outcome
  tzIANA : String := ""
  confidence : Confidence
  nextOpen : Option Int := none
  reason : Reason
  ruleApplied : String
  partyLocal : Int := 0
  effective : Window := ⟨0, 0, 0⟩
  deriving DecidableEq, Repr

structure Checker where
  resolver : ResolveRequest → Except String ResolveResult
  rules : String → Option StateRule
  isHoliday : String → Int → Bool
  now : Int

def fedFloor : Window := ⟨8 * nsPerHour, 21 * nsPerHour, 0⟩

def intersect (a b : Window) : Window :=
  if a.isZero then b
  else if b.isZero then a
  else ⟨max a.openLocal b.openLocal, min a.closeLocal b.closeLocal, 0⟩

def dowName (dow : Fin 7) : String :=
  match dow with
  | 0 => "Sun"
  | 1 => "Mon"
  | 2 => "Tue"
  | 3 => "Wed"
  | 4 => "Thu"
  | 5 => "Fri"
  | 6 => "Sat"

/-- `itoa` over a buffer of three digits: a longer number runs off its front,
a negative one yields no digits. -/
def itoa (n : Int) : Except String String :=
  if n = 0 then .ok "0"
  else if n < 0 then .ok ""
  else if n < 1000 then .ok (toString n)
  else .error "runtime error: index out of range [-1]"

def ruleNameOf (state : String) (dow : Fin 7) (eff : Window) : Except String String := do
  let openH ← itoa (eff.openLocal.tdiv nsPerHour)
  let closeH ← itoa (eff.closeLocal.tdiv nsPerHour)
  return (if state = "" then "FED" else state) ++ "_" ++ dowName dow ++ "_" ++ openH ++ "_" ++ closeH

def midnightLocal (loc : Location) (wall : Int) : Int := loc.fromWall (dayOf wall * nsPerDay)

def stateFromTz (iana : String) : String :=
  if iana ∈ ["America/Indiana/Indianapolis", "America/Indiana/Knox", "America/Indiana/Marengo",
      "America/Indiana/Petersburg", "America/Indiana/Tell_City", "America/Indiana/Vevay",
      "America/Indiana/Vincennes", "America/Indiana/Winamac"] then "IN"
  else if iana ∈ ["America/Anchorage", "America/Juneau", "America/Nome", "America/Sitka",
      "America/Yakutat", "America/Metlakatla"] then "AK"
  else if iana = "Pacific/Honolulu" then "HI"
  else if iana = "America/Adak" then "HI"
  else if iana = "Pacific/Pago_Pago" then "AS"
  else if iana = "Pacific/Guam" then "GU"
  else if iana = "America/Puerto_Rico" then "PR"
  else if iana = "Pacific/Saipan" then "MP"
  else if iana = "America/St_Thomas" then "VI"
  else ""

/-- The day-by-day scan of `nextDayOpen` and `nextDowOpen`: the first candidate
that is neither a holiday nor a blackout, opened by `openOn`. -/
def scanOpen (c : Checker) (loc : Location) (rule : StateRule) (openOn : Window → Int)
    (fallback : Int) : Nat → Int → Int
  | 0, _ => fallback
  | n + 1, candidate =>
    let day := dayOf (loc.wall candidate)
    let w := rule.perDow (weekday day)
    if c.isHoliday rule.code day ∨ w.isBlackout then
      scanOpen c loc rule openOn fallback n (loc.addDays candidate 1)
    else
      loc.fromWall (day * nsPerDay) + openOn w

def nextDayOpen (c : Checker) (loc : Location) (partyLocal : Int) (rule : StateRule)
    (eff : Window) : Int :=
  scanOpen c loc rule
    (fun w => if !w.isZero && !w.isBlackout then
      max eff.openLocal (intersect fedFloor w).openLocal else eff.openLocal)
    (loc.addDays (midnightLocal loc partyLocal) 7 + fedFloor.openLocal) 14
    (loc.addDays (midnightLocal loc partyLocal) 1)

def nextDowOpen (c : Checker) (loc : Location) (partyLocal : Int) (rule : StateRule) : Int :=
  scanOpen c loc rule
    (fun w => if !w.isZero && !w.isBlackout then
      (intersect fedFloor w).openLocal else fedFloor.openLocal)
    (loc.addDays (midnightLocal loc partyLocal) 7 + fedFloor.openLocal) 14
    (loc.addDays (midnightLocal loc partyLocal) 1)

def nextBusinessDayOpen (c : Checker) (loc : Location) (partyLocal : Int) (rule : StateRule) :
    Int :=
  nextDowOpen c loc partyLocal rule

def partyElapsed (wall : Int) : Int :=
  clockHour wall * nsPerHour + clockMinute wall * nsPerMinute + clockSecond wall * nsPerSecond

def partyMins (wall : Int) : Int := (clockHour wall * 60 + clockMinute wall) * nsPerMinute

def boundaryGuard : Int := 30 * nsPerSecond

/-- Step 6 for the state's own window of the day. -/
def withStateWindow (eff w : Window) : Window :=
  if !w.isZero && !w.isBlackout then intersect eff w else eff

def withCampaignWindow (eff : Window) : Option Window → Window
  | some w => if w.isZero then eff else intersect eff w
  | none => eff

def barsAutoDialer (rule : StateRule) (dow : Fin 7) : Bool :=
  rule.autoDialerBlackoutDows != 0 &&
    (rule.autoDialerBlackoutDows >>> UInt8.ofNat dow.val) &&& 1 == 1

/-- Steps 7 and 8, and the empty window before them. -/
def checkWindow (c : Checker) (req : CheckRequest) (resolved : ResolveResult) (partyLocal : Int)
    (state : String) (rule : StateRule) (eff : Window) : Except String CheckResult :=
  let loc := resolved.location
  let dow := weekday (dayOf partyLocal)
  let skip (nextOpen : Int) (reason : Reason) : Except String CheckResult := do
    let name ← ruleNameOf state dow eff
    return { outcome := .skipUntil, tzIANA := resolved.iana, confidence := resolved.confidence,
             nextOpen := some nextOpen, reason := reason, ruleApplied := name,
             partyLocal := partyLocal, effective := eff }
  if eff.isBlackout then
    skip (nextDayOpen c loc partyLocal rule eff)
      (if req.isAutoDialer then .stateAutoDialerWindow else .afterWindow)
  else if partyMins partyLocal < eff.openLocal then
    skip (midnightLocal loc partyLocal + eff.openLocal) .beforeWindow
  else if eff.closeLocal ≤ partyMins partyLocal then
    skip (nextDayOpen c loc partyLocal rule eff) .afterWindow
  else if req.enforcementPoint = .originate ∧
      eff.closeLocal - partyElapsed partyLocal < boundaryGuard then
    skip (nextDayOpen c loc partyLocal rule eff) .boundary30sToClose
  else do
    let name ← ruleNameOf state dow eff
    return { outcome := .allow, tzIANA := resolved.iana, confidence := resolved.confidence,
             reason := .ok, ruleApplied := name, partyLocal := partyLocal, effective := eff }

/-- Steps 5 and 6 for a state with a rule. -/
def checkState (c : Checker) (req : CheckRequest) (resolved : ResolveResult) (partyLocal : Int)
    (state : String) (rule : StateRule) : Except String CheckResult :=
  let loc := resolved.location
  let dow := weekday (dayOf partyLocal)
  let skip (nextOpen : Int) (reason : Reason) (name : String) (eff : Window) : CheckResult :=
    { outcome := .skipUntil, tzIANA := resolved.iana, confidence := resolved.confidence,
      nextOpen := some nextOpen, reason := reason, ruleApplied := name,
      partyLocal := partyLocal, effective := eff }
  if c.isHoliday state (dayOf partyLocal) then
    .ok (skip (nextBusinessDayOpen c loc partyLocal rule) .stateHolidayBlackout
      (state ++ "_holiday") ⟨0, 0, 0⟩)
  else if (rule.perDow dow).isBlackout then
    .ok (skip (nextDowOpen c loc partyLocal rule)
      (if dow ≠ 0 then .stateDowBlackout else .stateSundayBlackout)
      (state ++ "_" ++ dowName dow ++ "_blackout") ⟨0, 0, 0⟩)
  else
    let eff := withStateWindow fedFloor (rule.perDow dow)
    let barred := skip (nextDayOpen c loc partyLocal rule eff) .stateAutoDialerWindow
      (state ++ "_" ++ dowName dow ++ "_autodialer_blackout") eff
    if req.isAutoDialer then
      if barsAutoDialer rule dow then .ok barred
      else
        match rule.autoDialerOnly with
        | none =>
          checkWindow c req resolved partyLocal state rule
            (withCampaignWindow eff req.campaignWindow)
        | some autoW =>
          if autoW.isBlackout then .ok barred
          else
            checkWindow c req resolved partyLocal state rule
              (withCampaignWindow (intersect eff autoW) req.campaignWindow)
    else
      checkWindow c req resolved partyLocal state rule (withCampaignWindow eff req.campaignWindow)

def ruleState (req : CheckRequest) (resolved : ResolveResult) : String :=
  if req.state = "" then stateFromTz resolved.iana else req.state

/-- Steps 3 to 8, for a resolved zone. -/
def checkResolved (c : Checker) (req : CheckRequest) (resolved : ResolveResult) (when : Int) :
    Except String CheckResult :=
  let partyLocal := resolved.location.wall when
  let state := ruleState req resolved
  match c.rules state with
  | some rule => checkState c req resolved partyLocal state rule
  | none =>
    checkWindow c req resolved partyLocal state .zero
      (withCampaignWindow fedFloor req.campaignWindow)

def resolveRequest (req : CheckRequest) : ResolveRequest :=
  ⟨req.leadID, req.phoneE164, req.knownTimezone, req.zip, req.state⟩

def checkInstant (c : Checker) (req : CheckRequest) : Int :=
  if Instant.isZero req.when then c.now else req.when

def check (c : Checker) (req : CheckRequest) : Except String CheckResult := do
  let resolved ← c.resolver (resolveRequest req)
  if resolved.confidence = .none then
    if req.unknownTzPolicy = some .warnPass then
      return { outcome := .allow, confidence := .none, reason := .unknownTzWarnPass,
               ruleApplied := "campaign_warn_pass" }
    else
      return { outcome := .blockInvalid, confidence := .none, reason := .noTimezone,
               ruleApplied := "policy_deny" }
  else
    checkResolved c req resolved (checkInstant c req)

end Tcpa

end Vici2
