import Vici2.Tcpa

/-! The TypeScript mirror of the time-window gate. Windows, which the source
counts in seconds, are kept in nanoseconds; instants are milliseconds from 1970.
The rule and holiday tables and the zone database are parameters. -/

namespace Vici2

namespace Tcpa

namespace Mirror

structure Window where
  openLocal : Int
  closeLocal : Int
  deriving DecidableEq, Repr

def Window.isZero (w : Window) : Bool := w.openLocal == 0 && w.closeLocal == 0

def isBlackout (w : Window) : Bool := decide (w.closeLocal ≤ w.openLocal) && !w.isZero

def intersect (a b : Window) : Window :=
  if a.isZero then b
  else if b.isZero then a
  else ⟨max a.openLocal b.openLocal, min a.closeLocal b.closeLocal⟩

structure StateRule where
  code : String
  perDow : Fin 7 → Option Window
  autoDialerOnly : Option Window
  autoDialerBlackoutDows : Option UInt8

/-- Names that every object answers to, be they keys of it or not. -/
def inheritedKeys : List String :=
  ["constructor", "__proto__", "toString", "valueOf", "hasOwnProperty", "isPrototypeOf",
    "propertyIsEnumerable", "toLocaleString", "__defineGetter__", "__defineSetter__",
    "__lookupGetter__", "__lookupSetter__"]

/-- `STATE_RULES`, `STATE_HOLIDAYS`, the zones that `Intl` knows, and the clock. -/
structure Tables where
  rules : String → Option StateRule
  holidays : String → Option (Int → Bool)
  zone : String → Option Location
  now : Int
  keys : ∀ k ∈ inheritedKeys, rules k = none ∧ holidays k = none

structure CheckRequest where
  knownTimezone : Option String
  state : Option String
  campaignWindow : Option Window
  unknownTzPolicy : Option UnknownTzPolicy
  enforcementPoint : EnforcementPoint
  when : Option Int
  isAutoDialer : Option Bool

structure CheckResult where
  outcome : Outcome
  tzIana : Option String := none
  confidence : Confidence
  nextOpen : Option Int := none
  reason : Reason
  ruleApplied : String
  effective : Option Window := none
  deriving DecidableEq, Repr

def fedFloor : Window := ⟨8 * nsPerHour, 21 * nsPerHour⟩

def stateTz (state : String) : Option String :=
  match state with
  | "HI" => some "Pacific/Honolulu"
  | "AK" => some "America/Anchorage"
  | "AZ" => some "America/Phoenix"
  | "AS" => some "Pacific/Pago_Pago"
  | "GU" => some "Pacific/Guam"
  | "MP" => some "Pacific/Guam"
  | "PR" => some "America/Puerto_Rico"
  | "VI" => some "America/Puerto_Rico"
  | _ => none

/-- An inherited name is taken for a zone, which `Intl` then rejects. -/
def resolveTimezone (req : CheckRequest) : Except String (Option (String × Confidence)) :=
  match req.knownTimezone with
  | some tz => if tz = "" then byState else .ok (some (tz, .known))
  | none => byState
where
  byState : Except String (Option (String × Confidence)) :=
    match req.state with
    | none => .ok none
    | some state =>
      if state ∈ inheritedKeys then .error "Invalid time zone specified"
      else .ok ((stateTz state).map fun tz => (tz, .stateDefault))

def secondsSinceMidnight (wall : Int) : Int :=
  clockHour wall * 3600 + clockMinute wall * 60 + clockSecond wall

def localDow (wall : Int) : Fin 7 := weekday (dayOf wall)

/-- The offset by the hours and minutes of the two clocks; their dates are not
compared. -/
def getZoneOffsetMs (loc : Location) (d : Int) : Int :=
  let wall := loc.wall (unixMilli d)
  let utc := unixMilli d
  ((clockHour wall * 60 + clockMinute wall) - (clockHour utc * 60 + clockMinute utc)) * 60 * 1000

/-- For the years 1000 to 9999. The date of another has more or fewer than four digits of the year,
of which `new Date` makes no number. -/
def localMidnightUtcMs (loc : Location) (d : Int) : Int :=
  (dayOf (loc.wall (unixMilli d)) * nsPerDay - unixEpoch) / 1000000 - getZoneOffsetMs loc d

/-- `new Date(ms + openSec * 1000)`; fractions of a millisecond are dropped. -/
def atOpen (ms openLocal : Int) : Int := (ms * 1000000 + openLocal).tdiv 1000000

def scanDays (loc : Location) (rule : Option StateRule) (hols : Option (Int → Bool))
    (openLocal fallback : Int) : Nat → Int → Int
  | 0, _ => fallback
  | n + 1, candidate =>
    let wall := loc.wall (unixMilli candidate)
    let isHol := (hols.map fun h => h (dayOf wall)).getD false
    let isBlkDow := ((rule.bind fun r => r.perDow (localDow wall)).map isBlackout).getD false
    if isHol ∨ isBlkDow then scanDays loc rule hols openLocal fallback n (candidate + 86400000)
    else atOpen (localMidnightUtcMs loc candidate) openLocal

def nextDayOpenMs (loc : Location) (d openLocal : Int) (rule : Option StateRule)
    (hols : Option (Int → Bool)) : Int :=
  scanDays loc rule hols openLocal (atOpen (d + 7 * 86400000) fedFloor.openLocal) 14
    (d + 86400000)

def ruleNameOf (state : Option String) (dow : Fin 7) (eff : Window) : String :=
  state.getD "FED" ++ "_" ++ dowName dow ++ "_" ++ toString (eff.openLocal / nsPerHour) ++ "_" ++
    toString (eff.closeLocal / nsPerHour)

def barsAutoDialer (rule : StateRule) (dow : Fin 7) : Bool :=
  let blackoutDows := rule.autoDialerBlackoutDows.getD 0
  decide (blackoutDows ≠ 0) && decide ((blackoutDows.toNat >>> dow.val) &&& 1 ≠ 0)

def withStateWindow (eff : Window) (dowWindow : Option Window) : Window :=
  match dowWindow with
  | some w => if !isBlackout w && !w.isZero then intersect eff w else eff
  | none => eff

def withAutoDialerWindow (eff : Window) (isAutoDialer : Bool) (rule : Option StateRule) : Window :=
  match rule.bind StateRule.autoDialerOnly with
  | some w => if isAutoDialer then intersect eff w else eff
  | none => eff

def withCampaignWindow (eff : Window) : Option Window → Window
  | some w => if w.isZero then eff else intersect eff w
  | none => eff

structure Local where
  tzIana : String
  confidence : Confidence
  loc : Location
  now : Int

/-- The empty window and steps 5 and 6. -/
def checkWindow (req : CheckRequest) (z : Local) (rule : Option StateRule)
    (hols : Option (Int → Bool)) (eff : Window) : CheckResult :=
  let wall := z.loc.wall (unixMilli z.now)
  let partyElapsed := secondsSinceMidnight wall
  let partyMins := partyElapsed / 60 * 60
  let skip (nextOpen : Int) (reason : Reason) : CheckResult :=
    { outcome := .skipUntil, tzIana := some z.tzIana, confidence := z.confidence,
      nextOpen := some nextOpen, reason := reason,
      ruleApplied := ruleNameOf req.state (localDow wall) eff, effective := some eff }
  if isBlackout eff then
    skip (nextDayOpenMs z.loc z.now fedFloor.openLocal rule hols)
      (if req.isAutoDialer.getD false then .stateAutoDialerWindow else .afterWindow)
  else if partyMins * nsPerSecond < eff.openLocal then
    skip (atOpen (localMidnightUtcMs z.loc z.now) eff.openLocal) .beforeWindow
  else if eff.closeLocal ≤ partyMins * nsPerSecond then
    skip (nextDayOpenMs z.loc z.now eff.openLocal rule hols) .afterWindow
  else if req.enforcementPoint = .originate ∧
      eff.closeLocal - partyElapsed * nsPerSecond < 30 * nsPerSecond then
    skip (nextDayOpenMs z.loc z.now eff.openLocal rule hols) .boundary30sToClose
  else
    { outcome := .allow, tzIana := some z.tzIana, confidence := z.confidence, reason := .ok,
      ruleApplied := ruleNameOf req.state (localDow wall) eff, effective := some eff }

/-- Steps 3 and 4. -/
def checkLocal (req : CheckRequest) (z : Local) (rule : Option StateRule)
    (hols : Option (Int → Bool)) : CheckResult :=
  let wall := z.loc.wall (unixMilli z.now)
  let dow := localDow wall
  let isAutoDialer := req.isAutoDialer.getD false
  let state := req.state.getD "undefined"
  let skip (openLocal : Int) (reason : Reason) (name : String) : CheckResult :=
    { outcome := .skipUntil, tzIana := some z.tzIana, confidence := z.confidence,
      nextOpen := some (nextDayOpenMs z.loc z.now openLocal rule hols), reason := reason,
      ruleApplied := name }
  let dowWindow := rule.bind fun r => r.perDow dow
  if rule.isSome ∧ (hols.map fun h => h (dayOf wall)).getD false then
    skip fedFloor.openLocal .stateHolidayBlackout (state ++ "_holiday")
  else if (dowWindow.map isBlackout).getD false then
    skip fedFloor.openLocal (if dow.val = 0 then .stateSundayBlackout else .stateDowBlackout)
      (state ++ "_" ++ dowName dow ++ "_blackout")
  else if isAutoDialer ∧ (rule.map fun r => barsAutoDialer r dow).getD false then
    skip (((rule.bind StateRule.autoDialerOnly).map Window.openLocal).getD fedFloor.openLocal)
      .stateAutoDialerWindow (state ++ "_" ++ dowName dow ++ "_autodialer_blackout")
  else
    checkWindow req z rule hols (withCampaignWindow
      (withAutoDialerWindow (withStateWindow fedFloor dowWindow) isAutoDialer rule)
      req.campaignWindow)

def check (m : Tables) (req : CheckRequest) : Except String CheckResult := do
  match ← resolveTimezone req with
  | none =>
    if req.unknownTzPolicy = some .warnPass then
      return { outcome := .allow, confidence := .none, reason := .unknownTzWarnPass,
               ruleApplied := "campaign_warn_pass" }
    else
      return { outcome := .blockInvalid, confidence := .none, reason := .noTimezone,
               ruleApplied := "policy_deny" }
  | some (tzIana, confidence) =>
    match m.zone tzIana with
    | none => throw "Invalid time zone specified"
    | some loc =>
      let z : Local := ⟨tzIana, confidence, loc, req.when.getD m.now⟩
      match req.state with
      | none => return checkLocal req z none none
      | some state =>
        if state = "" then return checkLocal req z none none
        else if state ∈ inheritedKeys then throw "hols.has is not a function"
        else return checkLocal req z (m.rules state) (m.holidays state)

end Mirror

end Tcpa

end Vici2
