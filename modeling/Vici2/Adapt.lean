import Vici2.GoTime

/-! The adaptive dial-level controller of one campaign: `Decide` with its two
control laws, the pace state and its HASH, and the part of `RunTick` between the
reads and the writes. Floats are exact rationals; at a shift of no length the
code's float quotient is not a number. -/

namespace Vici2

namespace Adapt

/-- The text of a number with a fixed count of decimals. -/
structure Decimal where
  unscaled : Int
  scale : Nat
  deriving DecidableEq, Repr

def Decimal.value (d : Decimal) : ℚ := d.unscaled / 10 ^ d.scale

/-- `strconv.FormatFloat` with verb `f`. -/
def formatFloat (x : ℚ) (n : Nat) : Decimal := ⟨roundHalfEven (x * 10 ^ n), n⟩

inductive DialMethod
  | adaptHard
  | adaptAvg
  | adaptTapered
  | other (text : String)
  deriving DecidableEq, Repr

def kp : ℚ := 1 / 20

def ki : ℚ := 1 / 200

def iMax : ℚ := 1 / 2

def kBack : ℚ := 1 / 100

def integralBleed : ℚ := 19 / 20

def stepUpBase : ℚ := 1 / 20

def stepDownHardBase : ℚ := 1 / 5

def levelFloor : ℚ := 1

inductive AdaptAction
  | raise
  | lowerSoft
  | lowerHard
  | hold
  | warmUp
  | fastCut
  deriving DecidableEq, Repr

structure AdaptInput where
  mode : DialMethod
  dropPct30d : ℚ
  adaptiveDropPct : ℚ
  currentLevel : ℚ
  adaptiveMaxLevel : ℚ
  intensity : Int
  holdBandPP : ℚ
  lastIntegral : ℚ
  lastTickTs : Instant
  now : Instant
  tickSeconds : ℚ
  warmUp : Bool
  shiftStart : Instant
  shiftEnd : Instant

structure AdaptOutput where
  newLevel : ℚ
  newIntegral : ℚ
  actionTaken : AdaptAction
  reason : String
  needsWrite : Bool
  deriving DecidableEq, Repr

def clamp (x lo hi : ℚ) : ℚ := if x < lo then lo else if hi < x then hi else x

def clampIntegral (i : ℚ) : ℚ := clamp i (-iMax) iMax

def roundHalfPos (x : ℚ) : ℚ :=
  let floor : ℚ := (⌊x⌋ : Int)
  if 1 / 2 ≤ x - floor then floor + 1 else floor

def roundHalf (x : ℚ) : ℚ := if x < 0 then -roundHalfPos (-x) else roundHalfPos x

def quantize (x : ℚ) : ℚ := roundHalf (x * 20) / 20

def intensityFactors (intensity : Int) : ℚ × ℚ :=
  let f : ℚ := intensity / 100
  (if 1 + f < 0 then 0 else 1 + f, if 1 - f < 0 then 0 else 1 - f)

def resolveTarget (mode : DialMethod) (dropPct : ℚ) (shiftStart shiftEnd now : Instant) : ℚ :=
  if mode ≠ .adaptTapered then dropPct
  else if shiftStart.isZero ∨ shiftEnd.isZero then dropPct
  else if now < shiftStart then dropPct * (3 / 2)
  else if shiftEnd < now then dropPct
  else
    let progress : ℚ := (now.sub shiftStart : ℚ) / (shiftEnd.sub shiftStart : ℚ)
    dropPct * (3 / 2 - 1 / 2 * progress)

def hardLimit (inp : AdaptInput) (target ceil current : ℚ) : AdaptOutput :=
  let (raiseF, lowerF) := intensityFactors inp.intensity
  let (level, action, reason) : ℚ × AdaptAction × String :=
    if target ≤ inp.dropPct30d then
      let step := stepDownHardBase * lowerF
      (if current - step < levelFloor then levelFloor else current - step, .lowerHard,
        "HARD: drop=" ++ fixedText 2 inp.dropPct30d ++ "% >= target=" ++ fixedText 2 target ++
          "%; hard-lower by " ++ fixedText 3 step ++ " (intensity=" ++ toString inp.intensity ++ ")")
    else
      let step := stepUpBase * raiseF
      (if ceil < current + step then ceil else current + step, .raise,
        "HARD: drop=" ++ fixedText 2 inp.dropPct30d ++ "% < target=" ++ fixedText 2 target ++
          "%; raise by " ++ fixedText 3 step ++ " (intensity=" ++ toString inp.intensity ++ ")")
  let newLevel := clamp (quantize level) levelFloor ceil
  { newLevel := newLevel
    newIntegral := 0
    actionTaken := action
    reason := reason
    needsWrite := newLevel ≠ quantize current }

def averageWithDeadband (inp : AdaptInput) (target ceil current : ℚ) : AdaptOutput :=
  let (raiseF, lowerF) := intensityFactors inp.intensity
  let tickSec := if inp.tickSeconds ≤ 0 then 15 else inp.tickSeconds
  let holdBand := if inp.holdBandPP ≤ 0 then 3 / 10 else inp.holdBandPP
  let err := target - inp.dropPct30d
  if |err| ≤ holdBand then
    let newIntegral := clampIntegral (inp.lastIntegral * integralBleed)
    { newLevel := current
      newIntegral := newIntegral
      actionTaken := .hold
      reason := "AVG/TAPERED: |err|=" ++ fixedText 3 |err| ++ " <= hold_band=" ++
        fixedText 2 holdBand ++ "; holding at " ++ fixedText 2 current ++ " (integral bled to " ++
        fixedText 4 newIntegral ++ ")"
      needsWrite := false }
  else
    let pTerm := if 0 < err then kp * err * raiseF else kp * err * lowerF
    let iTerm := inp.lastIntegral + ki * err * tickSec
    let unclamped := current + pTerm + iTerm
    let clamped := clamp unclamped levelFloor ceil
    let newIntegral := clampIntegral (iTerm + kBack * (clamped - unclamped))
    let newLevel := clamp (quantize clamped) levelFloor ceil
    { newLevel := newLevel
      newIntegral := newIntegral
      actionTaken :=
        if quantize current < newLevel then .raise
        else if newLevel < quantize current then .lowerSoft
        else .hold
      reason := "AVG/TAPERED: target=" ++ fixedText 2 target ++ " drop=" ++
        fixedText 2 inp.dropPct30d ++ " err=" ++ fixedText 3 err ++ " p=" ++ fixedText 4 pTerm ++
        " i=" ++ fixedText 4 iTerm ++ " unclamped=" ++ fixedText 4 unclamped ++ " new=" ++
        fixedText 2 newLevel
      needsWrite := newLevel ≠ quantize current }

def AdaptInput.decide (inp : AdaptInput) : AdaptOutput :=
  let ceil := if inp.adaptiveMaxLevel < levelFloor then levelFloor else inp.adaptiveMaxLevel
  let current := clamp inp.currentLevel levelFloor ceil
  if inp.warmUp then
    { newLevel := current
      newIntegral := inp.lastIntegral
      actionTaken := .warmUp
      reason := "warm-up gate active; controller inhibited"
      needsWrite := false }
  else
    let target := resolveTarget inp.mode inp.adaptiveDropPct inp.shiftStart inp.shiftEnd inp.now
    match inp.mode with
    | .adaptHard => hardLimit inp target ceil current
    | .adaptAvg => averageWithDeadband inp target ceil current
    | .adaptTapered => averageWithDeadband inp target ceil current
    | .other text =>
      let out := averageWithDeadband inp target ceil current
      { out with reason :=
          "unknown mode '" ++ text ++ "'; defaulted to ADAPT_AVG. " ++ out.reason }

structure Config where
  mode : DialMethod
  adaptiveDropPct : ℚ
  adaptiveMaxLevel : ℚ
  autoDialLevel : ℚ
  intensity : Int
  holdBandPP : ℚ
  adaptTickSeconds : Int
  warmupMinAnswered : Int
  warmupMinSeconds : Int
  shiftStartLocal : Option Instant := none
  shiftEndLocal : Option Instant := none

structure WarmUpState where
  callsRemaining : Int
  startedAt : Instant
  minAnswered : Int
  minSeconds : Int

def WarmUpState.isActive (w : WarmUpState) (now : Instant) : Bool :=
  if w.callsRemaining ≤ 0 then false
  else if ¬ w.startedAt.isZero ∧ w.minSeconds ≤ (now.sub w.startedAt).tdiv nsPerSecond then false
  else true

/-- The last action is missing in a state loaded from a HASH without one. -/
structure PaceState where
  integralTerm : ℚ
  lastLevel : ℚ
  lastTickTs : Instant
  lastDropPct : ℚ
  lastAction : Option AdaptAction
  warmUpCallsRemaining : Int
  warmUpStartedAt : Instant
  clampActiveSince : Instant
  tickCount : Int

/-- The `pace_state` HASH. An empty time field and a missing one read alike. -/
structure PaceHash where
  integralTerm : Option Decimal := none
  lastLevel : Option Decimal := none
  lastTickTs : Option Int := none
  lastDropPct : Option Decimal := none
  lastAction : Option AdaptAction := none
  warmUpCallsRemaining : Option Int := none
  warmUpStartedAt : Option Int := none
  clampActiveSince : Option Int := none
  tickCount : Option Int := none
  deriving DecidableEq, Repr

def fmtUnixMs (t : Instant) : Option Int := if t.isZero then none else some t.toUnixMilli

def parseUnixMs (ms : Option Int) : Instant :=
  match ms with
  | none => 0
  | some ms => if ms = 0 then 0 else unixMilli ms

def parseFloat (d : Option Decimal) : ℚ := (d.map Decimal.value).getD 0

def loadPaceStateFromMap (h : PaceHash) : PaceState where
  integralTerm := parseFloat h.integralTerm
  lastLevel := parseFloat h.lastLevel
  lastTickTs := parseUnixMs h.lastTickTs
  lastDropPct := parseFloat h.lastDropPct
  lastAction := h.lastAction
  warmUpCallsRemaining := h.warmUpCallsRemaining.getD 0
  warmUpStartedAt := parseUnixMs h.warmUpStartedAt
  clampActiveSince := parseUnixMs h.clampActiveSince
  tickCount := h.tickCount.getD 0

def savePaceState (ps : PaceState) : PaceHash where
  integralTerm := some (formatFloat ps.integralTerm 6)
  lastLevel := some (formatFloat ps.lastLevel 2)
  lastTickTs := fmtUnixMs ps.lastTickTs
  lastDropPct := some (formatFloat ps.lastDropPct 4)
  lastAction := ps.lastAction
  warmUpCallsRemaining := some ps.warmUpCallsRemaining
  warmUpStartedAt := fmtUnixMs ps.warmUpStartedAt
  clampActiveSince := fmtUnixMs ps.clampActiveSince
  tickCount := some ps.tickCount

def initPaceState (cfg : Config) (now : Instant) : PaceState where
  integralTerm := 0
  lastLevel := clamp cfg.autoDialLevel levelFloor cfg.adaptiveMaxLevel
  lastTickTs := 0
  lastDropPct := 0
  lastAction := some .warmUp
  warmUpCallsRemaining := cfg.warmupMinAnswered
  warmUpStartedAt := now
  clampActiveSince := 0
  tickCount := 0

structure TickReads where
  dialLevel : Option Decimal
  dropPct30d : Option ℚ
  paceState : PaceHash
  now : Instant

def TickReads.loaded (r : TickReads) (cfg : Config) : PaceState :=
  if r.paceState = {} then initPaceState cfg r.now else loadPaceStateFromMap r.paceState

def TickReads.dropPct (r : TickReads) : ℚ :=
  match r.dropPct30d with
  | some pct => pct
  | none => if r.paceState = {} then 0 else (loadPaceStateFromMap r.paceState).lastDropPct

def TickReads.currentLevel (r : TickReads) (cfg : Config) : ℚ :=
  let level := match r.dialLevel with
    | some d => d.value
    | none => (r.loaded cfg).lastLevel
  if level < levelFloor then clamp cfg.autoDialLevel levelFloor cfg.adaptiveMaxLevel else level

def TickReads.warmUp (r : TickReads) (cfg : Config) : Bool :=
  WarmUpState.isActive
    { callsRemaining := (r.loaded cfg).warmUpCallsRemaining
      startedAt := (r.loaded cfg).warmUpStartedAt
      minAnswered := cfg.warmupMinAnswered
      minSeconds := cfg.warmupMinSeconds } r.now

/-- Step 3 of `RunTick`. -/
def TickReads.decide (r : TickReads) (cfg : Config) : AdaptOutput :=
  AdaptInput.decide
    { mode := cfg.mode
      dropPct30d := r.dropPct
      adaptiveDropPct := cfg.adaptiveDropPct
      currentLevel := r.currentLevel cfg
      adaptiveMaxLevel := cfg.adaptiveMaxLevel
      intensity := cfg.intensity
      holdBandPP := cfg.holdBandPP
      lastIntegral := (r.loaded cfg).integralTerm
      lastTickTs := (r.loaded cfg).lastTickTs
      now := r.now
      tickSeconds := cfg.adaptTickSeconds
      warmUp := r.warmUp cfg
      shiftStart := cfg.shiftStartLocal.getD 0
      shiftEnd := cfg.shiftEndLocal.getD 0 }

def TickReads.nextPaceState (r : TickReads) (cfg : Config) : PaceState :=
  let ps := r.loaded cfg
  let out := r.decide cfg
  { integralTerm := out.newIntegral
    lastLevel := out.newLevel
    lastTickTs := r.now
    lastDropPct := r.dropPct
    lastAction := some out.actionTaken
    warmUpCallsRemaining := if r.warmUp cfg then ps.warmUpCallsRemaining else 0
    warmUpStartedAt := ps.warmUpStartedAt
    clampActiveSince :=
      if cfg.adaptiveMaxLevel ≤ out.newLevel ∨ out.newLevel ≤ levelFloor then
        if ps.clampActiveSince.isZero then r.now else ps.clampActiveSince
      else 0
    tickCount := ps.tickCount + 1 }

end Adapt

end Vici2
