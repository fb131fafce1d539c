import Vici2.GoTime

/-! The per-campaign drop gate: its thresholds, the three-state machine driven
by `Tick`, the operator override and the cold-start `Recover`, over the Valkey
keys they write. Alert callbacks, metrics and log lines are not part of the
state: nothing in the package reads them back. -/

namespace Vici2

namespace DropGate

inductive GateState
  | normal
  | softBreach
  | hardBreach
  deriving DecidableEq, Repr

def GateState.text : GateState → String
  | .normal => "NORMAL"
  | .softBreach => "SOFT_BREACH"
  | .hardBreach => "HARD_BREACH"

def fccHardCeilingPct : ℚ := 3

def defaultDropTargetSoft : ℚ := 1

def defaultDropTargetMax : ℚ := 3 / 2

def defaultRecoverSeconds : Int := 300

def minRecoverSeconds : Int := 60

def hysteresisPP : ℚ := 1

def warmupDenominatorFloor : Int := 100

structure CampaignConfig where
  tenantID : Int
  campaignID : Int
  dialMethod : String
  dropTargetSoft : ℚ
  dropTargetMax : ℚ
  dropTargetMaxOverride : ℚ := 0
  recoverSeconds : Int
  deriving DecidableEq, Repr

namespace CampaignConfig

def validate (c : CampaignConfig) : Except String Unit :=
  if c.dropTargetMax ≤ 0 then
    .error ("drop_target_max must be > 0, got " ++ fixedText 4 c.dropTargetMax)
  else if fccHardCeilingPct < c.dropTargetMax then
    .error ("drop_target_max=" ++ fixedText 2 c.dropTargetMax ++ " exceeds FCC hard ceiling " ++
      fixedText 2 fccHardCeilingPct ++ " (§ 64.1200(a)(7)); campaign MUST NOT start")
  else if c.dropTargetSoft ≤ 0 then
    .error ("drop_target_soft must be > 0, got " ++ fixedText 4 c.dropTargetSoft)
  else if c.dropTargetMax < c.dropTargetSoft then
    .error ("drop_target_soft=" ++ fixedText 2 c.dropTargetSoft ++
      " must be <= drop_target_max=" ++ fixedText 2 c.dropTargetMax)
  else if c.dropTargetMaxOverride ≠ 0 ∧ c.dropTargetMax < c.dropTargetMaxOverride then
    .error ("drop_target_max_override=" ++ fixedText 2 c.dropTargetMaxOverride ++
      " must be <= drop_target_max=" ++ fixedText 2 c.dropTargetMax ++ " (downward only)")
  else if c.recoverSeconds < minRecoverSeconds then
    .error ("recover_seconds=" ++ toString c.recoverSeconds ++ " must be >= " ++
      toString minRecoverSeconds)
  else .ok ()

def effectiveMax (c : CampaignConfig) : ℚ :=
  if 0 < c.dropTargetMaxOverride then min c.dropTargetMax c.dropTargetMaxOverride
  else c.dropTargetMax

def releaseThreshold (c : CampaignConfig) : ℚ :=
  let rt := c.effectiveMax - hysteresisPP
  if rt < 1 / 10 then 1 / 10 else rt

def softReturnThreshold (c : CampaignConfig) : ℚ :=
  let srt := c.dropTargetSoft - 1 / 2
  if srt < 1 / 10 then 1 / 10 else srt

def applyDefaults (c : CampaignConfig) : CampaignConfig :=
  { c with
    dropTargetMax := if c.dropTargetMax = 0 then defaultDropTargetMax else c.dropTargetMax
    dropTargetSoft := if c.dropTargetSoft = 0 then defaultDropTargetSoft else c.dropTargetSoft
    recoverSeconds := if c.recoverSeconds = 0 then defaultRecoverSeconds else c.recoverSeconds }

end CampaignConfig

end DropGate

structure DropGate where
  cfg : DropGate.CampaignConfig
  state : DropGate.GateState
  engagedAt : Instant
  deriving DecidableEq, Repr

namespace DropGate

inductive TransitionAction
  | engage
  | release
  deriving DecidableEq, Repr

inductive TransitionSource
  | auto
  | operator
  deriving DecidableEq, Repr

structure TransitionEntry where
  action : TransitionAction
  dropPct : ℚ
  source : TransitionSource
  ts : Int
  deriving DecidableEq, Repr

structure BroadcastMessage where
  event : String
  dropPct : ℚ
  ts : Option Int
  deriving DecidableEq, Repr

/-- The campaign's keys. The stream and the published messages are listed
oldest first. -/
structure GateKeys where
  dropGated : Option String := none
  dropGateEngagedAt : Option Int := none
  dropGateTransitions : List TransitionEntry := []
  dropPct30d : Option ℚ := none
  dropCount30d : Option Int := none
  dropDenominator30d : Option Int := none
  published : List BroadcastMessage := []
  deriving DecidableEq, Repr

structure GateWorld where
  gate : DropGate
  keys : GateKeys
  deriving DecidableEq, Repr

/-- `New`, with the campaign's keys as they are in Valkey. -/
def new (cfg : CampaignConfig) : Except String DropGate :=
  let cfg := cfg.applyDefaults
  match cfg.validate with
  | .error e => .error ("drop_gate.New: " ++ e)
  | .ok () => .ok ⟨cfg, .normal, 0⟩

def GateKeys.appendTransitionStream (k : GateKeys) (action : TransitionAction) (dropPct : ℚ)
    (source : TransitionSource) (now : Instant) : GateKeys :=
  { k with dropGateTransitions := k.dropGateTransitions ++
      [⟨action, fixedValue 2 dropPct, source, formatRFC3339 now⟩] }

def GateKeys.publish (k : GateKeys) (m : BroadcastMessage) : GateKeys :=
  { k with published := k.published ++ [m] }

def transitionToHardBreach (w : GateWorld) (dropPct : ℚ) (source : TransitionSource)
    (now : Instant) : GateWorld where
  gate := { w.gate with state := .hardBreach, engagedAt := now }
  keys :=
    ({ w.keys with dropGated := some "1", dropGateEngagedAt := some (formatRFC3339 now) }
      |>.appendTransitionStream .engage dropPct source now
      |>.publish ⟨"drop_gate_engaged", dropPct, some (formatRFC3339 now)⟩)

def transitionToSoftBreach (w : GateWorld) (dropPct : ℚ) : GateWorld where
  gate := { w.gate with state := .softBreach, engagedAt := 0 }
  keys := w.keys.publish ⟨"soft_breach", dropPct, none⟩

def transitionToNormal (w : GateWorld) (dropPct : ℚ) (source : TransitionSource)
    (now : Instant) : GateWorld where
  gate := { w.gate with state := .normal, engagedAt := 0 }
  keys :=
    if w.gate.state = .hardBreach then
      { w.keys with dropGated := none, dropGateEngagedAt := none }
        |>.appendTransitionStream .release dropPct source now
    else w.keys

def dwellElapsed (g : DropGate) (now : Instant) : Prop :=
  seconds g.cfg.recoverSeconds ≤ Instant.sub now g.engagedAt

instance (g : DropGate) (now : Instant) : Decidable (g.dwellElapsed now) :=
  inferInstanceAs (Decidable (_ ≤ _))

def tick (w : GateWorld) (dropPct : ℚ) (denominator : Int) (now : Instant) : GateWorld :=
  if denominator < warmupDenominatorFloor then w
  else
    let cfg := w.gate.cfg
    match w.gate.state with
    | .normal =>
      if cfg.effectiveMax ≤ dropPct then transitionToHardBreach w dropPct .auto now
      else if cfg.dropTargetSoft ≤ dropPct then transitionToSoftBreach w dropPct
      else w
    | .softBreach =>
      if cfg.effectiveMax ≤ dropPct then transitionToHardBreach w dropPct .auto now
      else if dropPct < cfg.softReturnThreshold then transitionToNormal w dropPct .auto now
      else w
    | .hardBreach =>
      if dropPct < cfg.releaseThreshold ∧ w.gate.dwellElapsed now then
        if dropPct < cfg.softReturnThreshold then transitionToNormal w dropPct .auto now
        else transitionToSoftBreach w dropPct
      else w

def lastKnownDropPct (k : GateKeys) : ℚ := k.dropPct30d.getD 0

structure ForceReleaseAudit where
  operatorID : Int
  campaignID : Int
  tenantID : Int
  reason : String
  dropPct : ℚ
  engagedSecs : ℚ
  deriving DecidableEq, Repr

def forceRelease (w : GateWorld) (operatorID : Int) (reason : String) (now : Instant) :
    Except String ForceReleaseAudit × GateWorld :=
  if w.gate.state = .hardBreach then
    let dropPct := lastKnownDropPct w.keys
    (.ok ⟨operatorID, w.gate.cfg.campaignID, w.gate.cfg.tenantID, reason, dropPct,
      Duration.toSeconds (Instant.sub now w.gate.engagedAt)⟩,
      transitionToNormal w dropPct .operator now)
  else (.error ("drop_gate: gate is not engaged (state=" ++ w.gate.state.text ++ ")"), w)

/-- The newest `engage` entry among the last twenty of the stream, or the zero
time. -/
def readEngagedAtFromStream (k : GateKeys) : Instant :=
  match (k.dropGateTransitions.reverse.take 20).find? (fun e => e.action = .engage) with
  | some e => parseRFC3339 e.ts
  | none => 0

def recoveredEngagedAt (k : GateKeys) (now : Instant) : Instant :=
  let fromKey := (k.dropGateEngagedAt.map parseRFC3339).getD 0
  let fromStream := if fromKey = 0 then readEngagedAtFromStream k else fromKey
  if fromStream = 0 then now else fromStream

/-- The rate of the 30-day counts; below the warm-up floor it counts as zero. -/
def dropRate (numerator denominator : Int) : ℚ :=
  if warmupDenominatorFloor ≤ denominator ∧ 0 < denominator then
    100 * (numerator : ℚ) / denominator
  else 0

/-- `Recover`, where `query` is the answer of `queryMysqlRaw`. -/
def recover (w : GateWorld) (query : Option (Int × Int)) (now : Instant) : GateWorld :=
  match query with
  | none => w
  | some (numerator, denominator) =>
    let cfg := w.gate.cfg
    let dropPct := dropRate numerator denominator
    let keys : GateKeys := { w.keys with
      dropPct30d := some (fixedValue 4 dropPct)
      dropCount30d := some numerator
      dropDenominator30d := some denominator }
    let gated : Bool := keys.dropGated.isSome
    let engagedAt : Instant := if gated then recoveredEngagedAt keys now else 0
    if cfg.effectiveMax ≤ dropPct ∨ gated = true then
      ⟨{ w.gate with state := .hardBreach, engagedAt := engagedAt },
        if gated then keys else { keys with dropGated := some "1" }⟩
    else if gated = true ∧ dropPct < cfg.releaseThreshold then
      ⟨{ w.gate with state := .hardBreach, engagedAt := engagedAt }, keys⟩
    else if cfg.dropTargetSoft ≤ dropPct then
      ⟨{ w.gate with state := .softBreach, engagedAt := engagedAt }, keys⟩
    else
      ⟨{ w.gate with state := .normal, engagedAt := engagedAt },
        if gated then { keys with dropGated := none } else keys⟩

def restart (w : GateWorld) (query : Option (Int × Int)) (now : Instant) : GateWorld :=
  recover { w with gate := ⟨w.gate.cfg, .normal, 0⟩ } query now

inductive GateAction
  | tick (dropPct : ℚ) (denominator : Int) (now : Instant)
  | forceRelease (operatorID : Int) (reason : String) (now : Instant)
  | restart (query : Option (Int × Int)) (now : Instant)
  deriving DecidableEq, Repr

def step (w : GateWorld) : GateAction → GateWorld
  | .tick dropPct denominator now => tick w dropPct denominator now
  | .forceRelease operatorID reason now => (forceRelease w operatorID reason now).2
  | .restart query now => restart w query now

def init (cfg : CampaignConfig) : GateWorld := ⟨⟨cfg, .normal, 0⟩, {}⟩

end DropGate

end Vici2
